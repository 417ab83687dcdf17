import Treewright.Proofs.Blank
import Treewright.Proofs.Mention
import Treewright.TypeRef.Parser

/-!
# Spellings of types

A type is spelled as an identifier, or as an identifier with a comma-separated list of
types between angle brackets, and blanks may stand around every mark.  `TypeRef.Spells`
is this grammar; it does not say how a text is read.

Reading a type from the front of a text finds a spelling there and stops behind it, and
it finds every spelling that the text does not continue.  So a text is read as a type
exactly when it is a spelling of this type between blanks.
-/

namespace Treewright

open Text (Blanks)

/-- One or more members in order, each spelled as `spells` says, with a comma between any
two of them and blanks around the commas. -/
inductive Text.Listed {α : Type} (spells : α → List Char → Prop) :
    List α → List Char → Prop
  | last {a : α} {s : List Char} (h : spells a s) : Listed spells [a] s
  | more {a : α} {rest : List α} {s before after t : List Char} (h : spells a s)
      (hbefore : Blanks before) (hafter : Blanks after) (hrest : Listed spells rest t) :
      Listed spells (a :: rest) (s ++ before ++ ',' :: (after ++ t))

namespace TypeRef

/-- The text spells the type: an identifier, or an identifier and a list of types between
angle brackets. -/
inductive Spells : TypeRef → List Char → Prop
  | name {name : String} (hname : Name.isIdentifier name = true) :
      Spells ⟨name, []⟩ name.toList
  | applied {name : String} {args : List TypeRef} {gap before body after : List Char}
      (hname : Name.isIdentifier name = true) (hgap : Blanks gap) (hbefore : Blanks before)
      (hargs : Text.Listed Spells args body) (hafter : Blanks after) :
      Spells ⟨name, args⟩ (name.toList ++ gap ++ '<' :: (before ++ body ++ after ++ ['>']))

/-! ## Words and marks at the front -/

/-- The identifier `name` is taken from the front of `s`, and `rest` is left. -/
def TakesName (s : List Char) (name : String) (rest : List Char) : Prop :=
  ∃ h, takeIdentifier s = some (name, ⟨rest, h⟩)

/-- The mark `c` is taken from the front of `s`, and `rest` is left. -/
def TakesMark (c : Char) (s rest : List Char) : Prop :=
  ∃ h, takeMark c s = some ⟨rest, h⟩

theorem TakesName.length_lt
    {s rest : List Char} {name : String} (h : TakesName s name rest) : rest.length < s.length :=
  h.1

theorem TakesMark.length_lt {c : Char} {s rest : List Char} (h : TakesMark c s rest) :
    rest.length < s.length :=
  h.1

/-- What is taken is the longest identifier that follows the blanks at the front. -/
theorem takesName_iff {s rest : List Char} {name : String} :
    TakesName s name rest ↔
      Name.isIdentifier name = true ∧ Name.EndsWord rest ∧
        ∃ a, Blanks a ∧ s = a ++ name.toList ++ rest := by
  constructor
  · rintro ⟨hlt, h⟩
    obtain ⟨a, ha, hs⟩ := Text.exists_blanks_trimStart s
    simp only [takeIdentifier] at h
    split at h
    next hword =>
      simp only [Option.some.injEq, Prod.mk.injEq, Subtype.mk.injEq] at h
      obtain ⟨rfl, rfl⟩ := h
      refine ⟨?_, Name.endsWord_dropWhile_isTail _, a, ha, ?_⟩
      · rwa [Name.isIdentifier, String.toList_ofList]
      · rw [String.toList_ofList, List.append_assoc, List.takeWhile_append_dropWhile]
        exact hs
    next => simp at h
  · rintro ⟨hname, hrest, a, ha, rfl⟩
    have htail : ∀ c ∈ name.toList, Name.isTail c = true := fun c hc => Name.isTail_of_mem hname hc
    have hstart : Text.trimStart (a ++ name.toList ++ rest) = name.toList ++ rest := by
      rw [List.append_assoc, Text.trimStart_append ha, Text.trimStart_eq_self]
      intro c hc
      rw [List.head?_append, List.head?_eq_some_head (Name.ne_nil_of_isIdentifierText hname)] at hc
      apply Name.isBlank_eq_false_of_isTail
      apply htail
      obtain rfl := Option.some.inj hc
      exact List.head_mem _
    have htake := Name.takeWhile_isTail_append htail hrest
    have hdrop := Name.dropWhile_isTail_append htail hrest
    have hlt : rest.length < (a ++ name.toList ++ rest).length := by
      have hpos := List.length_pos_iff.mpr (Name.ne_nil_of_isIdentifierText hname)
      simp only [List.length_append]
      omega
    refine ⟨hlt, ?_⟩
    unfold takeIdentifier
    simp only [hstart, htake, hdrop, String.ofList_toList]
    exact dif_pos hname

theorem takesMark_iff {c : Char} (hc : Text.isBlank c = false) {s rest : List Char} :
    TakesMark c s rest ↔ ∃ a, Blanks a ∧ s = a ++ c :: rest := by
  constructor
  · rintro ⟨hlt, h⟩
    obtain ⟨a, ha, hs⟩ := Text.exists_blanks_trimStart s
    unfold takeMark at h
    split at h
    next => simp at h
    next d tail hstart =>
      split at h
      next heq =>
        obtain rfl : tail = rest := by simpa using h
        rw [hstart, heq] at hs
        exact ⟨a, ha, hs⟩
      next => simp at h
  · rintro ⟨a, ha, rfl⟩
    have hstart : Text.trimStart (a ++ c :: rest) = c :: rest := by
      rw [Text.trimStart_append ha, Text.trimStart_eq_self]
      rintro d hd
      obtain rfl := Option.some.inj hd
      exact hc
    refine ⟨by simp; omega, ?_⟩
    unfold takeMark
    split
    next hnil => simp [hstart] at hnil
    next d tail hcons =>
      rw [hstart] at hcons
      obtain ⟨rfl, rfl⟩ := List.cons.inj hcons
      exact if_pos rfl

theorem takeMark_eq_none_iff {c : Char} {s : List Char} :
    takeMark c s = none ↔ (Text.trimStart s).head? ≠ some c := by
  unfold takeMark
  split
  next hnil => simp [hnil]
  next d tail hcons =>
    have hhead : (Text.trimStart s).head? = some d := by rw [hcons, List.head?_cons]
    by_cases hd : d = c
    · simp [hhead, hd]
    · simp [hhead, hd]

theorem takeMark_append_cons_eq_none
    {a : List Char} {c d : Char} {rest : List Char} (ha : Blanks a)
    (hd : Text.isBlank d = false) (hne : d ≠ c) : takeMark c (a ++ d :: rest) = none := by
  rw [takeMark_eq_none_iff, Text.trimStart_append ha, Text.trimStart_eq_self]
  · simpa using hne
  · rintro e he
    obtain rfl := Option.some.inj he
    exact hd

/-! ## One step of reading -/

/-- The type `t` is read from the front of `s`, and `rest` is left. -/
def Reads (s : List Char) (t : TypeRef) (rest : List Char) : Prop :=
  ∃ h, readType s = some (t, ⟨rest, h⟩)

/-- The arguments `more` are read from the front of `s`, and `rest` is left behind the
closing bracket. -/
def ReadsMore (s : List Char) (more : List TypeRef) (rest : List Char) : Prop :=
  ∃ h, readMoreArgs s = some (more, ⟨rest, h⟩)

theorem Reads.length_lt {s rest : List Char} {t : TypeRef} (h : Reads s t rest) :
    rest.length < s.length :=
  h.1

theorem reads_iff {s rest : List Char} {t : TypeRef} :
    Reads s t rest ↔
      ∃ name afterName, TakesName s name afterName ∧
        (takeMark '<' afterName = none ∧ t = ⟨name, []⟩ ∧ rest = afterName ∨
          ∃ afterOpen first afterFirst more, TakesMark '<' afterName afterOpen ∧
            Reads afterOpen first afterFirst ∧ ReadsMore afterFirst more rest ∧
            t = ⟨name, first :: more⟩) := by
  constructor
  · rintro ⟨hlt, h⟩
    rw [readType] at h
    split at h
    next => simp at h
    next name afterName hName hname =>
      refine ⟨name, afterName, ⟨hName, hname⟩, ?_⟩
      split at h
      next hmark =>
        simp only [Option.some.injEq, Prod.mk.injEq, Subtype.mk.injEq] at h
        exact Or.inl ⟨hmark, h.1.symm, h.2.symm⟩
      next afterOpen hOpen hmark =>
        split at h
        next => simp at h
        next first afterFirst hFirst hfirst =>
          split at h
          next => simp at h
          next more tail hTail hmore =>
            simp only [Option.some.injEq, Prod.mk.injEq, Subtype.mk.injEq] at h
            obtain ⟨rfl, rfl⟩ := h
            exact Or.inr ⟨afterOpen, first, afterFirst, more, ⟨hOpen, hmark⟩, ⟨hFirst, hfirst⟩,
              ⟨hTail, hmore⟩, rfl⟩
  · rintro ⟨name, afterName, ⟨hName, hname⟩, ⟨hmark, rfl, rfl⟩ |
      ⟨afterOpen, first, afterFirst, more, ⟨hOpen, hmark⟩, ⟨hFirst, hfirst⟩, ⟨hTail, hmore⟩,
        rfl⟩⟩
    · refine ⟨hName, ?_⟩
      rw [readType]
      simp only [hname, hmark]
    · refine ⟨by omega, ?_⟩
      rw [readType]
      simp only [hname, hmark, hfirst, hmore]

theorem readsMore_iff {s rest : List Char} {more : List TypeRef} :
    ReadsMore s more rest ↔
      takeMark ',' s = none ∧ TakesMark '>' s rest ∧ more = [] ∨
        ∃ afterComma arg afterArg tail, TakesMark ',' s afterComma ∧
          Reads afterComma arg afterArg ∧ ReadsMore afterArg tail rest ∧ more = arg :: tail := by
  constructor
  · rintro ⟨hlt, h⟩
    rw [readMoreArgs] at h
    split at h
    next afterComma hComma hcomma =>
      split at h
      next => simp at h
      next arg afterArg hArg harg =>
        split at h
        next => simp at h
        next tail afterTail hTail htail =>
          simp only [Option.some.injEq, Prod.mk.injEq, Subtype.mk.injEq] at h
          obtain ⟨rfl, rfl⟩ := h
          exact Or.inr ⟨afterComma, arg, afterArg, tail, ⟨hComma, hcomma⟩, ⟨hArg, harg⟩,
            ⟨hTail, htail⟩, rfl⟩
    next hcomma =>
      split at h
      next => simp at h
      next afterClose hclose =>
        simp only [Option.some.injEq, Prod.mk.injEq] at h
        obtain ⟨rfl, rfl⟩ := h
        exact Or.inl ⟨hcomma, ⟨hlt, hclose⟩, rfl⟩
  · rintro (⟨hcomma, ⟨hClose, hclose⟩, rfl⟩ |
      ⟨afterComma, arg, afterArg, tail, ⟨hComma, hcomma⟩, ⟨hArg, harg⟩, ⟨hTail, htail⟩, rfl⟩)
    · refine ⟨hClose, ?_⟩
      rw [readMoreArgs]
      simp only [hcomma, hclose]
    · refine ⟨by omega, ?_⟩
      rw [readMoreArgs]
      simp only [hcomma, harg, htail]

/-! ## Reading finds spellings -/

mutual

/-- What is read as a type is a spelling of it behind blanks. -/
theorem exists_spells_of_reads
    {s rest : List Char} {t : TypeRef} (h : Reads s t rest) :
    ∃ a text, Blanks a ∧ Spells t text ∧ s = a ++ text ++ rest := by
  obtain ⟨name, afterName, hname, hcases⟩ := reads_iff.mp h
  obtain ⟨hident, -, a, ha, hs⟩ := takesName_iff.mp hname
  rcases hcases with ⟨-, rfl, rfl⟩ | ⟨afterOpen, first, afterFirst, more, hopen, hfirst, hmore, rfl⟩
  · exact ⟨a, name.toList, ha, .name hident, hs⟩
  · obtain ⟨gap, hgap, hmark⟩ := (takesMark_iff (by decide)).mp hopen
    obtain ⟨before, text, hbefore, hspells, hcut⟩ := exists_spells_of_reads hfirst
    obtain ⟨body, after, hafter, hlisted, heq⟩ := exists_listed_of_readsMore hmore hspells
    refine ⟨a, _, ha, .applied hident hgap hbefore hlisted hafter, ?_⟩
    rw [hs, hmark, hcut, List.append_assoc before, heq]
    simp
termination_by s.length
decreasing_by
  · have := hname.length_lt
    have := hopen.length_lt
    omega
  · have := hname.length_lt
    have := hopen.length_lt
    have := hfirst.length_lt
    omega

/-- What is read as further arguments completes a list behind the first one. -/
theorem exists_listed_of_readsMore
    {s rest : List Char} {more : List TypeRef} (h : ReadsMore s more rest) {first : TypeRef}
    {text : List Char} (htext : Spells first text) :
    ∃ body after, Blanks after ∧ Text.Listed Spells (first :: more) body ∧
      text ++ s = body ++ after ++ '>' :: rest := by
  rcases readsMore_iff.mp h with ⟨-, hclose, rfl⟩ |
    ⟨afterComma, arg, afterArg, tail, hcomma, harg, htail, rfl⟩
  · obtain ⟨after, hafter, rfl⟩ := (takesMark_iff (by decide)).mp hclose
    exact ⟨text, after, hafter, .last htext, by simp⟩
  · obtain ⟨gap, hgap, hs⟩ := (takesMark_iff (by decide)).mp hcomma
    obtain ⟨before, argText, hbefore, hspells, hcut⟩ := exists_spells_of_reads harg
    obtain ⟨body, after, hafter, hlisted, heq⟩ := exists_listed_of_readsMore htail hspells
    refine ⟨_, after, hafter, .more htext hgap hbefore hlisted, ?_⟩
    rw [hs, hcut, List.append_assoc before, heq]
    simp
termination_by s.length
decreasing_by
  · have := hcomma.length_lt
    omega
  · have := hcomma.length_lt
    have := harg.length_lt
    omega

end

/-! ## Reading finds every spelling -/

/-- A text that goes on neither with the last word of a type nor with an opening bracket. -/
def Ends (rest : List Char) : Prop :=
  Name.EndsWord rest ∧ takeMark '<' rest = none

theorem endsWord_append_cons
    {a : List Char} {c : Char} {rest : List Char} (ha : Blanks a) (hc : Name.isTail c = false) :
    Name.EndsWord (a ++ c :: rest) := by
  intro d hd
  cases a with
  | nil =>
      obtain rfl := Option.some.inj hd
      exact hc
  | cons e a =>
      obtain rfl := Option.some.inj hd
      exact Name.isTail_eq_false_of_isBlank (ha e List.mem_cons_self)

theorem ends_append_cons
    {a : List Char} {c : Char} {rest : List Char} (ha : Blanks a) (hblank : Text.isBlank c = false)
    (htail : Name.isTail c = false) (hc : c ≠ '<') : Ends (a ++ c :: rest) :=
  ⟨endsWord_append_cons ha htail, takeMark_append_cons_eq_none ha hblank hc⟩

theorem ends_of_blanks {s : List Char} (h : Blanks s) : Ends s := by
  constructor
  · intro c hc
    exact Name.isTail_eq_false_of_isBlank (h c (List.mem_of_mem_head? hc))
  · rw [takeMark_eq_none_iff, Text.trimStart, List.dropWhile_eq_nil_iff.mpr h]
    simp

/-- The spelling of a type is read where it ends. -/
def IsRead (t : TypeRef) : Prop :=
  ∀ {a text rest : List Char}, Blanks a → Spells t text → Ends rest →
    Reads (a ++ text ++ rest) t rest

/-- A list of types is read up to the closing bracket if all its members are. -/
theorem exists_reads_of_listed
    (rest : List Char) {args : List TypeRef} {body : List Char}
    (h : Text.Listed Spells args body) (hargs : ∀ t ∈ args, IsRead t)
    {before after : List Char} (hbefore : Blanks before) (hafter : Blanks after) :
    ∃ first mid more, args = first :: more ∧
      Reads (before ++ body ++ (after ++ '>' :: rest)) first mid ∧ ReadsMore mid more rest := by
  induction h generalizing before with
  | @last t s hs =>
      refine ⟨t, after ++ '>' :: rest, [], rfl, ?_, ?_⟩
      · exact hargs t List.mem_cons_self hbefore hs
          (ends_append_cons hafter (by decide) (by decide) (by decide))
      · have hcomma : takeMark ',' (after ++ '>' :: rest) = none :=
          takeMark_append_cons_eq_none hafter (by decide) (by decide)
        have hclose : TakesMark '>' (after ++ '>' :: rest) rest :=
          (takesMark_iff (by decide)).mpr ⟨after, hafter, rfl⟩
        exact readsMore_iff.mpr (Or.inl ⟨hcomma, hclose, rfl⟩)
  | @more t args s gap next body hs hgap hnext hrest ih =>
      obtain ⟨first, mid, more, rfl, hfirst, hmore⟩ :=
        ih (fun t ht => hargs t (List.mem_cons_of_mem _ ht)) hnext
      refine ⟨t, gap ++ ',' :: (next ++ body ++ (after ++ '>' :: rest)), first :: more, rfl, ?_, ?_⟩
      · have hends : Ends (gap ++ ',' :: (next ++ body ++ (after ++ '>' :: rest))) :=
          ends_append_cons hgap (by decide) (by decide) (by decide)
        simpa using hargs t List.mem_cons_self hbefore hs hends
      · exact readsMore_iff.mpr (Or.inr ⟨_, first, mid, more,
          (takesMark_iff (by decide)).mpr ⟨gap, hgap, rfl⟩, hfirst, hmore, rfl⟩)

/-- A type with arguments is read up to its closing bracket, whatever follows. -/
theorem reads_of_applied
    {name : String} {args : List TypeRef} {a gap before body after : List Char}
    (rest : List Char) (ha : Blanks a) (hname : Name.isIdentifier name = true) (hgap : Blanks gap)
    (hbefore : Blanks before) (hargs : Text.Listed Spells args body) (hafter : Blanks after)
    (hread : ∀ t ∈ args, IsRead t) :
    Reads (a ++ (name.toList ++ gap ++ '<' :: (before ++ body ++ after ++ ['>'])) ++ rest)
      ⟨name, args⟩ rest := by
  obtain ⟨first, mid, more, rfl, hfirst, hmore⟩ :=
    exists_reads_of_listed rest hargs hread hbefore hafter
  refine reads_iff.mpr ⟨name, gap ++ '<' :: (before ++ body ++ (after ++ '>' :: rest)),
    takesName_iff.mpr ⟨hname, endsWord_append_cons hgap (by decide), a, ha, by simp⟩,
    Or.inr ⟨_, first, mid, more, (takesMark_iff (by decide)).mpr ⟨gap, hgap, rfl⟩, hfirst,
      hmore, rfl⟩⟩

theorem isRead (t : TypeRef) : IsRead t := by
  induction t using induction_args with
  | step name args ih =>
      intro a text rest ha htext hrest
      cases htext with
      | name hname =>
          exact reads_iff.mpr ⟨name, rest, takesName_iff.mpr ⟨hname, hrest.1, a, ha, rfl⟩,
            Or.inl ⟨hrest.2, rfl, rfl⟩⟩
      | applied hname hgap hbefore hargs hafter =>
          exact reads_of_applied rest ha hname hgap hbefore hargs hafter ih

/-- A text is read as a type exactly when it is a spelling of the type between blanks. -/
theorem parseText?_eq_some_iff {s : List Char} {t : TypeRef} :
    parseText? s = some t ↔
      ∃ a text b, Blanks a ∧ Spells t text ∧ Blanks b ∧ s = a ++ text ++ b := by
  have hwhole : parseText? s = some t ↔ ∃ rest, Reads s t rest ∧ Blanks rest := by
    unfold parseText?
    cases hread : readType s with
    | none => simp [Reads, hread]
    | some found =>
        obtain ⟨type, rest, hlt⟩ := found
        have hblanks : ∀ tail, Text.trimStart tail = [] ↔ Blanks tail :=
          fun _ => List.dropWhile_eq_nil_iff
        simp only [Reads, hread]
        constructor
        · intro h
          split at h
          next hnil =>
            obtain rfl := Option.some.inj h
            exact ⟨rest, ⟨hlt, rfl⟩, (hblanks rest).mp hnil⟩
          next => simp at h
        · rintro ⟨tail, ⟨hlt', h⟩, hnil⟩
          simp only [Option.some.injEq, Prod.mk.injEq, Subtype.mk.injEq] at h
          obtain ⟨rfl, rfl⟩ := h
          exact if_pos ((hblanks rest).mpr hnil)
  rw [hwhole]
  constructor
  · rintro ⟨b, hread, hb⟩
    obtain ⟨a, text, ha, htext, hs⟩ := exists_spells_of_reads hread
    exact ⟨a, text, b, ha, htext, hb, hs⟩
  · rintro ⟨a, text, b, ha, htext, hb, rfl⟩
    exact ⟨b, isRead t ha htext (ends_of_blanks hb), hb⟩

end TypeRef

end Treewright
