import Treewright.Proofs.TopLevel
import Treewright.Proofs.TypeText

/-!
# Spellings of fields

A field is spelled as a type and an identifier with blanks between them.  The type has no
blanks in front of its opening bracket, because a field is cut into words at all blanks
outside brackets before anything else is looked at.

The spelling of a type closes all brackets that it opens, so the cuts fall where the
grammar has its blanks.  Conversely a word that is read as a type has no blanks at its
ends or in front of its bracket.  Hence a trimmed text is read as a field exactly when it
is a spelling of this field, and there are two ways in which it may fail to be one.
-/

namespace Treewright

open Text (Blanks)

/-- The text spells the type, without a blank before the opening bracket. -/
inductive TypeRef.SpellsCompact : TypeRef → List Char → Prop
  | name {name : String} (hname : Name.isIdentifier name = true) :
      SpellsCompact ⟨name, []⟩ name.toList
  | applied {name : String} {args : List TypeRef} {before body after : List Char}
      (hname : Name.isIdentifier name = true) (hbefore : Blanks before)
      (hargs : Text.Listed TypeRef.Spells args body) (hafter : Blanks after) :
      SpellsCompact ⟨name, args⟩ (name.toList ++ '<' :: (before ++ body ++ after ++ ['>']))

/-- The text spells the field: its type, blanks, and its name. -/
inductive Field.Spells : Field → List Char → Prop
  | mk {type : TypeRef} {name : String} {text gap : List Char} (htype : type.SpellsCompact text)
      (hgap : Blanks gap) (hne : gap ≠ []) (hname : Name.isIdentifier name = true) :
      Spells ⟨type, name⟩ (text ++ gap ++ name.toList)

/-! ## Characters and brackets of spellings -/

/-- What holds of commas, of blanks and of all characters of the members holds of all
characters of a list. -/
theorem Text.Listed.forall_mem
    {α : Type} {spells : α → List Char → Prop} {members : List α} {body : List Char}
    {p : Char → Prop} (h : Text.Listed spells members body) (hcomma : p ',')
    (hblank : ∀ c, Text.isBlank c = true → p c)
    (hmembers : ∀ a ∈ members, ∀ s, spells a s → ∀ c ∈ s, p c) : ∀ c ∈ body, p c := by
  induction h with
  | @last a s hs => exact hmembers a List.mem_cons_self s hs
  | @more a rest s before after t hs hbefore hafter _ ih =>
      have hs := hmembers a List.mem_cons_self s hs
      have ht := ih fun b hb => hmembers b (List.mem_cons_of_mem a hb)
      simp only [List.forall_mem_append, List.forall_mem_cons]
      exact ⟨⟨hs, fun c hc => hblank c (hbefore c hc)⟩, hcomma,
        fun c hc => hblank c (hafter c hc), ht⟩

theorem ne_bracket_of_isTail {c : Char} (h : Name.isTail c = true) : c ≠ '<' ∧ c ≠ '>' := by
  constructor
  · rintro rfl
    exact absurd h (by decide)
  · rintro rfl
    exact absurd h (by decide)

theorem ne_bracket_of_isBlank {c : Char} (h : Text.isBlank c = true) : c ≠ '<' ∧ c ≠ '>' := by
  constructor
  · rintro rfl
    exact absurd h (by decide)
  · rintro rfl
    exact absurd h (by decide)

theorem balanced_of_blanks {s : List Char} (h : Blanks s) : Row.Balanced s :=
  Row.balanced_of_no_brackets fun c hc => ne_bracket_of_isBlank (h c hc)

theorem balanced_of_isIdentifier {name : String} (h : Name.isIdentifier name = true) :
    Row.Balanced name.toList :=
  Row.balanced_of_no_brackets fun _ hc => ne_bracket_of_isTail (Name.isTail_of_mem h hc)

theorem Text.Listed.balanced
    {α : Type} {spells : α → List Char → Prop} {members : List α} {body : List Char}
    (h : Text.Listed spells members body)
    (hmembers : ∀ a ∈ members, ∀ s, spells a s → Row.Balanced s) : Row.Balanced body := by
  induction h with
  | @last a s hs => exact hmembers a List.mem_cons_self s hs
  | @more a rest s before after t hs hbefore hafter _ ih =>
      have hs := hmembers a List.mem_cons_self s hs
      have ht := ih fun b hb => hmembers b (List.mem_cons_of_mem a hb)
      have hcomma : Row.Balanced [','] :=
        Row.balanced_of_no_brackets (List.forall_mem_singleton.mpr (by decide))
      have hrest := hcomma.append ((balanced_of_blanks hafter).append ht)
      exact (hs.append (balanced_of_blanks hbefore)).append hrest

namespace TypeRef

/-- The spelling of a type closes the brackets that it opens. -/
theorem Spells.balanced {t : TypeRef} : ∀ {text : List Char}, Spells t text →
    Row.Balanced text := by
  induction t using induction_args with
  | step name args ih =>
      intro text h
      cases h with
      | name hname => exact balanced_of_isIdentifier hname
      | applied hname hgap hbefore hargs hafter =>
          have hbody := hargs.balanced fun t ht _ hs => ih t ht hs
          have hinner := ((balanced_of_blanks hbefore).append hbody).append
            (balanced_of_blanks hafter)
          have houter := (balanced_of_isIdentifier hname).append (balanced_of_blanks hgap)
          exact houter.append fun isSeparator depth => hinner.enclosed isSeparator (depth + 1)

/-- The characters that spellings of types are made of. -/
def IsMark (c : Char) : Prop :=
  Name.isTail c = true ∨ Text.isBlank c = true ∨ c = '<' ∨ c = '>' ∨ c = ','

theorem Spells.isMark {t : TypeRef} : ∀ {text : List Char}, Spells t text →
    ∀ c ∈ text, IsMark c := by
  induction t using induction_args with
  | step name args ih =>
      intro text h
      have hword : Name.isIdentifier name = true → ∀ c ∈ name.toList, IsMark c :=
        fun hname c hc => Or.inl (Name.isTail_of_mem hname hc)
      have hblanks : ∀ {s : List Char}, Blanks s → ∀ c ∈ s, IsMark c :=
        fun hs c hc => Or.inr (Or.inl (hs c hc))
      cases h with
      | name hname => exact hword hname
      | applied hname hgap hbefore hargs hafter =>
          have hbody := hargs.forall_mem (p := IsMark) (by simp [IsMark])
            (fun c hc => Or.inr (Or.inl hc)) fun t ht _ hs => ih t ht hs
          simp only [List.forall_mem_append, List.forall_mem_cons]
          exact ⟨⟨hword hname, hblanks hgap⟩, by simp [IsMark],
            ⟨⟨hblanks hbefore, hbody⟩, hblanks hafter⟩, by simp [IsMark], by simp⟩

/-! ## Types without a blank before the bracket -/

theorem SpellsCompact.spells {t : TypeRef} {text : List Char} (h : SpellsCompact t text) :
    Spells t text := by
  cases h with
  | name hname => exact .name hname
  | applied hname hbefore hargs hafter =>
      simpa using Spells.applied hname Text.blanks_nil hbefore hargs hafter

/-- Nothing but brackets and what is between them could cut the spelling. -/
theorem SpellsCompact.uncut
    {isSeparator : Char → Bool} (hsep : ∀ c, Name.isTail c = true → isSeparator c = false)
    {t : TypeRef} {text : List Char} (h : SpellsCompact t text) : Row.Uncut isSeparator text := by
  have hword : ∀ {name : String}, Name.isIdentifier name = true →
      Row.Uncut isSeparator name.toList := by
    intro name hname
    have htail : ∀ c ∈ name.toList, Name.isTail c = true := fun c hc => Name.isTail_of_mem hname hc
    exact Row.uncut_of_forall (fun c hc => hsep c (htail c hc))
      fun c hc => ne_bracket_of_isTail (htail c hc)
  cases h with
  | name hname => exact hword hname
  | applied hname hbefore hargs hafter =>
      have hbody := hargs.balanced fun _ _ _ hs => hs.balanced
      have hinner := ((balanced_of_blanks hbefore).append hbody).append (balanced_of_blanks hafter)
      exact (hword hname).append (hinner.enclosed isSeparator 0)

theorem eq_nil_of_solid_blanks
    {a s : List Char} (h : Row.Solid Text.isBlank 0 (a ++ s)) (ha : Blanks a) : a = [] := by
  cases a with
  | nil => rfl
  | cons c a =>
      have hblank := ha c List.mem_cons_self
      obtain ⟨hopen, hclose⟩ := ne_bracket_of_isBlank hblank
      exact absurd ⟨rfl, hblank, hopen, hclose⟩ (Row.solid_cons_iff.mp h).1

/-- A word that is read as a type has no blanks at its ends or before its bracket. -/
theorem parseText?_eq_some_iff_of_solid
    {s : List Char} (h : Row.Solid Text.isBlank 0 s) {t : TypeRef} :
    parseText? s = some t ↔ SpellsCompact t s := by
  rw [parseText?_eq_some_iff]
  constructor
  · rintro ⟨a, text, b, ha, htext, hb, rfl⟩
    rw [List.append_assoc] at h
    obtain rfl := eq_nil_of_solid_blanks h ha
    rw [List.nil_append] at h ⊢
    have hword : ∀ {name : String}, Name.isIdentifier name = true →
        Row.depthAfter 0 name.toList = 0 := fun hname =>
      Row.depthAfter_eq_self (fun c hc => ne_bracket_of_isTail (Name.isTail_of_mem hname hc)) 0
    -- Once the text before it is known to close its brackets, the blanks behind would cut.
    have hend : SpellsCompact t text → SpellsCompact t (text ++ b) := by
      intro hcompact
      rw [Row.solid_append_iff,
        (hcompact.uncut fun _ hc => Name.isBlank_eq_false_of_isTail hc).2] at h
      have hsolid : Row.Solid Text.isBlank 0 (b ++ []) := by simpa using h.2
      rwa [eq_nil_of_solid_blanks hsolid hb, List.append_nil]
    apply hend
    cases htext with
    | name hname => exact .name hname
    | applied hname hgap hbefore hargs hafter =>
        rw [List.append_assoc, List.append_assoc, Row.solid_append_iff, hword hname] at h
        obtain rfl := eq_nil_of_solid_blanks h.2 hgap
        rw [List.append_nil]
        exact .applied hname hbefore hargs hafter
  · intro hs
    exact ⟨[], s, [], Text.blanks_nil, hs.spells, Text.blanks_nil, by simp⟩

end TypeRef

namespace Row

/-! ## Words -/

/-- A text that is not cut at blanks. -/
def IsWord (s : List Char) : Prop :=
  s ≠ [] ∧ Solid Text.isBlank 0 s

/-- The text is two words with blanks between them. -/
inductive IsPair : List Char → List Char → List Char → Prop
  | mk {first gap second : List Char} (hfirst : IsWord first) (hclosed : depthAfter 0 first = 0)
      (hgap : Blanks gap) (hne : gap ≠ []) (hsecond : IsWord second) :
      IsPair (first ++ gap ++ second) first second

/-- The words of a text. -/
def words (s : List Char) : List (List Char) :=
  (splitTopLevel Text.isBlank s).filter (· ≠ [])

theorem separates_of_isBlank {c : Char} (h : Text.isBlank c = true) :
    Separates Text.isBlank 0 c := by
  obtain ⟨hopen, hclose⟩ := ne_bracket_of_isBlank h
  exact ⟨rfl, h, hopen, hclose⟩

theorem words_of_isWord {w : List Char} (h : IsWord w) : words w = [w] := by
  rw [words, splitTopLevel, splitAtDepth_of_solid h.2]
  simp [h.1]

/-- A blank behind a closed text ends a word. -/
theorem words_append_cons
    {w rest : List Char} {c : Char} (h : Solid Text.isBlank 0 w) (hclosed : depthAfter 0 w = 0)
    (hc : Text.isBlank c = true) :
    words (w ++ c :: rest) = if w = [] then words rest else w :: words rest := by
  have hsep : Separates Text.isBlank (depthAfter 0 w) c := by
    rw [hclosed]
    exact separates_of_isBlank hc
  rw [words, splitTopLevel, splitAtDepth_of_separates h hsep]
  by_cases hw : w = []
  · simp [hw, words, splitTopLevel]
  · simp [hw, words, splitTopLevel]

theorem words_blanks_append {a s : List Char} (ha : Blanks a) : words (a ++ s) = words s := by
  induction a with
  | nil => rfl
  | cons c a ih =>
      have hcut : words (c :: (a ++ s)) = words (a ++ s) :=
        words_append_cons solid_nil (depthAfter_nil 0) (ha c List.mem_cons_self)
      rw [List.cons_append, hcut]
      exact ih fun d hd => ha d (List.mem_cons_of_mem c hd)

/-- A text is blank, or it has a word behind its first blanks, and behind the word it ends
or goes on with a blank. -/
theorem exists_word (s : List Char) :
    Blanks s ∨
      ∃ gap w rest, Blanks gap ∧ IsWord w ∧ s = gap ++ w ++ rest ∧
        (rest = [] ∨ depthAfter 0 w = 0 ∧ ∃ c tail, Text.isBlank c = true ∧ rest = c :: tail) := by
  induction hn : s.length using Nat.strong_induction_on generalizing s with
  | _ n ih =>
      have hparts := splitsInto_splitAtDepth Text.isBlank 0 s
      generalize splitAtDepth Text.isBlank 0 s = parts at hparts
      cases hparts with
      | last hpart =>
          by_cases hs : s = []
          · exact Or.inl (by simp [hs])
          · exact Or.inr ⟨[], s, [], Text.blanks_nil, ⟨hs, hpart⟩, by simp, Or.inl rfl⟩
      | @cut _ part rest c later hpart hc hrest =>
          have hblank := hc.2.1
          by_cases hempty : part = []
          · subst hempty
            rcases ih rest.length (by simp at hn; omega) rest rfl with hrest | ⟨gap, w, tail,
              hgap, hw, rfl, hnext⟩
            · exact Or.inl (List.forall_mem_cons.mpr ⟨hblank, hrest⟩)
            · refine Or.inr ⟨c :: gap, w, tail, List.forall_mem_cons.mpr ⟨hblank, hgap⟩, hw, ?_,
                hnext⟩
              simp
          · exact Or.inr ⟨[], part, c :: rest, Text.blanks_nil, ⟨hempty, hpart⟩, by simp,
              Or.inr ⟨hc.1, c, rest, hblank, rfl⟩⟩

theorem words_eq_nil_iff {s : List Char} : words s = [] ↔ Blanks s := by
  constructor
  · intro h
    rcases exists_word s with hs | ⟨gap, w, rest, hgap, hw, rfl, rfl | ⟨hclosed, c, tail, hc, rfl⟩⟩
    · exact hs
    · rw [List.append_nil, words_blanks_append hgap, words_of_isWord hw] at h
      simp at h
    · rw [List.append_assoc, words_blanks_append hgap, words_append_cons hw.2 hclosed hc,
        if_neg hw.1] at h
      simp at h
  · intro h
    have hblank := words_blanks_append (s := []) h
    rw [List.append_nil] at hblank
    rw [hblank]
    rfl

theorem words_eq_cons
    {s first : List Char} {more : List (List Char)} (h : words s = first :: more) :
    ∃ gap rest, Blanks gap ∧ IsWord first ∧ s = gap ++ first ++ rest ∧
      (rest = [] ∧ more = [] ∨
        depthAfter 0 first = 0 ∧ ∃ c tail, Text.isBlank c = true ∧ rest = c :: tail ∧
          words tail = more) := by
  rcases exists_word s with hs | ⟨gap, w, rest, hgap, hw, rfl, rfl | ⟨hclosed, c, tail, hc, rfl⟩⟩
  · rw [words_eq_nil_iff.mpr hs] at h
    simp at h
  · rw [List.append_nil, words_blanks_append hgap, words_of_isWord hw] at h
    obtain ⟨rfl, rfl⟩ := List.cons.inj h
    exact ⟨gap, [], hgap, hw, rfl, Or.inl ⟨rfl, rfl⟩⟩
  · rw [List.append_assoc, words_blanks_append hgap, words_append_cons hw.2 hclosed hc,
      if_neg hw.1] at h
    obtain ⟨rfl, rfl⟩ := List.cons.inj h
    exact ⟨gap, c :: tail, hgap, hw, rfl, Or.inr ⟨hclosed, c, tail, hc, rfl, rfl⟩⟩

/-- A trimmed text has two words when it is a pair of them. -/
theorem words_eq_pair_iff
    {s first second : List Char} (hs : Text.IsTrimmed s) :
    words s = [first, second] ↔ IsPair s first second := by
  constructor
  · intro h
    obtain ⟨front, rest, hfront, hfirst, rfl, ⟨-, hnil⟩ | ⟨hclosed, c, tail, hc, rfl, hmore⟩⟩ :=
      words_eq_cons h
    · simp at hnil
    · obtain ⟨gap, back, hgap, hsecond, rfl, hback⟩ := words_eq_cons hmore
      have hblank : Blanks back := by
        rcases hback with ⟨rfl, -⟩ | ⟨-, d, tail, hd, rfl, hnil⟩
        · exact Text.blanks_nil
        · exact List.forall_mem_cons.mpr ⟨hd, words_eq_nil_iff.mp hnil⟩
      -- There are no blanks at the ends, because the text is trimmed.
      obtain rfl : back = [] := by
        apply Text.IsTrimmed.back_eq_nil (s := front ++ first ++ c :: (gap ++ second)) _ hblank
        simpa using hs
      rw [List.append_assoc] at hs
      obtain rfl := hs.front_eq_nil hfront
      have hpair := IsPair.mk hfirst hclosed (List.forall_mem_cons.mpr ⟨hc, hgap⟩) (by simp) hsecond
      simpa using hpair
  · rintro ⟨hfirst, hclosed, hgap, hne, hsecond⟩
    obtain ⟨c, gap, rfl⟩ := List.exists_cons_of_ne_nil hne
    obtain ⟨hc, hgap⟩ := List.forall_mem_cons.mp hgap
    rw [List.append_assoc, List.cons_append, words_append_cons hfirst.2 hclosed hc,
      if_neg hfirst.1, words_blanks_append hgap, words_of_isWord hsecond]

/-! ## Reading fields -/

/-- The reasons why a trimmed text is not a field: it is not a pair of a word and an
identifier, or the word of this pair is not a type. -/
inductive FieldFault (line : String) (field : List Char) : Fault → Prop
  | malformedField
      (h : ∀ type name, IsPair field type name → Name.isIdentifierText name = false) :
      FieldFault line field (.malformedField line (String.ofList field))
  | malformedType {type name : List Char} (hpair : IsPair field type name)
      (hname : Name.isIdentifierText name = true)
      (htype : ∀ t, ¬TypeRef.SpellsCompact t type) :
      FieldFault line field (.malformedType line (String.ofList type))

theorem parseField_of_isPair
    (line : String) {field type name : List Char} (hfield : Text.IsTrimmed field)
    (h : IsPair field type name) :
    parseField line field =
      if Name.isIdentifierText name then
        match TypeRef.parseText? type with
        | some t => .ok ⟨t, String.ofList name⟩
        | none => .error (.malformedType line (String.ofList type))
      else
        .error (.malformedField line (String.ofList field)) := by
  have hwords : (splitTopLevel Text.isBlank field).filter (· ≠ []) = [type, name] :=
    (words_eq_pair_iff hfield).mpr h
  unfold parseField
  split
  next first second hfound =>
    rw [hwords] at hfound
    obtain ⟨rfl, hrest⟩ := List.cons.inj hfound
    obtain ⟨rfl, -⟩ := List.cons.inj hrest
    rfl
  next hnone => exact False.elim (hnone type name hwords)

theorem parseField_of_not_isPair
    (line : String) {field : List Char} (hfield : Text.IsTrimmed field)
    (h : ∀ type name, ¬IsPair field type name) :
    parseField line field = .error (.malformedField line (String.ofList field)) := by
  unfold parseField
  split
  next type name hwords => exact False.elim (h type name ((words_eq_pair_iff hfield).mp hwords))
  next => rfl

theorem IsPair.unique
    {field type name type' name' : List Char} (hfield : Text.IsTrimmed field)
    (h : IsPair field type name) (h' : IsPair field type' name') : type = type' ∧ name = name' := by
  have hwords := (words_eq_pair_iff hfield).mpr h
  rw [(words_eq_pair_iff hfield).mpr h'] at hwords
  simp only [List.cons.injEq, and_true] at hwords
  exact ⟨hwords.1.symm, hwords.2.symm⟩

theorem isWord_of_isIdentifier {name : String} (h : Name.isIdentifier name = true) :
    IsWord name.toList :=
  ⟨Name.ne_nil_of_isIdentifierText h,
    solid_of_forall fun _ hc => Name.isBlank_eq_false_of_isTail (Name.isTail_of_mem h hc)⟩

theorem isWord_of_spellsCompact
    {t : TypeRef} {text : List Char} (h : t.SpellsCompact text) : IsWord text := by
  refine ⟨?_, (h.uncut fun _ hc => Name.isBlank_eq_false_of_isTail hc).1⟩
  cases h with
  | name hname => exact Name.ne_nil_of_isIdentifierText hname
  | applied => simp

theorem exists_isPair_of_spells
    {f : Field} {field : List Char} (h : f.Spells field) :
    ∃ type, IsPair field type f.name.toList ∧ f.type.SpellsCompact type ∧
      Name.isIdentifier f.name = true := by
  obtain ⟨htype, hgap, hne, hname⟩ := h
  have hclosed := (htype.uncut fun _ hc => Name.isBlank_eq_false_of_isTail hc).2
  exact ⟨_, .mk (isWord_of_spellsCompact htype) hclosed hgap hne (isWord_of_isIdentifier hname),
    htype, hname⟩

/-- A trimmed text is read as a field exactly when it is a spelling of the field. -/
theorem parseField_eq_ok_iff
    {line : String} {field : List Char} (hfield : Text.IsTrimmed field) {f : Field} :
    parseField line field = .ok f ↔ f.Spells field := by
  constructor
  · intro h
    by_cases hpair : ∃ type name, IsPair field type name
    · obtain ⟨type, name, hpair⟩ := hpair
      rw [parseField_of_isPair line hfield hpair] at h
      split at h
      next hname =>
        split at h
        next t htype =>
          obtain rfl := Except.ok.inj h
          obtain ⟨hfirst, -, hgap, hne, -⟩ := hpair
          have hcompact := (TypeRef.parseText?_eq_some_iff_of_solid hfirst.2).mp htype
          have hident : Name.isIdentifier (String.ofList name) = true := by
            rwa [Name.isIdentifier, String.toList_ofList]
          simpa using Field.Spells.mk hcompact hgap hne hident
        next => simp at h
      next => simp at h
    · rw [parseField_of_not_isPair line hfield fun type name h => hpair ⟨type, name, h⟩] at h
      simp at h
  · intro h
    obtain ⟨type, hpair, htype, hname⟩ := exists_isPair_of_spells h
    have hident : Name.isIdentifierText f.name.toList = true := hname
    have hparse :=
      (TypeRef.parseText?_eq_some_iff_of_solid (isWord_of_spellsCompact htype).2).mpr htype
    rw [parseField_of_isPair line hfield hpair, if_pos hident, hparse, String.ofList_toList]

/-- The fault of a trimmed text that is not a field. -/
theorem parseField_eq_error_iff
    {line : String} {field : List Char} (hfield : Text.IsTrimmed field) {fault : Fault} :
    parseField line field = .error fault ↔ FieldFault line field fault := by
  constructor
  · intro h
    by_cases hpair : ∃ type name, IsPair field type name
    · obtain ⟨type, name, hpair⟩ := hpair
      rw [parseField_of_isPair line hfield hpair] at h
      split at h
      next hname =>
        split at h
        next => simp at h
        next hnone =>
          obtain rfl := Except.error.inj h
          refine .malformedType hpair hname fun t ht => ?_
          rw [(TypeRef.parseText?_eq_some_iff_of_solid (isWord_of_spellsCompact ht).2).mpr ht]
            at hnone
          simp at hnone
      next hname =>
        obtain rfl := Except.error.inj h
        refine .malformedField fun type' name' hpair' => ?_
        obtain ⟨-, rfl⟩ := hpair.unique hfield hpair'
        exact Bool.eq_false_iff.mpr hname
    · have hnot : ∀ type name, ¬IsPair field type name := fun type name h => hpair ⟨type, name, h⟩
      rw [parseField_of_not_isPair line hfield hnot] at h
      obtain rfl := Except.error.inj h
      exact .malformedField fun type name h => False.elim (hnot type name h)
  · intro h
    cases h with
    | malformedField h =>
        by_cases hpair : ∃ type name, IsPair field type name
        · obtain ⟨type, name, hpair⟩ := hpair
          rw [parseField_of_isPair line hfield hpair, if_neg (by simp [h type name hpair])]
        · exact parseField_of_not_isPair line hfield fun type name h => hpair ⟨type, name, h⟩
    | @malformedType type name hpair hname htype =>
        have hnone : TypeRef.parseText? type = none := by
          rw [Option.eq_none_iff_forall_ne_some]
          intro t ht
          obtain ⟨hfirst, -, -, -, -⟩ := hpair
          exact htype t ((TypeRef.parseText?_eq_some_iff_of_solid hfirst.2).mp ht)
        rw [parseField_of_isPair line hfield hpair, if_pos hname, hnone]

end Row

end Treewright
