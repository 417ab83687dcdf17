import Treewright.Proofs.RowRoundTrip

/-!
# Acceptance of types

A string is read as a type exactly when it is a spelling of the type between blanks.  Three
consequences are drawn here.  The text printed for a type is read as this type.  A string is
refused where a bracket or a comma leads to no word, where its brackets do not match, and
where something is left over behind a type.  Each type that is read begins on a shorter text
than the one that led to it, so reading ends on every string.
-/

namespace Treewright

open Text (Blanks)

/-! ## Matched brackets -/

namespace Row

/-- No bracket is closed that was not opened before, and all brackets are closed. -/
def Matched (s : List Char) : Prop :=
  (∀ u v, s = u ++ v → u.count '>' ≤ u.count '<') ∧ s.count '<' = s.count '>'

theorem depthStep_cases (depth : Nat) (c : Char) :
    (c = '<' ∧ depthStep depth c = depth + 1) ∨ (c = '>' ∧ depthStep depth c = depth - 1) ∨
      (c ≠ '<' ∧ c ≠ '>') ∧ depthStep depth c = depth := by
  by_cases hopen : c = '<'
  · exact Or.inl ⟨hopen, if_pos hopen⟩
  · by_cases hclose : c = '>'
    · exact Or.inr (Or.inl ⟨hclose, by rw [depthStep, if_neg hopen, if_pos hclose]⟩)
    · exact Or.inr (Or.inr ⟨⟨hopen, hclose⟩, depthStep_of_ne hopen hclose depth⟩)

/-- The number of open brackets grows at least by what is opened more than closed. -/
theorem add_count_le_depthAfter (depth : Nat) (s : List Char) :
    depth + s.count '<' ≤ depthAfter depth s + s.count '>' := by
  induction s generalizing depth with
  | nil => simp
  | cons c rest ih =>
      have hrest := ih (depthStep depth c)
      rw [depthAfter_cons]
      rcases depthStep_cases depth c with ⟨rfl, hstep⟩ | ⟨rfl, hstep⟩ | ⟨⟨hopen, hclose⟩, hstep⟩
      · rw [List.count_cons_self, List.count_cons_of_ne (by decide)]
        omega
      · rw [List.count_cons_self, List.count_cons_of_ne (by decide)]
        omega
      · rw [List.count_cons_of_ne hopen, List.count_cons_of_ne hclose]
        omega

/-- Where enough brackets are open, it grows by exactly that much. -/
theorem depthAfter_add_count {depth : Nat} {s : List Char} (h : s.count '>' ≤ depth) :
    depthAfter depth s + s.count '>' = depth + s.count '<' := by
  induction s generalizing depth with
  | nil => simp
  | cons c rest ih =>
      have hrest := @ih (depthStep depth c)
      rw [depthAfter_cons]
      rcases depthStep_cases depth c with ⟨rfl, hstep⟩ | ⟨rfl, hstep⟩ | ⟨⟨hopen, hclose⟩, hstep⟩
      · rw [List.count_cons_of_ne (by decide)] at h ⊢
        rw [List.count_cons_self]
        omega
      · rw [List.count_cons_self] at h ⊢
        rw [List.count_cons_of_ne (by decide)]
        omega
      · rw [List.count_cons_of_ne hclose] at h ⊢
        rw [List.count_cons_of_ne hopen]
        omega

theorem matched_of_depthAfter_eq
    {s : List Char} (h : ∀ depth, depthAfter depth s = depth) : Matched s := by
  have htotal := depthAfter_add_count (s := s) (Nat.le_refl (s.count '>'))
  rw [h] at htotal
  constructor
  · rintro u v rfl
    have hend := h 0
    rw [depthAfter_append] at hend
    have hbehind := add_count_le_depthAfter (depthAfter 0 u) v
    rw [List.count_append, List.count_append] at htotal
    omega
  · omega

end Row

namespace TypeRef

theorem depthAfter_of_blanks {s : List Char} (h : Blanks s) (depth : Nat) :
    Row.depthAfter depth s = depth :=
  Row.depthAfter_eq_self (fun c hc => ne_bracket_of_isBlank (h c hc)) depth

theorem depthAfter_of_isIdentifier {name : String} (h : Name.isIdentifier name = true)
    (depth : Nat) : Row.depthAfter depth name.toList = depth :=
  Row.depthAfter_eq_self (fun _ hc => ne_bracket_of_isTail (Name.isTail_of_mem h hc)) depth

/-- A spelling leaves the number of open brackets as it is, at any depth. -/
theorem Spells.depthAfter_eq
    {t : TypeRef} {text : List Char} (h : Spells t text) (depth : Nat) :
    Row.depthAfter depth text = depth := by
  cases h with
  | name hname => exact depthAfter_of_isIdentifier hname depth
  | applied hname hgap hbefore hargs hafter =>
      have hbody := hargs.balanced fun t _ _ hs => hs.balanced
      have hinner := ((balanced_of_blanks hbefore).append hbody).append (balanced_of_blanks hafter)
      rw [Row.depthAfter_append, Row.depthAfter_append, depthAfter_of_isIdentifier hname,
        depthAfter_of_blanks hgap]
      exact (hinner.enclosed (fun _ => false) depth).2

/-! ## Words behind marks -/

/-- The first character of the text that is no blank begins an identifier. -/
def WordFirst (s : List Char) : Prop :=
  ∃ c ∈ (Text.trimStart s).head?, Name.isHead c = true

instance (s : List Char) : Decidable (WordFirst s) :=
  decidable_of_iff ((Text.trimStart s).head?.any Name.isHead = true)
    (by simp only [WordFirst, Option.any_eq_true, Option.mem_def])

/-- Every opening bracket and every comma leads to a word. -/
def MarksLead : List Char → Prop
  | [] => True
  | c :: rest => (c = '<' ∨ c = ',' → WordFirst rest) ∧ MarksLead rest

theorem WordFirst.append {s : List Char} (h : WordFirst s) (t : List Char) :
    WordFirst (s ++ t) := by
  obtain ⟨c, hc, hhead⟩ := h
  refine ⟨c, ?_, hhead⟩
  rw [Text.trimStart, List.dropWhile_append]
  cases hrest : s.dropWhile Text.isBlank with
  | nil => simp [Text.trimStart, hrest] at hc
  | cons d rest => simpa [Text.trimStart, hrest] using hc

theorem WordFirst.append_left
    {a s : List Char} (ha : Blanks a) (h : WordFirst s) : WordFirst (a ++ s) := by
  rwa [WordFirst, Text.trimStart_append ha]

theorem wordFirst_of_isIdentifier
    {name : String} (h : Name.isIdentifier name = true) : WordFirst name.toList := by
  rw [Name.isIdentifier] at h
  cases hname : name.toList with
  | nil => simp [hname, Name.isIdentifierText] at h
  | cons c rest =>
      rw [hname, Name.isIdentifierText, Bool.and_eq_true] at h
      have hblank := Name.isBlank_eq_false_of_isTail (Name.isTail_of_isHead h.1)
      exact ⟨c, by simp [Text.trimStart, hblank], h.1⟩

theorem MarksLead.append
    {s t : List Char} (hs : MarksLead s) (ht : MarksLead t) : MarksLead (s ++ t) := by
  induction s with
  | nil => exact ht
  | cons c rest ih => exact ⟨fun hc => (hs.1 hc).append t, ih hs.2⟩

theorem MarksLead.of_append {u v : List Char} (h : MarksLead (u ++ v)) : MarksLead v := by
  induction u with
  | nil => exact h
  | cons c rest ih => exact ih h.2

theorem marksLead_of_no_marks
    {s : List Char} (h : ∀ c ∈ s, c ≠ '<' ∧ c ≠ ',') : MarksLead s := by
  induction s with
  | nil => trivial
  | cons c rest ih =>
      obtain ⟨hc, hrest⟩ := List.forall_mem_cons.mp h
      exact ⟨fun hmark => absurd hmark (not_or.mpr hc), ih hrest⟩

theorem marksLead_of_blanks {s : List Char} (h : Blanks s) : MarksLead s := by
  apply marksLead_of_no_marks
  intro c hc
  have hblank := h c hc
  constructor <;> rintro rfl <;> exact absurd hblank (by decide)

theorem marksLead_of_isIdentifier
    {name : String} (h : Name.isIdentifier name = true) : MarksLead name.toList := by
  apply marksLead_of_no_marks
  intro c hc
  have htail := Name.isTail_of_mem h hc
  constructor <;> rintro rfl <;> exact absurd htail (by decide)

/-- A list begins with the word of its first member, and every comma in it leads to the
word of the next one. -/
theorem marksLead_of_listed
    {args : List TypeRef} {body : List Char} (h : Text.Listed Spells args body)
    (hargs : ∀ t ∈ args, ∀ s, Spells t s → WordFirst s ∧ MarksLead s) :
    WordFirst body ∧ MarksLead body := by
  induction h with
  | @last t s hs => exact hargs t List.mem_cons_self s hs
  | @more t rest s before after body hs hbefore hafter _ ih =>
      obtain ⟨hword, hmarks⟩ := hargs t List.mem_cons_self s hs
      obtain ⟨hnext, hbody⟩ := ih fun t ht => hargs t (List.mem_cons_of_mem _ ht)
      have hcomma : MarksLead (',' :: (after ++ body)) :=
        ⟨fun _ => hnext.append_left hafter, (marksLead_of_blanks hafter).append hbody⟩
      rw [List.append_assoc]
      exact ⟨hword.append _, hmarks.append ((marksLead_of_blanks hbefore).append hcomma)⟩

theorem Spells.marksLead {t : TypeRef} : ∀ {text : List Char}, Spells t text →
    WordFirst text ∧ MarksLead text := by
  induction t using induction_args with
  | step name args ih =>
      intro text h
      cases h with
      | name hname => exact ⟨wordFirst_of_isIdentifier hname, marksLead_of_isIdentifier hname⟩
      | @applied _ _ gap before body after hname hgap hbefore hargs hafter =>
          obtain ⟨hword, hbody⟩ := marksLead_of_listed hargs fun t ht _ hs => ih t ht hs
          have hclose : MarksLead ['>'] :=
            marksLead_of_no_marks (List.forall_mem_singleton.mpr (by decide))
          have hopen : MarksLead ('<' :: (before ++ body ++ after ++ ['>'])) := by
            refine ⟨fun _ => ?_, ?_⟩
            · rw [List.append_assoc, List.append_assoc]
              exact (hword.append _).append_left hbefore
            · exact (((marksLead_of_blanks hbefore).append hbody).append
                (marksLead_of_blanks hafter)).append hclose
          rw [List.append_assoc]
          exact ⟨(wordFirst_of_isIdentifier hname).append _,
            (marksLead_of_isIdentifier hname).append ((marksLead_of_blanks hgap).append hopen)⟩

/-! ## Refusals -/

theorem parse_eq_some_iff {s : String} {t : TypeRef} :
    parse? s = some t ↔
      ∃ a text b, Blanks a ∧ Spells t text ∧ Blanks b ∧ s.toList = a ++ text ++ b :=
  parseText?_eq_some_iff

theorem parse_text_eq_some
    {t : TypeRef} (h : ∀ name ∈ t.names, Name.isIdentifier name = true) :
    parse? t.text = some t :=
  parse_eq_some_iff.mpr ⟨[], t.text.toList, [], Text.blanks_nil, (spellsCompact_text h).spells,
    Text.blanks_nil, by simp⟩

theorem matched_of_parse {s : String} {t : TypeRef} (h : parse? s = some t) :
    Row.Matched s.toList := by
  obtain ⟨a, text, b, ha, htext, hb, hs⟩ := parse_eq_some_iff.mp h
  apply Row.matched_of_depthAfter_eq
  intro depth
  rw [hs, Row.depthAfter_append, Row.depthAfter_append, depthAfter_of_blanks ha,
    htext.depthAfter_eq, depthAfter_of_blanks hb]

theorem marksLead_of_parse {s : String} {t : TypeRef} (h : parse? s = some t) :
    MarksLead s.toList := by
  obtain ⟨a, text, b, ha, htext, hb, hs⟩ := parse_eq_some_iff.mp h
  rw [hs]
  exact ((marksLead_of_blanks ha).append htext.marksLead.2).append (marksLead_of_blanks hb)

/-- A spelling is read up to its end unless the text goes on with its only word or with an
opening bracket behind it. -/
theorem reads_of_spells
    {a text rest : List Char} {t : TypeRef} (ha : Blanks a) (htext : Spells t text)
    (hrest : t.args = [] → Ends rest) : Reads (a ++ text ++ rest) t rest := by
  cases htext with
  | name hname => exact isRead _ ha (.name hname) (hrest rfl)
  | applied hname hgap hbefore hargs hafter =>
      exact reads_of_applied rest ha hname hgap hbefore hargs hafter fun t _ => isRead t

theorem parse_eq_none_of_reads
    {s : String} {t : TypeRef} {rest : List Char} (h : Reads s.toList t rest)
    (hrest : ¬Blanks rest) : parse? s = none := by
  obtain ⟨hlt, hread⟩ := h
  have hleft : Text.trimStart rest ≠ [] := fun hnil => hrest (List.dropWhile_eq_nil_iff.mp hnil)
  simp only [parse?, parseText?, hread]
  exact if_neg hleft

/-! ## Ends of reading -/

/-- A type read from `s` leads to the next one at `rest`: its first argument inside of it, or
the next argument behind it. -/
inductive LeadsTo : List Char → List Char → Prop
  | inside {s afterName rest : List Char} {name : String} (hname : TakesName s name afterName)
      (hopen : TakesMark '<' afterName rest) : LeadsTo s rest
  | behind {s afterType rest : List Char} {t : TypeRef} (htype : Reads s t afterType)
      (hcomma : TakesMark ',' afterType rest) : LeadsTo s rest

theorem LeadsTo.length_lt {s rest : List Char} (h : LeadsTo s rest) :
    rest.length < s.length := by
  cases h with
  | inside hname hopen => exact hopen.length_lt.trans hname.length_lt
  | behind htype hcomma => exact hcomma.length_lt.trans htype.length_lt

theorem wellFounded_leadsTo : WellFounded fun rest s => LeadsTo s rest :=
  Subrelation.wf LeadsTo.length_lt (measure List.length).wf

/-! ## Acceptance -/

/-- A string is read as a type exactly when it spells the type between blanks; the text of a
type with identifiers for names is one such string.  Nothing is read where a bracket or a comma
leads to no word, where the brackets do not match, or where a spelling ends and something other
than blanks is left.  The types of a string are read without going round. -/
theorem parse_accepts_spellings :
    (∀ s t, parse? s = some t ↔
      ∃ a text b, Blanks a ∧ Spells t text ∧ Blanks b ∧ s.toList = a ++ text ++ b) ∧
    (∀ t : TypeRef, (∀ name ∈ t.names, Name.isIdentifier name = true) →
      parse? t.text = some t) ∧
    (∀ (s : String) u c v, s.toList = u ++ c :: v → c = '<' ∨ c = ',' → ¬WordFirst v →
      parse? s = none) ∧
    (∀ s : String, ¬Row.Matched s.toList → parse? s = none) ∧
    (∀ (s : String) a t text rest, s.toList = a ++ text ++ rest → Blanks a → Spells t text →
      (t.args = [] → Ends rest) → ¬Blanks rest → parse? s = none) ∧
    WellFounded fun rest s => LeadsTo s rest := by
  refine ⟨fun s t => parse_eq_some_iff, fun t h => parse_text_eq_some h, ?_, ?_, ?_,
    wellFounded_leadsTo⟩
  · intro s u c v hs hc hv
    apply Option.eq_none_iff_forall_ne_some.mpr
    intro t ht
    have hmarks := marksLead_of_parse ht
    rw [hs] at hmarks
    exact hv (hmarks.of_append.1 hc)
  · intro s h
    exact Option.eq_none_iff_forall_ne_some.mpr fun t ht => h (matched_of_parse ht)
  · intro s a t text rest hs ha htext hends hrest
    have hread := reads_of_spells ha htext hends
    rw [← hs] at hread
    exact parse_eq_none_of_reads hread hrest

/-- A type with arguments at two depths. -/
def nestedMap : TypeRef :=
  ⟨"Map", [⟨"Key", []⟩, ⟨"Vec", [⟨"Expr", []⟩]⟩]⟩

theorem spells_vec : Spells ⟨"Vec", [⟨"Expr", []⟩]⟩ "Vec <Expr>".toList :=
  .applied (by decide) Text.blanks_space Text.blanks_nil (.last (.name (by decide)))
    Text.blanks_nil

theorem spells_nestedMap : Spells nestedMap "Map< Key ,Vec <Expr>>".toList :=
  .applied (by decide) Text.blanks_nil Text.blanks_space
    (.more (.name (by decide)) Text.blanks_space Text.blanks_nil (.last spells_vec))
    Text.blanks_nil

/-- A type that is read, and six strings that are refused: no argument, no argument behind a
comma, a bracket that is not closed, one that was not opened, and a word behind a type and
behind a name. -/
theorem parse_accepts_spellings_nestedMap :
    parse? "\tMap< Key ,Vec <Expr>> " = some nestedMap ∧
      parse? nestedMap.text = some nestedMap ∧
      parse? "Vec< >" = none ∧ parse? "Map<Key,>" = none ∧ parse? "Vec<Vec<Expr>" = none ∧
      parse? "Vec<Expr>>" = none ∧ parse? "Vec <Expr> x" = none ∧ parse? "Expr x" = none := by
  obtain ⟨hread, htext, hword, hmatched, hleft, -⟩ := parse_accepts_spellings
  have hx : ¬Blanks " x".toList := fun h => absurd (h 'x' (by decide)) (by decide)
  refine ⟨(hread _ _).mpr ⟨['\t'], _, [' '], ?_, spells_nestedMap, Text.blanks_space, rfl⟩,
    htext nestedMap (by decide), ?_, ?_, ?_, ?_, ?_, ?_⟩
  · exact List.forall_mem_singleton.mpr (by decide)
  · exact hword "Vec< >" "Vec".toList '<' " >".toList rfl (Or.inl rfl) (by decide)
  · exact hword "Map<Key,>" "Map<Key".toList ',' ">".toList rfl (Or.inr rfl) (by decide)
  · exact hmatched _ fun h => absurd h.2 (by decide)
  · exact hmatched _ fun h => absurd h.2 (by decide)
  · exact hleft "Vec <Expr> x" [] _ _ " x".toList rfl Text.blanks_nil spells_vec (by simp) hx
  · have hword : Name.EndsWord " x".toList := by
      intro c hc
      obtain rfl := Option.some.inj hc
      decide
    have hends : Ends " x".toList := ⟨hword, by decide⟩
    exact hleft "Expr x" [] ⟨"Expr", []⟩ _ " x".toList rfl Text.blanks_nil (.name (by decide))
      (fun _ => hends) hx

end TypeRef

end Treewright
