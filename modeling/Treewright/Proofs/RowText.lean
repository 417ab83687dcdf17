import Treewright.Proofs.FieldText
import Treewright.Proofs.Outcome

/-!
# Spellings of rows

A row is spelled as an identifier, a colon and a comma-separated list of fields, with
blanks around the colon, the commas and the whole.  The main statement says that a line is
read as a node exactly when it is a spelling of this node, and it says which fault is
reported otherwise.  The reader looks at the colons first, then at the class, then at the
parts of the field list in order.

Commas inside angle brackets belong to a type.  Every field closes the brackets that it
opens, so the commas at which a field list is cut are those of the grammar.
-/

namespace Treewright

open Text (Blanks)

/-- The text spells the node: its class, a colon and its fields. -/
inductive Node.Spells : Node → List Char → Prop
  | mk {className : String} {fields : List Field} {a b c d body : List Char}
      (ha : Blanks a) (hclass : Name.isIdentifier className = true) (hb : Blanks b)
      (hc : Blanks c) (hfields : Text.Listed Field.Spells fields body) (hd : Blanks d) :
      Spells ⟨className, fields⟩ (a ++ className.toList ++ b ++ ':' :: (c ++ body ++ d))

/-! ## Ends of spellings -/

theorem Text.isTrimmed_append
    {s t : List Char} (hs : s ≠ []) (ht : t ≠ []) (hfirst : IsTrimmed s) (hlast : IsTrimmed t)
    (mid : List Char) : IsTrimmed (s ++ mid ++ t) := by
  constructor
  · intro c hc
    apply hfirst.1
    rwa [List.append_assoc, List.head?_append_of_ne_nil _ hs] at hc
  · intro c hc
    apply hlast.2
    rwa [List.getLast?_append_of_ne_nil _ ht] at hc

theorem TypeRef.SpellsCompact.isTrimmed
    {t : TypeRef} {text : List Char} (h : t.SpellsCompact text) : Text.IsTrimmed text := by
  cases h with
  | name hname => exact Name.isTrimmed_of_isIdentifierText hname
  | @applied name _ before body after hname =>
      have hclose : Text.IsTrimmed ['>'] := by
        constructor <;> rintro _ ⟨⟩ <;> decide
      simpa using Text.isTrimmed_append (Name.ne_nil_of_isIdentifierText hname) (by simp)
        (Name.isTrimmed_of_isIdentifierText hname) hclose ('<' :: (before ++ body ++ after))

theorem comma_of_isTail {c : Char} (h : Name.isTail c = true) : (c == ',') = false := by
  rw [beq_eq_false_iff_ne]
  rintro rfl
  exact absurd h (by decide)

theorem uncut_of_blanks {s : List Char} (h : Blanks s) : Row.Uncut (· == ',') s := by
  apply Row.uncut_of_forall
  · intro c hc
    rw [beq_eq_false_iff_ne]
    rintro rfl
    exact absurd (h _ hc) (by decide)
  · exact fun c hc => ne_bracket_of_isBlank (h c hc)

namespace Field

theorem Spells.ne_nil {f : Field} {text : List Char} (h : f.Spells text) : text ≠ [] := by
  obtain ⟨-, -, -, hname⟩ := h
  simp [Name.ne_nil_of_isIdentifierText hname]

theorem Spells.isTrimmed {f : Field} {text : List Char} (h : f.Spells text) :
    Text.IsTrimmed text := by
  obtain ⟨htype, -, -, hname⟩ := h
  exact Text.isTrimmed_append (Row.isWord_of_spellsCompact htype).1
    (Name.ne_nil_of_isIdentifierText hname) htype.isTrimmed
    (Name.isTrimmed_of_isIdentifierText hname) _

theorem Spells.isMark {f : Field} {text : List Char} (h : f.Spells text) :
    ∀ c ∈ text, TypeRef.IsMark c := by
  obtain ⟨htype, hgap, -, hname⟩ := h
  simp only [List.forall_mem_append]
  exact ⟨⟨htype.spells.isMark, fun c hc => Or.inr (Or.inl (hgap c hc))⟩,
    fun c hc => Or.inl (Name.isTail_of_mem hname hc)⟩

theorem Spells.uncut {f : Field} {text : List Char} (h : f.Spells text) :
    Row.Uncut (· == ',') text := by
  obtain ⟨htype, hgap, -, hname⟩ := h
  have hname := Row.uncut_of_forall
    (fun c hc => comma_of_isTail (Name.isTail_of_mem hname hc))
    fun c hc => ne_bracket_of_isTail (Name.isTail_of_mem hname hc)
  exact ((htype.uncut fun c hc => comma_of_isTail hc).append (uncut_of_blanks hgap)).append hname

end Field

theorem Text.Listed.isTrimmed_fields
    {fields : List Field} {body : List Char} (h : Text.Listed Field.Spells fields body) :
    body ≠ [] ∧ Text.IsTrimmed body := by
  induction h with
  | last h => exact ⟨h.ne_nil, h.isTrimmed⟩
  | @more f rest s before after t h _ _ _ ih =>
      refine ⟨by simp, ?_⟩
      simpa using Text.isTrimmed_append h.ne_nil ih.1 h.isTrimmed ih.2 (before ++ ',' :: after)

namespace Row

/-! ## The colon -/

/-- The text is cut at its only colon. -/
def CutsAtColon (s before after : List Char) : Prop :=
  s = before ++ ':' :: after ∧ ':' ∉ before ∧ ':' ∉ after

theorem splitAtColon?_eq_some_iff {s before after : List Char} :
    splitAtColon? s = some (before, after) ↔ CutsAtColon s before after := by
  constructor
  · intro h
    have hs := List.takeWhile_append_dropWhile (p := (· ≠ ':')) (l := s)
    have hhead := List.head?_dropWhile_not (· ≠ ':') s
    unfold splitAtColon? at h
    split at h
    next => simp at h
    next c tail htail =>
      split at h
      next => simp at h
      next hafter =>
        obtain ⟨rfl, rfl⟩ := Prod.mk.inj (Option.some.inj h)
        rw [htail] at hs hhead
        obtain rfl : c = ':' := by simpa using hhead
        exact ⟨hs.symm, fun hc => by simpa using List.mem_takeWhile_imp hc, hafter⟩
  · rintro ⟨rfl, hbefore, hafter⟩
    have hpass : ∀ c ∈ before, decide (c ≠ ':') = true := fun c hc =>
      decide_eq_true fun h => hbefore (h ▸ hc)
    have hdrop : (before ++ ':' :: after).dropWhile (· ≠ ':') = ':' :: after := by
      rw [List.dropWhile_append_of_pos hpass, List.dropWhile_cons]
      rfl
    have htake : (before ++ ':' :: after).takeWhile (· ≠ ':') = before := by
      rw [List.takeWhile_append_of_pos hpass, List.takeWhile_cons]
      exact List.append_nil before
    unfold splitAtColon?
    rw [hdrop, htake]
    exact if_neg hafter

theorem exists_cutsAtColon_iff {s : List Char} :
    (∃ before after, CutsAtColon s before after) ↔ s.count ':' = 1 := by
  constructor
  · rintro ⟨before, after, rfl, hbefore, hafter⟩
    rw [List.count_append, List.count_cons_self, List.count_eq_zero_of_not_mem hbefore,
      List.count_eq_zero_of_not_mem hafter]
  · intro h
    obtain ⟨before, after, rfl, hbefore⟩ :=
      List.eq_append_cons_of_mem (List.count_pos_iff.mp (Nat.lt_of_lt_of_eq Nat.zero_lt_one h.symm))
    refine ⟨before, after, rfl, hbefore, ?_⟩
    rw [List.count_append, List.count_cons_self, List.count_eq_zero_of_not_mem hbefore] at h
    exact List.count_eq_zero.mp (by omega)

theorem splitAtColon?_eq_none_iff {s : List Char} :
    splitAtColon? s = none ↔ s.count ':' ≠ 1 := by
  rw [ne_eq, ← exists_cutsAtColon_iff, Option.eq_none_iff_forall_ne_some]
  simp only [ne_eq, Prod.forall, splitAtColon?_eq_some_iff, not_exists]

/-! ## Field lists -/

/-- The parts of a field list are read when all of them are fields. -/
theorem parseFields_eq_ok_iff
    {line : String} {parts : List (List Char)} {fields : List Field} :
    parseFields line parts = .ok fields ↔
      List.Forall₂ (fun part (f : Field) => f.Spells (Text.trim part)) parts fields := by
  induction parts generalizing fields with
  | nil =>
      rw [parseFields, List.forall₂_nil_left_iff]
      exact ⟨fun h => (Except.ok.inj h).symm, fun h => h ▸ rfl⟩
  | cons part rest ih =>
      have hpart : ∀ f : Field,
          parseField line (Text.trim part) = .ok f ↔ f.Spells (Text.trim part) :=
        fun _ => parseField_eq_ok_iff (Text.isTrimmed_trim part)
      rw [parseFields, List.forall₂_cons_left_iff]
      simp only [← hpart, ← ih]
      cases parseField line (Text.trim part) with
      | error fault => simp
      | ok f =>
          cases parseFields line rest with
          | error fault => simp
          | ok tail => simp [eq_comm]

/-- The fault of a field list is that of its first part that is not a field. -/
theorem parseFields_eq_error_iff
    {line : String} {parts : List (List Char)} {fault : Fault} :
    parseFields line parts = .error fault ↔
      ∃ earlier part later, parts = earlier ++ part :: later ∧
        (∀ p ∈ earlier, ∃ f : Field, f.Spells (Text.trim p)) ∧
        FieldFault line (Text.trim part) fault := by
  induction parts with
  | nil => simp [parseFields]
  | cons first rest ih =>
      rw [parseFields]
      constructor
      · intro h
        split at h
        next hfirst =>
          obtain rfl := Except.error.inj h
          exact ⟨[], first, rest, rfl, by simp,
            (parseField_eq_error_iff (Text.isTrimmed_trim first)).mp hfirst⟩
        next f hfirst =>
          split at h
          next hrest =>
            obtain rfl := Except.error.inj h
            obtain ⟨earlier, part, later, rfl, hearlier, hpart⟩ := ih.mp hrest
            have hf := (parseField_eq_ok_iff (Text.isTrimmed_trim first)).mp hfirst
            exact ⟨first :: earlier, part, later, rfl,
              List.forall_mem_cons.mpr ⟨⟨f, hf⟩, hearlier⟩, hpart⟩
          next => simp at h
      · rintro ⟨_ | ⟨p, earlier⟩, part, later, heq, hearlier, hpart⟩
        · obtain ⟨rfl, rfl⟩ := List.cons.inj heq
          rw [(parseField_eq_error_iff (Text.isTrimmed_trim first)).mpr hpart]
        · obtain ⟨rfl, rfl⟩ := List.cons.inj heq
          obtain ⟨⟨f, hf⟩, hearlier⟩ := List.forall_mem_cons.mp hearlier
          rw [(parseField_eq_ok_iff (Text.isTrimmed_trim first)).mpr hf,
            ih.mpr ⟨earlier, part, later, rfl, hearlier, hpart⟩]

/-- The commas of a list of fields cut it into its fields. -/
theorem exists_parts_of_listed
    {fields : List Field} {body : List Char} (h : Text.Listed Field.Spells fields body)
    {a b : List Char} (ha : Blanks a) (hb : Blanks b) :
    ∃ parts, SplitsInto (· == ',') 0 (a ++ body ++ b) parts ∧
      List.Forall₂ (fun part (f : Field) => f.Spells (Text.trim part)) parts fields := by
  induction h generalizing a with
  | @last f s hs =>
      have huncut := ((uncut_of_blanks ha).append hs.uncut).append (uncut_of_blanks hb)
      refine ⟨[a ++ s ++ b], .last huncut.1, .cons ?_ .nil⟩
      rwa [Text.trim_append ha hs.isTrimmed hb]
  | @more f rest s before after body hs hbefore hafter _ ih =>
      obtain ⟨parts, hsplit, hparts⟩ := ih hafter
      have huncut := ((uncut_of_blanks ha).append hs.uncut).append (uncut_of_blanks hbefore)
      have hcomma : Separates (· == ',') (depthAfter 0 (a ++ s ++ before)) ',' := by
        rw [huncut.2]
        decide
      refine ⟨(a ++ s ++ before) :: parts, ?_, .cons ?_ hparts⟩
      · simpa using SplitsInto.cut huncut.1 hcomma hsplit
      · rwa [Text.trim_append ha hs.isTrimmed hbefore]

/-- The parts between the commas form a list when all of them are fields. -/
theorem exists_listed_of_parts
    {depth : Nat} {s : List Char} {parts : List (List Char)} {fields : List Field}
    (h : SplitsInto (· == ',') depth s parts)
    (hparts : List.Forall₂ (fun part (f : Field) => f.Spells (Text.trim part)) parts fields) :
    ∃ a body b, Blanks a ∧ Text.Listed Field.Spells fields body ∧ Blanks b ∧
      s = a ++ body ++ b := by
  induction h generalizing fields with
  | @last _ part _ =>
      obtain ⟨f, _, hf, hnil, rfl⟩ := List.forall₂_cons_left_iff.mp hparts
      obtain rfl := List.forall₂_nil_left_iff.mp hnil
      obtain ⟨a, b, ha, hb, hpart⟩ := Text.exists_blanks_trim part
      exact ⟨a, Text.trim part, b, ha, .last hf, hb, hpart⟩
  | @cut _ part rest c _ _ hc _ ih =>
      obtain ⟨f, _, hf, hrest, rfl⟩ := List.forall₂_cons_left_iff.mp hparts
      obtain ⟨after, body, b, hafter, hbody, hb, rfl⟩ := ih hrest
      obtain ⟨a, before, ha, hbefore, hpart⟩ := Text.exists_blanks_trim part
      -- The blanks that trimming takes from the parts stand around the comma.
      obtain rfl : c = ',' := by simpa using hc.2.1
      refine ⟨a, _, b, ha, .more hf hbefore hafter hbody, hb, ?_⟩
      conv_lhs => rw [hpart]
      simp

/-- A text is read as a field list exactly when it is a list of these fields between
blanks. -/
theorem parseFields_split_eq_ok_iff
    {line : String} {s : List Char} {fields : List Field} :
    parseFields line (splitTopLevel (· == ',') (Text.trim s)) = .ok fields ↔
      ∃ a body b, Blanks a ∧ Text.Listed Field.Spells fields body ∧ Blanks b ∧
        s = a ++ body ++ b := by
  rw [parseFields_eq_ok_iff]
  constructor
  · intro h
    obtain ⟨front, body, back, hfront, hbody, hback, htrim⟩ :=
      exists_listed_of_parts (splitTopLevel_eq_iff.mp rfl) h
    obtain ⟨a, b, ha, hb, hs⟩ := Text.exists_blanks_trim s
    refine ⟨a ++ front, body, back ++ b, Text.blanks_append_iff.mpr ⟨ha, hfront⟩, hbody,
      Text.blanks_append_iff.mpr ⟨hback, hb⟩, ?_⟩
    rw [htrim] at hs
    simpa using hs
  · rintro ⟨a, body, b, ha, hbody, hb, rfl⟩
    rw [Text.trim_append ha hbody.isTrimmed_fields.2 hb]
    obtain ⟨parts, hsplit, hparts⟩ :=
      exists_parts_of_listed hbody Text.blanks_nil Text.blanks_nil
    rw [List.nil_append, List.append_nil, ← splitTopLevel_eq_iff] at hsplit
    rwa [hsplit]

/-! ## Reading rows -/

theorem not_isMark_colon : ¬TypeRef.IsMark ':' := by
  unfold TypeRef.IsMark
  decide

theorem colon_notMem_of_blanks {s : List Char} (h : Blanks s) : ':' ∉ s :=
  fun hc => not_isMark_colon (Or.inr (Or.inl (h _ hc)))

theorem colon_notMem_of_isIdentifier {name : String} (h : Name.isIdentifier name = true) :
    ':' ∉ name.toList :=
  fun hc => not_isMark_colon (Or.inl (Name.isTail_of_mem h hc))

theorem colon_notMem_of_listed
    {fields : List Field} {body : List Char} (h : Text.Listed Field.Spells fields body) :
    ':' ∉ body := by
  have hmarks := h.forall_mem (p := TypeRef.IsMark) (by simp [TypeRef.IsMark])
    (fun c hc => Or.inr (Or.inl hc)) fun f _ s hs => hs.isMark
  exact fun hc => not_isMark_colon (hmarks _ hc)

/-- The only colon of a spelling is the one behind the class. -/
theorem spells_iff {n : Node} {s : List Char} :
    n.Spells s ↔
      ∃ before after, CutsAtColon s before after ∧ Name.isIdentifier n.className = true ∧
        Text.trim before = n.className.toList ∧
        ∃ c body d, Blanks c ∧ Text.Listed Field.Spells n.fields body ∧ Blanks d ∧
          after = c ++ body ++ d := by
  constructor
  · rintro ⟨ha, hclass, hb, hc, hfields, hd⟩
    refine ⟨_, _, ⟨rfl, ?_, ?_⟩, hclass,
      Text.trim_append ha (Name.isTrimmed_of_isIdentifierText hclass) hb,
      _, _, _, hc, hfields, hd, rfl⟩
    · simp only [List.mem_append, not_or]
      exact ⟨⟨colon_notMem_of_blanks ha, colon_notMem_of_isIdentifier hclass⟩,
        colon_notMem_of_blanks hb⟩
    · simp only [List.mem_append, not_or]
      exact ⟨⟨colon_notMem_of_blanks hc, colon_notMem_of_listed hfields⟩,
        colon_notMem_of_blanks hd⟩
  · rintro ⟨before, after, ⟨rfl, -, -⟩, hclass, htrim, c, body, d, hc, hfields, hd, rfl⟩
    obtain ⟨a, b, ha, hb, hbefore⟩ := Text.exists_blanks_trim before
    rw [htrim] at hbefore
    rw [hbefore]
    exact .mk ha hclass hb hc hfields hd

/-- The reasons why a line is not a row.  There is not exactly one colon; or the text before
it is not an identifier; or there is a first part between the commas, outside angle
brackets, that is not a field. -/
inductive RowFault (line : String) : Fault → Prop
  | missingSeparator (h : line.toList.count ':' ≠ 1) :
      RowFault line (.missingSeparator line)
  | invalidClassName {before after : List Char} (hcolon : CutsAtColon line.toList before after)
      (hclass : Name.isIdentifierText (Text.trim before) = false) :
      RowFault line (.invalidClassName line (String.ofList (Text.trim before)))
  | notField {before after part : List Char} {earlier later : List (List Char)} {fault : Fault}
      (hcolon : CutsAtColon line.toList before after)
      (hclass : Name.isIdentifierText (Text.trim before) = true)
      (hparts : SplitsInto (· == ',') 0 (Text.trim after) (earlier ++ part :: later))
      (hearlier : ∀ p ∈ earlier, ∃ f : Field, f.Spells (Text.trim p))
      (hpart : ∀ f : Field, ¬f.Spells (Text.trim part))
      (hfault : FieldFault line (Text.trim part) fault) : RowFault line fault

theorem FieldFault.not_spells
    {line : String} {part : List Char} {fault : Fault}
    (h : FieldFault line (Text.trim part) fault) (f : Field) : ¬f.Spells (Text.trim part) := by
  intro hf
  have herror := (parseField_eq_error_iff (Text.isTrimmed_trim part)).mpr h
  rw [(parseField_eq_ok_iff (Text.isTrimmed_trim part)).mpr hf] at herror
  simp at herror

theorem parse_of_cutsAtColon
    {line : String} {before after : List Char} (h : CutsAtColon line.toList before after) :
    parse line =
      if Name.isIdentifierText (Text.trim before) then
        match parseFields line (splitTopLevel (· == ',') (Text.trim after)) with
        | .error fault => .error fault
        | .ok fields => .ok ⟨String.ofList (Text.trim before), fields⟩
      else
        .error (.invalidClassName line (String.ofList (Text.trim before))) := by
  have hcolon := splitAtColon?_eq_some_iff.mpr h
  unfold parse
  split
  next hnone => simp [hcolon] at hnone
  next first second hfound =>
    rw [hcolon] at hfound
    obtain ⟨rfl, rfl⟩ := Prod.mk.inj (Option.some.inj hfound)
    rfl

theorem parse_of_count_ne
    {line : String} (h : line.toList.count ':' ≠ 1) :
    parse line = .error (.missingSeparator line) := by
  unfold parse
  rw [splitAtColon?_eq_none_iff.mpr h]

/-- A line is read as a node exactly when it is a spelling of the node. -/
theorem parse_eq_ok_iff {line : String} {n : Node} : parse line = .ok n ↔ n.Spells line.toList := by
  rw [spells_iff]
  constructor
  · intro h
    by_cases hcount : line.toList.count ':' = 1
    · obtain ⟨before, after, hcolon⟩ := exists_cutsAtColon_iff.mpr hcount
      rw [parse_of_cutsAtColon hcolon] at h
      split at h
      next hclass =>
        split at h
        next => simp at h
        next fields hfields =>
          obtain rfl := Except.ok.inj h
          refine ⟨before, after, hcolon, ?_, by simp, parseFields_split_eq_ok_iff.mp hfields⟩
          rwa [Name.isIdentifier, String.toList_ofList]
      next => simp at h
    · rw [parse_of_count_ne hcount] at h
      simp at h
  · rintro ⟨before, after, hcolon, hclass, htrim, hfields⟩
    have hident : Name.isIdentifierText (Text.trim before) = true := by rwa [htrim]
    rw [parse_of_cutsAtColon hcolon, if_pos hident, parseFields_split_eq_ok_iff.mpr hfields, htrim,
      String.ofList_toList]

/-- The fault of a line that is not a row. -/
theorem parse_eq_error_iff {line : String} {fault : Fault} :
    parse line = .error fault ↔ RowFault line fault := by
  constructor
  · intro h
    by_cases hcount : line.toList.count ':' = 1
    · obtain ⟨before, after, hcolon⟩ := exists_cutsAtColon_iff.mpr hcount
      rw [parse_of_cutsAtColon hcolon] at h
      split at h
      next hclass =>
        split at h
        next hfields =>
          obtain rfl := Except.error.inj h
          obtain ⟨earlier, part, later, hparts, hearlier, hfault⟩ :=
            parseFields_eq_error_iff.mp hfields
          exact .notField hcolon hclass (splitTopLevel_eq_iff.mp hparts) hearlier
            hfault.not_spells hfault
        next => simp at h
      next hclass =>
        obtain rfl := Except.error.inj h
        exact .invalidClassName hcolon (Bool.eq_false_iff.mpr hclass)
    · rw [parse_of_count_ne hcount] at h
      obtain rfl := Except.error.inj h
      exact .missingSeparator hcount
  · intro h
    cases h with
    | missingSeparator hcount => exact parse_of_count_ne hcount
    | invalidClassName hcolon hclass => rw [parse_of_cutsAtColon hcolon, if_neg (by simp [hclass])]
    | @notField _ _ part earlier later _ hcolon hclass hparts hearlier _ hfault =>
        have hfields := parseFields_eq_error_iff.mpr ⟨earlier, part, later, rfl, hearlier, hfault⟩
        rw [parse_of_cutsAtColon hcolon, if_pos hclass, splitTopLevel_eq_iff.mpr hparts, hfields]

/-- The reader of rows accepts the spellings of nodes and nothing else, and it reports the
first thing that is wrong with any other line. -/
theorem parse_accepts_exactly (line : String) :
    (∀ n : Node, parse line = .ok n ↔ n.Spells line.toList) ∧
      ∀ fault, parse line = .error fault ↔ RowFault line fault :=
  ⟨fun _ => parse_eq_ok_iff, fun _ => parse_eq_error_iff⟩

end Row

end Treewright
