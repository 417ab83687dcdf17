import Mathlib.Data.List.Forall2
import Mathlib.Data.String.Basic
import Treewright.Proofs.TopLevel

/-!
# Where the parts of a text stand

A text need not be copied to be split.  `extents` walks over it with the byte offset at which the
current part begins and the one at which the rest of the text begins, and it cuts the part out
between the two.  Characters differ in width, so an offset might lie within a character.

None does, since both are always the width of some front of the text.  What lies between them
are the parts that splitting gives, and nothing is lost between the parts but the separators.
-/

namespace Treewright.Row

/-! ## Offsets -/

/-- Two byte offsets of a text. -/
structure Extent where
  start : String.Pos.Raw
  stop : String.Pos.Raw
deriving DecidableEq

namespace Extent

/-- Both offsets lie on boundaries of characters of the text, in order. -/
def Within (e : Extent) (s : String) : Prop :=
  e.start.IsValid s ∧ e.stop.IsValid s ∧ e.start ≤ e.stop

/-- What stands between the offsets. -/
def text (e : Extent) (s : String) : String :=
  e.start.extract s e.stop

end Extent

/-- Walks over a text whose rest begins at the offset `here`, and cuts it at the separators that
stand outside all angle brackets.  The current part begins at `start`. -/
def extentsFrom (isSeparator : Char → Bool) (depth : Nat) (start here : String.Pos.Raw) :
    List Char → List Extent
  | [] => [⟨start, here⟩]
  | c :: rest =>
    if c = '<' then extentsFrom isSeparator (depth + 1) start (here + c) rest
    else if c = '>' then extentsFrom isSeparator (depth - 1) start (here + c) rest
    else if depth = 0 ∧ isSeparator c then
      ⟨start, here⟩ :: extentsFrom isSeparator 0 (here + c) (here + c) rest
    else extentsFrom isSeparator depth start (here + c) rest

/-- The extents of the parts of a text. -/
def extents (isSeparator : Char → Bool) (s : String) : List Extent :=
  extentsFrom isSeparator 0 0 0 s.toList

/-- The offset behind a front of a text. -/
def offset (front : List Char) : String.Pos.Raw :=
  ⟨String.utf8Len front⟩

theorem offset_add (front : List Char) (c : Char) : offset front + c = offset (front ++ [c]) := by
  simp [offset, String.Pos.Raw.ext_iff]

/-- The part stands between the two offsets. -/
def Extent.Covers (e : Extent) (s : String) (part : List Char) : Prop :=
  ∃ front back, s.toList = front ++ part ++ back ∧ e = ⟨offset front, offset (front ++ part)⟩

theorem isValid_offset {s : String} {front back : List Char} (h : s.toList = front ++ back) :
    (offset front).IsValid s := by
  rw [String.Pos.Raw.isValid_iff_exists_append]
  refine ⟨String.ofList front, String.ofList back, ?_, ?_⟩
  · rw [← String.ofList_append, ← h, String.ofList_toList]
  · rw [String.rawEndPos_ofList, offset]

theorem Extent.Covers.within {e : Extent} {s : String} {part : List Char} (h : e.Covers s part) :
    e.Within s := by
  obtain ⟨front, back, hs, rfl⟩ := h
  refine ⟨isValid_offset (hs.trans (List.append_assoc _ _ _)), isValid_offset hs, ?_⟩
  simp [offset, String.Pos.Raw.le_iff]

theorem Extent.Covers.toList_text {e : Extent} {s : String} {part : List Char}
    (h : e.Covers s part) : (e.text s).toList = part := by
  obtain ⟨front, back, hs, rfl⟩ := h
  have hcut := String.extract_of_valid front part back
  rw [← hs, String.ofList_toList] at hcut
  rw [Extent.text, offset, offset, String.utf8Len_append, hcut, String.toList_ofList]

/-! ## The walk with offsets -/

variable {isSeparator : Char → Bool} {depth : Nat}

theorem extentsFrom_cons (isSeparator : Char → Bool) (depth : Nat) (start here : String.Pos.Raw)
    (c : Char) (rest : List Char) :
    extentsFrom isSeparator depth start here (c :: rest) =
      if Separates isSeparator depth c then
        ⟨start, here⟩ :: extentsFrom isSeparator 0 (here + c) (here + c) rest
      else
        extentsFrom isSeparator (depthStep depth c) start (here + c) rest :=
  step_eq isSeparator depth c
    (fun inner => extentsFrom isSeparator inner start (here + c) rest) _

theorem extentsFrom_of_solid {part : List Char} (h : Solid isSeparator depth part)
    (start : String.Pos.Raw) (front : List Char) :
    extentsFrom isSeparator depth start (offset front) part =
      [⟨start, offset (front ++ part)⟩] := by
  induction part generalizing depth front with
  | nil => rw [extentsFrom, List.append_nil]
  | cons c part ih =>
      obtain ⟨hc, hpart⟩ := solid_cons_iff.mp h
      rw [extentsFrom_cons, if_neg hc, offset_add, ih hpart, List.append_assoc,
        List.singleton_append]

theorem extentsFrom_of_separates {part rest : List Char} {c : Char}
    (h : Solid isSeparator depth part) (hc : Separates isSeparator (depthAfter depth part) c)
    (start : String.Pos.Raw) (front : List Char) :
    extentsFrom isSeparator depth start (offset front) (part ++ c :: rest) =
      ⟨start, offset (front ++ part)⟩ ::
        extentsFrom isSeparator 0 (offset (front ++ part ++ [c])) (offset (front ++ part ++ [c]))
          rest := by
  induction part generalizing depth front with
  | nil =>
      rw [depthAfter_nil] at hc
      rw [List.nil_append, extentsFrom_cons, if_pos hc, offset_add, List.append_nil]
  | cons d part ih =>
      obtain ⟨hd, hpart⟩ := solid_cons_iff.mp h
      rw [List.cons_append, extentsFrom_cons, if_neg hd, offset_add, ih hpart hc,
        List.append_assoc front, List.singleton_append]

/-- The walk finds where the parts of a text stand. -/
theorem SplitsInto.forall₂_covers {s : String} {rest : List Char} {parts : List (List Char)}
    (h : SplitsInto isSeparator depth rest parts) {front : List Char}
    (hs : s.toList = front ++ rest) :
    List.Forall₂ (fun e part => e.Covers s part)
      (extentsFrom isSeparator depth (offset front) (offset front) rest) parts := by
  induction h generalizing front with
  | @last depth part hpart =>
      rw [extentsFrom_of_solid hpart]
      exact .cons ⟨front, [], by simpa using hs, rfl⟩ .nil
  | @cut depth part rest c parts hpart hc _ ih =>
      rw [extentsFrom_of_separates hpart hc]
      exact .cons ⟨front, c :: rest, by simpa using hs, rfl⟩ (ih (by simpa using hs))

theorem forall₂_covers_extents (isSeparator : Char → Bool) (s : String) :
    List.Forall₂ (fun e part => e.Covers s part) (extents isSeparator s)
      (splitTopLevel isSeparator s.toList) :=
  (splitsInto_splitAtDepth isSeparator 0 s.toList).forall₂_covers (List.nil_append _).symm

/-! ## What stands between the parts -/

/-- The parts of a text with characters put between them. -/
def interleave : List (List Char) → List Char → List Char
  | parts, [] => parts.flatten
  | [], c :: between => c :: between
  | part :: parts, c :: between => part ++ c :: interleave parts between

/-- The separators of a text that stand outside all brackets, with their places. -/
def cuts (isSeparator : Char → Bool) (s : List Char) : List (Char × Nat) :=
  s.zipIdx.filter fun p => Separates isSeparator (depthAfter 0 (s.take p.2)) p.1

theorem map_fst_filter_zipIdx (isSeparator : Char → Bool) (depth : Nat) (s : List Char) :
    (s.zipIdx.filter fun p =>
      Separates isSeparator (depthAfter depth (s.take p.2)) p.1).map (·.1) =
      separators isSeparator depth s := by
  induction s generalizing depth with
  | nil => rfl
  | cons c rest ih =>
      -- Behind the first character, all places are one further and `c` is in front of them.
      have hshift : ((fun p => decide
            (Separates isSeparator (depthAfter depth ((c :: rest).take p.2)) p.1)) ∘
              fun p : Char × Nat => (p.1, p.2 + 1)) =
          fun p => decide
            (Separates isSeparator (depthAfter (depthStep depth c) (rest.take p.2)) p.1) := rfl
      rw [List.zipIdx_cons, List.zipIdx_succ, List.filter_cons, List.filter_map, separators, ← ih,
        hshift]
      by_cases hc : Separates isSeparator depth c
      · simp [hc]
      · simp [hc]

theorem map_fst_cuts (isSeparator : Char → Bool) (s : List Char) :
    (cuts isSeparator s).map (·.1) = separators isSeparator 0 s :=
  map_fst_filter_zipIdx isSeparator 0 s

theorem separators_of_separates {part rest : List Char} {c : Char}
    (h : Solid isSeparator depth part) (hc : Separates isSeparator (depthAfter depth part) c) :
    separators isSeparator depth (part ++ c :: rest) = c :: separators isSeparator 0 rest := by
  rw [separators_append, h, List.nil_append, separators, if_pos hc, hc.depthStep_eq]

theorem SplitsInto.interleave_eq {s : List Char} {parts : List (List Char)}
    (h : SplitsInto isSeparator depth s parts) :
    interleave parts (separators isSeparator depth s) = s := by
  induction h with
  | last hpart => rw [hpart, interleave, List.flatten_singleton]
  | cut hpart hc _ ih => rw [separators_of_separates hpart hc, interleave, ih]

theorem SplitsInto.length_eq {s : List Char} {parts : List (List Char)}
    (h : SplitsInto isSeparator depth s parts) :
    parts.length = (separators isSeparator depth s).length + 1 := by
  induction h with
  | last hpart => rw [hpart, List.length_singleton, List.length_nil]
  | cut hpart hc _ ih =>
      rw [separators_of_separates hpart hc, List.length_cons, List.length_cons, ih]

/-- Nothing separates in the parts, outside all brackets. -/
theorem SplitsInto.solid_of_mem {s : List Char} {parts : List (List Char)}
    (h : SplitsInto isSeparator depth s parts) (hdepth : depth = 0) :
    ∀ part ∈ parts, Solid isSeparator 0 part := by
  induction h with
  | last hpart =>
      subst hdepth
      exact List.forall_mem_singleton.mpr hpart
  | cut hpart _ _ ih =>
      subst hdepth
      exact List.forall_mem_cons.mpr ⟨hpart, ih rfl⟩

/-- A part has no separator left to split it at. -/
theorem splitTopLevel_of_mem {s part : List Char} (h : part ∈ splitTopLevel isSeparator s) :
    splitTopLevel isSeparator part = [part] :=
  splitAtDepth_of_solid ((splitsInto_splitAtDepth isSeparator 0 s).solid_of_mem rfl part h)

/-- Splitting cuts a text at boundaries of characters, and it loses nothing.  The parts with the
separators between them are the text again, and there is one part more than there are separators
outside all brackets.  A part is not split any further. -/
theorem splitTopLevel_loses_nothing (isSeparator : Char → Bool) (s : String) :
    (∀ e ∈ extents isSeparator s, e.Within s) ∧
      (extents isSeparator s).map (fun e => (e.text s).toList) =
        splitTopLevel isSeparator s.toList ∧
      interleave (splitTopLevel isSeparator s.toList)
        ((cuts isSeparator s.toList).map (·.1)) = s.toList ∧
      (splitTopLevel isSeparator s.toList).length = (cuts isSeparator s.toList).length + 1 ∧
      ∀ part ∈ splitTopLevel isSeparator s.toList, splitTopLevel isSeparator part = [part] := by
  have hsplit := splitsInto_splitAtDepth isSeparator 0 s.toList
  have hparts := (forall₂_covers_extents isSeparator s).imp
    fun e part h => And.intro h.within h.toList_text
  obtain ⟨hwithin, htexts⟩ := (List.forall₂_and_left _ _).mp hparts
  refine ⟨hwithin, ?_, ?_, ?_, fun part => splitTopLevel_of_mem⟩
  · rw [← List.forall₂_eq_eq_eq, List.forall₂_map_left_iff]
    exact htexts
  · rw [map_fst_cuts]
    exact hsplit.interleave_eq
  · have hcount : (separators isSeparator 0 s.toList).length =
        (cuts isSeparator s.toList).length := by
      rw [← map_fst_cuts, List.length_map]
    rw [← hcount]
    exact hsplit.length_eq

/-- The first bracket closes nothing, so the comma behind it separates.  The one between the
other two brackets does not. -/
theorem splitTopLevel_loses_nothing_wideCharacters :
    (⟨⟨4⟩, ⟨18⟩⟩ : Extent) ∈ extents (· == ',') "é>,Map<λ,字>\u3000,x" ∧
      "Map<λ,字>\u3000".toList ∈ splitTopLevel (· == ',') "é>,Map<λ,字>\u3000,x".toList ∧
      (⟨⟨4⟩, ⟨18⟩⟩ : Extent).Within "é>,Map<λ,字>\u3000,x" ∧
      (splitTopLevel (· == ',') "é>,Map<λ,字>\u3000,x".toList).length = 3 ∧
      splitTopLevel (· == ',') "Map<λ,字>\u3000".toList = ["Map<λ,字>\u3000".toList] := by
  have hextent : (⟨⟨4⟩, ⟨18⟩⟩ : Extent) ∈ extents (· == ',') "é>,Map<λ,字>\u3000,x" := by
    decide
  have hpart : "Map<λ,字>\u3000".toList ∈
      splitTopLevel (· == ',') "é>,Map<λ,字>\u3000,x".toList := by
    decide
  have hcuts : (cuts (· == ',') "é>,Map<λ,字>\u3000,x".toList).length = 2 := by
    decide
  obtain ⟨hwithin, -, -, hlength, hparts⟩ :=
    splitTopLevel_loses_nothing (· == ',') "é>,Map<λ,字>\u3000,x"
  rw [hcuts] at hlength
  exact ⟨hextent, hpart, hwithin _ hextent, hlength, hparts _ hpart⟩

end Treewright.Row
