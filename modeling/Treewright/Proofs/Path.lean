import Mathlib.Data.List.Basic
import Mathlib.Order.Nat
import Treewright.Files.Path

/-!
# Parts of paths

A path is cut at its slashes.  A part is never longer than the path, which is what makes a
name that is longer than every path in use a new one.  A plain name has no slash and is not
a way to a directory, so that joining it to a directory adds it as the last part.
-/

namespace Treewright.Path

/-! ## Cutting at slashes -/

theorem splitSlashes_ne_nil (s : List Char) : splitSlashes s ≠ [] := by
  cases s with
  | nil => simp [splitSlashes]
  | cons c rest =>
      rw [splitSlashes]
      split
      · simp
      · split <;> simp

theorem splitSlashes_cons_of_ne {c : Char} (hc : c ≠ '/') {rest part : List Char}
    {parts : List (List Char)} (h : splitSlashes rest = part :: parts) :
    splitSlashes (c :: rest) = (c :: part) :: parts := by
  rw [splitSlashes, if_neg hc, h]

theorem splitSlashes_append_slash (a b : List Char) :
    splitSlashes (a ++ '/' :: b) = splitSlashes a ++ splitSlashes b := by
  induction a with
  | nil => simp [splitSlashes]
  | cons c rest ih =>
      by_cases hc : c = '/'
      · rw [List.cons_append, splitSlashes, if_pos hc, ih, splitSlashes, if_pos hc,
          List.cons_append]
      · obtain ⟨part, parts, hparts⟩ := List.exists_cons_of_ne_nil (splitSlashes_ne_nil rest)
        rw [hparts, List.cons_append] at ih
        rw [List.cons_append, splitSlashes_cons_of_ne hc ih, splitSlashes_cons_of_ne hc hparts,
          List.cons_append]

theorem splitSlashes_of_not_mem {s : List Char} (h : '/' ∉ s) : splitSlashes s = [s] := by
  induction s with
  | nil => rw [splitSlashes]
  | cons c rest ih =>
      rw [List.mem_cons, not_or] at h
      exact splitSlashes_cons_of_ne (Ne.symm h.1) (ih h.2)

theorem length_le_of_mem_splitSlashes {s part : List Char} (h : part ∈ splitSlashes s) :
    part.length ≤ s.length := by
  induction s generalizing part with
  | nil =>
      rw [splitSlashes, List.mem_singleton] at h
      rw [h]
  | cons c rest ih =>
      by_cases hc : c = '/'
      · rw [splitSlashes, if_pos hc, List.mem_cons] at h
        rcases h with rfl | h
        · simp
        · exact (ih h).trans (Nat.le_succ _)
      · obtain ⟨first, parts, hparts⟩ := List.exists_cons_of_ne_nil (splitSlashes_ne_nil rest)
        rw [hparts] at ih
        rw [splitSlashes_cons_of_ne hc hparts, List.mem_cons] at h
        rcases h with rfl | h
        · exact Nat.succ_le_succ (ih List.mem_cons_self)
        · exact (ih (List.mem_cons_of_mem _ h)).trans (Nat.le_succ _)

theorem length_le_of_mem_rawParts {path part : String} (h : part ∈ rawParts path) :
    part.length ≤ path.length := by
  obtain ⟨text, htext, rfl⟩ := List.mem_map.mp h
  rw [String.length_ofList, ← String.length_toList]
  exact length_le_of_mem_splitSlashes (List.mem_filter.mp htext).1

/-! ## Plain names -/

/-- A plain name stands for a file in the directory it is joined to. -/
structure IsPlain (name : String) : Prop where
  ne_empty : name ≠ ""
  ne_dot : name ≠ "."
  ne_dots : name ≠ ".."
  slash_not_mem : '/' ∉ name.toList
  holdsNul_eq_false : holdsNul name = false

variable {dir name : String}

theorem IsPlain.isAbsolute_eq_false (h : IsPlain name) : isAbsolute name = false := by
  unfold isAbsolute
  cases htext : name.toList with
  | nil => rfl
  | cons c rest =>
      have hc : c ≠ '/' := by
        rintro rfl
        exact h.slash_not_mem (htext ▸ List.mem_cons_self)
      simpa using hc

/-- Joining puts one slash between a directory and a plain name, or keeps the one that is
there. -/
theorem IsPlain.exists_toList_join (h : IsPlain name) (hdir : dir ≠ "") :
    ∃ before, (join dir name).toList = before ++ '/' :: name.toList ∧
      (dir.toList = before ∨ dir.toList = before ++ ['/']) := by
  have hempty : dir.isEmpty = false := by simpa using hdir
  unfold join
  rw [h.isAbsolute_eq_false, hempty, Bool.or_false, if_neg Bool.false_ne_true]
  by_cases hslash : endsWithSlash dir = true
  · rw [if_pos hslash, String.toList_append]
    rw [endsWithSlash, beq_iff_eq, List.getLast?_eq_some_iff] at hslash
    obtain ⟨before, hbefore⟩ := hslash
    exact ⟨before, by simp [hbefore], Or.inr hbefore⟩
  · rw [if_neg hslash]
    exact ⟨dir.toList, by simp, Or.inl rfl⟩

theorem IsPlain.rawParts_join (h : IsPlain name) (hdir : dir ≠ "") :
    rawParts (join dir name) = rawParts dir ++ [name] := by
  have hname : name.toList ≠ [] := by simpa using h.ne_empty
  obtain ⟨before, hjoin, hbefore | hbefore⟩ := h.exists_toList_join hdir
  · simp [rawParts, hjoin, hbefore, splitSlashes_append_slash,
      splitSlashes_of_not_mem h.slash_not_mem, hname]
  · simp [rawParts, hjoin, hbefore, splitSlashes_append_slash,
      splitSlashes_of_not_mem h.slash_not_mem, splitSlashes, hname]

theorem IsPlain.endsWithSlash_join (h : IsPlain name) (hdir : dir ≠ "") :
    endsWithSlash (join dir name) = false := by
  have hname : name.toList ≠ [] := by simpa using h.ne_empty
  obtain ⟨before, hjoin, -⟩ := h.exists_toList_join hdir
  have hlast : (join dir name).toList.getLast? = name.toList.getLast? := by
    rw [hjoin, List.getLast?_append_cons, List.getLast?_cons_of_ne_nil hname]
  unfold endsWithSlash
  rw [hlast, beq_eq_false_iff_ne]
  intro hslash
  exact h.slash_not_mem (List.mem_of_getLast? hslash)

theorem IsPlain.holdsNul_join (h : IsPlain name) (hdir : dir ≠ "") :
    holdsNul (join dir name) = holdsNul dir := by
  have hname := h.holdsNul_eq_false
  unfold holdsNul at hname ⊢
  obtain ⟨before, hjoin, hbefore | hbefore⟩ := h.exists_toList_join hdir
  · simp [hjoin, hbefore, hname]
  · simp [hjoin, hbefore, hname]

theorem IsPlain.join_ne_empty (h : IsPlain name) (hdir : dir ≠ "") : join dir name ≠ "" := by
  obtain ⟨before, hjoin, -⟩ := h.exists_toList_join hdir
  intro hempty
  simp [hempty] at hjoin

end Treewright.Path
