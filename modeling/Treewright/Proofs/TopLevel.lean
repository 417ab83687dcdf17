import Treewright.Row

/-!
# Splitting outside angle brackets

A text is split at the separators that stand outside all brackets.  The walk that splits
carries the number of open brackets along, and one step of it is described by two facts:
how a character changes that number, and whether it separates where it stands.

`SplitsInto` says without the walk what the parts are: no part has a separator outside all
brackets, and a separator stands between any two neighbours.  The parts of a text are
determined by this, and the walk finds them.
-/

namespace Treewright.Row

/-! ## Open brackets -/

/-- The number of open brackets after a character.  A closing bracket outside all brackets
closes nothing. -/
def depthStep (depth : Nat) (c : Char) : Nat :=
  if c = '<' then depth + 1
  else if c = '>' then depth - 1
  else depth

/-- The number of open brackets after a text. -/
def depthAfter (depth : Nat) (s : List Char) : Nat :=
  s.foldl depthStep depth

@[simp] theorem depthAfter_nil (depth : Nat) : depthAfter depth [] = depth := rfl

@[simp] theorem depthAfter_cons (depth : Nat) (c : Char) (rest : List Char) :
    depthAfter depth (c :: rest) = depthAfter (depthStep depth c) rest := rfl

@[simp] theorem depthAfter_append (depth : Nat) (s t : List Char) :
    depthAfter depth (s ++ t) = depthAfter (depthAfter depth s) t :=
  List.foldl_append

theorem depthStep_of_ne {c : Char} (hopen : c ≠ '<') (hclose : c ≠ '>') (depth : Nat) :
    depthStep depth c = depth := by
  rw [depthStep, if_neg hopen, if_neg hclose]

theorem depthAfter_eq_self
    {s : List Char} (h : ∀ c ∈ s, c ≠ '<' ∧ c ≠ '>') (depth : Nat) :
    depthAfter depth s = depth := by
  induction s generalizing depth with
  | nil => rfl
  | cons c rest ih =>
      obtain ⟨hopen, hclose⟩ := h c List.mem_cons_self
      rw [depthAfter_cons, depthStep_of_ne hopen hclose]
      exact ih (fun d hd => h d (List.mem_cons_of_mem c hd)) depth

/-! ## Separators -/

/-- A character separates where `depth` brackets are open if these are none, and brackets
never do. -/
def Separates (isSeparator : Char → Bool) (depth : Nat) (c : Char) : Prop :=
  depth = 0 ∧ isSeparator c = true ∧ c ≠ '<' ∧ c ≠ '>'

instance (isSeparator : Char → Bool) (depth : Nat) (c : Char) :
    Decidable (Separates isSeparator depth c) := by
  unfold Separates
  infer_instance

/-- The separators of a text that stand outside all brackets. -/
def separators (isSeparator : Char → Bool) (depth : Nat) : List Char → List Char
  | [] => []
  | c :: rest =>
    if Separates isSeparator depth c then
      c :: separators isSeparator (depthStep depth c) rest
    else
      separators isSeparator (depthStep depth c) rest

/-- No character of the text separates. -/
def Solid (isSeparator : Char → Bool) (depth : Nat) (s : List Char) : Prop :=
  separators isSeparator depth s = []

variable {isSeparator : Char → Bool} {depth : Nat}

theorem Separates.depthStep_eq {c : Char} (h : Separates isSeparator depth c) :
    depthStep depth c = 0 := by
  rw [depthStep_of_ne h.2.2.1 h.2.2.2]
  exact h.1

/-- A step of a walk looks for the two brackets first and for separators then.  It cuts at the
characters that separate, and it goes on with the number of open brackets at all others. -/
theorem step_eq {α : Type} (isSeparator : Char → Bool) (depth : Nat) (c : Char)
    (inside : Nat → α) (cut : α) :
    (if c = '<' then inside (depth + 1)
      else if c = '>' then inside (depth - 1)
      else if depth = 0 ∧ isSeparator c then cut
      else inside depth) =
      if Separates isSeparator depth c then cut else inside (depthStep depth c) := by
  by_cases hopen : c = '<'
  · have hnot : ¬Separates isSeparator depth c := fun h => h.2.2.1 hopen
    rw [if_pos hopen, if_neg hnot, depthStep, if_pos hopen]
  · by_cases hclose : c = '>'
    · have hnot : ¬Separates isSeparator depth c := fun h => h.2.2.2 hclose
      rw [if_neg hopen, if_pos hclose, if_neg hnot, depthStep, if_neg hopen, if_pos hclose]
    · rw [if_neg hopen, if_neg hclose, depthStep_of_ne hopen hclose]
      by_cases hc : depth = 0 ∧ isSeparator c
      · have hsep : Separates isSeparator depth c := ⟨hc.1, hc.2, hopen, hclose⟩
        rw [if_pos hc, if_pos hsep]
      · have hnot : ¬Separates isSeparator depth c := fun h => hc ⟨h.1, h.2.1⟩
        rw [if_neg hc, if_neg hnot]

theorem splitAtDepth_cons (isSeparator : Char → Bool) (depth : Nat) (c : Char)
    (rest : List Char) :
    splitAtDepth isSeparator depth (c :: rest) =
      if Separates isSeparator depth c then
        [] :: splitAtDepth isSeparator 0 rest
      else
        pushFront c (splitAtDepth isSeparator (depthStep depth c) rest) :=
  step_eq isSeparator depth c (fun inner => pushFront c (splitAtDepth isSeparator inner rest)) _

theorem separators_append (isSeparator : Char → Bool) (depth : Nat) (s t : List Char) :
    separators isSeparator depth (s ++ t) =
      separators isSeparator depth s ++ separators isSeparator (depthAfter depth s) t := by
  induction s generalizing depth with
  | nil => rfl
  | cons c rest ih =>
      rw [List.cons_append, separators, separators, ih, depthAfter_cons]
      split <;> rfl

@[simp] theorem solid_nil : Solid isSeparator depth [] := rfl

theorem solid_cons_iff {c : Char} {rest : List Char} :
    Solid isSeparator depth (c :: rest) ↔
      ¬Separates isSeparator depth c ∧ Solid isSeparator (depthStep depth c) rest := by
  rw [Solid, separators]
  by_cases hc : Separates isSeparator depth c
  · simp [hc]
  · simp [hc, Solid]

theorem solid_append_iff {s t : List Char} :
    Solid isSeparator depth (s ++ t) ↔
      Solid isSeparator depth s ∧ Solid isSeparator (depthAfter depth s) t := by
  rw [Solid, separators_append, List.append_eq_nil_iff, Solid, Solid]

theorem solid_of_forall
    {s : List Char} (h : ∀ c ∈ s, isSeparator c = false) : Solid isSeparator depth s := by
  induction s generalizing depth with
  | nil => exact solid_nil
  | cons c rest ih =>
      rw [solid_cons_iff]
      constructor
      · rintro ⟨-, hsep, -⟩
        rw [h c List.mem_cons_self] at hsep
        simp at hsep
      · exact ih fun d hd => h d (List.mem_cons_of_mem c hd)

/-- Nothing cuts the text, and it closes the brackets that it opens. -/
def Uncut (isSeparator : Char → Bool) (s : List Char) : Prop :=
  Solid isSeparator 0 s ∧ depthAfter 0 s = 0

theorem Uncut.append
    {s t : List Char} (hs : Uncut isSeparator s) (ht : Uncut isSeparator t) :
    Uncut isSeparator (s ++ t) := by
  rw [Uncut, solid_append_iff, depthAfter_append, hs.2]
  exact ⟨⟨hs.1, ht.1⟩, ht.2⟩

theorem uncut_of_forall
    {s : List Char} (hsep : ∀ c ∈ s, isSeparator c = false) (h : ∀ c ∈ s, c ≠ '<' ∧ c ≠ '>') :
    Uncut isSeparator s :=
  ⟨solid_of_forall hsep, depthAfter_eq_self h 0⟩

/-! ## Balanced texts -/

/-- Inside a bracket nothing separates in the text, and the brackets that it opens are
closed again. -/
def Balanced (s : List Char) : Prop :=
  ∀ isSeparator depth, Solid isSeparator (depth + 1) s ∧ depthAfter (depth + 1) s = depth + 1

theorem balanced_of_no_brackets
    {s : List Char} (h : ∀ c ∈ s, c ≠ '<' ∧ c ≠ '>') : Balanced s := by
  intro isSeparator depth
  refine ⟨?_, depthAfter_eq_self h _⟩
  induction s with
  | nil => exact solid_nil
  | cons c rest ih =>
      obtain ⟨hopen, hclose⟩ := h c List.mem_cons_self
      rw [solid_cons_iff, depthStep_of_ne hopen hclose]
      exact ⟨fun hc => Nat.succ_ne_zero depth hc.1,
        ih fun d hd => h d (List.mem_cons_of_mem c hd)⟩

theorem Balanced.append
    {s t : List Char} (hs : Balanced s) (ht : Balanced t) : Balanced (s ++ t) := by
  intro isSeparator depth
  obtain ⟨hsolid, hdepth⟩ := hs isSeparator depth
  rw [solid_append_iff, depthAfter_append, hdepth]
  exact ⟨⟨hsolid, (ht isSeparator depth).1⟩, (ht isSeparator depth).2⟩

/-- A balanced text between brackets is solid at any depth. -/
theorem Balanced.enclosed
    {s : List Char} (h : Balanced s) (isSeparator : Char → Bool) (depth : Nat) :
    Solid isSeparator depth ('<' :: (s ++ ['>'])) ∧
      depthAfter depth ('<' :: (s ++ ['>'])) = depth := by
  obtain ⟨hsolid, hdepth⟩ := h isSeparator depth
  have hopen : depthStep depth '<' = depth + 1 := if_pos rfl
  have hclose : depthStep (depth + 1) '>' = depth := rfl
  constructor
  · rw [solid_cons_iff, hopen, solid_append_iff, hdepth, solid_cons_iff]
    exact ⟨fun hc => hc.2.2.1 rfl, hsolid, fun hc => hc.2.2.2 rfl, solid_nil⟩
  · rw [depthAfter_cons, hopen, depthAfter_append, hdepth, depthAfter_cons, hclose,
      depthAfter_nil]

/-! ## Parts -/

/-- The text consists of the parts with one separator between any two neighbours, and
nothing separates inside a part. -/
inductive SplitsInto (isSeparator : Char → Bool) :
    Nat → List Char → List (List Char) → Prop
  | last {depth : Nat} {part : List Char} (hpart : Solid isSeparator depth part) :
      SplitsInto isSeparator depth part [part]
  | cut {depth : Nat} {part rest : List Char} {c : Char} {parts : List (List Char)}
      (hpart : Solid isSeparator depth part)
      (hc : Separates isSeparator (depthAfter depth part) c)
      (hrest : SplitsInto isSeparator 0 rest parts) :
      SplitsInto isSeparator depth (part ++ c :: rest) (part :: parts)

theorem splitAtDepth_of_solid
    {s : List Char} (h : Solid isSeparator depth s) : splitAtDepth isSeparator depth s = [s] := by
  induction s generalizing depth with
  | nil => rfl
  | cons c rest ih =>
      obtain ⟨hc, hrest⟩ := solid_cons_iff.mp h
      rw [splitAtDepth_cons, if_neg hc, ih hrest, pushFront]

theorem splitAtDepth_of_separates
    {s rest : List Char} {c : Char} (h : Solid isSeparator depth s)
    (hc : Separates isSeparator (depthAfter depth s) c) :
    splitAtDepth isSeparator depth (s ++ c :: rest) = s :: splitAtDepth isSeparator 0 rest := by
  induction s generalizing depth with
  | nil =>
      rw [depthAfter_nil] at hc
      rw [List.nil_append, splitAtDepth_cons, if_pos hc]
  | cons d s ih =>
      obtain ⟨hd, hs⟩ := solid_cons_iff.mp h
      rw [List.cons_append, splitAtDepth_cons, if_neg hd, ih hs hc, pushFront]

theorem SplitsInto.pushFront
    {c : Char} {rest : List Char} {parts : List (List Char)}
    (h : SplitsInto isSeparator (depthStep depth c) rest parts)
    (hc : ¬Separates isSeparator depth c) :
    SplitsInto isSeparator depth (c :: rest) (Row.pushFront c parts) := by
  cases h with
  | last hpart => exact .last (solid_cons_iff.mpr ⟨hc, hpart⟩)
  | cut hpart hsep hrest => exact .cut (solid_cons_iff.mpr ⟨hc, hpart⟩) hsep hrest

theorem splitsInto_splitAtDepth (isSeparator : Char → Bool) (depth : Nat) (s : List Char) :
    SplitsInto isSeparator depth s (splitAtDepth isSeparator depth s) := by
  induction s generalizing depth with
  | nil => exact .last solid_nil
  | cons c rest ih =>
      rw [splitAtDepth_cons]
      by_cases hc : Separates isSeparator depth c
      · rw [if_pos hc]
        exact @SplitsInto.cut _ depth [] rest c _ solid_nil hc (ih 0)
      · rw [if_neg hc]
        exact (ih (depthStep depth c)).pushFront hc

/-- The walk finds the parts of a text. -/
theorem splitAtDepth_eq_iff {s : List Char} {parts : List (List Char)} :
    splitAtDepth isSeparator depth s = parts ↔ SplitsInto isSeparator depth s parts := by
  constructor
  · rintro rfl
    exact splitsInto_splitAtDepth isSeparator depth s
  · intro h
    induction h with
    | last hpart => exact splitAtDepth_of_solid hpart
    | cut hpart hc _ ih => rw [splitAtDepth_of_separates hpart hc, ih]

theorem splitTopLevel_eq_iff {s : List Char} {parts : List (List Char)} :
    splitTopLevel isSeparator s = parts ↔ SplitsInto isSeparator 0 s parts :=
  splitAtDepth_eq_iff

end Treewright.Row
