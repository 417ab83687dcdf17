import Treewright.Grammar

/-!
# Families that hold borrowed values

A node borrows when a field type mentions a borrowed name or a borrowing family,
and a family borrows when one of its nodes does. The borrowing families are found
in passes over all families in declaration order: a family with a borrowing node
joins the ones found so far, and the rest of the pass already counts it. The first
pass that finds no new family ends the search.

Every other pass leaves fewer families outside, so the search ends for every
grammar.
-/

namespace Treewright.Linked

/-- Decides whether a node borrows when exactly the families `borrowing` do. -/
def nodeBorrows (o : Ownership) (borrowing : List String) (n : Node) : Bool :=
  n.fields.any fun f =>
    o.mentionsBorrowed f.type || f.type.names.any (· ∈ borrowing)

/-- The families found to borrow once `f` has been looked at, too. -/
def borrowingStep (o : Ownership) (borrowing : List String) (f : Family) : List String :=
  if f.name ∈ borrowing then borrowing
  else if f.nodes.any (nodeBorrows o borrowing) then borrowing ++ [f.name]
  else borrowing

/-- The families found to borrow after a pass over `families`. -/
def borrowingPass (o : Ownership) (borrowing : List String) (families : List Family) :
    List String :=
  families.foldl (borrowingStep o) borrowing

theorem borrowingStep_cases
    (o : Ownership) (borrowing : List String) (f : Family) :
    borrowingStep o borrowing f = borrowing ∨
      f.name ∉ borrowing ∧ f.nodes.any (nodeBorrows o borrowing) ∧
        borrowingStep o borrowing f = borrowing ++ [f.name] := by
  by_cases hmem : f.name ∈ borrowing
  · simp [borrowingStep, hmem]
  · by_cases hnode : f.nodes.any (nodeBorrows o borrowing) = true
    · exact Or.inr ⟨hmem, hnode, by simp [borrowingStep, hmem, hnode]⟩
    · simp [borrowingStep, hmem, hnode]

/-- A pass keeps what was found before it. -/
theorem subset_borrowingPass
    (o : Ownership) (borrowing : List String) (families : List Family) :
    borrowing ⊆ borrowingPass o borrowing families := by
  induction families generalizing borrowing with
  | nil => exact fun _ h => h
  | cons f rest ih =>
      intro name hname
      apply ih (borrowingStep o borrowing f)
      rcases borrowingStep_cases o borrowing f with h | ⟨-, -, h⟩
      · rwa [h]
      · rw [h]
        exact List.mem_append_left _ hname

/-- A pass that changes something finds a family that was not known to borrow. -/
theorem exists_mem_borrowingPass_of_ne
    {o : Ownership} {borrowing : List String} {families : List Family}
    (h : borrowingPass o borrowing families ≠ borrowing) :
    ∃ f ∈ families, f.name ∉ borrowing ∧ f.name ∈ borrowingPass o borrowing families := by
  induction families with
  | nil => exact False.elim (h rfl)
  | cons f rest ih =>
      rcases borrowingStep_cases o borrowing f with hstep | ⟨hnew, -, hstep⟩
      · have hpass : borrowingPass o borrowing (f :: rest) = borrowingPass o borrowing rest := by
          simp [borrowingPass, hstep]
        rw [hpass] at h ⊢
        obtain ⟨e, he, hfound⟩ := ih h
        exact ⟨e, List.mem_cons_of_mem f he, hfound⟩
      · refine ⟨f, List.mem_cons_self, hnew, ?_⟩
        apply subset_borrowingPass o (borrowingStep o borrowing f) rest
        simp [hstep]

/-- The families whose name is not on a list. -/
def outside (names : List String) (families : List Family) : List Family :=
  families.filter fun f => decide (f.name ∉ names)

/-- A pass that changes something leaves fewer families outside. -/
theorem length_outside_borrowingPass_lt
    {o : Ownership} {borrowing : List String} {families : List Family}
    (h : borrowingPass o borrowing families ≠ borrowing) :
    (outside (borrowingPass o borrowing families) families).length <
      (outside borrowing families).length := by
  obtain ⟨f, hf, hnew, hfound⟩ := exists_mem_borrowingPass_of_ne h
  have hfilter :
      outside (borrowingPass o borrowing families) families =
        outside (borrowingPass o borrowing families) (outside borrowing families) := by
    unfold outside
    rw [List.filter_filter]
    apply List.filter_congr
    intro e _
    by_cases he : e.name ∈ borrowing
    · simp [he, subset_borrowingPass o borrowing families he]
    · simp [he]
  rw [hfilter]
  apply List.length_filter_lt_length_iff_exists.mpr
  exact ⟨f, by simp [outside, hf, hnew], by simp [hfound]⟩

/-- Adds borrowing families to those in `borrowing` until a pass changes nothing. -/
def borrowingFrom (g : Grammar) (borrowing : List String) : List String :=
  if _h : borrowingPass g.ownership borrowing g.families = borrowing then borrowing
  else borrowingFrom g (borrowingPass g.ownership borrowing g.families)
termination_by (outside borrowing g.families).length
decreasing_by exact length_outside_borrowingPass_lt _h

/-- The names of the families that borrow, in the order in which they are found. -/
def borrowingFamilies (g : Grammar) : List String :=
  borrowingFrom g []

end Treewright.Linked
