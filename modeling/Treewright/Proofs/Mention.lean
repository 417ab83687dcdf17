import Treewright.Grammar

/-!
# Names inside field types

A field type is a tree of names, and linking only ever looks at the flat list of
them.  This module says what that list holds: a name is on it exactly when it
stands somewhere in the tree, and the list is the preorder of the tree.

`Mentions` is the notion that the theory of linking speaks of, for types, nodes
and families alike.
-/

namespace Treewright

namespace TypeRef

/-- What holds of a type whenever it holds of its arguments holds of all types. -/
theorem induction_args
    {motive : TypeRef → Prop}
    (step : ∀ name args, (∀ t ∈ args, motive t) → motive ⟨name, args⟩) :
    ∀ t, motive t
  | ⟨name, args⟩ => step name args fun t _ => induction_args step t

/-- A name stands in a type, outermost or inside an argument at any depth. -/
inductive Mentions : TypeRef → String → Prop
  | outermost {name : String} {args : List TypeRef} : Mentions ⟨name, args⟩ name
  | inside {name outer : String} {args : List TypeRef} {t : TypeRef}
      (ht : t ∈ args) (h : Mentions t name) : Mentions ⟨outer, args⟩ name

theorem namesOf_eq_flatMap (ts : List TypeRef) : namesOf ts = ts.flatMap names := by
  induction ts with
  | nil => simp [namesOf]
  | cons t rest ih => simp [namesOf, ih]

/-- The names of a type are listed outermost first and depth first. -/
theorem names_eq (t : TypeRef) : t.names = t.name :: t.args.flatMap names := by
  cases t with
  | mk name args => rw [names, namesOf_eq_flatMap]

theorem mem_names_of_mentions
    {t : TypeRef} {name : String} (h : t.Mentions name) : name ∈ t.names := by
  induction h with
  | outermost =>
      rw [names_eq]
      exact List.mem_cons_self
  | inside ht _ ih =>
      rw [names_eq]
      exact List.mem_cons_of_mem _ (List.mem_flatMap.mpr ⟨_, ht, ih⟩)

theorem mentions_of_mem_names {t : TypeRef} {name : String} :
    name ∈ t.names → t.Mentions name := by
  induction t using induction_args with
  | step outer args ih =>
      intro h
      rw [names_eq, List.mem_cons] at h
      rcases h with rfl | h
      · exact .outermost
      · obtain ⟨t, ht, hname⟩ := List.mem_flatMap.mp h
        exact .inside ht (ih t ht hname)

/-- The list of names of a type holds what the type mentions. -/
theorem mem_names_iff {t : TypeRef} {name : String} : name ∈ t.names ↔ t.Mentions name :=
  ⟨mentions_of_mem_names, mem_names_of_mentions⟩

end TypeRef

/-- A field type of the node mentions a name. -/
def Node.Mentions (n : Node) (name : String) : Prop :=
  ∃ field ∈ n.fields, field.type.Mentions name

/-- A field type of some node of the family mentions a name. -/
def Family.Mentions (f : Family) (name : String) : Prop :=
  ∃ n ∈ f.nodes, n.Mentions name

namespace Ownership

theorem holdingOf_eq_borrowed_iff
    {o : Ownership} {name : String} : o.holdingOf name = .borrowed ↔ name ∈ o.borrowed := by
  unfold holdingOf
  split
  · simp_all
  · split <;> simp_all

/-- A type holds a borrow when it mentions a name of the borrowed list. -/
theorem mentionsBorrowed_iff
    {o : Ownership} {type : TypeRef} :
    o.mentionsBorrowed type = true ↔ ∃ name ∈ o.borrowed, type.Mentions name := by
  simp only [mentionsBorrowed, List.any_eq_true, beq_iff_eq, holdingOf_eq_borrowed_iff,
    TypeRef.mem_names_iff]
  constructor
  · rintro ⟨name, hmentions, hborrowed⟩
    exact ⟨name, hborrowed, hmentions⟩
  · rintro ⟨name, hborrowed, hmentions⟩
    exact ⟨name, hmentions, hborrowed⟩

end Ownership

end Treewright
