import Treewright.Draft.FieldType
import Treewright.Proofs.Mention
import Treewright.Proofs.Outcome

/-!
# How field types are written

A written type follows the type of the grammar: each name becomes a family or a path,
and the arguments are written one by one.  The two cases below say everything that the
writing of a type can do, so that a statement about written types is an induction on the
type of the grammar with these cases.
-/

namespace Treewright.Linked

theorem fieldTypesIn_eq_mapM (l : Linked) (box : Bool) (ts : List TypeRef) :
    l.fieldTypesIn box ts = ts.mapM (l.fieldTypeIn box) := by
  induction ts with
  | nil =>
      rw [fieldTypesIn]
      rfl
  | cons t rest ih =>
      rw [fieldTypesIn, List.mapM_cons, ih]
      cases l.fieldTypeIn box t with
      | error fault => rfl
      | ok type =>
          cases rest.mapM (l.fieldTypeIn box) with
          | error fault => rfl
          | ok types => rfl

theorem typePath_eq_ok_iff
    {l : Linked} {name : String} {path : Code.Path} :
    l.typePath name = .ok path ↔
      Code.Path.parse? (l.grammar.options.codeName name) = some path := by
  unfold typePath
  cases Code.Path.parse? (l.grammar.options.codeName name) with
  | none => simp
  | some found => simp

/-- A name is written as a family, or as a path with arguments that is held by reference
where the name is on the borrowed list. -/
theorem fieldTypeIn_cases
    {l : Linked} {box : Bool} {name : String} {args : List TypeRef} {type : FieldType}
    (h : l.fieldTypeIn box ⟨name, args⟩ = .ok type) :
    (l.grammar.isFamily name = true ∧ args = [] ∧
      type = if box then .boxed (.family (l.familyMention name))
        else .family (l.familyMention name)) ∨
    (l.grammar.isFamily name = false ∧ ∃ types path,
      List.Forall₂
        (fun t type => l.fieldTypeIn (!l.grammar.options.isHeapContainer name) t = .ok type)
        args types ∧
      Code.Path.parse? (l.grammar.options.codeName name) = some path ∧
      type = if name ∈ l.grammar.ownership.borrowed then .borrowed (.applied path types)
        else .applied path types) := by
  rw [fieldTypeIn.eq_def] at h
  dsimp only at h
  by_cases hfamily : l.grammar.isFamily name = true
  · rw [if_pos hfamily] at h
    cases args with
    | nil => exact Or.inl ⟨hfamily, rfl, (Except.ok.inj h).symm⟩
    | cons arg rest => simp at h
  · rw [if_neg hfamily, fieldTypesIn_eq_mapM] at h
    refine Or.inr ⟨Bool.eq_false_iff.mpr hfamily, ?_⟩
    cases htypes : args.mapM (l.fieldTypeIn (!l.grammar.options.isHeapContainer name)) with
    | error fault => simp [htypes] at h
    | ok types =>
        cases hpath : l.typePath name with
        | error fault => simp [htypes, hpath] at h
        | ok path =>
            refine ⟨types, path, mapM_eq_ok_iff.mp htypes, typePath_eq_ok_iff.mp hpath, ?_⟩
            simp only [htypes, hpath, Ownership.holdingOf_eq_borrowed_iff] at h
            by_cases hborrowed : name ∈ l.grammar.ownership.borrowed
            · simpa [hborrowed, eq_comm] using h
            · simpa [hborrowed, eq_comm] using h

theorem fieldTypeIn_of_isFamily
    {l : Linked} {name : String} (h : l.grammar.isFamily name = true) (box : Bool) :
    l.fieldTypeIn box ⟨name, []⟩ = .ok (if box then .boxed (.family (l.familyMention name))
      else .family (l.familyMention name)) := by
  rw [fieldTypeIn.eq_def]
  dsimp only
  rw [if_pos h]

theorem exists_fieldTypeIn_of_args
    {l : Linked} {name : String} {args : List TypeRef}
    (hfamily : l.grammar.isFamily name = false)
    (hargs : ∀ t ∈ args, ∃ type,
      l.fieldTypeIn (!l.grammar.options.isHeapContainer name) t = .ok type)
    {path : Code.Path} (hpath : Code.Path.parse? (l.grammar.options.codeName name) = some path)
    (box : Bool) : ∃ type, l.fieldTypeIn box ⟨name, args⟩ = .ok type := by
  obtain ⟨types, htypes⟩ := exists_mapM_eq_ok_iff.mpr hargs
  rw [fieldTypeIn.eq_def]
  dsimp only
  rw [if_neg (Bool.eq_false_iff.mp hfamily), fieldTypesIn_eq_mapM, htypes,
    typePath_eq_ok_iff.mpr hpath]
  dsimp only
  split
  · exact ⟨_, rfl⟩
  · exact ⟨_, rfl⟩

end Treewright.Linked
