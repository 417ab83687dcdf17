import Mathlib.Logic.Relation
import Treewright.Linked.Order
import Treewright.Proofs.Validity

/-!
# Dependencies between families

A family names at most one family that it depends on, so following dependencies is
a walk without choices.  This module relates the walk that lists the dependencies of
a family to the relation that it follows: in a grammar whose family names are told
apart, `Linked.dependencies` lists exactly the families that are reached in one or
more steps.

No assumption about cycles is needed for this, because the walk never takes a family
twice.
-/

namespace Treewright

namespace Grammar

/-- The family `d` of the grammar is the one that `f` names as its dependency. -/
def DependsOn (g : Grammar) (f d : Family) : Prop :=
  d ∈ g.families ∧ f.dependsOn = some d.name

/-- The family `d` is reached from `f` by one or more dependencies. -/
abbrev Reaches (g : Grammar) (f d : Family) : Prop :=
  Relation.TransGen g.DependsOn f d

/-- The family `d` is `f` itself or reached from it. -/
abbrev Needs (g : Grammar) (f d : Family) : Prop :=
  Relation.ReflTransGen g.DependsOn f d

theorem Reaches.mem {g : Grammar} {f d : Family} (h : g.Reaches f d) : d ∈ g.families := by
  cases h with
  | single h => exact h.1
  | tail _ h => exact h.1

theorem Needs.mem
    {g : Grammar} {f d : Family} (h : g.Needs f d) (hf : f ∈ g.families) : d ∈ g.families := by
  cases h with
  | refl => exact hf
  | tail _ h => exact h.1

theorem isFamily_iff {g : Grammar} {name : String} :
    g.isFamily name = true ↔ ∃ f ∈ g.families, f.name = name := by
  simp [isFamily]

/-- A family depends on one family at most. -/
theorem NamesDistinct.dependsOn_unique
    {g : Grammar} (hg : g.NamesDistinct) {f d e : Family}
    (hd : g.DependsOn f d) (he : g.DependsOn f e) : d = e := by
  apply hg.eq hd.1 he.1
  exact Option.some.inj (hd.2.symm.trans he.2)

/-- The whole of what a set of families needs lies in the set once it is closed under
dependencies. -/
theorem Needs.mem_of_closed
    {g : Grammar} {families : List Family} {f d : Family} (h : g.Needs f d)
    (hclosed : ∀ a ∈ families, ∀ b, g.DependsOn a b → b ∈ families)
    (hf : f ∈ families) : d ∈ families := by
  induction h with
  | refl => exact hf
  | tail _ hstep ih => exact hclosed _ ih _ hstep

end Grammar

namespace Linked

/-! ## Looking families up -/

theorem find?_name_eq_some_iff
    {families : List Family} (h : (families.map (·.name)).Nodup) {name : String} {f : Family} :
    families.find? (·.name == name) = some f ↔ f ∈ families ∧ f.name = name := by
  constructor
  · intro hfind
    exact ⟨List.mem_of_find?_eq_some hfind, by simpa using List.find?_some hfind⟩
  · rintro ⟨hf, hname⟩
    cases hfind : families.find? (·.name == name) with
    | none =>
        have hnone := List.find?_eq_none.mp hfind f hf
        simp [hname] at hnone
    | some e =>
        have he : e ∈ families := List.mem_of_find?_eq_some hfind
        have hename : e.name = name := by simpa using List.find?_some hfind
        rw [List.inj_on_of_nodup_map h he hf (hename.trans hname.symm)]

@[simp] theorem mem_without_iff {name : String} {families : List Family} {f : Family} :
    f ∈ without name families ↔ f ∈ families ∧ f.name ≠ name := by
  simp [without]

theorem names_without_nodup
    (name : String) {families : List Family} (h : (families.map (·.name)).Nodup) :
    ((without name families).map (·.name)).Nodup :=
  h.sublist (List.filter_sublist.map _)

/-! ## The walk that lists dependencies -/

/-- Every listed family is needed by the family that the walk starts at. -/
theorem exists_needs_of_mem_reachedFrom
    {g : Grammar} {open_ : List Family} {next : Option String} {e : Family}
    (hsub : open_ ⊆ g.families) (he : e ∈ reachedFrom open_ next) :
    ∃ d ∈ g.families, next = some d.name ∧ g.Needs d e := by
  fun_induction reachedFrom open_ next with
  | case1 open_ => simp at he
  | case2 open_ name hfind => simp at he
  | case3 open_ name f hfind ih =>
      have hf : f ∈ g.families := hsub (List.mem_of_find?_eq_some hfind)
      have hname : f.name = name := by simpa using List.find?_some hfind
      refine ⟨f, hf, by rw [hname], ?_⟩
      rcases List.mem_append.mp he with he | he
      · have hrest : without name open_ ⊆ g.families :=
          fun d hd => hsub (mem_without_iff.mp hd).1
        obtain ⟨d, hd, hnext, hneeds⟩ := ih hrest he
        exact Relation.ReflTransGen.head ⟨hd, hnext⟩ hneeds
      · rw [List.mem_singleton.mp he]

theorem reachedFrom_subset (open_ : List Family) (next : Option String) :
    reachedFrom open_ next ⊆ open_ := by
  fun_induction reachedFrom open_ next with
  | case1 open_ => simp
  | case2 open_ name hfind => simp
  | case3 open_ name f hfind ih =>
      intro e he
      rcases List.mem_append.mp he with he | he
      · exact (mem_without_iff.mp (ih he)).1
      · rw [List.mem_singleton.mp he]
        exact List.mem_of_find?_eq_some hfind

/-- The walk lists no name twice. -/
theorem names_reachedFrom_nodup (open_ : List Family) (next : Option String) :
    ((reachedFrom open_ next).map (·.name)).Nodup := by
  fun_induction reachedFrom open_ next with
  | case1 open_ => simp
  | case2 open_ name hfind => simp
  | case3 open_ name f hfind ih =>
      have hname : f.name = name := by simpa using List.find?_some hfind
      -- The rest of the walk goes through families of other names.
      have hfresh : name ∉ (reachedFrom (without name open_) f.dependsOn).map (·.name) := by
        intro hmem
        obtain ⟨e, he, heq⟩ := List.mem_map.mp hmem
        exact (mem_without_iff.mp (reachedFrom_subset _ _ he)).2 heq
      rw [List.map_append, List.map_singleton, hname, List.nodup_append]
      refine ⟨ih, List.nodup_singleton name, ?_⟩
      intro a ha b hb heq
      rw [heq, List.mem_singleton.mp hb] at ha
      exact hfresh ha

/-- The family that the walk starts at is listed. -/
theorem mem_reachedFrom_start
    {open_ : List Family} (hopen : (open_.map (·.name)).Nodup) {d : Family}
    (hd : d ∈ open_) : d ∈ reachedFrom open_ (some d.name) := by
  have hfind : open_.find? (·.name == d.name) = some d :=
    (find?_name_eq_some_iff hopen).mpr ⟨hd, rfl⟩
  rw [reachedFrom.eq_def]
  split
  next h => simp at h
  next name hname =>
    obtain rfl := Option.some.inj hname
    split
    next hnone => simp [hfind] at hnone
    next f hsome =>
      rw [hfind] at hsome
      simp [Option.some.inj hsome]

/-- The walk goes on to the dependency of a listed family as long as it is open. -/
theorem mem_reachedFrom_of_dependsOn
    {open_ : List Family} {next : Option String} (hopen : (open_.map (·.name)).Nodup)
    {e d : Family} (he : e ∈ reachedFrom open_ next) (hdep : e.dependsOn = some d.name)
    (hd : d ∈ open_) : d ∈ reachedFrom open_ next := by
  fun_induction reachedFrom open_ next with
  | case1 open_ => simp at he
  | case2 open_ name hfind => simp at he
  | case3 open_ name f hfind ih =>
      have hrest := names_without_nodup name hopen
      by_cases hname : d.name = name
      · have hfound : open_.find? (·.name == name) = some d :=
          (find?_name_eq_some_iff hopen).mpr ⟨hd, hname⟩
        rw [hfind] at hfound
        simp [Option.some.inj hfound]
      · have hdRest : d ∈ without name open_ := mem_without_iff.mpr ⟨hd, hname⟩
        rcases List.mem_append.mp he with he | he
        · exact List.mem_append_left _ (ih hrest he hdRest)
        · rw [List.mem_singleton] at he
          rw [← he, hdep]
          exact List.mem_append_left _ (mem_reachedFrom_start hrest hdRest)

/-- The dependencies of a family are the families that it reaches. -/
theorem mem_dependencies_iff
    {g : Grammar} (hg : g.NamesDistinct) {f d : Family} :
    d ∈ dependencies g f ↔ g.Reaches f d := by
  constructor
  · intro hd
    obtain ⟨e, he, hnext, hneeds⟩ :=
      exists_needs_of_mem_reachedFrom (fun _ h => h) hd
    exact Relation.TransGen.head' ⟨he, hnext⟩ hneeds
  · intro hreach
    induction hreach with
    | single hstep =>
        rw [dependencies, hstep.2]
        exact mem_reachedFrom_start hg hstep.1
    | tail _ hstep ih => exact mem_reachedFrom_of_dependsOn hg ih hstep.2 hstep.1

end Linked

end Treewright
