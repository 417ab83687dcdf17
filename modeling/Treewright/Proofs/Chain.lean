import Treewright.Proofs.Linking

/-!
# Chains of dependencies

In a linked grammar the walk from a family along its dependencies meets no missing family
and no family twice, so the families that it lists form a chain: each one is the family
that the next one depends on, and the first one depends on nothing.  There is at most one
chain that ends with a given name.

The chain is a relation between a name and a list of families.  It asks nothing of the
other families of the grammar, which makes it the way to compare the dependencies of one
family in two grammars.
-/

namespace Treewright

namespace Grammar

/-- The families of the list, farthest first, are those that are met when dependencies are
followed from the name up to a family that depends on nothing. -/
inductive DependencyChain (g : Grammar) : Option String → List Family → Prop
  | none : DependencyChain g none []
  | some {f : Family} {farther : List Family} (hf : f ∈ g.families)
      (hfarther : DependencyChain g f.dependsOn farther) :
      DependencyChain g (some f.name) (farther ++ [f])

theorem DependencyChain.unique
    {g : Grammar} (hg : g.NamesDistinct) {next : Option String} {chain chain' : List Family}
    (h : g.DependencyChain next chain) (h' : g.DependencyChain next chain') : chain = chain' := by
  induction h generalizing chain' with
  | none => cases h' with
    | none => rfl
  | @some f farther hf _ ih =>
      generalize hnext : Option.some f.name = next at h'
      cases h' with
      | none => simp at hnext
      | @some e farther' he hfarther' =>
          obtain rfl := hg.eq hf he (Option.some.inj hnext)
          rw [ih hfarther']

/-- A chain in one grammar is a chain in every other grammar that has its families. -/
theorem DependencyChain.of_subset
    {g g' : Grammar} {next : Option String} {chain : List Family}
    (h : g.DependencyChain next chain) (hsub : chain ⊆ g'.families) :
    g'.DependencyChain next chain := by
  induction h with
  | none => exact .none
  | some hf _ ih =>
      obtain ⟨hfarther, hlast⟩ := List.append_subset.mp hsub
      exact .some (hlast (List.mem_singleton_self _)) (ih hfarther)

end Grammar

namespace Linked

/-- The walk lists a chain when the families that are no longer open reach everything that
is still to come. -/
theorem dependencyChain_reachedFrom
    {g : Grammar} (hg : g.NamesDistinct) (hexist : g.DependenciesExist) (hacyclic : g.Acyclic)
    {open_ : List Family} {next : Option String} (hsub : open_ ⊆ g.families)
    (hnext : ∀ name, next = some name → ∃ d ∈ g.families, d.name = name)
    (hreach : ∀ d ∈ g.families, d ∉ open_ → ∀ e, e ∈ g.families → next = some e.name →
      g.Reaches d e) :
    g.DependencyChain next (reachedFrom open_ next) := by
  fun_induction reachedFrom open_ next with
  | case1 open_ => exact .none
  | case2 open_ name hfind =>
      obtain ⟨d, hd, rfl⟩ := hnext name rfl
      -- A missing family was met before, so it reaches itself.
      have hclosed : d ∉ open_ := fun hopen => by
        simpa using List.find?_eq_none.mp hfind d hopen
      exact False.elim (hacyclic d hd (hreach d hd hclosed d hd rfl))
  | case3 open_ name f hfind ih =>
      have hopen : f ∈ open_ := List.mem_of_find?_eq_some hfind
      obtain rfl : f.name = name := by simpa using List.find?_some hfind
      have hf : f ∈ g.families := hsub hopen
      refine .some hf (ih ?_ (hexist f hf) ?_)
      · exact fun d hd => hsub (mem_without_iff.mp hd).1
      · intro d hd hclosed e he hstep
        by_cases hname : d.name = f.name
        · obtain rfl := hg.eq hd hf hname
          exact .single ⟨he, hstep⟩
        · have hnotOpen : d ∉ open_ := fun hmem => hclosed (mem_without_iff.mpr ⟨hmem, hname⟩)
          exact (hreach d hd hnotOpen f hf rfl).tail ⟨he, hstep⟩

/-- The dependencies of a family of a linked grammar form a chain. -/
theorem dependencyChain_dependencies
    {g : Grammar} {l : Linked} (h : g.link = .ok l) {f : Family} (hf : f ∈ g.families) :
    g.DependencyChain f.dependsOn (dependencies g f) := by
  obtain ⟨hvalid, hexist, hacyclic, -⟩ := (Grammar.exists_link_eq_ok_iff g).mp ⟨l, h⟩
  exact dependencyChain_reachedFrom (Grammar.namesDistinct_of_validate hvalid) hexist hacyclic
    (fun _ hd => hd) (hexist f hf) fun d hd hclosed => False.elim (hclosed hd)

end Linked

end Treewright
