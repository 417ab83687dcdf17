import Treewright.Proofs.Chain
import Treewright.Proofs.Cycle

/-!
# Following dependencies without memory

The dependencies of a family are listed by a walk that takes no family twice, and so it
ends for every grammar.  A plain walk, which looks up one name after the other and keeps
no account of where it has been, need not end: from a family that enters a cycle it goes
round for ever.

Linking rejects cycles, so in a linked grammar the plain walk ends, from the families of
the grammar and from any other one, and both walks list the same families.  They stand in
the writing order as they are listed, and before the family that depends on them.
-/

namespace Treewright

namespace Linked

/-- The plain walk from the name `next`, which has no outcome if it has not ended after so
many rounds.  The families of `met` have been met before, the last one first. -/
def pursue (g : Grammar) : ℕ → List Family → Option String → Option (List Family)
  | _, met, none => some met
  | 0, _, some _ => none
  | rounds + 1, met, some name =>
    match g.family? name with
    | none => some met
    | some f => pursue g rounds (f :: met) f.dependsOn

section Pursuit

variable {g : Grammar}

@[simp] theorem pursue_none (rounds : ℕ) (met : List Family) :
    pursue g rounds met none = some met := by
  cases rounds with
  | zero => rfl
  | succ rounds => rfl

theorem pursue_of_mem
    (hg : g.NamesDistinct) {f : Family} (hf : f ∈ g.families) (rounds : ℕ) (met : List Family) :
    pursue g (rounds + 1) met (some f.name) = pursue g rounds (f :: met) f.dependsOn := by
  have hfind : g.family? f.name = some f := (find?_name_eq_some_iff hg).mpr ⟨hf, rfl⟩
  rw [pursue, hfind]

/-- The plain walk along a chain of dependencies ends with the chain. -/
theorem pursue_of_dependencyChain
    (hg : g.NamesDistinct) {next : Option String} {chain : List Family}
    (h : g.DependencyChain next chain) :
    ∀ {rounds : ℕ} (met : List Family), chain.length ≤ rounds →
      pursue g rounds met next = some (chain ++ met) := by
  induction h with
  | none => exact fun met _ => pursue_none _ met
  | @some f farther hf _ ih =>
      intro rounds met hrounds
      rw [List.length_append, List.length_singleton] at hrounds
      obtain ⟨rounds, rfl⟩ : ∃ k, rounds = k + 1 := ⟨rounds - 1, by omega⟩
      rw [pursue_of_mem hg hf, ih (f :: met) (by omega), List.append_assoc,
        List.singleton_append]

/-- From a family that enters a cycle the plain walk does not end. -/
theorem pursue_eq_none_of_entersCycle
    (hg : g.NamesDistinct) {f : Family} (hf : f ∈ g.families) (h : g.EntersCycle f)
    (rounds : ℕ) (met : List Family) : pursue g rounds met (some f.name) = none := by
  induction rounds generalizing f met with
  | zero => rfl
  | succ rounds ih =>
      obtain ⟨d, hstep, hcycle⟩ := h.exists_dependsOn
      rw [pursue_of_mem hg hf, hstep.2]
      exact ih hstep.1 hcycle (f :: met)

theorem length_dependencies_le (g : Grammar) (f : Family) :
    (dependencies g f).length ≤ g.families.length := by
  have hnodup : (dependencies g f).Nodup := List.Nodup.of_map _ (names_reachedFrom_nodup _ _)
  exact (hnodup.subperm (reachedFrom_subset _ _)).length_le

/-- In a linked grammar the plain walk ends, wherever it starts, and it lists the
dependencies. -/
theorem pursue_eq_dependencies
    {l : Linked} (h : g.link = .ok l) (f : Family) {rounds : ℕ}
    (hrounds : g.families.length < rounds) :
    pursue g rounds [] f.dependsOn = some (dependencies g f) := by
  obtain ⟨hvalid, hexist, hacyclic, -⟩ := (Grammar.exists_link_eq_ok_iff g).mp ⟨l, h⟩
  have hg := Grammar.namesDistinct_of_validate hvalid
  by_cases hnext : g.DependencyExists f
  · have hchain : g.DependencyChain f.dependsOn (dependencies g f) :=
      dependencyChain_reachedFrom hg hexist hacyclic (fun _ hd => hd) hnext
        fun d hd hclosed => False.elim (hclosed hd)
    have hlength := length_dependencies_le g f
    rw [pursue_of_dependencyChain hg hchain [] (by omega), List.append_nil]
  · -- The family is none of the grammar, and the first name that is looked up is missing.
    obtain ⟨name, hname, hmissing⟩ : ∃ name, f.dependsOn = some name ∧
        ¬∃ d ∈ g.families, d.name = name := by
      simpa [Grammar.DependencyExists] using hnext
    have hfind : g.families.find? (·.name == name) = none := by
      rw [List.find?_eq_none]
      intro d hd hd'
      exact hmissing ⟨d, hd, by simpa using hd'⟩
    obtain ⟨rounds, rfl⟩ : ∃ k, rounds = k + 1 := ⟨rounds - 1, by omega⟩
    have hnone : dependencies g f = [] := by
      rw [dependencies, hname, reachedFrom.eq_def]
      split
      next => rfl
      next name' hname' =>
        obtain rfl := Option.some.inj hname'
        split
        next => rfl
        next e hsome => simp [hfind] at hsome
    rw [hname, hnone, pursue, Grammar.family?, hfind]

end Pursuit

/-! ## Dependencies in the writing order -/

section Order

variable {g : Grammar} {l : Linked}

/-- The families of a chain are reached by the family that the chain starts from. -/
theorem reaches_of_mem_dependencyChain
    {next : Option String} {chain : List Family} (h : g.DependencyChain next chain) :
    ∀ {f : Family}, f.dependsOn = next → ∀ a ∈ chain, g.Reaches f a := by
  induction h with
  | none => simp
  | @some e farther he _ ih =>
      intro f hnext a ha
      have hstep : g.DependsOn f e := ⟨he, hnext⟩
      rcases List.mem_append.mp ha with ha | ha
      · exact Relation.TransGen.head hstep (ih rfl a ha)
      · rw [List.mem_singleton.mp ha]
        exact Relation.TransGen.single hstep

/-- What stands later in a chain depends on what stands earlier. -/
theorem pairwise_reaches_of_dependencyChain
    {next : Option String} {chain : List Family} (h : g.DependencyChain next chain) :
    chain.Pairwise fun a b => g.Reaches b a := by
  induction h with
  | none => exact List.Pairwise.nil
  | @some e farther _ hfarther ih =>
      rw [List.pairwise_append]
      refine ⟨ih, List.pairwise_singleton _ _, ?_⟩
      intro a ha b hb
      rw [List.mem_singleton.mp hb]
      exact reaches_of_mem_dependencyChain hfarther rfl a ha

/-- A chain of a linked grammar is part of the writing order. -/
theorem dependencyChain_sublist_order
    (h : g.link = .ok l) {next : Option String} {chain : List Family}
    (hchain : g.DependencyChain next chain) (hmem : chain ⊆ g.families) :
    chain.Sublist l.order := by
  have hacyclic := Grammar.acyclic_of_link h
  have w := Grammar.written_of_link h
  have hreaches := pairwise_reaches_of_dependencyChain hchain
  have hsorted : chain.Pairwise g.WrittenBefore := by
    apply hreaches.imp_of_mem
    intro a b _ hb hreach
    exact hreach.writtenBefore (hmem hb)
  have hnodup : chain.Nodup := by
    apply hreaches.imp_of_mem
    rintro a b ha _ hreach rfl
    exact hacyclic a (hmem ha) hreach
  -- The members of the chain stand in the writing order somehow, and both are sorted alike.
  obtain ⟨part, hperm, hpart⟩ :=
    hnodup.subperm fun a ha => (Grammar.mem_order_iff h).mpr (hmem ha)
  have heq : part = chain := by
    apply hperm.eq_of_pairwise _ (w.sorted.sublist hpart) hsorted
    intro a b ha _ hab hba
    exact False.elim (hab.asymm hacyclic (hmem (hperm.mem_iff.mp ha)) hba)
  rwa [← heq]

end Order

end Linked

namespace Grammar

/-- Where dependencies lead from a family of a linked grammar, or from any other one, the
plain walk ends, after so many rounds and not more than one beyond the number of families.
What a family of the grammar reaches is listed once, without the family itself, in the
writing order and before the family. -/
theorem link_dependencies_in_order
    {g : Grammar} {l : Linked} (h : g.link = .ok l) :
    (∀ f : Family, ∀ rounds, g.families.length < rounds →
      Linked.pursue g rounds [] f.dependsOn = some (Linked.dependencies g f)) ∧
    ∀ f ∈ g.families,
      (∀ d, d ∈ Linked.dependencies g f ↔ g.Reaches f d) ∧ (Linked.dependencies g f).Nodup ∧
        f ∉ Linked.dependencies g f ∧ (Linked.dependencies g f ++ [f]).Sublist l.order := by
  have hg := namesDistinct_of_link h
  refine ⟨fun f rounds hrounds => Linked.pursue_eq_dependencies h f hrounds, ?_⟩
  intro f hf
  have hchain : g.DependencyChain (some f.name) (Linked.dependencies g f ++ [f]) :=
    .some hf (Linked.dependencyChain_dependencies h hf)
  have hmem : Linked.dependencies g f ++ [f] ⊆ g.families :=
    List.append_subset.mpr ⟨Linked.reachedFrom_subset _ _, by simpa using hf⟩
  have hself : f ∉ Linked.dependencies g f := by
    rw [Linked.mem_dependencies_iff hg]
    exact acyclic_of_link h f hf
  exact ⟨fun d => Linked.mem_dependencies_iff hg,
    List.Nodup.of_map _ (Linked.names_reachedFrom_nodup _ _), hself,
    Linked.dependencyChain_sublist_order h hchain hmem⟩

/-- The family at the end of a chain that is declared against its direction. -/
def farItem : Family :=
  ⟨"Item", [⟨"Let", []⟩], some "Stmt"⟩

/-- A family that is none of the grammar and depends on one that is. -/
def strayBlock : Family :=
  ⟨"Block", [], some "Stmt"⟩

/-- A chain that is declared against its direction, with a family beside it. -/
def chainAgainstOrder : Grammar :=
  { name := "Chain"
    families := [farItem, ⟨"Type", [⟨"Any", []⟩], none⟩, ⟨"Stmt", [⟨"Run", []⟩], some "Expr"⟩,
      ⟨"Expr", [⟨"Nil", []⟩], none⟩] }

theorem link_dependencies_in_order_chain :
    ∃ l, chainAgainstOrder.link = .ok l ∧
      l.order.map (·.name) = ["Expr", "Stmt", "Item", "Type"] ∧
      Linked.pursue chainAgainstOrder 5 [] strayBlock.dependsOn =
        some (Linked.dependencies chainAgainstOrder strayBlock) ∧
      (Linked.dependencies chainAgainstOrder farItem).map (·.name) = ["Expr", "Stmt"] ∧
      farItem ∈ chainAgainstOrder.families ∧
      (Linked.dependencies chainAgainstOrder farItem ++ [farItem]).Sublist l.order := by
  have hlinked : (chainAgainstOrder.link.toOption.any fun l =>
      decide (l.order.map (·.name) = ["Expr", "Stmt", "Item", "Type"])) = true := by
    decide +kernel
  cases hlink : chainAgainstOrder.link with
  | error fault => simp [hlink, Except.toOption] at hlinked
  | ok l =>
      obtain ⟨hends, hlisted⟩ := link_dependencies_in_order hlink
      have hmem : farItem ∈ chainAgainstOrder.families := List.mem_cons_self
      obtain ⟨-, -, -, hsublist⟩ := hlisted farItem hmem
      have hplain := hends strayBlock 5 (by decide)
      exact ⟨l, rfl, by simpa [hlink, Except.toOption] using hlinked, hplain, by decide +kernel,
        hmem, hsublist⟩

end Grammar

end Treewright
