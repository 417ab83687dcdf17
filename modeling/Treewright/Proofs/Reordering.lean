import Mathlib.Data.List.Perm.Basic
import Treewright.Proofs.Borrowing
import Treewright.Proofs.Chain
import Treewright.Proofs.Outcome

/-!
# Grammars in another order

Families may be listed in any order, and so may the nodes of a family.  Linking walks over
both lists and stops at the first fault, but what it accepts and what it finds out does not
depend on these orders.

Each stage of linking has a declarative condition, and none of these conditions mentions an
order.  So it is enough to carry the conditions from a grammar to a reordered one, along
the families that stand for each other.  Reordering is symmetric, hence one direction will
do each time.
-/

namespace Treewright

/-- The families differ in the order of their nodes only. -/
structure Family.Reorders (f f' : Family) : Prop where
  name : f.name = f'.name
  dependsOn : f.dependsOn = f'.dependsOn
  nodes : f.nodes.Perm f'.nodes

namespace Family.Reorders

variable {f f' : Family}

theorem symm (h : f.Reorders f') : f'.Reorders f :=
  ⟨h.name.symm, h.dependsOn.symm, h.nodes.symm⟩

theorem mentions (h : f.Reorders f') {name : String} (hmentions : f.Mentions name) :
    f'.Mentions name := by
  obtain ⟨n, hn, hname⟩ := hmentions
  exact ⟨n, h.nodes.mem_iff.mp hn, hname⟩

theorem moduleName_eq (h : f.Reorders f') : f.moduleName = f'.moduleName := by
  rw [moduleName, moduleName, h.name]

theorem visitMethod_eq (h : f.Reorders f') : f.visitMethod = f'.visitMethod := by
  funext n
  rw [visitMethod, visitMethod, typeName, typeName, h.name]

end Family.Reorders

namespace Linked

theorem nodup_eraseDups (names : List String) : names.eraseDups.Nodup := by
  induction hn : names.length using Nat.strong_induction_on generalizing names with
  | _ n ih =>
      cases names with
      | nil => simp
      | cons name rest =>
          have hshorter : (rest.filter fun b => !b == name).length < n := by
            have hle := List.length_filter_le (fun b => !b == name) rest
            rw [List.length_cons] at hn
            omega
          rw [List.eraseDups_cons, List.nodup_cons]
          exact ⟨by simp, ih _ hshorter _ rfl⟩

/-- Names come out in the same order, whatever order they are listed in. -/
theorem sortedNames_eq_of_perm
    {names names' : List String} (h : names.Perm names') :
    sortedNames names = sortedNames names' := by
  have hsorted : ∀ listed : List String,
      (listed.mergeSort fun a b => decide (a ≤ b)).Pairwise fun a b => decide (a ≤ b) = true := by
    intro listed
    apply List.pairwise_mergeSort
    · intro a b c hab hbc
      rw [decide_eq_true_eq] at hab hbc ⊢
      exact String.le_trans hab hbc
    · intro a b
      rw [Bool.or_eq_true, decide_eq_true_eq, decide_eq_true_eq]
      exact String.le_total a b
  have hperm : names.eraseDups.Perm names'.eraseDups := by
    rw [List.perm_ext_iff_of_nodup (nodup_eraseDups names) (nodup_eraseDups names')]
    intro name
    rw [List.mem_eraseDups, List.mem_eraseDups, h.mem_iff]
  refine List.Perm.eq_of_pairwise ?_ (hsorted _) (hsorted _) ?_
  · intro a b _ _ hab hba
    rw [decide_eq_true_eq] at hab hba
    exact String.le_antisymm hab hba
  · exact (List.mergeSort_perm _ _).trans (hperm.trans (List.mergeSort_perm _ _).symm)

end Linked

namespace Grammar

/-- The grammars differ in the order of their families and in the order of the nodes inside
each family only. -/
structure Reorders (g g' : Grammar) : Prop where
  name : g.name = g'.name
  ownership : g.ownership = g'.ownership
  options : g.options = g'.options
  families : ∃ mid, List.Forall₂ Family.Reorders g.families mid ∧ mid.Perm g'.families

namespace Reorders

variable {g g' : Grammar}

theorem symm (h : g.Reorders g') : g'.Reorders g := by
  obtain ⟨mid, hnodes, hperm⟩ := h.families
  have hback : List.Forall₂ Family.Reorders mid g.families :=
    List.Forall₂.flip (hnodes.imp fun _ _ hf => hf.symm)
  exact ⟨h.name.symm, h.ownership.symm, h.options.symm, List.perm_comp_forall₂ hperm.symm hback⟩

theorem exists_counterpart
    (h : g.Reorders g') {f : Family} (hf : f ∈ g.families) :
    ∃ f' ∈ g'.families, f.Reorders f' := by
  obtain ⟨mid, hnodes, hperm⟩ := h.families
  obtain ⟨f', hf', hreorders⟩ := exists_built_of_mem hnodes hf
  exact ⟨f', hperm.mem_iff.mp hf', hreorders⟩

/-- A view of families that does not see the order of nodes gives the same list up to its
order. -/
theorem flatMap_perm
    {α : Type} (h : g.Reorders g') (view : Family → List α)
    (hview : ∀ f f', f.Reorders f' → (view f).Perm (view f')) :
    (g.families.flatMap view).Perm (g'.families.flatMap view) := by
  obtain ⟨mid, hnodes, hperm⟩ := h.families
  refine List.Perm.trans ?_ (hperm.flatMap_right view)
  apply List.Perm.flatten_congr
  rw [List.forall₂_map_left_iff, List.forall₂_map_right_iff]
  exact hnodes.imp hview

/-! ## Names -/

theorem isFamily_eq (h : g.Reorders g') (name : String) : g.isFamily name = g'.isFamily name := by
  have hmp : ∀ {e e' : Grammar}, e.Reorders e' → e.isFamily name = true →
      e'.isFamily name = true := by
    intro e e' h hname
    obtain ⟨f, hf, rfl⟩ := isFamily_iff.mp hname
    obtain ⟨f', hf', hreorders⟩ := h.exists_counterpart hf
    exact isFamily_iff.mpr ⟨f', hf', hreorders.name.symm⟩
  exact Bool.eq_iff_iff.mpr ⟨hmp h, hmp h.symm⟩

/-! ## Conditions of the stages -/

theorem unambiguous (h : g.Reorders g') (hg : g.Unambiguous) : g'.Unambiguous := by
  have hback : ∀ f' ∈ g'.families, ∃ f ∈ g.families, f.Reorders f' := by
    intro f' hf'
    obtain ⟨f, hf, hreorders⟩ := h.symm.exists_counterpart hf'
    exact ⟨f, hf, hreorders.symm⟩
  constructor
  · exact h.ownership ▸ hg.ownership
  · intro f' hf'
    obtain ⟨f, hf, hreorders⟩ := hback f' hf'
    exact hreorders.name ▸ hg.identifiers f hf
  · have hperm := h.flatMap_perm (fun f => [f.moduleName]) fun f f' hreorders => by
      rw [hreorders.moduleName_eq]
    rw [← List.map_eq_flatMap, ← List.map_eq_flatMap] at hperm
    exact hperm.nodup_iff.mp hg.modules
  · intro f' hf'
    obtain ⟨f, hf, hreorders⟩ := hback f' hf'
    exact hreorders.moduleName_eq ▸ hg.unreserved f hf
  · intro f' hf' hnil
    obtain ⟨f, hf, hreorders⟩ := hback f' hf'
    have hnodes := hreorders.nodes
    rw [hnil] at hnodes
    exact hg.nodes_ne_nil f hf hnodes.eq_nil
  · have hmethods := hg.methods
    simp only [Family.members, List.map_flatMap, List.map_map, Function.comp_def] at hmethods ⊢
    have hperm := h.flatMap_perm (fun f => f.nodes.map f.visitMethod) fun f f' hreorders => by
      rw [hreorders.visitMethod_eq]
      exact hreorders.nodes.map f'.visitMethod
    exact hperm.nodup_iff.mp hmethods
  · intro f' hf' n hn
    obtain ⟨f, hf, hreorders⟩ := hback f' hf'
    exact hg.slots f hf n (hreorders.nodes.mem_iff.mpr hn)

theorem dependenciesExist (h : g.Reorders g') (hg : g.DependenciesExist) :
    g'.DependenciesExist := by
  intro f' hf' name hname
  obtain ⟨f, hf, hreorders⟩ := h.symm.exists_counterpart hf'
  obtain ⟨d, hd, rfl⟩ := hg f hf name (hreorders.dependsOn ▸ hname)
  obtain ⟨d', hd', hname'⟩ := h.exists_counterpart hd
  exact ⟨d', hd', hname'.name.symm⟩

theorem exists_needs
    (h : g.Reorders g') {f d f' : Family} (hneeds : g.Needs f d) (hf : f.Reorders f') :
    ∃ d', d.Reorders d' ∧ g'.Needs f' d' := by
  induction hneeds with
  | refl => exact ⟨f', hf, .refl⟩
  | tail _ hstep ih =>
      obtain ⟨e', he, hneeds⟩ := ih
      obtain ⟨d', hd', hd⟩ := h.exists_counterpart hstep.1
      refine ⟨d', hd, hneeds.tail ⟨hd', ?_⟩⟩
      rw [← he.dependsOn, hstep.2, hd.name]

theorem acyclic (h : g.Reorders g') (hg : g.NamesDistinct) (hacyclic : g.Acyclic) :
    g'.Acyclic := by
  intro f' hf' hreach
  -- A way round in the reordered grammar comes back to a family of the same name.
  obtain ⟨d', hstep, hneeds⟩ := Relation.TransGen.head'_iff.mp hreach
  obtain ⟨f, hf, hfamily⟩ := h.symm.exists_counterpart hf'
  obtain ⟨d, hd, hdependency⟩ := h.symm.exists_counterpart hstep.1
  obtain ⟨e, he, hneeds⟩ := h.symm.exists_needs hneeds hdependency
  have hfirst : g.DependsOn f d := by
    refine ⟨hd, ?_⟩
    rw [← hfamily.dependsOn, hstep.2, hdependency.name]
  obtain rfl : e = f :=
    hg.eq (hneeds.mem hd) hf (he.name.symm.trans hfamily.name)
  exact hacyclic e hf (Relation.TransGen.head' hfirst hneeds)

theorem referencesDeclared
    (h : g.Reorders g') (hg' : g'.NamesDistinct) (hdeclared : g.ReferencesDeclared) :
    g'.ReferencesDeclared := by
  intro f' hf' d' hd' hmentions
  obtain ⟨f, hf, hfamily⟩ := h.symm.exists_counterpart hf'
  obtain ⟨d, hd, htarget⟩ := h.symm.exists_counterpart hd'
  have hneeds := hdeclared f hf d hd (htarget.name ▸ hfamily.mentions hmentions)
  obtain ⟨e', he, hneeds'⟩ := h.exists_needs hneeds hfamily.symm
  rwa [hg'.eq hd' (hneeds'.mem hf') (htarget.name.trans he.name)]

theorem exists_link_eq_ok
    (h : g.Reorders g') (hlink : ∃ l, g.link = .ok l) : ∃ l', g'.link = .ok l' := by
  rw [exists_link_eq_ok_iff] at hlink ⊢
  obtain ⟨hvalid, hexist, hacyclic, hdeclared⟩ := hlink
  have hvalid' : g'.validate = .ok () :=
    validate_eq_ok_iff_unambiguous.mpr (h.unambiguous (validate_eq_ok_iff_unambiguous.mp hvalid))
  exact ⟨hvalid', h.dependenciesExist hexist,
    h.acyclic (namesDistinct_of_validate hvalid) hacyclic,
    h.referencesDeclared (namesDistinct_of_validate hvalid') hdeclared⟩

/-! ## What linking finds out -/

theorem borrowClosed
    (h : g.Reorders g') {names : Set String} (hclosed : g.BorrowClosed names) :
    g'.BorrowClosed names := by
  intro f' hf' name hmentions hname
  obtain ⟨f, hf, hreorders⟩ := h.symm.exists_counterpart hf'
  rw [hreorders.name]
  exact hclosed f hf name (hreorders.mentions hmentions) (h.ownership ▸ hname)

/-- The borrowing families are the same, although they may be found in another order. -/
theorem mem_borrowingFamilies_iff (h : g.Reorders g') (name : String) :
    name ∈ Linked.borrowingFamilies g ↔ name ∈ Linked.borrowingFamilies g' :=
  ⟨Linked.borrowingFamilies_subset (h.symm.borrowClosed (Linked.borrowClosed_borrowingFamilies g'))
      name,
    Linked.borrowingFamilies_subset (h.borrowClosed (Linked.borrowClosed_borrowingFamilies g)) name⟩

theorem borrows_eq
    (h : g.Reorders g') {l l' : Linked} (hl : g.link = .ok l) (hl' : g'.link = .ok l') (n : Node) :
    l.borrows n = l'.borrows n := by
  rw [Bool.eq_iff_iff, Linked.borrows, Linked.borrows, Linked.nodeBorrows_iff,
    Linked.nodeBorrows_iff, grammar_of_link hl, grammar_of_link hl', borrowing_of_link hl,
    borrowing_of_link hl', h.ownership]
  simp only [h.mem_borrowingFamilies_iff]

theorem unrecognizedTypes_eq (h : g.Reorders g') :
    Linked.unrecognizedTypes g = Linked.unrecognizedTypes g' := by
  have hnodes := h.flatMap_perm (·.nodes) fun _ _ hreorders => hreorders.nodes
  unfold Linked.unrecognizedTypes
  simp only [h.isFamily_eq, h.ownership, h.options]
  apply Linked.sortedNames_eq_of_perm
  exact ((hnodes.flatMap_right _).flatMap_right _).filter _

theorem exists_dependencyChain
    (h : g.Reorders g') {next : Option String} {chain : List Family}
    (hchain : g.DependencyChain next chain) :
    ∃ chain', g'.DependencyChain next chain' ∧ List.Forall₂ Family.Reorders chain chain' := by
  induction hchain with
  | none => exact ⟨[], .none, .nil⟩
  | some hf _ ih =>
      obtain ⟨farther', hfarther', hcounterparts⟩ := ih
      obtain ⟨f', hf', hreorders⟩ := h.exists_counterpart hf
      rw [hreorders.dependsOn] at hfarther'
      refine ⟨farther' ++ [f'], ?_, List.rel_append hcounterparts (.cons hreorders .nil)⟩
      rw [hreorders.name]
      exact .some hf' hfarther'

theorem names_dependencies_eq
    (h : g.Reorders g') {l l' : Linked} (hl : g.link = .ok l) (hl' : g'.link = .ok l')
    {f f' : Family} (hf : f ∈ g.families) (hf' : f' ∈ g'.families) (hname : f.name = f'.name) :
    (Linked.dependencies g f).map (·.name) = (Linked.dependencies g' f').map (·.name) := by
  have hg' := namesDistinct_of_link hl'
  obtain ⟨e', he', hreorders⟩ := h.exists_counterpart hf
  obtain rfl : e' = f' := hg'.eq he' hf' (hreorders.name.symm.trans hname)
  obtain ⟨chain', hchain', hcounterparts⟩ :=
    h.exists_dependencyChain (Linked.dependencyChain_dependencies hl hf)
  rw [hreorders.dependsOn] at hchain'
  obtain rfl := hchain'.unique hg' (Linked.dependencyChain_dependencies hl' hf')
  exact (map_eq_map_of_forall₂ hcounterparts fun _ _ _ hd => hd.name.symm).symm

end Reorders

/-- Linking does not depend on the order in which families and nodes are listed: it accepts
a grammar when it accepts the reordered one, and then it finds the same families and the
same nodes to borrow, the same type names to be unknown, and the same dependencies of each
family. -/
theorem link_reordered {g g' : Grammar} (h : g.Reorders g') :
    ((∃ l, g.link = .ok l) ↔ ∃ l', g'.link = .ok l') ∧
      ∀ l l', g.link = .ok l → g'.link = .ok l' →
        (∀ name, name ∈ l.borrowing ↔ name ∈ l'.borrowing) ∧
        (∀ n, l.borrows n = l'.borrows n) ∧
        Linked.unrecognizedTypes g = Linked.unrecognizedTypes g' ∧
        ∀ f ∈ g.families, ∀ f' ∈ g'.families, f.name = f'.name →
          (Linked.dependencies g f).map (·.name) = (Linked.dependencies g' f').map (·.name) := by
  refine ⟨⟨h.exists_link_eq_ok, h.symm.exists_link_eq_ok⟩, fun l l' hl hl' => ⟨?_, ?_, ?_, ?_⟩⟩
  · intro name
    rw [borrowing_of_link hl, borrowing_of_link hl', h.mem_borrowingFamilies_iff]
  · exact h.borrows_eq hl hl'
  · exact h.unrecognizedTypes_eq
  · exact fun f hf f' hf' hname => h.names_dependencies_eq hl hl' hf hf' hname

/-- Families with borrowed values behind each other, the last one first. -/
def downward : Grammar :=
  { name := "Order"
    families := [⟨"Stmt", [⟨"Run", [⟨⟨"Expr", []⟩, "body"⟩]⟩, ⟨"Skip", [⟨⟨"Gap", []⟩, "gap"⟩]⟩],
        some "Expr"⟩,
      ⟨"Expr", [⟨"Cast", [⟨⟨"Type", []⟩, "target"⟩]⟩, ⟨"Name", [⟨⟨"Token", []⟩, "name"⟩]⟩],
        some "Type"⟩,
      ⟨"Type", [⟨"Any", [⟨⟨"u8", []⟩, "width"⟩]⟩], none⟩] }

/-- The same families, the last one last, with their nodes the other way around. -/
def upward : Grammar :=
  { name := "Order"
    families := [⟨"Type", [⟨"Any", [⟨⟨"u8", []⟩, "width"⟩]⟩], none⟩,
      ⟨"Expr", [⟨"Name", [⟨⟨"Token", []⟩, "name"⟩]⟩, ⟨"Cast", [⟨⟨"Type", []⟩, "target"⟩]⟩],
        some "Type"⟩,
      ⟨"Stmt", [⟨"Skip", [⟨⟨"Gap", []⟩, "gap"⟩]⟩, ⟨"Run", [⟨⟨"Expr", []⟩, "body"⟩]⟩],
        some "Expr"⟩] }

theorem downward_reorders_upward : downward.Reorders upward where
  name := rfl
  ownership := rfl
  options := rfl
  families := by
    refine ⟨upward.families.reverse, ?_, List.reverse_perm _⟩
    exact .cons ⟨rfl, rfl, .swap _ _ _⟩ (.cons ⟨rfl, rfl, .swap _ _ _⟩
      (.cons ⟨rfl, rfl, .refl _⟩ .nil))

theorem link_reordered_upward :
    ∃ l l', downward.link = .ok l ∧ upward.link = .ok l' ∧
      (∀ name, name ∈ l.borrowing ↔ name ∈ l'.borrowing) ∧
      (∀ n, l.borrows n = l'.borrows n) ∧
      Linked.unrecognizedTypes downward = Linked.unrecognizedTypes upward ∧
      ∀ f ∈ downward.families, ∀ f' ∈ upward.families, f.name = f'.name →
        (Linked.dependencies downward f).map (·.name) =
          (Linked.dependencies upward f').map (·.name) := by
  obtain ⟨haccepts, hsame⟩ := link_reordered downward_reorders_upward
  have hok : downward.link.toOption.isSome = true := by
    decide +kernel
  cases hl : downward.link with
  | error fault => simp [hl, Except.toOption] at hok
  | ok l =>
      obtain ⟨l', hl'⟩ := haccepts.mp ⟨l, hl⟩
      exact ⟨l, l', rfl, hl', hsame l l' hl hl'⟩

end Grammar

end Treewright
