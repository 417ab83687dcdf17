import Treewright.Linked
import Treewright.Proofs.Mention
import Treewright.Proofs.Order

/-!
# What linking accepts

Linking has four stages: validity, existence of dependencies, the writing order, and
the references between families.  Each stage is given a declarative condition on the
grammar, and linking accepts exactly the grammars that satisfy all four.  A fault is
always one of the first stage that fails, and it points at a place of the grammar
where the condition of that stage is broken: the first one in reading order, where the
stage reads the grammar in order.

The second main result concerns the accepted grammars: the writing order is a
permutation of the families, and which of two families comes first is determined by
their first requests.
-/

namespace Treewright

/-- A name that stands in a field type, with the field, the node and the family. -/
structure Reference where
  family : Family
  node : Node
  field : Field
  target : String

/-- The fault that reports a reference. -/
def Reference.fault (r : Reference) : Fault :=
  .undeclaredReference r.family.name (r.family.typeName r.node) r.field.name r.target

namespace Grammar

/-- All names in field types, by family, node and field, and depth first in each type. -/
def references (g : Grammar) : List Reference :=
  g.families.flatMap fun f => f.nodes.flatMap fun n => n.fields.flatMap fun field =>
    field.type.names.map (Reference.mk f n field)

theorem mem_references_iff {g : Grammar} {r : Reference} :
    r ∈ g.references ↔
      r.family ∈ g.families ∧ r.node ∈ r.family.nodes ∧ r.field ∈ r.node.fields ∧
        r.field.type.Mentions r.target := by
  simp only [references, List.mem_flatMap, List.mem_map, TypeRef.mem_names_iff]
  constructor
  · rintro ⟨f, hf, n, hn, field, hfield, name, hname, rfl⟩
    exact ⟨hf, hn, hfield, hname⟩
  · rintro ⟨hf, hn, hfield, hname⟩
    exact ⟨_, hf, _, hn, _, hfield, _, hname, rfl⟩

/-- The family depends on nothing, or on a family of the grammar. -/
def DependencyExists (g : Grammar) (f : Family) : Prop :=
  ∀ name, f.dependsOn = some name → ∃ d ∈ g.families, d.name = name

/-- Every dependency is a family of the grammar. -/
def DependenciesExist (g : Grammar) : Prop :=
  ∀ f ∈ g.families, g.DependencyExists f

/-- Every family that is mentioned in a field type is needed by the family of the field. -/
def ReferencesDeclared (g : Grammar) : Prop :=
  ∀ f ∈ g.families, ∀ d ∈ g.families, f.Mentions d.name → g.Needs f d

/-- The target of the reference is a family that is not needed by the family of the
field. -/
def Stray (g : Grammar) (r : Reference) : Prop :=
  ∃ d ∈ g.families, d.name = r.target ∧ ¬g.Needs r.family d

/-- The faults that linking may report: one for each stage, under the conditions of all
earlier stages. -/
inductive LinkFault (g : Grammar) : Fault → Prop
  | invalid {fault : Fault} (h : g.validate = .error fault) : LinkFault g fault
  /-- The first family in declaration order whose dependency is missing. -/
  | unknownDependency {before after : List Family} {f : Family} {name : String}
      (hvalid : g.validate = .ok ()) (hsplit : g.families = before ++ f :: after)
      (hbefore : ∀ e ∈ before, g.DependencyExists e) (hname : f.dependsOn = some name)
      (hmissing : ∀ d ∈ g.families, d.name ≠ name) :
      LinkFault g (.unknownDependency f.name name)
  /-- Families that depend on each other in a circle. -/
  | dependencyCycle {cycle : List String} (hvalid : g.validate = .ok ())
      (hexist : g.DependenciesExist) (hcycle : g.IsCycle cycle) :
      LinkFault g (.dependencyCycle cycle)
  /-- The first stray reference in reading order. -/
  | undeclaredReference {before after : List Reference} {r : Reference}
      (hvalid : g.validate = .ok ()) (hexist : g.DependenciesExist) (hacyclic : g.Acyclic)
      (hsplit : g.references = before ++ r :: after) (hbefore : ∀ s ∈ before, ¬g.Stray s)
      (hstray : g.Stray r) : LinkFault g r.fault

end Grammar

namespace Linked

/-! ## Existence of dependencies -/

theorem isFamily_eq_true_iff_of_dependsOn
    {g : Grammar} {f : Family} {name : String} (hname : f.dependsOn = some name) :
    g.isFamily name = true ↔ g.DependencyExists f := by
  rw [Grammar.isFamily_iff]
  constructor
  · intro h name' hname'
    rw [hname] at hname'
    rwa [← Option.some.inj hname']
  · intro h
    exact h name hname

theorem checkDependencies_cons
    (g : Grammar) (f : Family) (rest : List Family) :
    g.DependencyExists f ∧ checkDependencies g (f :: rest) = checkDependencies g rest ∨
      ∃ name, f.dependsOn = some name ∧ (∀ d ∈ g.families, d.name ≠ name) ∧
        checkDependencies g (f :: rest) = .error (.unknownDependency f.name name) := by
  cases hname : f.dependsOn with
  | none =>
      refine Or.inl ⟨?_, by simp [checkDependencies, hname]⟩
      intro name h
      simp [hname] at h
  | some name =>
      by_cases hfamily : g.isFamily name = true
      · exact Or.inl ⟨(isFamily_eq_true_iff_of_dependsOn hname).mp hfamily,
          by simp [checkDependencies, hname, hfamily]⟩
      · refine Or.inr ⟨name, rfl, ?_, by simp [checkDependencies, hname, hfamily]⟩
        intro d hd heq
        exact hfamily (Grammar.isFamily_iff.mpr ⟨d, hd, heq⟩)

theorem checkDependencies_eq_ok_iff
    {g : Grammar} {families : List Family} :
    checkDependencies g families = .ok () ↔ ∀ f ∈ families, g.DependencyExists f := by
  induction families with
  | nil => simp [checkDependencies]
  | cons f rest ih =>
      rw [List.forall_mem_cons]
      rcases checkDependencies_cons g f rest with ⟨hf, hrest⟩ | ⟨name, hname, hmissing, hfault⟩
      · rw [hrest, ih]
        exact ⟨fun h => ⟨hf, h⟩, fun h => h.2⟩
      · rw [hfault]
        constructor
        · intro h
          simp at h
        · rintro ⟨hf, -⟩
          obtain ⟨d, hd, heq⟩ := hf name hname
          exact False.elim (hmissing d hd heq)

/-- The reported dependency is the first one that is missing. -/
theorem exists_of_checkDependencies_eq_error
    {g : Grammar} {families : List Family} {fault : Fault}
    (h : checkDependencies g families = .error fault) :
    ∃ before f after name, families = before ++ f :: after ∧
      (∀ e ∈ before, g.DependencyExists e) ∧ f.dependsOn = some name ∧
      (∀ d ∈ g.families, d.name ≠ name) ∧ fault = .unknownDependency f.name name := by
  induction families with
  | nil => simp [checkDependencies] at h
  | cons f rest ih =>
      rcases checkDependencies_cons g f rest with ⟨hf, hrest⟩ | ⟨name, hname, hmissing, hfault⟩
      · rw [hrest] at h
        obtain ⟨before, e, after, name, hsplit, hbefore, hrest⟩ := ih h
        refine ⟨f :: before, e, after, name, by simp [hsplit], ?_, hrest⟩
        exact List.forall_mem_cons.mpr ⟨hf, hbefore⟩
      · rw [hfault] at h
        exact ⟨[], f, rest, name, rfl, by simp, hname, hmissing, (Except.error.inj h).symm⟩

/-! ## References between families -/

/-- Decides whether a reference is stray. -/
def isStray (g : Grammar) (r : Reference) : Bool :=
  g.isFamily r.target && decide (r.target ∉ reachableNames g r.family)

/-- The reachable names of a family are those of the families that it needs. -/
theorem mem_reachableNames_iff
    {g : Grammar} (hg : g.NamesDistinct) {f d : Family}
    (hf : f ∈ g.families) (hd : d ∈ g.families) :
    d.name ∈ reachableNames g f ↔ g.Needs f d := by
  rw [reachableNames, List.mem_cons, List.mem_map]
  constructor
  · rintro (hname | ⟨e, he, hname⟩)
    · rw [hg.eq hd hf hname]
    · have hreach := (mem_dependencies_iff hg).mp he
      rw [← hg.eq hreach.mem hd hname]
      exact hreach.to_reflTransGen
  · intro hneeds
    rcases Relation.reflTransGen_iff_eq_or_transGen.mp hneeds with rfl | hreach
    · exact Or.inl rfl
    · exact Or.inr ⟨d, (mem_dependencies_iff hg).mpr hreach, rfl⟩

theorem isStray_eq_true_iff
    {g : Grammar} (hg : g.NamesDistinct) {r : Reference} (hr : r.family ∈ g.families) :
    isStray g r = true ↔ g.Stray r := by
  rw [isStray, Bool.and_eq_true, Grammar.isFamily_iff, decide_eq_true_eq]
  constructor
  · rintro ⟨⟨d, hd, hname⟩, hnot⟩
    refine ⟨d, hd, hname, ?_⟩
    rwa [← mem_reachableNames_iff hg hr hd, hname]
  · rintro ⟨d, hd, hname, hnot⟩
    refine ⟨⟨d, hd, hname⟩, ?_⟩
    rwa [← hname, mem_reachableNames_iff hg hr hd]

/-- The three nested searches for a stray reference are one search through all of them. -/
theorem checkReferences_eq (g : Grammar) :
    checkReferences g =
      match g.references.find? (isStray g) with
      | some r => .error r.fault
      | none => .ok () := by
  have hsearch :
      g.families.findSome? (strayReference? g) =
        (g.references.find? (isStray g)).map Reference.fault := by
    simp only [Grammar.references, List.find?_flatMap, List.map_findSome?]
    congr 1
    funext f
    simp only [strayReference?, strayField?, stray?, Function.comp_apply, List.map_findSome?]
    congr 1
    funext n
    simp only [Function.comp_apply, List.find?_map, List.map_findSome?]
    congr 1
    funext field
    simp only [Function.comp_apply, Option.map_map]
    rfl
  rw [checkReferences, hsearch]
  cases g.references.find? (isStray g) with
  | none => rfl
  | some r => rfl

theorem checkReferences_eq_ok_iff
    {g : Grammar} (hg : g.NamesDistinct) :
    checkReferences g = .ok () ↔ g.ReferencesDeclared := by
  have hnone : checkReferences g = .ok () ↔ ∀ r ∈ g.references, ¬g.Stray r := by
    rw [checkReferences_eq]
    cases hfind : g.references.find? (isStray g) with
    | none =>
        simp only [true_iff]
        intro r hr hstray
        have hfamily := (Grammar.mem_references_iff.mp hr).1
        exact List.find?_eq_none.mp hfind r hr ((isStray_eq_true_iff hg hfamily).mpr hstray)
    | some r =>
        have hr := List.mem_of_find?_eq_some hfind
        have hfamily := (Grammar.mem_references_iff.mp hr).1
        have hstray := (isStray_eq_true_iff hg hfamily).mp (List.find?_some hfind)
        simp only [reduceCtorEq, false_iff]
        intro h
        exact h r hr hstray
  rw [hnone]
  constructor
  · rintro h f hf d hd ⟨n, hn, field, hfield, hmentions⟩
    by_contra hneeds
    have hr : Reference.mk f n field d.name ∈ g.references :=
      Grammar.mem_references_iff.mpr ⟨hf, hn, hfield, hmentions⟩
    exact h _ hr ⟨d, hd, rfl, hneeds⟩
  · rintro h r hr ⟨d, hd, hname, hneeds⟩
    obtain ⟨hf, hn, hfield, hmentions⟩ := Grammar.mem_references_iff.mp hr
    rw [← hname] at hmentions
    exact hneeds (h r.family hf d hd ⟨r.node, hn, r.field, hfield, hmentions⟩)

/-- The reported reference is the first stray one. -/
theorem exists_of_checkReferences_eq_error
    {g : Grammar} (hg : g.NamesDistinct) {fault : Fault}
    (h : checkReferences g = .error fault) :
    ∃ before r after, g.references = before ++ r :: after ∧ (∀ s ∈ before, ¬g.Stray s) ∧
      g.Stray r ∧ fault = r.fault := by
  rw [checkReferences_eq] at h
  cases hfind : g.references.find? (isStray g) with
  | none => simp [hfind] at h
  | some r =>
      rw [hfind] at h
      obtain ⟨hstray, before, after, hsplit, hbefore⟩ := List.find?_eq_some_iff_append.mp hfind
      have hfamily : ∀ s ∈ g.references, s.family ∈ g.families :=
        fun s hs => (Grammar.mem_references_iff.mp hs).1
      refine ⟨before, r, after, hsplit, ?_, ?_, (Except.error.inj h).symm⟩
      · intro s hs hs'
        have hmem : s ∈ g.references := by
          rw [hsplit]
          exact List.mem_append_left _ hs
        have hclear := hbefore s hs
        rw [(isStray_eq_true_iff hg (hfamily s hmem)).mpr hs'] at hclear
        simp at hclear
      · exact (isStray_eq_true_iff hg (hfamily r (List.mem_of_find?_eq_some hfind))).mp hstray

end Linked

namespace Grammar

/-! ## All stages -/

/-- What an accepted grammar has passed, and what linking makes of it. -/
theorem link_eq_ok_iff_stages {g : Grammar} {l : Linked} :
    g.link = .ok l ↔
      g.validate = .ok () ∧ Linked.checkDependencies g g.families = .ok () ∧
        Linked.checkReferences g = .ok () ∧
        ∃ order, Linked.emissionOrder g = .ok order ∧
          l = ⟨g, order, Linked.borrowingFamilies g⟩ := by
  unfold link
  cases g.validate with
  | error fault => simp
  | ok u =>
      cases Linked.checkDependencies g g.families with
      | error fault => simp
      | ok u =>
          cases Linked.emissionOrder g with
          | error fault => simp
          | ok order =>
              cases Linked.checkReferences g with
              | error fault => simp
              | ok u => simp [eq_comm]

/-- Linking accepts the grammars that satisfy the conditions of all four stages. -/
theorem exists_link_eq_ok_iff (g : Grammar) :
    (∃ l, g.link = .ok l) ↔
      g.validate = .ok () ∧ g.DependenciesExist ∧ g.Acyclic ∧ g.ReferencesDeclared := by
  simp only [link_eq_ok_iff_stages, Linked.checkDependencies_eq_ok_iff]
  constructor
  · rintro ⟨l, hvalid, hexist, hreferences, order, horder, -⟩
    have hg := namesDistinct_of_validate hvalid
    exact ⟨hvalid, hexist, (Linked.emissionOrder_eq_ok_iff_acyclic hg).mp ⟨order, horder⟩,
      (Linked.checkReferences_eq_ok_iff hg).mp hreferences⟩
  · rintro ⟨hvalid, hexist, hacyclic, hreferences⟩
    have hg := namesDistinct_of_validate hvalid
    obtain ⟨order, horder⟩ := (Linked.emissionOrder_eq_ok_iff_acyclic hg).mpr hacyclic
    exact ⟨_, hvalid, hexist, (Linked.checkReferences_eq_ok_iff hg).mpr hreferences,
      order, horder, rfl⟩

/-- A fault of linking belongs to the first stage that fails. -/
theorem linkFault_of_link_eq_error
    {g : Grammar} {fault : Fault} (h : g.link = .error fault) : g.LinkFault fault := by
  unfold link at h
  cases hvalid : g.validate with
  | error found =>
      obtain rfl : found = fault := by simpa [hvalid] using h
      exact .invalid hvalid
  | ok u =>
      have hg := namesDistinct_of_validate hvalid
      cases hexist : Linked.checkDependencies g g.families with
      | error found =>
          obtain rfl : found = fault := by simpa [hvalid, hexist] using h
          obtain ⟨before, f, after, name, hsplit, hbefore, hname, hmissing, rfl⟩ :=
            Linked.exists_of_checkDependencies_eq_error hexist
          exact .unknownDependency hvalid hsplit hbefore hname hmissing
      | ok u =>
          have hexist' : g.DependenciesExist := Linked.checkDependencies_eq_ok_iff.mp hexist
          cases horder : Linked.emissionOrder g with
          | error found =>
              obtain rfl : found = fault := by simpa [hvalid, hexist, horder] using h
              obtain ⟨cycle, hcycle, rfl⟩ := Linked.isCycle_of_emissionOrder_eq_error hg horder
              exact .dependencyCycle hvalid hexist' hcycle
          | ok order =>
              have hacyclic : g.Acyclic :=
                (Linked.emissionOrder_eq_ok_iff_acyclic hg).mp ⟨order, horder⟩
              cases hreferences : Linked.checkReferences g with
              | error found =>
                  obtain rfl : found = fault := by
                    simpa [hvalid, hexist, horder, hreferences] using h
                  obtain ⟨before, r, after, hsplit, hbefore, hstray, rfl⟩ :=
                    Linked.exists_of_checkReferences_eq_error hg hreferences
                  exact .undeclaredReference hvalid hexist' hacyclic hsplit hbefore hstray
              | ok u => simp [hvalid, hexist, horder, hreferences] at h

/-- Linking accepts exactly the well-formed grammars, and a fault is a true witness of
the first stage that fails. -/
theorem link_accepts_exactly (g : Grammar) :
    ((∃ l, g.link = .ok l) ↔
      g.validate = .ok () ∧ g.DependenciesExist ∧ g.Acyclic ∧ g.ReferencesDeclared) ∧
      ∀ fault, g.link = .error fault → g.LinkFault fault :=
  ⟨exists_link_eq_ok_iff g, fun _ h => linkFault_of_link_eq_error h⟩

/-- A family that mentions, inside a container, the family that depends on it. -/
def backReference : Grammar :=
  { name := "Back"
    families := [⟨"Expr", [⟨"Block", [⟨⟨"Vec", [⟨"Stmt", []⟩]⟩, "body"⟩]⟩], none⟩,
      ⟨"Stmt", [⟨"Run", [⟨⟨"Expr", []⟩, "value"⟩]⟩], some "Expr"⟩] }

theorem link_accepts_exactly_backReference :
    backReference.LinkFault (.undeclaredReference "Expr" "BlockExpr" "body" "Stmt") ∧
      ¬(backReference.validate = .ok () ∧ backReference.DependenciesExist ∧
        backReference.Acyclic ∧ backReference.ReferencesDeclared) := by
  have hfault : (match backReference.link with
      | .error fault => decide (fault = .undeclaredReference "Expr" "BlockExpr" "body" "Stmt")
      | .ok _ => false) = true := by
    decide +kernel
  obtain ⟨haccepts, hwitness⟩ := link_accepts_exactly backReference
  cases h : backReference.link with
  | ok l => simp [h] at hfault
  | error fault =>
      obtain rfl : fault = .undeclaredReference "Expr" "BlockExpr" "body" "Stmt" := by
        simpa [h] using hfault
      refine ⟨hwitness _ h, ?_⟩
      rw [← haccepts, h]
      rintro ⟨l, hl⟩
      cases hl

/-! ## Accepted grammars -/

theorem grammar_of_link {g : Grammar} {l : Linked} (h : g.link = .ok l) : l.grammar = g := by
  obtain ⟨-, -, -, order, -, rfl⟩ := link_eq_ok_iff_stages.mp h
  rfl

theorem borrowing_of_link
    {g : Grammar} {l : Linked} (h : g.link = .ok l) :
    l.borrowing = Linked.borrowingFamilies g := by
  obtain ⟨-, -, -, order, -, rfl⟩ := link_eq_ok_iff_stages.mp h
  rfl

theorem acyclic_of_link {g : Grammar} {l : Linked} (h : g.link = .ok l) : g.Acyclic :=
  ((exists_link_eq_ok_iff g).mp ⟨l, h⟩).2.2.1

theorem namesDistinct_of_link {g : Grammar} {l : Linked} (h : g.link = .ok l) :
    g.NamesDistinct :=
  namesDistinct_of_validate (link_eq_ok_iff_stages.mp h).1

/-- In an accepted grammar all families have been written in the order of the requests. -/
theorem written_of_link
    {g : Grammar} {l : Linked} (h : g.link = .ok l) :
    Linked.Written g g.families l.order [] := by
  have hg := namesDistinct_of_link h
  obtain ⟨-, -, -, order, horder, rfl⟩ := link_eq_ok_iff_stages.mp h
  exact Linked.written_of_emissionOrder_eq_ok hg horder

theorem order_perm_of_link
    {g : Grammar} {l : Linked} (h : g.link = .ok l) : l.order.Perm g.families := by
  simpa using (written_of_link h).perm

theorem mem_order_iff
    {g : Grammar} {l : Linked} (h : g.link = .ok l) {f : Family} :
    f ∈ l.order ↔ f ∈ g.families :=
  (order_perm_of_link h).mem_iff

/-- Every family of an accepted grammar is written once, a dependency before what
depends on it, and otherwise by first requests. -/
theorem link_order_by_first_request
    {g : Grammar} {l : Linked} (h : g.link = .ok l) :
    Linked.emissionOrder g = .ok l.order ∧ l.order.Perm g.families ∧ l.order.Nodup ∧
      (∀ a ∈ g.families, ∀ b ∈ g.families, a ≠ b →
        (Linked.Precedes l.order a b ↔
          g.firstRequest a < g.firstRequest b ∨
            g.firstRequest a = g.firstRequest b ∧ g.Reaches b a)) ∧
      (∀ b ∈ g.families, ∀ a, g.Reaches b a → Linked.Precedes l.order a b) ∧
      (l.order = g.families ↔
        ∀ b ∈ g.families, ∀ a, g.DependsOn b a → Linked.Precedes g.families a b) := by
  have hg := namesDistinct_of_link h
  have hacyclic := acyclic_of_link h
  have w := written_of_link h
  have hperm := order_perm_of_link h
  refine ⟨?_, hperm, hperm.nodup_iff.mpr hg.nodup, ?_, ?_, w.eq_families_iff hg hacyclic⟩
  · obtain ⟨-, -, -, order, horder, rfl⟩ := link_eq_ok_iff_stages.mp h
    exact horder
  · intro a ha b hb hne
    exact w.precedes_iff hacyclic ha hb hne
  · intro b hb a hreaches
    exact w.precedes_of_reaches hacyclic hb hreaches

/-- Two families that depend on a third one declared between them, and a fourth one that
is needed by nobody. -/
def mergingChains : Grammar :=
  { name := "Merging"
    families := [⟨"Stmt", [⟨"Run", []⟩], some "Expr"⟩, ⟨"Type", [⟨"Any", []⟩], none⟩,
      ⟨"Expr", [⟨"Nil", []⟩], none⟩, ⟨"Item", [⟨"Let", []⟩], some "Expr"⟩] }

theorem link_order_by_first_request_mergingChains :
    ∃ l, mergingChains.link = .ok l ∧
      l.order.map (·.name) = ["Expr", "Stmt", "Type", "Item"] ∧
      l.order.Perm mergingChains.families ∧ l.order ≠ mergingChains.families := by
  have hnames : (mergingChains.link.toOption.map fun l => l.order.map (·.name)) =
      some ["Expr", "Stmt", "Type", "Item"] := by
    decide +kernel
  cases h : mergingChains.link with
  | error fault => simp [h, Except.toOption] at hnames
  | ok l =>
      have horder : l.order.map (·.name) = ["Expr", "Stmt", "Type", "Item"] := by
        simpa [h, Except.toOption] using hnames
      obtain ⟨-, hperm, -, -, -, -⟩ := link_order_by_first_request h
      refine ⟨l, rfl, horder, hperm, ?_⟩
      intro hsame
      simp [hsame, mergingChains] at horder

end Grammar

end Treewright
