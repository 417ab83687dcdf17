import Mathlib.Data.List.Nodup
import Treewright.Grammar.Validation

/-!
# What validation promises

Validation walks over families and nodes once and carries two accumulators along:
the earlier families, and the visitor methods taken so far.  One inversion lemma for
each of its loops says what a passed step has checked.  From these, by induction over
the walk, a whole walk has checked that keys are `Fresh`: told apart from each other and
from those taken before.

Together the walks accept the grammars whose written names are told apart.  Families are
then told apart by their names as well, and nodes of all families by the types written
for them.
-/

namespace Treewright

/-- The nodes of families in order, each with its family. -/
def Family.members (families : List Family) : List (Family × Node) :=
  families.flatMap fun f => f.nodes.map (Prod.mk f)

theorem Family.mem_members_iff
    {families : List Family} {f : Family} {n : Node} :
    (f, n) ∈ Family.members families ↔ f ∈ families ∧ n ∈ f.nodes := by
  simp only [Family.members, List.mem_flatMap, List.mem_map, Prod.mk.injEq]
  constructor
  · rintro ⟨e, he, m, hm, rfl, rfl⟩
    exact ⟨he, hm⟩
  · rintro ⟨hf, hn⟩
    exact ⟨f, hf, n, hn, rfl, rfl⟩

/-! ## Keys told apart -/

/-- No two of the sources have the same key, and none has a key that is taken. -/
def Fresh {α : Type} (key : α → String) (taken : List String) (sources : List α) : Prop :=
  (sources.map key).Nodup ∧ ∀ a ∈ sources, key a ∉ taken

section Fresh

variable {α β : Type} {key : α → String} {taken : List String}

@[simp] theorem fresh_nil : Fresh key taken [] :=
  ⟨List.nodup_nil, fun _ h => False.elim (List.not_mem_nil h)⟩

theorem fresh_nil_iff {sources : List α} : Fresh key [] sources ↔ (sources.map key).Nodup := by
  simp [Fresh]

/-- The walks over sources check one of them and take its key. -/
theorem fresh_cons_iff {a : α} {rest : List α} :
    Fresh key taken (a :: rest) ↔ key a ∉ taken ∧ Fresh key (key a :: taken) rest := by
  rw [Fresh, Fresh, List.map_cons, List.nodup_cons, List.forall_mem_cons]
  simp only [List.mem_cons, not_or, List.mem_map, not_exists, not_and, forall_and]
  tauto

theorem fresh_append_iff {sources rest : List α} :
    Fresh key taken (sources ++ rest) ↔
      Fresh key taken sources ∧ Fresh key ((sources.map key).reverse ++ taken) rest := by
  induction sources generalizing taken with
  | nil => simp
  | cons a sources ih =>
      rw [List.cons_append, fresh_cons_iff, fresh_cons_iff, ih, and_assoc, List.map_cons,
        List.reverse_cons, List.append_assoc, List.singleton_append]

theorem fresh_map_iff {view : β → α} {sources : List β} :
    Fresh key taken (sources.map view) ↔ Fresh (fun b => key (view b)) taken sources := by
  simp [Fresh, Function.comp_def]

end Fresh

namespace Grammar

/-- No two families have the same name. -/
def NamesDistinct (g : Grammar) : Prop :=
  (g.families.map (·.name)).Nodup

theorem NamesDistinct.eq
    {g : Grammar} (hg : g.NamesDistinct) {e f : Family}
    (he : e ∈ g.families) (hf : f ∈ g.families) (hname : e.name = f.name) : e = f :=
  List.inj_on_of_nodup_map hg he hf hname

theorem NamesDistinct.nodup {g : Grammar} (hg : g.NamesDistinct) : g.families.Nodup :=
  List.Nodup.of_map _ hg

/-! ## One step of each loop -/

theorem checkNodes_cons_eq_ok_iff
    {family : Family} {classes : List String} {visits out : List (String × String)}
    {n : Node} {rest : List Node} :
    checkNodes family classes visits (n :: rest) = .ok out ↔
      n.className ∉ classes ∧ family.visitMethod n ∉ visits.map (·.1) ∧
        checkFields (family.typeName n) [] n.fields = .ok () ∧
        checkNodes family (n.className :: classes)
          ((family.visitMethod n, family.typeName n) :: visits) rest = .ok out := by
  have hlookup :
      visits.lookup (family.visitMethod n) = none ↔
        family.visitMethod n ∉ visits.map (·.1) := by
    simp only [List.lookup_eq_none_iff, List.mem_map, not_exists, not_and]
    constructor
    · intro h p hp heq
      simpa [heq] using h p hp
    · intro h p hp
      simpa using fun heq => h p hp heq.symm
  rw [checkNodes]
  by_cases hclass : n.className ∈ classes
  · simp [hclass]
  · rw [if_neg hclass, ← hlookup]
    cases hvisit : visits.lookup (family.visitMethod n) with
    | some first => simp
    | none =>
        cases hfields : checkFields (family.typeName n) [] n.fields with
        | error fault => simp
        | ok u => simp [hclass]

theorem checkFamilies_cons_eq_ok_iff
    {earlier : List Family} {visits : List (String × String)}
    {f : Family} {rest : List Family} :
    checkFamilies earlier visits (f :: rest) = .ok () ↔
      Name.isIdentifier f.name = true ∧ (∀ e ∈ earlier, e.name ≠ f.name) ∧
        f.moduleName ∉ reservedModules ∧ (∀ e ∈ earlier, e.moduleName ≠ f.moduleName) ∧
        f.nodes ≠ [] ∧
        ∃ out, checkNodes f [] visits f.nodes = .ok out ∧
          checkFamilies (f :: earlier) out rest = .ok () := by
  rw [checkFamilies]
  by_cases hident : Name.isIdentifier f.name = true
  · by_cases hname : earlier.any (·.name == f.name) = true
    · have hnot : ¬∀ e ∈ earlier, e.name ≠ f.name := by
        simpa using hname
      simp [hident, hname, hnot]
    · have hnames : ∀ e ∈ earlier, e.name ≠ f.name := by
        simpa using hname
      by_cases hreserved : f.moduleName ∈ reservedModules
      · simp [hident, hname, hreserved]
      · cases hmodule : earlier.find? (·.moduleName == f.moduleName) with
        | some first =>
            have hnot : ¬∀ e ∈ earlier, e.moduleName ≠ f.moduleName := by
              intro h
              exact h first (List.mem_of_find?_eq_some hmodule)
                (by simpa using List.find?_some hmodule)
            simp [hident, hname, hreserved, hnot]
        | none =>
            have hmodules : ∀ e ∈ earlier, e.moduleName ≠ f.moduleName := by
              simpa using hmodule
            by_cases hempty : f.nodes = []
            · simp [hident, hname, hreserved, hempty]
            · cases hnodes : checkNodes f [] visits f.nodes with
              | error fault => simp [hident, hname, hreserved, hempty]
              | ok out =>
                  constructor
                  · intro hrest
                    exact ⟨hident, hnames, hreserved, hmodules, hempty, out, rfl,
                      by simpa [hident, hname, hreserved, hempty] using hrest⟩
                  · rintro ⟨-, -, -, -, -, _, hout, hrest⟩
                    obtain rfl := Except.ok.inj hout
                    simpa [hident, hname, hreserved, hempty] using hrest
  · simp [hident]

theorem validate_eq_ok_iff {g : Grammar} :
    g.validate = .ok () ↔
      g.ownership.validate = .ok () ∧ checkFamilies [] [] g.families = .ok () := by
  unfold validate
  cases g.ownership.validate with
  | error fault => simp
  | ok u => simp

/-! ## What a whole walk checks -/

/-- A passed walk over fields has told their slots apart. -/
theorem checkFields_eq_ok_iff {node : String} {taken : List String} {fields : List Field} :
    checkFields node taken fields = .ok () ↔ Fresh Field.slotName taken fields := by
  induction fields generalizing taken with
  | nil => simp [checkFields]
  | cons f rest ih =>
      rw [checkFields, fresh_cons_iff, ← ih]
      by_cases hf : f.slotName ∈ taken
      · simp [hf]
      · simp [hf]

/-- A passed walk over nodes has told their classes and their methods apart, and it has
put the methods before the ones taken already. -/
theorem checkNodes_eq_ok_iff
    {family : Family} {nodes : List Node} {classes : List String}
    {visits out : List (String × String)} :
    checkNodes family classes visits nodes = .ok out ↔
      Fresh Node.className classes nodes ∧ Fresh family.visitMethod (visits.map (·.1)) nodes ∧
        (∀ n ∈ nodes, Fresh Field.slotName [] n.fields) ∧
        out = (nodes.map fun n => (family.visitMethod n, family.typeName n)).reverse ++ visits := by
  induction nodes generalizing classes visits with
  | nil => simp [checkNodes, eq_comm]
  | cons n rest ih =>
      rw [checkNodes_cons_eq_ok_iff, ih, checkFields_eq_ok_iff, fresh_cons_iff, fresh_cons_iff,
        List.forall_mem_cons]
      simp only [List.map_cons, List.reverse_cons, List.append_assoc, List.singleton_append]
      tauto

/-- A passed walk over families has told apart the families by their names and their
modules, and the nodes of all of them by their methods. -/
theorem checkFamilies_eq_ok_iff
    {families earlier : List Family} {visits : List (String × String)} :
    checkFamilies earlier visits families = .ok () ↔
      (∀ f ∈ families, Name.isIdentifier f.name = true ∧ f.moduleName ∉ reservedModules ∧
        f.nodes ≠ [] ∧ Fresh Node.className [] f.nodes ∧
        ∀ n ∈ f.nodes, Fresh Field.slotName [] n.fields) ∧
      Fresh Family.name (earlier.map (·.name)) families ∧
      Fresh Family.moduleName (earlier.map (·.moduleName)) families ∧
      Fresh (fun m => m.1.visitMethod m.2) (visits.map (·.1)) (Family.members families) := by
  induction families generalizing earlier visits with
  | nil => simp [checkFamilies, Family.members]
  | cons f rest ih =>
      have hmembers :
          Family.members (f :: rest) = f.nodes.map (Prod.mk f) ++ Family.members rest := by
        simp [Family.members]
      have hnames : (∀ e ∈ earlier, e.name ≠ f.name) ↔ f.name ∉ earlier.map (·.name) := by
        simp
      have hmodules :
          (∀ e ∈ earlier, e.moduleName ≠ f.moduleName) ↔
            f.moduleName ∉ earlier.map (·.moduleName) := by
        simp
      have htaken :
          ((f.nodes.map fun n => (f.visitMethod n, f.typeName n)).reverse ++ visits).map (·.1) =
            ((f.nodes.map (Prod.mk f)).map fun m => m.1.visitMethod m.2).reverse ++
              visits.map (·.1) := by
        simp [Function.comp_def]
      rw [checkFamilies_cons_eq_ok_iff, hnames, hmodules, hmembers, List.forall_mem_cons,
        fresh_cons_iff, fresh_cons_iff, fresh_append_iff, fresh_map_iff, ← htaken]
      simp only [checkNodes_eq_ok_iff, ih, List.map_cons]
      constructor
      · rintro ⟨hident, hname, hreserved, hmodule, hne, _, ⟨hclasses, hmethods, hslots, rfl⟩,
          hrest, hnames, hmodules, hlater⟩
        exact ⟨⟨⟨hident, hreserved, hne, hclasses, hslots⟩, hrest⟩, ⟨hname, hnames⟩,
          ⟨hmodule, hmodules⟩, hmethods, hlater⟩
      · rintro ⟨⟨⟨hident, hreserved, hne, hclasses, hslots⟩, hrest⟩, ⟨hname, hnames⟩,
          ⟨hmodule, hmodules⟩, hmethods, hlater⟩
        exact ⟨hident, hname, hreserved, hmodule, hne, _, ⟨hclasses, hmethods, hslots, rfl⟩,
          hrest, hnames, hmodules, hlater⟩

/-! ## Valid grammars -/

/-- The names that are written from the grammar are told apart. -/
structure Unambiguous (g : Grammar) : Prop where
  ownership : ∀ name ∈ g.ownership.borrowed, name ∉ g.ownership.defaulted
  identifiers : ∀ f ∈ g.families, Name.isIdentifier f.name = true
  modules : (g.families.map (·.moduleName)).Nodup
  unreserved : ∀ f ∈ g.families, f.moduleName ∉ reservedModules
  nodes_ne_nil : ∀ f ∈ g.families, f.nodes ≠ []
  methods : ((Family.members g.families).map fun m => m.1.visitMethod m.2).Nodup
  slots : ∀ f ∈ g.families, ∀ n ∈ f.nodes, (n.fields.map (·.slotName)).Nodup

theorem validate_ownership_eq_ok_iff {o : Ownership} :
    o.validate = .ok () ↔ ∀ name ∈ o.borrowed, name ∉ o.defaulted := by
  have hnone : o.validate = .ok () ↔ o.borrowed.find? (· ∈ o.defaulted) = none := by
    unfold Ownership.validate
    cases o.borrowed.find? (· ∈ o.defaulted) with
    | none => simp
    | some name => simp
  simp [hnone]

theorem namesDistinct_of_modules
    {g : Grammar} (h : (g.families.map (·.moduleName)).Nodup) : g.NamesDistinct := by
  apply List.Nodup.of_map Name.snake
  rw [List.map_map]
  exact h

theorem classes_nodup_of_methods
    {families : List Family}
    (h : ((Family.members families).map fun m => m.1.visitMethod m.2).Nodup) {f : Family}
    (hf : f ∈ families) : (f.nodes.map (·.className)).Nodup := by
  rw [Family.members, List.map_flatMap, List.nodup_flatMap] at h
  apply List.Nodup.of_map fun className => "visit_" ++ Name.snake (className ++ f.name)
  have hown := h.1 f hf
  rw [List.map_map] at hown ⊢
  exact hown

/-- Validation accepts the grammars whose written names are told apart. -/
theorem validate_eq_ok_iff_unambiguous {g : Grammar} : g.validate = .ok () ↔ g.Unambiguous := by
  rw [validate_eq_ok_iff, validate_ownership_eq_ok_iff, checkFamilies_eq_ok_iff]
  simp only [List.map_nil, fresh_nil_iff]
  constructor
  · rintro ⟨hownership, hfamilies, -, hmodules, hmethods⟩
    exact ⟨hownership, fun f hf => (hfamilies f hf).1, hmodules, fun f hf => (hfamilies f hf).2.1,
      fun f hf => (hfamilies f hf).2.2.1, hmethods, fun f hf => (hfamilies f hf).2.2.2.2⟩
  · intro hg
    refine ⟨hg.ownership, fun f hf => ?_, ?_, hg.modules, hg.methods⟩
    · exact ⟨hg.identifiers f hf, hg.unreserved f hf, hg.nodes_ne_nil f hf,
        classes_nodup_of_methods hg.methods hf, hg.slots f hf⟩
    · exact namesDistinct_of_modules hg.modules

theorem namesDistinct_of_validate
    {g : Grammar} (h : g.validate = .ok ()) : g.NamesDistinct :=
  namesDistinct_of_modules (validate_eq_ok_iff_unambiguous.mp h).modules

theorem modules_nodup_of_validate
    {g : Grammar} (h : g.validate = .ok ()) : (g.families.map (·.moduleName)).Nodup :=
  (validate_eq_ok_iff_unambiguous.mp h).modules

/-- A family of a valid grammar has an identifier for its name, a module that is not
taken, and nodes of different classes. -/
theorem family_of_validate
    {g : Grammar} (h : g.validate = .ok ()) {f : Family} (hf : f ∈ g.families) :
    Name.isIdentifier f.name = true ∧ f.moduleName ∉ reservedModules ∧
      (f.nodes.map (·.className)).Nodup := by
  have hg := validate_eq_ok_iff_unambiguous.mp h
  exact ⟨hg.identifiers f hf, hg.unreserved f hf, classes_nodup_of_methods hg.methods hf⟩

theorem methods_nodup_of_validate
    {g : Grammar} (h : g.validate = .ok ()) :
    ((Family.members g.families).map fun m => m.1.visitMethod m.2).Nodup :=
  (validate_eq_ok_iff_unambiguous.mp h).methods

theorem typeNames_nodup_of_validate
    {g : Grammar} (h : g.validate = .ok ()) :
    ((Family.members g.families).map fun m => m.1.typeName m.2).Nodup := by
  apply List.Nodup.of_map fun name => "visit_" ++ Name.snake name
  rw [List.map_map]
  exact methods_nodup_of_validate h

theorem typeNames_nodup_of_mem
    {g : Grammar} (h : g.validate = .ok ()) {f : Family} (hf : f ∈ g.families) :
    (f.nodes.map f.typeName).Nodup := by
  have hall := typeNames_nodup_of_validate h
  rw [Family.members, List.map_flatMap, List.nodup_flatMap] at hall
  simpa only [List.map_map, Function.comp_def] using hall.1 f hf

/-- Nodes of a valid grammar are determined by the types written for them. -/
theorem eq_of_typeName_eq_of_validate
    {g : Grammar} (h : g.validate = .ok ()) {e f : Family} {m n : Node}
    (he : e ∈ g.families) (hm : m ∈ e.nodes) (hf : f ∈ g.families) (hn : n ∈ f.nodes)
    (htype : e.typeName m = f.typeName n) : e = f ∧ m = n := by
  have hpair : (e, m) = (f, n) :=
    List.inj_on_of_nodup_map (typeNames_nodup_of_validate h)
      (Family.mem_members_iff.mpr ⟨he, hm⟩) (Family.mem_members_iff.mpr ⟨hf, hn⟩) htype
  exact Prod.mk.inj hpair

end Grammar

end Treewright
