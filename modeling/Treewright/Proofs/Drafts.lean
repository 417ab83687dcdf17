import Treewright.Proofs.Outcome
import Treewright.Render

/-!
# What drafts consist of

A draft is complete only if every name in it can be spelled and every type can be read,
so its builders return a fault as soon as one part fails.  Here each builder is turned
around: from a draft that was built follow the parts it was built from.  The last section
collects the items of all drafts of a linked grammar in one inductive predicate, so that
a property of all written files is checked with one case for each kind of item.
-/

namespace Treewright

theorem spellPlain_eq_ok_iff {name spelled : String} :
    Code.spellPlain name = .ok spelled ↔ Code.isWord name = true ∧ spelled = name :=
  guarded_eq_ok_iff

/-- Decides whether an item only refers to other files. -/
def Item.isLink : Item → Bool
  | moduleDecl _ | siblingImport _ _ | reexport _ _ | userImport _ => true
  | _ => false

namespace Draft

theorem check_eq_ok_iff {d checked : Draft} :
    check d = .ok checked ↔
      d.items.all Item.wellFormed = true ∧ d.items.all Item.printable = true ∧ checked = d := by
  unfold check
  cases d.items.all Item.wellFormed <;> cases d.items.all Item.printable <;> simp [eq_comm]

/-! ## The items of a family -/

/-- The case that stands for a node in the enumeration of its family. -/
def IsVariant (l : Linked) (f : Family) (n : Node) (v : Variant) : Prop :=
  Code.Word.spell n.className = .ok v.label ∧ v.payload = l.nodeMention f n

theorem exists_of_baseItems_eq_ok
    {l : Linked} {dress : Dress} {f : Family} {items : List Item}
    (h : baseItems l dress f = .ok items) :
    ∃ doc variants, List.Forall₂ (IsVariant l f) f.nodes variants ∧
      items = [.enumDecl doc dress.derives f.name (l.familyBorrows f.name) variants,
        .enumDispatch (l.familyBorrows f.name) (l.familyMention f.name)
          ⟨"accept", "visitor", variants.map fun v => arm v.label⟩ dress.result] := by
  obtain ⟨name, hname, h⟩ := bind_eq_ok_iff.mp h
  obtain ⟨-, rfl⟩ := spellPlain_eq_ok_iff.mp hname
  obtain ⟨variants, hvariants, h⟩ := bind_eq_ok_iff.mp h
  refine ⟨_, variants, ?_, (Except.ok.inj h).symm⟩
  apply (mapM_eq_ok_iff.mp hvariants).imp
  intro n v hv
  obtain ⟨label, hlabel, hv⟩ := bind_eq_ok_iff.mp hv
  obtain ⟨-, -, hv⟩ := bind_eq_ok_iff.mp hv
  obtain rfl := Except.ok.inj hv
  exact ⟨hlabel, rfl⟩

/-- The fields of a node with their slots. -/
def IsSlots (l : Linked) (n : Node) (slots : List (Field × Slot)) : Prop :=
  List.Forall₂ (fun field p => p.1 = field ∧ slot l field = .ok p.2) n.fields slots

theorem fieldType_of_slot_eq_ok
    {l : Linked} {field : Field} {s : Slot} (h : slot l field = .ok s) :
    l.fieldTypeIn true field.type = .ok s.type := by
  obtain ⟨name, -, h⟩ := bind_eq_ok_iff.mp h
  obtain ⟨type, htype, h⟩ := bind_eq_ok_iff.mp h
  obtain rfl := Except.ok.inj h
  exact htype

theorem IsSlots.exists_field
    {l : Linked} {n : Node} {slots : List (Field × Slot)} (h : IsSlots l n slots)
    {s : Slot} (hs : s ∈ slots.map (·.2)) :
    ∃ field ∈ n.fields, l.fieldTypeIn true field.type = .ok s.type := by
  obtain ⟨p, hp, rfl⟩ := List.mem_map.mp hs
  obtain ⟨field, hfield, -, hslot⟩ := exists_source_of_mem h hp
  exact ⟨field, hfield, fieldType_of_slot_eq_ok hslot⟩

theorem IsSlots.exists_slot
    {l : Linked} {n : Node} {slots : List (Field × Slot)} (h : IsSlots l n slots)
    {field : Field} (hfield : field ∈ n.fields) :
    ∃ s ∈ slots.map (·.2), l.fieldTypeIn true field.type = .ok s.type := by
  obtain ⟨p, hp, -, hslot⟩ := exists_built_of_mem h hfield
  exact ⟨p.2, List.mem_map_of_mem hp, fieldType_of_slot_eq_ok hslot⟩

/-- The parameters of a constructor are slots of the structure. -/
theorem params_subset_slots
    {l : Linked} {slots : List (Field × Slot)} {s : Slot}
    (hs : s ∈ (constructorOf l slots).params) : s ∈ slots.map (·.2) := by
  obtain ⟨p, hp, rfl⟩ := List.mem_map.mp hs
  exact List.mem_map_of_mem (List.mem_of_mem_filter hp)

theorem exists_of_nodeItems_eq_ok
    {l : Linked} {dress : Dress} {f : Family} {n : Node} {items : List Item}
    (h : nodeItems l dress f n = .ok items) :
    ∃ label slots, Code.Word.spell n.className = .ok label ∧ IsSlots l n slots ∧
      items = [
        .structDecl (" `" ++ n.text ++ "`") dress.derives (f.typeName n) (l.borrows n)
          (slots.map (·.2)),
        .structImpl (l.borrows n) (l.nodeMention f n) (constructorOf l slots)
          ⟨"accept", "visitor", ⟨"visitor", f.visitMethod n, "self"⟩⟩ dress.result,
        .conversion (l.familyBorrows f.name) (l.nodeMention f n) (l.familyMention f.name)
          ⟨"node", label, "node"⟩] := by
  obtain ⟨name, hname, h⟩ := bind_eq_ok_iff.mp h
  obtain ⟨-, rfl⟩ := spellPlain_eq_ok_iff.mp hname
  obtain ⟨label, hlabel, h⟩ := bind_eq_ok_iff.mp h
  obtain ⟨visit, hvisit, h⟩ := bind_eq_ok_iff.mp h
  obtain ⟨-, rfl⟩ := spellPlain_eq_ok_iff.mp hvisit
  obtain ⟨slots, hslots, h⟩ := bind_eq_ok_iff.mp h
  refine ⟨label, slots, hlabel, ?_, (Except.ok.inj h).symm⟩
  apply (mapM_eq_ok_iff.mp hslots).imp
  intro field p hp
  obtain ⟨s, hs, hp⟩ := bind_eq_ok_iff.mp hp
  obtain rfl := Except.ok.inj hp
  exact ⟨rfl, hs⟩

theorem isWord_typeName_of_nodeItems_eq_ok
    {l : Linked} {dress : Dress} {f : Family} {n : Node} {items : List Item}
    (h : nodeItems l dress f n = .ok items) : Code.isWord (f.typeName n) = true := by
  obtain ⟨name, hname, -⟩ := bind_eq_ok_iff.mp h
  exact (spellPlain_eq_ok_iff.mp hname).1

theorem exists_of_dependencyImport_eq_ok
    {f : Family} {item : Item} (h : dependencyImport f = .ok item) :
    ∃ home, Code.Word.spell f.moduleName = .ok home ∧
      item = .siblingImport home [f.name] := by
  obtain ⟨home, hhome, h⟩ := bind_eq_ok_iff.mp h
  obtain ⟨name, hname, h⟩ := bind_eq_ok_iff.mp h
  obtain ⟨-, rfl⟩ := spellPlain_eq_ok_iff.mp hname
  exact ⟨home, hhome, (Except.ok.inj h).symm⟩

theorem isLink_of_dependencyImport_eq_ok
    {f : Family} {item : Item} (h : dependencyImport f = .ok item) : item.isLink = true := by
  obtain ⟨home, -, rfl⟩ := exists_of_dependencyImport_eq_ok h
  rfl

/-- A family file holds the imports, the items of the enumeration and those of each
node. -/
theorem exists_of_ofFamily_eq_ok
    {l : Linked} {dress : Dress} {f : Family} {d : Draft} (h : ofFamily l dress f = .ok d) :
    ∃ dependencies base nodes,
      List.Forall₂ (fun e item => dependencyImport e = .ok item)
        (Linked.dependencies l.grammar f) dependencies ∧
      baseItems l dress f = .ok base ∧
      List.Forall₂ (fun n items => nodeItems l dress f n = .ok items) f.nodes nodes ∧
      d.path = fileName f ∧
      d.items = dependencies ++ [.siblingImport ⟨"visitor", false⟩ ["Visitor"]] ++
        dress.uses.map .userImport ++ base ++ nodes.flatten := by
  obtain ⟨dependencies, hdependencies, h⟩ := bind_eq_ok_iff.mp h
  obtain ⟨base, hbase, h⟩ := bind_eq_ok_iff.mp h
  obtain ⟨nodes, hnodes, h⟩ := bind_eq_ok_iff.mp h
  obtain ⟨-, -, rfl⟩ := check_eq_ok_iff.mp h
  exact ⟨dependencies, base, nodes, mapM_eq_ok_iff.mp hdependencies, hbase,
    mapM_eq_ok_iff.mp hnodes, rfl, rfl⟩

/-- In a family file the items that declare something come after all references to other
files. -/
theorem exists_links_of_ofFamily_eq_ok
    {l : Linked} {dress : Dress} {f : Family} {d : Draft} (h : ofFamily l dress f = .ok d) :
    ∃ links base nodes, (∀ item ∈ links, item.isLink = true) ∧
      baseItems l dress f = .ok base ∧
      List.Forall₂ (fun n items => nodeItems l dress f n = .ok items) f.nodes nodes ∧
      d.items = links ++ (base ++ nodes.flatten) := by
  obtain ⟨dependencies, base, nodes, hdependencies, hbase, hnodes, -, hitems⟩ :=
    exists_of_ofFamily_eq_ok h
  rw [List.append_assoc] at hitems
  refine ⟨_, base, nodes, ?_, hbase, hnodes, hitems⟩
  intro item hitem
  simp only [List.mem_append, List.mem_singleton, List.mem_map] at hitem
  rcases hitem with (hitem | rfl) | ⟨tree, -, rfl⟩
  · obtain ⟨e, -, he⟩ := exists_source_of_mem hdependencies hitem
    exact isLink_of_dependencyImport_eq_ok he
  · rfl
  · rfl

/-! ## The visitor and the enclosing module -/

theorem visitMethod_eq_ok
    {l : Linked} {dress : Dress} {f : Family} {n : Node} {m : VisitMethod}
    (h : visitMethod l dress f n = .ok m) :
    m.name = f.visitMethod n ∧
      m.value = ⟨f.typeName n, if l.borrows n then some "'_" else none⟩ ∧
      m.result = dress.result := by
  obtain ⟨name, hname, h⟩ := bind_eq_ok_iff.mp h
  obtain ⟨-, rfl⟩ := spellPlain_eq_ok_iff.mp hname
  obtain ⟨type, htype, h⟩ := bind_eq_ok_iff.mp h
  obtain ⟨-, rfl⟩ := spellPlain_eq_ok_iff.mp htype
  obtain rfl := Except.ok.inj h
  exact ⟨rfl, rfl, rfl⟩

theorem exists_of_nodesImport_eq_ok
    {f : Family} {item : Item} (h : nodesImport f = .ok item) :
    ∃ home, Code.Word.spell f.moduleName = .ok home ∧
      item = .siblingImport home (f.nodes.map f.typeName) := by
  obtain ⟨home, hhome, h⟩ := bind_eq_ok_iff.mp h
  obtain ⟨names, hnames, h⟩ := bind_eq_ok_iff.mp h
  have hspelled : names.map id = f.nodes.map f.typeName :=
    map_eq_map_of_forall₂ (mapM_eq_ok_iff.mp hnames) fun _ _ _ hname =>
      (spellPlain_eq_ok_iff.mp hname).2
  rw [List.map_id] at hspelled
  rw [← hspelled]
  exact ⟨home, hhome, (Except.ok.inj h).symm⟩

theorem isLink_of_nodesImport_eq_ok
    {f : Family} {item : Item} (h : nodesImport f = .ok item) : item.isLink = true := by
  obtain ⟨home, -, rfl⟩ := exists_of_nodesImport_eq_ok h
  rfl

theorem exists_of_ofVisitor_eq_ok
    {l : Linked} {dress : Dress} {d : Draft} (h : ofVisitor l dress = .ok d) :
    ∃ imports methods doc,
      List.Forall₂ (fun f item => nodesImport f = .ok item) l.grammar.families imports ∧
      List.Forall₂
        (fun f ms => List.Forall₂ (fun n m => visitMethod l dress f n = .ok m) f.nodes ms)
        l.grammar.families methods ∧
      d.path = "visitor.rs" ∧
      d.items = imports ++ dress.uses.map .userImport ++
        [.visitorTrait doc methods.flatten] := by
  obtain ⟨imports, himports, h⟩ := bind_eq_ok_iff.mp h
  obtain ⟨methods, hmethods, h⟩ := bind_eq_ok_iff.mp h
  obtain ⟨-, -, rfl⟩ := check_eq_ok_iff.mp h
  refine ⟨imports, methods, _, mapM_eq_ok_iff.mp himports, ?_, rfl, rfl⟩
  apply (mapM_eq_ok_iff.mp hmethods).imp
  intro f ms hms
  exact mapM_eq_ok_iff.mp hms

theorem exists_of_ofModule_eq_ok
    {l : Linked} {d : Draft} (h : ofModule l = .ok d) :
    ∃ modules reexports,
      List.Forall₂
        (fun f item => ∃ home, Code.Word.spell f.moduleName = .ok home ∧
          item = .moduleDecl home) l.order modules ∧
      List.Forall₂
        (fun f item => ∃ home, Code.Word.spell f.moduleName = .ok home ∧
          item = .reexport home f.name) l.order reexports ∧
      d.path = "mod.rs" ∧
      d.items = modules ++ [.moduleDecl ⟨"visitor", false⟩] ++ reexports ++
        [.reexport ⟨"visitor", false⟩ "Visitor"] := by
  obtain ⟨homes, hhomes, h⟩ := bind_eq_ok_iff.mp h
  obtain ⟨names, hnames, h⟩ := bind_eq_ok_iff.mp h
  have hspelled : names.map id = l.order.map (·.name) :=
    map_eq_map_of_forall₂ (mapM_eq_ok_iff.mp hnames) fun _ _ _ hname =>
      (spellPlain_eq_ok_iff.mp hname).2
  rw [List.map_id] at hspelled
  obtain ⟨-, -, rfl⟩ := check_eq_ok_iff.mp h
  refine ⟨_, _, ?_, ?_, rfl, rfl⟩
  · rw [List.forall₂_map_right_iff]
    exact (mapM_eq_ok_iff.mp hhomes).imp fun f home hhome => ⟨home, hhome, rfl⟩
  · rw [hspelled, List.forall₂_map_right_iff]
    apply (forall₂_zip_map (mapM_eq_ok_iff.mp hhomes) (·.name)).imp
    rintro f ⟨home, name⟩ ⟨hhome, hname⟩
    exact ⟨home, hhome, congrArg (Item.reexport home) hname⟩

theorem exists_of_all_eq_ok
    {l : Linked} {dress : Dress} {drafts : List Draft} (h : all l dress = .ok drafts) :
    ∃ families visitor enclosing,
      List.Forall₂ (fun f d => ofFamily l dress f = .ok d) l.order families ∧
      ofVisitor l dress = .ok visitor ∧ ofModule l = .ok enclosing ∧
      drafts = families ++ [visitor, enclosing] := by
  obtain ⟨families, hfamilies, h⟩ := bind_eq_ok_iff.mp h
  obtain ⟨visitor, hvisitor, h⟩ := bind_eq_ok_iff.mp h
  obtain ⟨enclosing, henclosing, h⟩ := bind_eq_ok_iff.mp h
  exact ⟨families, visitor, enclosing, mapM_eq_ok_iff.mp hfamilies, hvisitor, henclosing,
    (Except.ok.inj h).symm⟩

/-! ## Views of a file

A view lists something that is read off every item.  What it lists of a whole file is put
together from the parts of the file. -/

section Views

variable {l : Linked} {dress : Dress} {α : Type} {view : Item → List α}

theorem flatMap_userImports
    (huser : ∀ tree, view (.userImport tree) = []) (trees : List Code.UseTree) :
    (trees.map Item.userImport).flatMap view = [] := by
  simp [List.flatMap_map, huser]

theorem flatMap_ofFamily
    (huser : ∀ tree, view (.userImport tree) = []) {f : Family} {d : Draft}
    (h : ofFamily l dress f = .ok d) {ofImport : Family → List α} {ofBase : List α}
    {ofNode : Node → List α}
    (himport : ∀ e ∈ Linked.dependencies l.grammar f, ∀ item, dependencyImport e = .ok item →
      view item = ofImport e)
    (hbase : (∀ n ∈ f.nodes, Code.isWord (f.typeName n) = true) → ∀ items,
      baseItems l dress f = .ok items → items.flatMap view = ofBase)
    (hnode : ∀ n items, nodeItems l dress f n = .ok items → items.flatMap view = ofNode n) :
    d.items.flatMap view =
      (Linked.dependencies l.grammar f).flatMap ofImport ++
        view (.siblingImport ⟨"visitor", false⟩ ["Visitor"]) ++ ofBase ++
        f.nodes.flatMap ofNode := by
  obtain ⟨dependencies, base, nodes, hdependencies, hbuilt, hnodes, -, hitems⟩ :=
    exists_of_ofFamily_eq_ok h
  have hwords : ∀ n ∈ f.nodes, Code.isWord (f.typeName n) = true := by
    intro n hn
    obtain ⟨items, -, hn'⟩ := exists_built_of_mem hnodes hn
    exact isWord_typeName_of_nodeItems_eq_ok hn'
  have hnodes' : nodes.flatten.flatMap view = f.nodes.flatMap ofNode := by
    rw [List.flatten_eq_flatMap, List.flatMap_assoc]
    exact flatMap_eq_flatMap_of_forall₂ hnodes fun n _ items hn => hnode n items hn
  simp only [hitems, List.flatMap_append, flatMap_eq_flatMap_of_forall₂ hdependencies himport,
    flatMap_userImports huser, List.flatMap_singleton, hbase hwords base hbuilt, hnodes',
    List.append_nil]

theorem flatMap_ofVisitor
    (huser : ∀ tree, view (.userImport tree) = []) {d : Draft} (h : ofVisitor l dress = .ok d)
    {ofImport : Family → List α}
    (himport : ∀ f ∈ l.grammar.families, ∀ item, nodesImport f = .ok item →
      view item = ofImport f) :
    ∃ doc methods,
      List.Forall₂
        (fun f ms => List.Forall₂ (fun n m => visitMethod l dress f n = .ok m) f.nodes ms)
        l.grammar.families methods ∧
      d.items.flatMap view =
        l.grammar.families.flatMap ofImport ++ view (.visitorTrait doc methods.flatten) := by
  obtain ⟨imports, methods, doc, himports, hmethods, -, hitems⟩ := exists_of_ofVisitor_eq_ok h
  refine ⟨doc, methods, hmethods, ?_⟩
  simp only [hitems, List.flatMap_append, flatMap_eq_flatMap_of_forall₂ himports himport,
    flatMap_userImports huser, List.flatMap_singleton, List.append_nil]

theorem flatMap_ofModule
    {d : Draft} (h : ofModule l = .ok d) {ofHome ofReexport : Family → List α}
    (hhome : ∀ f ∈ l.order, ∀ home, Code.Word.spell f.moduleName = .ok home →
      view (.moduleDecl home) = ofHome f)
    (hreexport : ∀ f ∈ l.order, ∀ home, Code.Word.spell f.moduleName = .ok home →
      view (.reexport home f.name) = ofReexport f) :
    d.items.flatMap view =
      l.order.flatMap ofHome ++ view (.moduleDecl ⟨"visitor", false⟩) ++
        l.order.flatMap ofReexport ++ view (.reexport ⟨"visitor", false⟩ "Visitor") := by
  obtain ⟨modules, reexports, hmodules, hreexports, -, hitems⟩ := exists_of_ofModule_eq_ok h
  have hshownModules : modules.flatMap view = l.order.flatMap ofHome := by
    apply flatMap_eq_flatMap_of_forall₂ hmodules
    rintro f hf item ⟨home, hspell, rfl⟩
    exact hhome f hf home hspell
  have hshownReexports : reexports.flatMap view = l.order.flatMap ofReexport := by
    apply flatMap_eq_flatMap_of_forall₂ hreexports
    rintro f hf item ⟨home, hspell, rfl⟩
    exact hreexport f hf home hspell
  simp only [hitems, List.flatMap_append, hshownModules, hshownReexports,
    List.flatMap_singleton]

/-- A view that leaves out references to other files shows of a family file what it shows of
the enumeration and of the nodes. -/
theorem rows_ofFamily
    (hlinks : ∀ item : Item, item.isLink = true → view item = []) {f : Family} {d : Draft}
    (h : ofFamily l dress f = .ok d) {ofBase : List α} {ofNode : Node → List α}
    (hbase : (∀ n ∈ f.nodes, Code.isWord (f.typeName n) = true) → ∀ items,
      baseItems l dress f = .ok items → items.flatMap view = ofBase)
    (hnode : ∀ n items, nodeItems l dress f n = .ok items → items.flatMap view = ofNode n) :
    d.items.flatMap view = ofBase ++ f.nodes.flatMap ofNode := by
  have himport : ∀ e ∈ Linked.dependencies l.grammar f, ∀ item,
      dependencyImport e = .ok item → view item = [] := fun e _ item he =>
    hlinks item (isLink_of_dependencyImport_eq_ok he)
  have hvisitor : view (.siblingImport ⟨"visitor", false⟩ ["Visitor"]) = [] := hlinks _ rfl
  rw [flatMap_ofFamily (fun _ => hlinks _ rfl) h himport hbase hnode, hvisitor,
    List.flatMap_eq_nil_iff.mpr fun _ _ => rfl, List.nil_append, List.nil_append]

theorem rows_ofVisitor
    (hlinks : ∀ item : Item, item.isLink = true → view item = []) {d : Draft}
    (h : ofVisitor l dress = .ok d) :
    ∃ doc methods,
      List.Forall₂
        (fun f ms => List.Forall₂ (fun n m => visitMethod l dress f n = .ok m) f.nodes ms)
        l.grammar.families methods ∧
      d.items.flatMap view = view (.visitorTrait doc methods.flatten) := by
  have himport : ∀ f ∈ l.grammar.families, ∀ item, nodesImport f = .ok item →
      view item = [] := fun f _ item hf =>
    hlinks item (isLink_of_nodesImport_eq_ok hf)
  obtain ⟨doc, methods, hmethods, hseen⟩ :=
    flatMap_ofVisitor (fun _ => hlinks _ rfl) h himport
  rw [List.flatMap_eq_nil_iff.mpr fun _ _ => rfl, List.nil_append] at hseen
  exact ⟨doc, methods, hmethods, hseen⟩

theorem rows_ofModule
    (hlinks : ∀ item : Item, item.isLink = true → view item = []) {d : Draft}
    (h : ofModule l = .ok d) : d.items.flatMap view = [] := by
  have hmodule : view (.moduleDecl ⟨"visitor", false⟩) = [] := hlinks _ rfl
  have hvisitor : view (.reexport ⟨"visitor", false⟩ "Visitor") = [] := hlinks _ rfl
  rw [flatMap_ofModule h (fun _ _ _ _ => hlinks _ rfl) (fun _ _ _ _ => hlinks _ rfl), hmodule,
    hvisitor, List.flatMap_eq_nil_iff.mpr fun _ _ => rfl]
  rfl

end Views

/-! ## The items of all files -/

/-- The items that stand in the files of a linked grammar. -/
inductive Holds (l : Linked) (dress : Dress) : Item → Prop
  | moduleDecl (home : Code.Word) : Holds l dress (.moduleDecl home)
  | siblingImport (home : Code.Word) (names : List String) :
      Holds l dress (.siblingImport home names)
  | reexport (home : Code.Word) (name : String) : Holds l dress (.reexport home name)
  | userImport {tree : Code.UseTree} (htree : tree ∈ dress.uses) :
      Holds l dress (.userImport tree)
  | enumDecl {f : Family} (hf : f ∈ l.order) (doc : String) {variants : List Variant}
      (hvariants : List.Forall₂ (IsVariant l f) f.nodes variants) :
      Holds l dress (.enumDecl doc dress.derives f.name (l.familyBorrows f.name) variants)
  | enumDispatch {f : Family} (hf : f ∈ l.order) (accept : Acceptance (List Arm)) :
      Holds l dress
        (.enumDispatch (l.familyBorrows f.name) (l.familyMention f.name) accept dress.result)
  | structDecl {f : Family} (hf : f ∈ l.order) {n : Node} (hn : n ∈ f.nodes) (doc : String)
      {slots : List (Field × Slot)} (hslots : IsSlots l n slots) :
      Holds l dress
        (.structDecl doc dress.derives (f.typeName n) (l.borrows n) (slots.map (·.2)))
  | structImpl {f : Family} (hf : f ∈ l.order) {n : Node} (hn : n ∈ f.nodes)
      {slots : List (Field × Slot)} (hslots : IsSlots l n slots)
      (accept : Acceptance MethodCall) :
      Holds l dress
        (.structImpl (l.borrows n) (l.nodeMention f n) (constructorOf l slots) accept
          dress.result)
  | conversion {f : Family} (hf : f ∈ l.order) {n : Node} (hn : n ∈ f.nodes)
      (wrapping : Wrapping) :
      Holds l dress
        (.conversion (l.familyBorrows f.name) (l.nodeMention f n) (l.familyMention f.name)
          wrapping)
  | visitorTrait (doc : String) {methods : List VisitMethod}
      (hmethods : ∀ m ∈ methods, ∃ f ∈ l.grammar.families, ∃ n ∈ f.nodes,
        visitMethod l dress f n = .ok m) :
      Holds l dress (.visitorTrait doc methods)

theorem holds_of_mem_baseItems
    {l : Linked} {dress : Dress} {f : Family} (hf : f ∈ l.order) {items : List Item}
    (h : baseItems l dress f = .ok items) : ∀ item ∈ items, Holds l dress item := by
  obtain ⟨doc, variants, hvariants, rfl⟩ := exists_of_baseItems_eq_ok h
  rw [List.forall_mem_cons, List.forall_mem_singleton]
  exact ⟨.enumDecl hf doc hvariants, .enumDispatch hf _⟩

theorem holds_of_mem_nodeItems
    {l : Linked} {dress : Dress} {f : Family} (hf : f ∈ l.order) {n : Node} (hn : n ∈ f.nodes)
    {items : List Item} (h : nodeItems l dress f n = .ok items) :
    ∀ item ∈ items, Holds l dress item := by
  obtain ⟨label, slots, -, hslots, rfl⟩ := exists_of_nodeItems_eq_ok h
  rw [List.forall_mem_cons, List.forall_mem_cons, List.forall_mem_singleton]
  exact ⟨.structDecl hf hn _ hslots, .structImpl hf hn hslots _, .conversion hf hn _⟩

/-- The parts of a family file hold items of this kind only, also where the file is not
accepted in the end. -/
theorem holds_of_mem_familyParts
    {l : Linked} {dress : Dress} {f : Family} (hf : f ∈ l.order) {dependencies base : List Item}
    {nodes : List (List Item)}
    (hdependencies : List.Forall₂ (fun e item => dependencyImport e = .ok item)
      (Linked.dependencies l.grammar f) dependencies)
    (hbase : baseItems l dress f = .ok base)
    (hnodes : List.Forall₂ (fun n items => nodeItems l dress f n = .ok items) f.nodes nodes) :
    ∀ item ∈ dependencies ++ [.siblingImport ⟨"visitor", false⟩ ["Visitor"]] ++
      dress.uses.map .userImport ++ base ++ nodes.flatten, Holds l dress item := by
  intro item hitem
  simp only [List.mem_append, List.mem_singleton, List.mem_map, List.mem_flatten] at hitem
  rcases hitem with (((hitem | rfl) | ⟨tree, htree, rfl⟩) | hitem) | ⟨items, hmem, hitem⟩
  · obtain ⟨e, -, he⟩ := exists_source_of_mem hdependencies hitem
    obtain ⟨home, -, rfl⟩ := exists_of_dependencyImport_eq_ok he
    exact .siblingImport home [e.name]
  · exact .siblingImport _ _
  · exact .userImport htree
  · exact holds_of_mem_baseItems hf hbase item hitem
  · obtain ⟨n, hn, hn'⟩ := exists_source_of_mem hnodes hmem
    exact holds_of_mem_nodeItems hf hn hn' item hitem

theorem holds_of_mem_ofFamily
    {l : Linked} {dress : Dress} {f : Family} (hf : f ∈ l.order) {d : Draft}
    (h : ofFamily l dress f = .ok d) : ∀ item ∈ d.items, Holds l dress item := by
  obtain ⟨dependencies, base, nodes, hdependencies, hbase, hnodes, -, hitems⟩ :=
    exists_of_ofFamily_eq_ok h
  rw [hitems]
  exact holds_of_mem_familyParts hf hdependencies hbase hnodes

theorem holds_of_mem_visitorParts
    {l : Linked} {dress : Dress} {imports : List Item} {methods : List (List VisitMethod)}
    (himports : List.Forall₂ (fun f item => nodesImport f = .ok item) l.grammar.families imports)
    (hmethods : List.Forall₂
      (fun f ms => List.Forall₂ (fun n m => visitMethod l dress f n = .ok m) f.nodes ms)
      l.grammar.families methods) (doc : String) :
    ∀ item ∈ imports ++ dress.uses.map .userImport ++ [.visitorTrait doc methods.flatten],
      Holds l dress item := by
  intro item hitem
  simp only [List.mem_append, List.mem_singleton, List.mem_map] at hitem
  rcases hitem with (hitem | ⟨tree, htree, rfl⟩) | rfl
  · obtain ⟨f, -, hf⟩ := exists_source_of_mem himports hitem
    obtain ⟨home, -, rfl⟩ := exists_of_nodesImport_eq_ok hf
    exact .siblingImport home _
  · exact .userImport htree
  · apply Holds.visitorTrait
    intro m hm
    obtain ⟨ms, hms, hm⟩ := List.mem_flatten.mp hm
    obtain ⟨f, hf, hfms⟩ := exists_source_of_mem hmethods hms
    obtain ⟨n, hn, hnm⟩ := exists_source_of_mem hfms hm
    exact ⟨f, hf, n, hn, hnm⟩

theorem holds_of_mem_ofVisitor
    {l : Linked} {dress : Dress} {d : Draft} (h : ofVisitor l dress = .ok d) :
    ∀ item ∈ d.items, Holds l dress item := by
  obtain ⟨imports, methods, doc, himports, hmethods, -, hitems⟩ := exists_of_ofVisitor_eq_ok h
  rw [hitems]
  exact holds_of_mem_visitorParts himports hmethods doc

theorem holds_of_mem_ofModule
    {l : Linked} {dress : Dress} {d : Draft} (h : ofModule l = .ok d) :
    ∀ item ∈ d.items, Holds l dress item := by
  obtain ⟨modules, reexports, hmodules, hreexports, -, hitems⟩ := exists_of_ofModule_eq_ok h
  intro item hitem
  simp only [hitems, List.mem_append, List.mem_singleton] at hitem
  rcases hitem with ((hitem | rfl) | hitem) | rfl
  · obtain ⟨f, -, home, -, rfl⟩ := exists_source_of_mem hmodules hitem
    exact .moduleDecl home
  · exact .moduleDecl _
  · obtain ⟨f, -, home, -, rfl⟩ := exists_source_of_mem hreexports hitem
    exact .reexport home f.name
  · exact .reexport _ _

/-- Every file is that of a family, of the visitor or of the enclosing module. -/
theorem source_of_mem_all
    {l : Linked} {dress : Dress} {drafts : List Draft} (h : all l dress = .ok drafts)
    {d : Draft} (hd : d ∈ drafts) :
    (∃ f ∈ l.order, ofFamily l dress f = .ok d) ∨ ofVisitor l dress = .ok d ∨
      ofModule l = .ok d := by
  obtain ⟨families, visitor, enclosing, hfamilies, hvisitor, henclosing, rfl⟩ :=
    exists_of_all_eq_ok h
  simp only [List.mem_append, List.mem_cons, List.not_mem_nil, or_false] at hd
  rcases hd with hd | rfl | rfl
  · exact Or.inl (exists_source_of_mem hfamilies hd)
  · exact Or.inr (Or.inl hvisitor)
  · exact Or.inr (Or.inr henclosing)

/-- The items of all files of a linked grammar. -/
theorem holds_of_mem_all
    {l : Linked} {dress : Dress} {drafts : List Draft} (h : all l dress = .ok drafts)
    {d : Draft} (hd : d ∈ drafts) : ∀ item ∈ d.items, Holds l dress item := by
  rcases source_of_mem_all h hd with ⟨f, hf, hfd⟩ | hvisitor | henclosing
  · exact holds_of_mem_ofFamily hf hfd
  · exact holds_of_mem_ofVisitor hvisitor
  · exact holds_of_mem_ofModule henclosing

/-- Every family has a file. -/
theorem exists_draft_of_mem_order
    {l : Linked} {dress : Dress} {drafts : List Draft} (h : all l dress = .ok drafts)
    {f : Family} (hf : f ∈ l.order) : ∃ d ∈ drafts, ofFamily l dress f = .ok d := by
  obtain ⟨families, visitor, enclosing, hfamilies, -, -, rfl⟩ := exists_of_all_eq_ok h
  obtain ⟨d, hd, hfd⟩ := exists_built_of_mem hfamilies hf
  exact ⟨d, List.mem_append_left _ hd, hfd⟩

theorem path_of_ofFamily_eq_ok
    {l : Linked} {dress : Dress} {f : Family} {d : Draft} (h : ofFamily l dress f = .ok d) :
    d.path = fileName f := by
  obtain ⟨dependencies, base, nodes, -, -, -, hpath, -⟩ := exists_of_ofFamily_eq_ok h
  exact hpath

/-- The file of a family has its enumeration. -/
theorem enumDecl_mem_of_ofFamily_eq_ok
    {l : Linked} {dress : Dress} {f : Family} {d : Draft} (h : ofFamily l dress f = .ok d) :
    ∃ doc variants, List.Forall₂ (IsVariant l f) f.nodes variants ∧
      .enumDecl doc dress.derives f.name (l.familyBorrows f.name) variants ∈ d.items := by
  obtain ⟨dependencies, base, nodes, -, hbase, -, -, hitems⟩ := exists_of_ofFamily_eq_ok h
  obtain ⟨doc, variants, hvariants, rfl⟩ := exists_of_baseItems_eq_ok hbase
  exact ⟨doc, variants, hvariants, by simp [hitems]⟩

/-- The file of a family has the structures of its nodes. -/
theorem structDecl_mem_of_ofFamily_eq_ok
    {l : Linked} {dress : Dress} {f : Family} {d : Draft} (h : ofFamily l dress f = .ok d)
    {n : Node} (hn : n ∈ f.nodes) :
    ∃ doc slots, IsSlots l n slots ∧
      .structDecl doc dress.derives (f.typeName n) (l.borrows n) (slots.map (·.2)) ∈
        d.items := by
  obtain ⟨dependencies, base, nodes, -, -, hnodes, -, hitems⟩ := exists_of_ofFamily_eq_ok h
  obtain ⟨items, hmem, hn'⟩ := exists_built_of_mem hnodes hn
  obtain ⟨label, slots, -, hslots, rfl⟩ := exists_of_nodeItems_eq_ok hn'
  refine ⟨" `" ++ n.text ++ "`", slots, hslots, ?_⟩
  rw [hitems]
  exact List.mem_append_right _ (List.mem_flatten.mpr ⟨_, hmem, List.mem_cons_self⟩)

end Draft

/-! ## Rendered grammars -/

theorem Dress.parts_of_ofOptions_eq_ok
    {o : Options} {dress : Dress} (h : Dress.ofOptions o = .ok dress) :
    Code.Ty.parse? o.result = some dress.result ∧
      List.Forall₂ (fun s tree => readUse s = .ok tree) o.uses dress.uses := by
  unfold Dress.ofOptions at h
  cases hresult : Code.Ty.parse? o.result with
  | none => simp [hresult] at h
  | some result =>
      rw [hresult] at h
      obtain ⟨uses, huses, h⟩ := bind_eq_ok_iff.mp h
      obtain ⟨derives, -, h⟩ := bind_eq_ok_iff.mp h
      obtain rfl := Except.ok.inj h
      exact ⟨rfl, mapM_eq_ok_iff.mp huses⟩

/-- The imports that a grammar asks for are those in its options. -/
theorem Dress.exists_of_mem_uses
    {o : Options} {dress : Dress} (h : Dress.ofOptions o = .ok dress) {tree : Code.UseTree}
    (htree : tree ∈ dress.uses) : ∃ s ∈ o.uses, Code.UseTree.parse? s = some tree := by
  obtain ⟨s, hs, hread⟩ := exists_source_of_mem (parts_of_ofOptions_eq_ok h).2 htree
  refine ⟨s, hs, ?_⟩
  unfold readUse at hread
  split at hread
  next found hparse => rw [hparse, Except.ok.inj hread]
  next => simp at hread

theorem Grammar.exists_of_render_eq_ok
    {g : Grammar} {files : List SourceFile} (h : g.render = .ok files) :
    ∃ drafts, g.drafts = .ok drafts ∧ files = drafts.map fun d => ⟨d.path, d.write⟩ := by
  obtain ⟨drafts, hdrafts, h⟩ := bind_eq_ok_iff.mp h
  exact ⟨drafts, hdrafts, (Except.ok.inj h).symm⟩

theorem Grammar.exists_of_drafts_eq_ok
    {g : Grammar} {drafts : List Draft} (h : g.drafts = .ok drafts) :
    ∃ l dress, g.link = .ok l ∧ Dress.ofOptions g.options = .ok dress ∧
      Draft.all l dress = .ok drafts := by
  obtain ⟨l, hl, h⟩ := bind_eq_ok_iff.mp h
  obtain ⟨dress, hdress, h⟩ := bind_eq_ok_iff.mp h
  exact ⟨l, dress, hl, hdress, h⟩

theorem Grammar.render_eq_ok_of_drafts
    {g : Grammar} {drafts : List Draft} (h : g.drafts = .ok drafts) :
    g.render = .ok (drafts.map fun d => ⟨d.path, d.write⟩) :=
  bind_eq_ok_iff.mpr ⟨drafts, h, rfl⟩

/-- Drafts of a given grammar with a given property are found by evaluation. -/
theorem Grammar.exists_drafts_of_any
    {g : Grammar} {p : List Draft → Prop} [DecidablePred p]
    (h : (g.drafts.toOption.any fun drafts => decide (p drafts)) = true) :
    ∃ drafts, g.drafts = .ok drafts ∧ p drafts := by
  cases hdrafts : g.drafts with
  | error fault => simp [hdrafts, Except.toOption] at h
  | ok drafts =>
      rw [hdrafts] at h
      exact ⟨drafts, rfl, of_decide_eq_true h⟩

end Treewright
