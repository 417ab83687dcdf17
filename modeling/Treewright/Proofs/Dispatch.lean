import Treewright.Proofs.Drafts
import Treewright.Proofs.Linking
import Treewright.Proofs.Spelling

/-!
# Dispatch reaches the method of the node

Dispatch on a value of a family is spread over five kinds of items: the conversion that
builds the value from a node, the cases of the enumeration, the arms of its dispatch, the
dispatch of the structure behind the case, and the methods of the visitor trait.  Each
kind is read here as a table of names, with the operations that the bodies of the dispatch
functions call, and `Draft.dispatch` looks a structure up in one table after the other.

The tables of a rendered grammar have one row for each node.  They fit together because
validation tells the visitor methods of all nodes apart, and with them the structures;
families are told apart by their names, and the cases of a family by the class names.
-/

namespace Treewright

/-! ## Tables of names -/

/-- The operation that a call runs on `receiver` with `argument` and nothing else, if it does.
Where the two have one name, one of them cannot be reached. -/
def MethodCall.operation? (receiver argument : String) (c : MethodCall) : Option String :=
  if c.receiver = receiver ∧ c.argument = argument ∧ receiver ≠ argument then some c.method
  else none

/-- The case that holds the parameter of a conversion. -/
def Wrapping.case? (w : Wrapping) : Option String :=
  if w.payload = w.parameter then some w.label.name else none

namespace Item

/-- The arms of a dispatch: the enumeration, the function, the case, and the operation that
is called on the node with the visitor. -/
def arms : Item → List (String × String × String × Option String)
  | enumDispatch _ target accept _ =>
    accept.body.map fun a =>
      (target.name, accept.name, a.label.name, a.call.operation? a.bound accept.visitor)
  | _ => []

/-- The cases of an enumeration: the enumeration, the case and the structure behind it. -/
def cases : Item → List (String × String × String)
  | enumDecl _ _ name _ variants => variants.map fun v => (name, v.label.name, v.payload.name)
  | _ => []

/-- A conversion: the structure, the enumeration and the case that holds the structure. -/
def conversions : Item → List (String × String × Option String)
  | conversion _ source target wrapping => [(source.name, target.name, wrapping.case?)]
  | _ => []

/-- The dispatch of a structure: the structure, the function, and the method that is called
on the visitor with the structure itself. -/
def visits : Item → List (String × String × Option String)
  | structImpl _ target _ accept _ =>
    [(target.name, accept.name, accept.body.operation? accept.visitor "self")]
  | _ => []

/-- The methods of the visitor trait: the method and the structure that it takes. -/
def methods : Item → List (String × String)
  | visitorTrait _ methods => methods.map fun m => (m.name, m.value.name)
  | _ => []

theorem tables_of_isLink
    {item : Item} (h : item.isLink = true) :
    item.arms = [] ∧ item.cases = [] ∧ item.conversions = [] ∧ item.visits = [] ∧
      item.methods = [] := by
  cases item with
  | moduleDecl | siblingImport | reexport | userImport => exact ⟨rfl, rfl, rfl, rfl, rfl⟩
  | _ => simp [isLink] at h

end Item

namespace Draft

/-- A table of all files. -/
def table {α : Type} (view : Item → List α) (drafts : List Draft) : List α :=
  drafts.flatMap fun d => d.items.flatMap view

/-- The entries of a table under a name. -/
def under {α : Type} (name : String) (rows : List (String × α)) : List α :=
  (rows.filter (·.1 == name)).map (·.2)

/-- The visitor methods that are called when a structure is converted and `operation` of the
value is called.  The arm of its case says which operation of the structure behind the case is
called, and the body of that operation says which method of the visitor is. -/
def dispatch (drafts : List Draft) (operation name : String) : List String :=
  (under name (table Item.conversions drafts)).flatMap fun (family, built) =>
    built.toList.flatMap fun label =>
      (under label (under operation (under family (table Item.arms drafts)))).flatMap fun called =>
        (under label (under family (table Item.cases drafts))).flatMap fun node =>
          called.toList.flatMap fun called =>
            (under called (under node (table Item.visits drafts))).flatMap Option.toList

theorem under_map {α β : Type} (name : String) (key : β → String) (f : β → α) (rows : List β) :
    under name (rows.map fun b => (key b, f b)) =
      (rows.filter fun b => key b == name).map f := by
  simp only [under, List.filter_map, List.map_map, Function.comp_def]

theorem under_map_self {α β : Type} (name : String) (f : β → α) (rows : List β) :
    under name (rows.map fun b => (name, f b)) = rows.map f := by
  simp [under, List.filter_map, Function.comp_def]

end Draft

namespace Family

theorem filter_members (families : List Family) (p : Family → Bool) :
    ((members families).filter fun m => p m.1) = members (families.filter p) := by
  induction families with
  | nil => rfl
  | cons f rest ih =>
      have hrest : ((rest.flatMap fun f => f.nodes.map (Prod.mk f)).filter fun m => p m.1) =
          members (rest.filter p) := ih
      rw [members, List.flatMap_cons, List.filter_append, hrest]
      by_cases hf : p f = true
      · simp [members, List.filter_map, Function.comp_def, hf]
      · simp [members, List.filter_map, Function.comp_def, hf]

/-- The nodes under the name of a family are its own. -/
theorem filter_members_name
    {families : List Family} (hnames : (families.map (·.name)).Nodup) {f : Family}
    (hf : f ∈ families) :
    ((members families).filter fun m => m.1.name == f.name) = f.nodes.map (Prod.mk f) := by
  rw [filter_members families fun e => e.name == f.name, filter_key_eq_singleton hnames hf]
  simp [members]

end Family

/-- A class is spelled under its own name where it is part of a written type. -/
theorem Node.name_of_spell_className
    {f : Family} {n : Node} (hword : Code.isWord (f.typeName n) = true) {label : Code.Word}
    (h : Code.Word.spell n.className = .ok label) : label.name = n.className := by
  have hhash : '#' ∉ n.className.toList := by
    intro hmem
    apply Code.hash_not_mem_of_isWord hword
    rw [Family.typeName, String.toList_append]
    exact List.mem_append_left _ hmem
  rw [Code.Word.eq_of_spell_eq_ok h hhash]

namespace Draft

/-! ## The tables of a linked grammar -/

section Tables

variable {l : Linked} {dress : Dress} {drafts : List Draft} {α : Type} {view : Item → List α}

/-- A table that the visitor trait does not enter has the rows of the nodes. -/
theorem table_eq_map_members
    (h : all l dress = .ok drafts)
    (hlinks : ∀ item : Item, item.isLink = true → view item = [])
    (htrait : ∀ doc methods, view (.visitorTrait doc methods) = []) {row : Family × Node → α}
    (hfamily : ∀ f ∈ l.order, ∀ d, ofFamily l dress f = .ok d →
      d.items.flatMap view = f.nodes.map fun n => row (f, n)) :
    table view drafts = (Family.members l.order).map row := by
  obtain ⟨families, visitor, enclosing, hfamilies, hvisitor, henclosing, rfl⟩ :=
    exists_of_all_eq_ok h
  obtain ⟨doc, methods, -, hseen⟩ := rows_ofVisitor hlinks hvisitor
  have hrows : (families.flatMap fun d => d.items.flatMap view) =
      (Family.members l.order).map row := by
    rw [flatMap_eq_flatMap_of_forall₂ hfamilies hfamily, Family.members, List.map_flatMap]
    simp only [List.map_map, Function.comp_def]
  simp [table, hrows, hseen, htrait, rows_ofModule hlinks henclosing]

/-- A table that only the items of the nodes enter, each node with one row. -/
theorem table_eq_map_members_of_nodeItems
    (h : all l dress = .ok drafts)
    (hlinks : ∀ item : Item, item.isLink = true → view item = [])
    (htrait : ∀ doc methods, view (.visitorTrait doc methods) = []) {row : Family × Node → α}
    (hbase : ∀ f items, baseItems l dress f = .ok items → items.flatMap view = [])
    (hnode : ∀ f n items, nodeItems l dress f n = .ok items →
      items.flatMap view = [row (f, n)]) :
    table view drafts = (Family.members l.order).map row := by
  apply table_eq_map_members h hlinks htrait
  intro f _ d hd
  have hrows : d.items.flatMap view = [] ++ f.nodes.flatMap fun n => [row (f, n)] :=
    rows_ofFamily hlinks hd (fun _ => hbase f) (hnode f)
  rw [hrows, List.nil_append, ← List.map_eq_flatMap]

end Tables

section Rows

variable {l : Linked} {dress : Dress} {drafts : List Draft}

theorem map_variants_eq
    {f : Family} {variants : List Variant} (h : List.Forall₂ (IsVariant l f) f.nodes variants)
    (hwords : ∀ n ∈ f.nodes, Code.isWord (f.typeName n) = true) :
    (variants.map fun v => (v.label.name, v.payload.name)) =
      f.nodes.map fun n => (n.className, f.typeName n) := by
  apply map_eq_map_of_forall₂ h
  rintro n hn v ⟨hlabel, hpayload⟩
  rw [Node.name_of_spell_className (hwords n hn) hlabel, hpayload]
  rfl

theorem table_cases
    (h : all l dress = .ok drafts) :
    table Item.cases drafts =
      (Family.members l.order).map fun m => (m.1.name, m.2.className, m.1.typeName m.2) := by
  have hlinks : ∀ item : Item, item.isLink = true → item.cases = [] := fun _ h =>
    (Item.tables_of_isLink h).2.1
  apply table_eq_map_members h hlinks fun _ _ => rfl
  intro f _ d hd
  have hrows : d.items.flatMap Item.cases =
      (f.nodes.map fun n => (f.name, n.className, f.typeName n)) ++
        f.nodes.flatMap fun _ => [] := by
    apply rows_ofFamily hlinks hd
    · intro hwords items hitems
      obtain ⟨doc, variants, hvariants, rfl⟩ := exists_of_baseItems_eq_ok hitems
      have hcases := congrArg (List.map (Prod.mk f.name)) (map_variants_eq hvariants hwords)
      simpa [Item.cases, Function.comp_def] using hcases
    · intro n items hitems
      obtain ⟨label, slots, -, -, rfl⟩ := exists_of_nodeItems_eq_ok hitems
      rfl
  rw [hrows, List.flatMap_eq_nil_iff.mpr fun _ _ => rfl, List.append_nil]

theorem table_arms
    (h : all l dress = .ok drafts) :
    table Item.arms drafts = (Family.members l.order).map fun m =>
      (m.1.name, "accept", m.2.className, some "accept") := by
  have hlinks : ∀ item : Item, item.isLink = true → item.arms = [] := fun _ h =>
    (Item.tables_of_isLink h).1
  apply table_eq_map_members h hlinks fun _ _ => rfl
  intro f _ d hd
  have hrows : d.items.flatMap Item.arms =
      (f.nodes.map fun n => (f.name, "accept", n.className, some "accept")) ++
        f.nodes.flatMap fun _ => [] := by
    apply rows_ofFamily hlinks hd
    · intro hwords items hitems
      obtain ⟨doc, variants, hvariants, rfl⟩ := exists_of_baseItems_eq_ok hitems
      have harms := congrArg (List.map fun p => (f.name, "accept", p.1, some "accept"))
        (map_variants_eq hvariants hwords)
      simpa [Item.arms, arm, MethodCall.operation?, Linked.familyMention, Function.comp_def]
        using harms
    · intro n items hitems
      obtain ⟨label, slots, -, -, rfl⟩ := exists_of_nodeItems_eq_ok hitems
      rfl
  rw [hrows, List.flatMap_eq_nil_iff.mpr fun _ _ => rfl, List.append_nil]

theorem table_conversions
    (h : all l dress = .ok drafts) :
    table Item.conversions drafts = (Family.members l.order).map fun m =>
      (m.1.typeName m.2, m.1.name, some m.2.className) := by
  have hlinks : ∀ item : Item, item.isLink = true → item.conversions = [] := fun _ h =>
    (Item.tables_of_isLink h).2.2.1
  apply table_eq_map_members_of_nodeItems h hlinks fun _ _ => rfl
  · intro f items hitems
    obtain ⟨doc, variants, -, rfl⟩ := exists_of_baseItems_eq_ok hitems
    rfl
  · intro f n items hitems
    have hword := isWord_typeName_of_nodeItems_eq_ok hitems
    obtain ⟨label, slots, hlabel, -, rfl⟩ := exists_of_nodeItems_eq_ok hitems
    rw [← Node.name_of_spell_className hword hlabel]
    rfl

theorem table_visits
    (h : all l dress = .ok drafts) :
    table Item.visits drafts = (Family.members l.order).map fun m =>
      (m.1.typeName m.2, "accept", some (m.1.visitMethod m.2)) := by
  have hlinks : ∀ item : Item, item.isLink = true → item.visits = [] := fun _ h =>
    (Item.tables_of_isLink h).2.2.2.1
  apply table_eq_map_members_of_nodeItems h hlinks fun _ _ => rfl
  · intro f items hitems
    obtain ⟨doc, variants, -, rfl⟩ := exists_of_baseItems_eq_ok hitems
    rfl
  · intro f n items hitems
    obtain ⟨label, slots, -, -, rfl⟩ := exists_of_nodeItems_eq_ok hitems
    rfl

theorem table_methods
    (h : all l dress = .ok drafts) :
    table Item.methods drafts =
      (Family.members l.grammar.families).map fun m =>
        (m.1.visitMethod m.2, m.1.typeName m.2) := by
  have hlinks : ∀ item : Item, item.isLink = true → item.methods = [] := fun _ h =>
    (Item.tables_of_isLink h).2.2.2.2
  obtain ⟨families, visitor, enclosing, hfamilies, hvisitor, henclosing, rfl⟩ :=
    exists_of_all_eq_ok h
  obtain ⟨doc, methods, hmethods, hseen⟩ := rows_ofVisitor hlinks hvisitor
  have hnone : (families.flatMap fun d => d.items.flatMap Item.methods) = [] := by
    rw [List.flatMap_eq_nil_iff]
    intro d hd
    obtain ⟨f, -, hfd⟩ := exists_source_of_mem hfamilies hd
    have hrows : d.items.flatMap Item.methods = [] ++ f.nodes.flatMap fun _ => [] := by
      apply rows_ofFamily hlinks hfd
      · intro _ items hitems
        obtain ⟨doc, variants, -, rfl⟩ := exists_of_baseItems_eq_ok hitems
        rfl
      · intro n items hitems
        obtain ⟨label, slots, -, -, rfl⟩ := exists_of_nodeItems_eq_ok hitems
        rfl
    rw [hrows, List.flatMap_eq_nil_iff.mpr fun _ _ => rfl, List.append_nil]
  have hrows : (methods.flatten.map fun m => (m.name, m.value.name)) =
      (Family.members l.grammar.families).map fun m =>
        (m.1.visitMethod m.2, m.1.typeName m.2) := by
    rw [Family.members, List.map_flatMap, List.flatten_eq_flatMap, List.map_flatMap]
    apply flatMap_eq_flatMap_of_forall₂ hmethods
    intro f _ ms hms
    rw [List.map_map]
    apply map_eq_map_of_forall₂ hms
    intro n _ m hm
    obtain ⟨hname, hvalue, -⟩ := visitMethod_eq_ok hm
    rw [hname, hvalue]
    rfl
  rw [table, List.flatMap_append, hnone, List.nil_append, List.flatMap_cons, hseen,
    List.flatMap_singleton, rows_ofModule hlinks henclosing, List.append_nil, Item.methods,
    hrows]

end Rows

/-! ## Dispatch -/

/-- Every node has its own visitor method, and dispatch reaches it. -/
structure Dispatches (g : Grammar) (drafts : List Draft) : Prop where
  /-- The trait has one method for each node, by families and their nodes, and the method
  takes the structure of the node. -/
  methods : table Item.methods drafts =
    (Family.members g.families).map fun m => (m.1.visitMethod m.2, m.1.typeName m.2)
  /-- No method is declared twice. -/
  distinct : ((table Item.methods drafts).map (·.1)).Nodup
  /-- Nodes and methods correspond. -/
  bijective : Set.BijOn (fun m => m.1.visitMethod m.2) {m | m ∈ Family.members g.families}
    {name | name ∈ (table Item.methods drafts).map (·.1)}
  /-- The enumeration of a family has one case for each node, with the structure of the
  node behind it. -/
  cases : ∀ f ∈ g.families, under f.name (table Item.cases drafts) =
    f.nodes.map fun n => (n.className, f.typeName n)
  /-- The enumeration has one dispatch function, with one arm for each node, and the arm calls
  the dispatch of the structure behind its case. -/
  arms : ∀ f ∈ g.families, under f.name (table Item.arms drafts) =
    f.nodes.map fun n => ("accept", n.className, some "accept")
  /-- Neither cases nor structures of a family coincide. -/
  apart : ∀ f ∈ g.families, (f.nodes.map (·.className)).Nodup ∧ (f.nodes.map f.typeName).Nodup
  /-- The structure of a node is converted into the case of the node, and into no other. -/
  conversion : ∀ f ∈ g.families, ∀ n ∈ f.nodes,
    under (f.typeName n) (table Item.conversions drafts) = [(f.name, some n.className)]
  /-- The dispatch of the structure calls the method of the node, and no other. -/
  visit : ∀ f ∈ g.families, ∀ n ∈ f.nodes,
    under (f.typeName n) (table Item.visits drafts) = [("accept", some (f.visitMethod n))]
  /-- Dispatch on the value built from a node calls the method of the node, and no other. -/
  dispatch : ∀ f ∈ g.families, ∀ n ∈ f.nodes,
    dispatch drafts "accept" (f.typeName n) = [f.visitMethod n]

section Dispatch

variable {g : Grammar} {l : Linked} {dress : Dress} {drafts : List Draft}

theorem members_order_perm (hlink : g.link = .ok l) :
    (Family.members l.order).Perm (Family.members g.families) :=
  (Grammar.order_perm_of_link hlink).flatMap_right _

/-- The nodes with the structure of a node: only the node itself. -/
theorem filter_members_typeName
    (hlink : g.link = .ok l) {f : Family} (hf : f ∈ g.families) {n : Node} (hn : n ∈ f.nodes) :
    ((Family.members l.order).filter fun m => m.1.typeName m.2 == f.typeName n) =
      [(f, n)] := by
  have hvalid := (Grammar.link_eq_ok_iff_stages.mp hlink).1
  have hperm := members_order_perm hlink
  have hnodup : ((Family.members l.order).map fun m => m.1.typeName m.2).Nodup :=
    (hperm.map _).nodup_iff.mpr (Grammar.typeNames_nodup_of_validate hvalid)
  have hmem : (f, n) ∈ Family.members l.order :=
    hperm.mem_iff.mpr (Family.mem_members_iff.mpr ⟨hf, hn⟩)
  exact filter_key_eq_singleton hnodup hmem

/-- The nodes under the name of a family. -/
theorem filter_members_order
    (hlink : g.link = .ok l) {f : Family} (hf : f ∈ g.families) :
    ((Family.members l.order).filter fun m => m.1.name == f.name) = f.nodes.map (Prod.mk f) := by
  have hnames : (l.order.map (·.name)).Nodup :=
    ((Grammar.order_perm_of_link hlink).map _).nodup_iff.mpr
      (Grammar.namesDistinct_of_link hlink)
  exact Family.filter_members_name hnames ((Grammar.mem_order_iff hlink).mpr hf)

theorem under_cases
    (hlink : g.link = .ok l) (h : all l dress = .ok drafts) {f : Family} (hf : f ∈ g.families) :
    under f.name (table Item.cases drafts) =
      f.nodes.map fun n => (n.className, f.typeName n) := by
  rw [table_cases h, under_map f.name fun m : Family × Node => m.1.name,
    filter_members_order hlink hf, List.map_map]
  rfl

theorem under_arms
    (hlink : g.link = .ok l) (h : all l dress = .ok drafts) {f : Family} (hf : f ∈ g.families) :
    under f.name (table Item.arms drafts) =
      f.nodes.map fun n => ("accept", n.className, some "accept") := by
  rw [table_arms h, under_map f.name fun m : Family × Node => m.1.name,
    filter_members_order hlink hf, List.map_map]
  rfl

theorem under_conversions
    (hlink : g.link = .ok l) (h : all l dress = .ok drafts) {f : Family} (hf : f ∈ g.families)
    {n : Node} (hn : n ∈ f.nodes) :
    under (f.typeName n) (table Item.conversions drafts) = [(f.name, some n.className)] := by
  rw [table_conversions h, under_map _ fun m : Family × Node => m.1.typeName m.2,
    filter_members_typeName hlink hf hn, List.map_singleton]

theorem under_visits
    (hlink : g.link = .ok l) (h : all l dress = .ok drafts) {f : Family} (hf : f ∈ g.families)
    {n : Node} (hn : n ∈ f.nodes) :
    under (f.typeName n) (table Item.visits drafts) =
      [("accept", some (f.visitMethod n))] := by
  rw [table_visits h, under_map _ fun m : Family × Node => m.1.typeName m.2,
    filter_members_typeName hlink hf hn, List.map_singleton]

theorem dispatch_eq
    (hlink : g.link = .ok l) (h : all l dress = .ok drafts) {f : Family} (hf : f ∈ g.families)
    {n : Node} (hn : n ∈ f.nodes) :
    dispatch drafts "accept" (f.typeName n) = [f.visitMethod n] := by
  -- Each of the lookups has one answer, and it is the entry of the node.
  have hclasses : (f.nodes.map (·.className)).Nodup :=
    (Grammar.family_of_validate (Grammar.link_eq_ok_iff_stages.mp hlink).1 hf).2.2
  have hnode : (f.nodes.filter fun m => m.className == n.className) = [n] :=
    filter_key_eq_singleton hclasses hn
  have harm : under n.className (under "accept"
      (f.nodes.map fun m => ("accept", m.className, some "accept"))) = [some "accept"] := by
    rw [under_map_self, under_map, hnode, List.map_singleton]
  have hvisit : under "accept" [("accept", some (f.visitMethod n))] = [some (f.visitMethod n)] :=
    rfl
  have hcase : under n.className (f.nodes.map fun m => (m.className, f.typeName m)) =
      [f.typeName n] := by
    rw [under_map, hnode, List.map_singleton]
  simp only [dispatch, under_conversions hlink h hf hn, under_arms hlink h hf,
    under_cases hlink h hf, under_visits hlink h hf hn, harm, hcase, hvisit, Option.toList_some,
    List.flatMap_singleton]

theorem dispatches_of_all
    (hlink : g.link = .ok l) (h : all l dress = .ok drafts) : Dispatches g drafts := by
  have hvalid := (Grammar.link_eq_ok_iff_stages.mp hlink).1
  have hmethods := table_methods h
  rw [Grammar.grammar_of_link hlink] at hmethods
  have hnames : (table Item.methods drafts).map (·.1) =
      (Family.members g.families).map fun m => m.1.visitMethod m.2 := by
    rw [hmethods, List.map_map]
    rfl
  have hnodup := Grammar.methods_nodup_of_validate hvalid
  refine ⟨hmethods, by rwa [hnames], ?_, fun f hf => under_cases hlink h hf,
    fun f hf => under_arms hlink h hf, ?_, fun f hf n hn => under_conversions hlink h hf hn,
    fun f hf n hn => under_visits hlink h hf hn, fun f hf n hn => dispatch_eq hlink h hf hn⟩
  · rw [hnames]
    refine ⟨?_, ?_, ?_⟩
    · intro m hm
      exact List.mem_map.mpr ⟨m, hm, rfl⟩
    · intro m hm m' hm' hmethod
      exact List.inj_on_of_nodup_map hnodup hm hm' hmethod
    · intro name hname
      obtain ⟨m, hm, hmethod⟩ := List.mem_map.mp hname
      exact ⟨m, hm, hmethod⟩
  · intro f hf
    exact ⟨(Grammar.family_of_validate hvalid hf).2.2, Grammar.typeNames_nodup_of_mem hvalid hf⟩

end Dispatch

end Draft

/-- In the files of a rendered grammar the visitor trait has one method for each node, and
dispatch on the value built from a node reaches exactly the method of this node. -/
theorem render_dispatches
    {g : Grammar} {files : List SourceFile} (h : g.render = .ok files) :
    ∃ drafts, g.drafts = .ok drafts ∧ files = drafts.map (fun d => ⟨d.path, d.write⟩) ∧
      Draft.Dispatches g drafts := by
  obtain ⟨drafts, hdrafts, hfiles⟩ := Grammar.exists_of_render_eq_ok h
  obtain ⟨l, dress, hlink, -, hall⟩ := Grammar.exists_of_drafts_eq_ok hdrafts
  exact ⟨drafts, hdrafts, hfiles, Draft.dispatches_of_all hlink hall⟩

/-- Families whose names and classes run into each other when they are joined, declared
against their dependency, with a class that is a reserved word. -/
def joinedNames : Grammar :=
  { name := "Joined"
    families := [
      ⟨"Stmt", [⟨"loop", [⟨⟨"Expr", []⟩, "body"⟩]⟩, ⟨"Expr", [⟨⟨"Expr", []⟩, "value"⟩]⟩],
        some "Expr"⟩,
      ⟨"Expr", [⟨"Stmt", [⟨⟨"u8", []⟩, "width"⟩]⟩, ⟨"Loop", []⟩], none⟩]
    options := { result := "Value" } }

theorem render_dispatches_joinedNames :
    ∃ drafts, joinedNames.drafts = .ok drafts ∧ Draft.Dispatches joinedNames drafts ∧
      Draft.dispatch drafts "accept" "loopStmt" = ["visit_loop_stmt"] ∧
      Draft.dispatch drafts "accept" "StmtExpr" = ["visit_stmt_expr"] := by
  have hreached : ∃ drafts, joinedNames.drafts = .ok drafts ∧
      Draft.dispatch drafts "accept" "loopStmt" = ["visit_loop_stmt"] ∧
      Draft.dispatch drafts "accept" "StmtExpr" = ["visit_stmt_expr"] :=
    Grammar.exists_drafts_of_any (by decide +kernel)
  obtain ⟨drafts, hdrafts, hloop, hstmt⟩ := hreached
  obtain ⟨_, hdrafts', -, hdispatches⟩ :=
    render_dispatches (Grammar.render_eq_ok_of_drafts hdrafts)
  obtain rfl := Except.ok.inj (hdrafts.symm.trans hdrafts')
  exact ⟨drafts, hdrafts, hdispatches, hloop, hstmt⟩

end Treewright
