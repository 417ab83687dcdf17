import Treewright.Proofs.Lifetime
import Treewright.Proofs.Spelling

/-!
# References between files

The files of a grammar refer to each other by names only.  A family file imports the
families that it depends on and the visitor, the visitor file imports all nodes, and the
enclosing module declares the other files and makes their main types public.  Each of them
spells the modules anew.  Here the references are read off the items again, as pairs of a
module and a name in it, and every pair leads to a file that declares the name.

Fields may mention the families that linking allows, and these are the imported ones.
Imports between family files follow the dependencies, so they inherit that no family
reaches itself.

What a grammar asks to bring into scope is copied as it is.  Such an import may refer to a
sibling module as well, and then nothing is known about it.
-/

namespace Treewright

/-! ## References of items -/

namespace Code.UseTree

mutual

/-- The paths of an import, each as the names along it. -/
def paths : UseTree → List (List String)
  | .name w => [[w.name]]
  | .rename w _ => [[w.name]]
  | .path w rest => rest.paths.map (w.name :: ·)
  | .glob => [["*"]]
  | .group items => pathsOf items

/-- The paths of all imports of a list. -/
def pathsOf : List UseTree → List (List String)
  | [] => []
  | t :: rest => t.paths ++ pathsOf rest

end

/-- What an import takes from sibling modules: the module and the name in it. -/
def siblings (t : UseTree) : List (String × String) :=
  t.paths.filterMap fun path =>
    match path with
    | "super" :: home :: found :: _ => some (home, found)
    | _ => none

theorem pathsOf_names (names : List String) :
    pathsOf (names.map fun name => .name ⟨name, false⟩) = names.map fun name => [name] := by
  induction names with
  | nil => simp [pathsOf]
  | cons name rest ih => simp [pathsOf, paths, ih]

theorem paths_siblingTree (home : Word) (names : List String) :
    (siblingTree home names).paths = names.map fun name => ["super", home.name, name] := by
  unfold siblingTree
  split
  · simp [paths]
  · simp [paths, pathsOf_names, Function.comp_def]

@[simp] theorem siblings_siblingTree (home : Word) (names : List String) :
    (siblingTree home names).siblings = names.map fun name => (home.name, name) := by
  rw [siblings, paths_siblingTree, List.filterMap_map]
  exact congrFun List.filterMap_eq_map names

end Code.UseTree

namespace Item

/-- What an item imports from sibling modules, apart from what the grammar asks for. -/
def imports : Item → List (String × String)
  | siblingImport home names => (siblingTree home names).siblings
  | _ => []

/-- What an item imports from sibling modules. -/
def allImports : Item → List (String × String)
  | siblingImport home names => (siblingTree home names).siblings
  | userImport tree => tree.siblings
  | _ => []

/-- The modules that an item declares. -/
def modules : Item → List String
  | moduleDecl home => [home.name]
  | _ => []

/-- What an item makes public in the enclosing module. -/
def reexports : Item → List (String × String)
  | reexport home name => [(home.name, name)]
  | _ => []

/-- The enumerations that an item declares. -/
def enumNames : Item → List String
  | enumDecl _ _ name _ _ => [name]
  | _ => []

theorem enumNames_of_isLink {item : Item} (h : item.isLink = true) : item.enumNames = [] := by
  cases item with
  | moduleDecl | siblingImport | reexport | userImport => rfl
  | _ => simp [isLink] at h

end Item

namespace Draft

/-- The file of the module declares the name. -/
def Declares (drafts : List Draft) (home name : String) : Prop :=
  ∃ d ∈ drafts, d.path = home ++ ".rs" ∧ ∃ item ∈ d.items, item.declared? = some name

instance (drafts : List Draft) (home name : String) : Decidable (Declares drafts home name) :=
  inferInstanceAs (Decidable (∃ _ ∈ _, _))

/-- A family file imports something from another one. -/
def ImportsFrom (view : Item → List (String × String)) (d e : Draft) : Prop :=
  d.items.flatMap Item.enumNames ≠ [] ∧ e.items.flatMap Item.enumNames ≠ [] ∧
    ∃ p ∈ d.items.flatMap view, e.path = p.1 ++ ".rs"

instance (view : Item → List (String × String)) (d e : Draft) :
    Decidable (ImportsFrom view d e) :=
  inferInstanceAs (Decidable (_ ∧ _ ∧ _))

/-- The import relation between the family files of an output. -/
def Imports (view : Item → List (String × String)) (drafts : List Draft) (d e : Draft) : Prop :=
  d ∈ drafts ∧ e ∈ drafts ∧ d.ImportsFrom view e

/-- All references between files lead somewhere, and imports do not go round in circles.
The imports that count are those that the view shows. -/
structure Resolved (view : Item → List (String × String)) (drafts : List Draft) : Prop where
  /-- An imported name is declared in the file that it is imported from. -/
  imports : ∀ d ∈ drafts, ∀ p ∈ d.items.flatMap view, Declares drafts p.1 p.2
  /-- The last file declares one module for each of the others, and what it makes public is
  declared there. -/
  enclosing : ∃ others root, drafts = others ++ [root] ∧ root.path = "mod.rs" ∧
    (root.items.flatMap Item.modules).map (· ++ ".rs") = others.map (·.path) ∧
    ∀ p ∈ root.items.flatMap Item.reexports, Declares drafts p.1 p.2
  /-- No two files have the same path. -/
  paths : (drafts.map (·.path)).Nodup
  /-- A mentioned family is the one of the file, or it is imported from its own file. -/
  families : ∀ d ∈ drafts, ∀ item ∈ d.items, ∀ m ∈ item.families,
    d.items.flatMap Item.enumNames = [m.name] ∨
      ∃ p ∈ d.items.flatMap view, p.2 = m.name ∧
        ∃ e ∈ drafts, e.path = p.1 ++ ".rs" ∧ e.items.flatMap Item.enumNames = [m.name]
  /-- Only references to other files stand before such a reference. -/
  first : ∀ d ∈ drafts, d.items.Pairwise fun a b => b.isLink = true → a.isLink = true
  /-- No family file imports itself, directly or through others. -/
  acyclic : ∀ d, ¬Relation.TransGen (Imports view drafts) d d

/-- Only what the view shows of the items of the files matters. -/
theorem Resolved.congr
    {view view' : Item → List (String × String)} {drafts : List Draft} (h : Resolved view drafts)
    (hview : ∀ d ∈ drafts, ∀ item ∈ d.items, view' item = view item) :
    Resolved view' drafts := by
  have hshown : ∀ d ∈ drafts, d.items.flatMap view' = d.items.flatMap view := fun d hd =>
    List.flatMap_congr (hview d hd)
  refine ⟨?_, h.enclosing, h.paths, ?_, h.first, ?_⟩
  · intro d hd p hp
    rw [hshown d hd] at hp
    exact h.imports d hd p hp
  · intro d hd item hitem m hm
    rw [hshown d hd]
    exact h.families d hd item hitem m hm
  · have hle : Imports view' drafts ≤ Imports view drafts := by
      rintro a b ⟨ha, hb, hfrom⟩
      refine ⟨ha, hb, ?_⟩
      rwa [ImportsFrom, ← hshown a ha]
    intro d hcycle
    exact h.acyclic d (Relation.TransGen.mono hle d d hcycle)

/-! ## References of each file -/

section Files

variable {g : Grammar} {l : Linked} {dress : Dress} {drafts : List Draft}

theorem name_of_spell_moduleName
    (hlink : g.link = .ok l) {f : Family} (hf : f ∈ g.families) {home : Code.Word}
    (h : Code.Word.spell f.moduleName = .ok home) : home.name = f.moduleName := by
  have hvalid := (Grammar.link_eq_ok_iff_stages.mp hlink).1
  exact Family.name_of_spell_moduleName (Grammar.family_of_validate hvalid hf).1 h

theorem imports_ofFamily
    (hlink : g.link = .ok l) {f : Family} {d : Draft} (h : ofFamily l dress f = .ok d) :
    d.items.flatMap Item.imports =
      ((Linked.dependencies g f).map fun e => (e.moduleName, e.name)) ++
        [("visitor", "Visitor")] := by
  have hg := Grammar.grammar_of_link hlink
  have himport : ∀ e ∈ Linked.dependencies l.grammar f, ∀ item,
      dependencyImport e = .ok item → item.imports = [(e.moduleName, e.name)] := by
    intro e he item hitem
    rw [hg] at he
    have hreach := (Linked.mem_dependencies_iff (Grammar.namesDistinct_of_link hlink)).mp he
    obtain ⟨home, hhome, rfl⟩ := exists_of_dependencyImport_eq_ok hitem
    simp [Item.imports, name_of_spell_moduleName hlink hreach.mem hhome]
  have hbase : (∀ n ∈ f.nodes, Code.isWord (f.typeName n) = true) → ∀ items,
      baseItems l dress f = .ok items → items.flatMap Item.imports = [] := by
    intro _ items hitems
    obtain ⟨doc, variants, -, rfl⟩ := exists_of_baseItems_eq_ok hitems
    rfl
  have hnode : ∀ n items, nodeItems l dress f n = .ok items →
      items.flatMap Item.imports = [] := by
    intro n items hitems
    obtain ⟨label, slots, -, -, rfl⟩ := exists_of_nodeItems_eq_ok hitems
    rfl
  rw [flatMap_ofFamily (fun _ => rfl) h himport hbase hnode, hg, ← List.map_eq_flatMap,
    List.flatMap_eq_nil_iff.mpr fun _ _ => rfl, List.append_nil, List.append_nil]
  simp [Item.imports]

theorem imports_ofVisitor
    (hlink : g.link = .ok l) {d : Draft} (h : ofVisitor l dress = .ok d) :
    d.items.flatMap Item.imports =
      (Family.members g.families).map fun m => (m.1.moduleName, m.1.typeName m.2) := by
  have hg := Grammar.grammar_of_link hlink
  have himport : ∀ f ∈ l.grammar.families, ∀ item, nodesImport f = .ok item →
      item.imports = f.nodes.map fun n => (f.moduleName, f.typeName n) := by
    intro f hf item hitem
    rw [hg] at hf
    obtain ⟨home, hhome, rfl⟩ := exists_of_nodesImport_eq_ok hitem
    simp [Item.imports, name_of_spell_moduleName hlink hf hhome]
  obtain ⟨doc, methods, -, hshown⟩ := flatMap_ofVisitor (fun _ => rfl) h himport
  rw [hshown, hg, Family.members, List.map_flatMap]
  simp [Item.imports, Function.comp_def]

theorem imports_ofModule {d : Draft} (h : ofModule l = .ok d) :
    d.items.flatMap Item.imports = [] := by
  rw [flatMap_ofModule h (fun _ _ _ _ => rfl) fun _ _ _ _ => rfl,
    List.flatMap_eq_nil_iff.mpr fun _ _ => rfl]
  rfl

theorem modules_ofModule
    (hlink : g.link = .ok l) {d : Draft} (h : ofModule l = .ok d) :
    d.items.flatMap Item.modules = l.order.map (·.moduleName) ++ ["visitor"] := by
  have hhome : ∀ f ∈ l.order, ∀ home, Code.Word.spell f.moduleName = .ok home →
      (Item.moduleDecl home).modules = [f.moduleName] := by
    intro f hf home hspell
    rw [Grammar.mem_order_iff hlink] at hf
    rw [Item.modules, name_of_spell_moduleName hlink hf hspell]
  rw [flatMap_ofModule h hhome fun _ _ _ _ => rfl, ← List.map_eq_flatMap,
    List.flatMap_eq_nil_iff.mpr fun _ _ => rfl]
  simp [Item.modules]

theorem reexports_ofModule
    (hlink : g.link = .ok l) {d : Draft} (h : ofModule l = .ok d) :
    d.items.flatMap Item.reexports =
      (l.order.map fun f => (f.moduleName, f.name)) ++ [("visitor", "Visitor")] := by
  have hreexport : ∀ f ∈ l.order, ∀ home, Code.Word.spell f.moduleName = .ok home →
      (Item.reexport home f.name).reexports = [(f.moduleName, f.name)] := by
    intro f hf home hspell
    rw [Grammar.mem_order_iff hlink] at hf
    rw [Item.reexports, name_of_spell_moduleName hlink hf hspell]
  rw [flatMap_ofModule h (fun _ _ _ _ => rfl) hreexport, ← List.map_eq_flatMap,
    List.flatMap_eq_nil_iff.mpr fun _ _ => rfl]
  simp [Item.reexports]

theorem enumNames_ofFamily {f : Family} {d : Draft} (h : ofFamily l dress f = .ok d) :
    d.items.flatMap Item.enumNames = [f.name] := by
  have hshown : d.items.flatMap Item.enumNames = [f.name] ++ f.nodes.flatMap fun _ => [] := by
    apply rows_ofFamily (fun _ => Item.enumNames_of_isLink) h
    · intro _ items hitems
      obtain ⟨doc, variants, -, rfl⟩ := exists_of_baseItems_eq_ok hitems
      rfl
    · intro n items hitems
      obtain ⟨label, slots, -, -, rfl⟩ := exists_of_nodeItems_eq_ok hitems
      rfl
  rw [hshown, List.flatMap_eq_nil_iff.mpr fun _ _ => rfl, List.append_nil]

/-- Only family files declare an enumeration. -/
theorem exists_family_of_enumNames
    (h : all l dress = .ok drafts) {d : Draft} (hd : d ∈ drafts)
    (henum : d.items.flatMap Item.enumNames ≠ []) :
    ∃ f ∈ l.order, ofFamily l dress f = .ok d := by
  rcases source_of_mem_all h hd with hfamily | hvisitor | henclosing
  · exact hfamily
  · obtain ⟨doc, methods, -, hnone⟩ :=
      rows_ofVisitor (fun _ => Item.enumNames_of_isLink) hvisitor
    exact absurd hnone henum
  · exact absurd (rows_ofModule (fun _ => Item.enumNames_of_isLink) henclosing) henum

/-! ## Declarations -/

theorem declares_family
    (h : all l dress = .ok drafts) {f : Family} (hf : f ∈ l.order) :
    Declares drafts f.moduleName f.name := by
  obtain ⟨d, hd, hfd⟩ := exists_draft_of_mem_order h hf
  obtain ⟨doc, variants, -, hitem⟩ := enumDecl_mem_of_ofFamily_eq_ok hfd
  exact ⟨d, hd, path_of_ofFamily_eq_ok hfd, _, hitem, rfl⟩

theorem declares_node
    (h : all l dress = .ok drafts) {f : Family} (hf : f ∈ l.order) {n : Node}
    (hn : n ∈ f.nodes) : Declares drafts f.moduleName (f.typeName n) := by
  obtain ⟨d, hd, hfd⟩ := exists_draft_of_mem_order h hf
  obtain ⟨doc, slots, -, hitem⟩ := structDecl_mem_of_ofFamily_eq_ok hfd hn
  exact ⟨d, hd, path_of_ofFamily_eq_ok hfd, _, hitem, rfl⟩

theorem declares_visitor (h : all l dress = .ok drafts) :
    Declares drafts "visitor" "Visitor" := by
  obtain ⟨families, visitor, enclosing, -, hvisitor, -, rfl⟩ := exists_of_all_eq_ok h
  obtain ⟨imports, methods, doc, -, -, hpath, hitems⟩ := exists_of_ofVisitor_eq_ok hvisitor
  refine ⟨visitor, by simp, hpath, .visitorTrait doc methods.flatten, by simp [hitems], rfl⟩

theorem declares_of_mem_imports
    (hlink : g.link = .ok l) (h : all l dress = .ok drafts) {d : Draft} (hd : d ∈ drafts)
    {p : String × String} (hp : p ∈ d.items.flatMap Item.imports) :
    Declares drafts p.1 p.2 := by
  rcases source_of_mem_all h hd with ⟨f, hf, hfd⟩ | hvisitor | henclosing
  · rw [imports_ofFamily hlink hfd, List.mem_append, List.mem_map, List.mem_singleton] at hp
    rcases hp with ⟨e, he, rfl⟩ | rfl
    · have hreach := (Linked.mem_dependencies_iff (Grammar.namesDistinct_of_link hlink)).mp he
      exact declares_family h ((Grammar.mem_order_iff hlink).mpr hreach.mem)
    · exact declares_visitor h
  · rw [imports_ofVisitor hlink hvisitor, List.mem_map] at hp
    obtain ⟨⟨f, n⟩, hm, rfl⟩ := hp
    obtain ⟨hf, hn⟩ := Family.mem_members_iff.mp hm
    exact declares_node h ((Grammar.mem_order_iff hlink).mpr hf) hn
  · simp [imports_ofModule henclosing] at hp

/-! ## Paths -/

theorem paths_of_all (h : all l dress = .ok drafts) :
    drafts.map (·.path) =
      ((l.order.map (·.moduleName)) ++ ["visitor", "mod"]).map (· ++ ".rs") := by
  obtain ⟨families, visitor, enclosing, hfamilies, hvisitor, henclosing, rfl⟩ :=
    exists_of_all_eq_ok h
  have hpaths : families.map (·.path) = l.order.map fileName :=
    map_eq_map_of_forall₂ hfamilies fun _ _ _ hfd => path_of_ofFamily_eq_ok hfd
  obtain ⟨-, -, -, -, -, hvisitorPath, -⟩ := exists_of_ofVisitor_eq_ok hvisitor
  obtain ⟨-, -, -, -, hmodulePath, -⟩ := exists_of_ofModule_eq_ok henclosing
  simp [hpaths, hvisitorPath, hmodulePath, Function.comp_def, fileName]

theorem homes_nodup (hlink : g.link = .ok l) :
    (l.order.map (·.moduleName) ++ ["visitor", "mod"]).Nodup := by
  have hvalid := (Grammar.link_eq_ok_iff_stages.mp hlink).1
  have hmodules : (l.order.map (·.moduleName)).Nodup :=
    ((Grammar.order_perm_of_link hlink).map _).nodup_iff.mpr
      (Grammar.modules_nodup_of_validate hvalid)
  rw [List.nodup_append]
  refine ⟨hmodules, by decide, ?_⟩
  rintro home hhome reserved hreserved rfl
  obtain ⟨f, hf, rfl⟩ := List.mem_map.mp hhome
  have hfree := (Grammar.family_of_validate hvalid ((Grammar.mem_order_iff hlink).mp hf)).2.1
  apply hfree
  simpa [reservedModules, or_comm] using hreserved

theorem paths_nodup_of_all (hlink : g.link = .ok l) (h : all l dress = .ok drafts) :
    (drafts.map (·.path)).Nodup := by
  rw [paths_of_all h]
  exact (homes_nodup hlink).map fun _ _ => (String.append_left_inj ".rs").mp

/-- A file belongs to one family at most. -/
theorem eq_of_moduleName_eq
    (hlink : g.link = .ok l) {e f : Family} (he : e ∈ l.order) (hf : f ∈ l.order)
    (hmodule : e.moduleName = f.moduleName) : e = f :=
  List.inj_on_of_nodup_map (List.nodup_append.mp (homes_nodup hlink)).1 he hf hmodule

/-! ## Imports between family files -/

theorem reaches_of_importsFrom
    (hlink : g.link = .ok l) {d e : Draft} (h : d.ImportsFrom Item.imports e)
    {f f' : Family} (hfd : ofFamily l dress f = .ok d) (hf' : f' ∈ l.order)
    (hfe : ofFamily l dress f' = .ok e) : g.Reaches f f' := by
  obtain ⟨-, -, p, hp, hpath⟩ := h
  have hmodule : f'.moduleName = p.1 := by
    rw [path_of_ofFamily_eq_ok hfe, fileName] at hpath
    exact (String.append_left_inj ".rs").mp hpath
  rw [imports_ofFamily hlink hfd, List.mem_append, List.mem_map, List.mem_singleton] at hp
  rcases hp with ⟨c, hc, rfl⟩ | rfl
  · have hreach := (Linked.mem_dependencies_iff (Grammar.namesDistinct_of_link hlink)).mp hc
    have hc' := (Grammar.mem_order_iff hlink).mpr hreach.mem
    rwa [eq_of_moduleName_eq hlink hf' hc' hmodule]
  · have hapart := (List.nodup_append.mp (homes_nodup hlink)).2.2
    exact absurd hmodule (hapart _ (List.mem_map_of_mem hf') "visitor" (by simp))

/-- A file that is imported through others belongs to a family that is reached. -/
theorem exists_reaches_of_transGen
    (hlink : g.link = .ok l) (h : all l dress = .ok drafts) {d e : Draft}
    (hpath : Relation.TransGen (Imports Item.imports drafts) d e) {f : Family}
    (hfd : ofFamily l dress f = .ok d) :
    ∃ f' ∈ l.order, ofFamily l dress f' = .ok e ∧ g.Reaches f f' := by
  -- Every file on the way is a family file, and one import is one stretch of dependencies.
  induction hpath with
  | single hstep =>
      obtain ⟨-, he, hfrom⟩ := hstep
      obtain ⟨f', hf', hfe⟩ := exists_family_of_enumNames h he hfrom.2.1
      exact ⟨f', hf', hfe, reaches_of_importsFrom hlink hfrom hfd hf' hfe⟩
  | tail _ hstep ih =>
      obtain ⟨c, hc, hcd, hreach⟩ := ih
      obtain ⟨-, he, hfrom⟩ := hstep
      obtain ⟨f', hf', hfe⟩ := exists_family_of_enumNames h he hfrom.2.1
      exact ⟨f', hf', hfe, hreach.trans (reaches_of_importsFrom hlink hfrom hcd hf' hfe)⟩

theorem not_transGen_imports_self
    (hlink : g.link = .ok l) (h : all l dress = .ok drafts) (d : Draft) :
    ¬Relation.TransGen (Imports Item.imports drafts) d d := by
  intro hcycle
  obtain ⟨e, ⟨hd, -, henum, -⟩, -⟩ := Relation.TransGen.head'_iff.mp hcycle
  obtain ⟨f, hf, hfd⟩ := exists_family_of_enumNames h hd henum
  obtain ⟨f', hf', hfd', hreach⟩ := exists_reaches_of_transGen hlink h hcycle hfd
  -- Both families are written to the one file, so they are the same.
  have hmodule : f'.moduleName = f.moduleName := by
    have hpath := (path_of_ofFamily_eq_ok hfd').symm.trans (path_of_ofFamily_eq_ok hfd)
    exact (String.append_left_inj ".rs").mp hpath
  rw [eq_of_moduleName_eq hlink hf' hf hmodule] at hreach
  exact Grammar.acyclic_of_link hlink f ((Grammar.mem_order_iff hlink).mp hf) hreach

/-! ## All references -/

/-- A family that a file mentions is its own one or imported. -/
theorem enumNames_or_imported
    (hlink : g.link = .ok l) (h : all l dress = .ok drafts) {d : Draft} (hd : d ∈ drafts)
    {item : Item} (hitem : item ∈ d.items) {m : Mention} (hm : m ∈ item.families) :
    d.items.flatMap Item.enumNames = [m.name] ∨
      ∃ p ∈ d.items.flatMap Item.imports, p.2 = m.name ∧
        ∃ e ∈ drafts, e.path = p.1 ++ ".rs" ∧ e.items.flatMap Item.enumNames = [m.name] := by
  obtain ⟨f, hf, hfd⟩ := exists_family_of_mem_families h hd hitem hm
  obtain ⟨e, hsource, rfl⟩ := exists_of_mem_families_ofFamily hfd hitem hm
  have hneeds : g.Needs f e := by
    rcases hsource with rfl | ⟨he, hmentions⟩
    · exact .refl
    · rw [Grammar.grammar_of_link hlink] at he
      have hdeclared := ((Grammar.exists_link_eq_ok_iff g).mp ⟨l, hlink⟩).2.2.2
      exact hdeclared f ((Grammar.mem_order_iff hlink).mp hf) e he hmentions
  have he : e ∈ l.order := by
    rw [Grammar.mem_order_iff hlink] at hf ⊢
    exact hneeds.mem hf
  -- What linking allows a field to mention is what the imports of the file are made from.
  rcases Relation.reflTransGen_iff_eq_or_transGen.mp hneeds with rfl | hreach
  · exact Or.inl (enumNames_ofFamily hfd)
  · right
    have hdependency :=
      (Linked.mem_dependencies_iff (Grammar.namesDistinct_of_link hlink)).mpr hreach
    obtain ⟨b, hb, heb⟩ := exists_draft_of_mem_order h he
    refine ⟨(e.moduleName, e.name), ?_, rfl, b, hb, path_of_ofFamily_eq_ok heb,
      enumNames_ofFamily heb⟩
    rw [imports_ofFamily hlink hfd]
    exact List.mem_append_left _ (List.mem_map.mpr ⟨e, hdependency, rfl⟩)

theorem isLink_eq_false_of_mem_baseItems
    {f : Family} {items : List Item} (h : baseItems l dress f = .ok items) :
    ∀ item ∈ items, item.isLink = false := by
  obtain ⟨doc, variants, -, rfl⟩ := exists_of_baseItems_eq_ok h
  rw [List.forall_mem_cons, List.forall_mem_singleton]
  exact ⟨rfl, rfl⟩

theorem isLink_eq_false_of_mem_nodeItems
    {f : Family} {n : Node} {items : List Item} (h : nodeItems l dress f n = .ok items) :
    ∀ item ∈ items, item.isLink = false := by
  obtain ⟨label, slots, -, -, rfl⟩ := exists_of_nodeItems_eq_ok h
  rw [List.forall_mem_cons, List.forall_mem_cons, List.forall_mem_singleton]
  exact ⟨rfl, rfl, rfl⟩

theorem isLink_of_mem_ofModule
    {d : Draft} (h : ofModule l = .ok d) : ∀ item ∈ d.items, item.isLink = true := by
  obtain ⟨modules, reexports, hmodules, hreexports, -, hitems⟩ := exists_of_ofModule_eq_ok h
  intro item hitem
  simp only [hitems, List.mem_append, List.mem_singleton] at hitem
  rcases hitem with ((hitem | rfl) | hitem) | rfl
  · obtain ⟨f, -, home, -, rfl⟩ := exists_source_of_mem hmodules hitem
    rfl
  · rfl
  · obtain ⟨f, -, home, -, rfl⟩ := exists_source_of_mem hreexports hitem
    rfl
  · rfl

theorem pairwise_isLink_append
    {links rest : List Item} (hlinks : ∀ item ∈ links, item.isLink = true)
    (hrest : ∀ item ∈ rest, item.isLink = false) :
    (links ++ rest).Pairwise fun a b => b.isLink = true → a.isLink = true := by
  rw [List.pairwise_append]
  refine ⟨?_, ?_, fun a ha _ _ _ => hlinks a ha⟩
  · exact List.pairwise_of_forall_mem_list fun a ha _ _ _ => hlinks a ha
  · apply List.pairwise_of_forall_mem_list
    intro a _ b hb hlink
    simp [hrest b hb] at hlink

/-- Every file has its references to other files first. -/
theorem pairwise_isLink_of_mem
    (h : all l dress = .ok drafts) {d : Draft} (hd : d ∈ drafts) :
    d.items.Pairwise fun a b => b.isLink = true → a.isLink = true := by
  rcases source_of_mem_all h hd with ⟨f, -, hfd⟩ | hvisitor | henclosing
  · obtain ⟨links, base, nodes, hlinks, hbase, hnodes, hitems⟩ :=
      exists_links_of_ofFamily_eq_ok hfd
    rw [hitems]
    apply pairwise_isLink_append hlinks
    intro item hitem
    rcases List.mem_append.mp hitem with hitem | hitem
    · exact isLink_eq_false_of_mem_baseItems hbase item hitem
    · obtain ⟨items, hmem, hitem⟩ := List.mem_flatten.mp hitem
      obtain ⟨n, -, hn⟩ := exists_source_of_mem hnodes hmem
      exact isLink_eq_false_of_mem_nodeItems hn item hitem
  · obtain ⟨imports, methods, doc, himports, -, -, hitems⟩ := exists_of_ofVisitor_eq_ok hvisitor
    rw [hitems]
    apply pairwise_isLink_append
    · intro item hitem
      rcases List.mem_append.mp hitem with hitem | hitem
      · obtain ⟨f, -, hf⟩ := exists_source_of_mem himports hitem
        exact isLink_of_nodesImport_eq_ok hf
      · obtain ⟨tree, -, rfl⟩ := List.mem_map.mp hitem
        rfl
    · rw [List.forall_mem_singleton]
      rfl
  · have hlinks := isLink_of_mem_ofModule henclosing
    exact List.pairwise_of_forall_mem_list fun a ha _ _ _ => hlinks a ha

theorem resolved_of_all
    (hlink : g.link = .ok l) (h : all l dress = .ok drafts) :
    Resolved Item.imports drafts where
  imports := fun d hd p hp => declares_of_mem_imports hlink h hd hp
  enclosing := by
    have hpaths := paths_of_all h
    obtain ⟨families, visitor, enclosing, -, -, henclosing, rfl⟩ := exists_of_all_eq_ok h
    obtain ⟨-, -, -, -, hroot, -⟩ := exists_of_ofModule_eq_ok henclosing
    refine ⟨families ++ [visitor], enclosing, by simp, hroot, ?_, ?_⟩
    · rw [modules_ofModule hlink henclosing]
      have hsplit : (families ++ [visitor]).map (·.path) ++ [enclosing.path] =
          (l.order.map (·.moduleName) ++ ["visitor"]).map (· ++ ".rs") ++ ["mod.rs"] := by
        simpa using hpaths
      exact (List.append_inj' hsplit rfl).1.symm
    · intro p hp
      rw [reexports_ofModule hlink henclosing, List.mem_append, List.mem_map,
        List.mem_singleton] at hp
      rcases hp with ⟨f, hf, rfl⟩ | rfl
      · exact declares_family h hf
      · exact declares_visitor h
  paths := paths_nodup_of_all hlink h
  families := fun d hd item hitem m hm => enumNames_or_imported hlink h hd hitem hm
  first := fun d hd => pairwise_isLink_of_mem h hd
  acyclic := not_transGen_imports_self hlink h

/-- What the grammar asks for adds no import from a sibling module. -/
theorem allImports_eq_imports
    (hdress : Dress.ofOptions g.options = .ok dress) (h : all l dress = .ok drafts)
    (huses : ∀ s ∈ g.options.uses, ∀ tree ∈ Code.UseTree.parse? s, tree.siblings = [])
    {d : Draft} (hd : d ∈ drafts) {item : Item} (hitem : item ∈ d.items) :
    item.allImports = item.imports := by
  cases holds_of_mem_all h hd item hitem with
  | userImport htree =>
      obtain ⟨s, hs, hparse⟩ := Dress.exists_of_mem_uses hdress htree
      exact huses s hs _ hparse
  | _ => rfl

end Files

end Draft

/-- In the files of a rendered grammar all references between files are resolved, and the
imports have no cycle.  This holds of the imports that every grammar has, and of all imports
as long as the grammar does not ask for one from a sibling module. -/
theorem render_references_resolved
    {g : Grammar} {files : List SourceFile} (h : g.render = .ok files) :
    ∃ drafts, g.drafts = .ok drafts ∧ files = drafts.map (fun d => ⟨d.path, d.write⟩) ∧
      Draft.Resolved Item.imports drafts ∧
      ((∀ s ∈ g.options.uses, ∀ tree ∈ Code.UseTree.parse? s, tree.siblings = []) →
        Draft.Resolved Item.allImports drafts) := by
  obtain ⟨drafts, hdrafts, hfiles⟩ := Grammar.exists_of_render_eq_ok h
  obtain ⟨l, dress, hlink, hdress, hall⟩ := Grammar.exists_of_drafts_eq_ok hdrafts
  have hresolved := Draft.resolved_of_all hlink hall
  refine ⟨drafts, hdrafts, hfiles, hresolved, ?_⟩
  intro huses
  exact hresolved.congr fun d hd item hitem =>
    Draft.allImports_eq_imports hdress hall huses hd hitem

/-- A chain of families that is declared from its end, with a module that is a reserved
word, and an import from another place. -/
def reservedModuleChain : Grammar :=
  { name := "Chain"
    families := [
      ⟨"Stmt", [⟨"Run", [⟨⟨"Vec", [⟨"Type", []⟩]⟩, "types"⟩]⟩], some "Expr"⟩,
      ⟨"Expr", [⟨"Cast", [⟨⟨"Expr", []⟩, "value"⟩, ⟨⟨"Type", []⟩, "target"⟩]⟩], some "Type"⟩,
      ⟨"Type", [⟨"Unit", []⟩], none⟩]
    options := { result := "Value", uses := ["std::rc::Rc"] } }

theorem render_references_resolved_reservedModuleChain :
    ∃ drafts, reservedModuleChain.drafts = .ok drafts ∧
      Draft.Resolved Item.imports drafts ∧ Draft.Resolved Item.allImports drafts ∧
      ∃ d ∈ drafts, d.path = "stmt.rs" ∧ d.items.flatMap Item.allImports =
        [("type", "Type"), ("expr", "Expr"), ("visitor", "Visitor")] := by
  have huses : ∀ s ∈ reservedModuleChain.options.uses, ∀ tree ∈ Code.UseTree.parse? s,
      tree.siblings = [] := by
    decide +kernel
  have himports : ∃ drafts, reservedModuleChain.drafts = .ok drafts ∧
      ∃ d ∈ drafts, d.path = "stmt.rs" ∧ d.items.flatMap Item.allImports =
        [("type", "Type"), ("expr", "Expr"), ("visitor", "Visitor")] :=
    Grammar.exists_drafts_of_any (by decide +kernel)
  obtain ⟨drafts, hdrafts, hstmt⟩ := himports
  obtain ⟨_, hdrafts', -, hresolved, hall⟩ :=
    render_references_resolved (Grammar.render_eq_ok_of_drafts hdrafts)
  obtain rfl := Except.ok.inj (hdrafts.symm.trans hdrafts')
  exact ⟨drafts, hdrafts, hresolved, hall huses, hstmt⟩

/-! ## Code that refers to sibling modules -/

/-- A grammar that asks for an import from a file that is not there. -/
def danglingUse : Grammar :=
  { name := "Uses"
    families := [⟨"Expr", [⟨"Nil", [⟨⟨"u8", []⟩, "width"⟩]⟩], none⟩]
    options := { result := "Value", uses := ["super::missing::Thing"] } }

/-- A grammar that asks for an import against the direction of dependencies. -/
def cyclicUse : Grammar :=
  { name := "Loop"
    families := [⟨"Expr", [⟨"Nil", [⟨⟨"u8", []⟩, "width"⟩]⟩], none⟩,
      ⟨"Stmt", [⟨"Run", [⟨⟨"Expr", []⟩, "value"⟩]⟩], some "Expr"⟩]
    options := { result := "Value", uses := ["super::stmt::Stmt"] } }

/-- A grammar with a family that another one names in an alias without depending on it. -/
def aliasedFamily : Grammar :=
  { name := "Alias"
    families := [⟨"Expr", [⟨"Nil", [⟨⟨"u8", []⟩, "width"⟩]⟩], none⟩,
      ⟨"Stmt", [⟨"Run", [⟨⟨"Node", []⟩, "body"⟩]⟩], none⟩]
    options := { result := "Value", aliases := [("Node", "Expr")] } }

/-- The code which a grammar brings along may refer to files on its own: an import that it
asks for may lead nowhere or close a cycle, and a family that is named in an alias is not
imported. -/
theorem references_unresolved_of_code :
    (∃ drafts, danglingUse.drafts = .ok drafts ∧
      ∃ d ∈ drafts, ("missing", "Thing") ∈ d.items.flatMap Item.allImports ∧
        ¬Draft.Declares drafts "missing" "Thing") ∧
    (∃ drafts, cyclicUse.drafts = .ok drafts ∧
      ∃ d ∈ drafts, d.path = "expr.rs" ∧
        Relation.TransGen (Draft.Imports Item.allImports drafts) d d) ∧
    (∃ drafts, aliasedFamily.drafts = .ok drafts ∧ aliasedFamily.isFamily "Expr" = true ∧
      ∃ d ∈ drafts, (∃ item ∈ d.items, "Expr" ∈ item.slotWords) ∧
        "Expr" ∉ d.items.flatMap Item.enumNames ∧
        "Expr" ∉ (d.items.flatMap Item.allImports).map (·.2)) := by
  refine ⟨?_, ?_, ?_⟩
  · exact Grammar.exists_drafts_of_any (by decide +kernel)
  · have hcycle : ∃ drafts, cyclicUse.drafts = .ok drafts ∧
        ∃ d ∈ drafts, ∃ e ∈ drafts, d.path = "expr.rs" ∧
          d.ImportsFrom Item.allImports e ∧ e.ImportsFrom Item.allImports d :=
      Grammar.exists_drafts_of_any (by decide +kernel)
    obtain ⟨drafts, hdrafts, d, hd, e, he, hpath, hforth, hback⟩ := hcycle
    exact ⟨drafts, hdrafts, d, hd, hpath,
      (Relation.TransGen.single ⟨hd, he, hforth⟩).tail ⟨he, hd, hback⟩⟩
  · exact Grammar.exists_drafts_of_any (by decide +kernel)

end Treewright
