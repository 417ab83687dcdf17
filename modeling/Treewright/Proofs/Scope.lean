import Treewright.Proofs.References

/-!
# Names in the scope of a file

A written file brings names into its scope: modules that it declares, types that it
imports or makes public, and types that it declares itself.  The names come from different
parts of the grammar.  Validation tells modules, families and visitor methods apart, each
kind on its own, and this settles most pairs of names.  Three kinds of pairs are left, one
for each kind of file:

* in a family file a node may be written under the name of a family which is imported,
  or under the name of the visitor trait;
* in the visitor file a node may be written under the name of the trait;
* in the enclosing module a family may have the name of its own module.

For each file the names are distinct exactly if no such pair coincides.  The name of the
trait needs no condition of its own, because only a family without capitals can complete
it.
-/

namespace Treewright

/-- The names that an item brings into the scope of its file.  What the grammar asks to bring
into scope is left out. -/
def Item.introduced : Item → List String
  | moduleDecl home => [home.name]
  | siblingImport _ names => names
  | reexport _ name => [name]
  | item => item.declared?.toList

/-- No file brings a name into its scope twice. -/
def ScopesDistinct (drafts : List Draft) : Prop :=
  ∀ d ∈ drafts, (d.items.flatMap Item.introduced).Nodup

instance (drafts : List Draft) : Decidable (ScopesDistinct drafts) :=
  inferInstanceAs (Decidable (∀ _ ∈ _, _))

/-- The names of the grammar stay apart in every scope. -/
structure Grammar.ScopesApart (g : Grammar) : Prop where
  /-- The name of a family has a capital, so that it is not the name of a module. -/
  capital : ∀ f ∈ g.families, ∃ c ∈ f.name.toList, c.isUpper = true
  /-- No node is written under the name of a family that its own family depends on. -/
  dependency : ∀ f ∈ g.families, ∀ n ∈ f.nodes, ∀ d, g.Reaches f d → f.typeName n ≠ d.name

theorem Family.moduleName_eq_name_iff {f : Family} :
    f.moduleName = f.name ↔ ¬∃ c ∈ f.name.toList, c.isUpper = true := by
  rw [Family.moduleName, Name.snake_eq_self_iff]
  simp

theorem Family.moduleName_ne_visitor (f : Family) : f.moduleName ≠ "Visitor" := by
  intro heq
  have hlower : ∀ c ∈ "Visitor".toList, c.isUpper = false := by
    rw [← heq, ← Name.snake_eq_self_iff, Family.moduleName, Name.snake_snake]
  exact absurd (hlower 'V' (by decide)) (by decide)

/-- A family with a capital in its name has no node that is written as the trait. -/
theorem Family.typeName_ne_visitor
    {f : Family} {n : Node} (hcapital : ∃ c ∈ f.name.toList, c.isUpper = true)
    (hclass : n.className ≠ "") : f.typeName n ≠ "Visitor" := by
  intro heq
  have htext : n.className.toList ++ f.name.toList = ['V', 'i', 's', 'i', 't', 'o', 'r'] := by
    rw [← String.toList_append]
    exact congrArg String.toList heq
  have hlower : ∀ c ∈ ['i', 's', 'i', 't', 'o', 'r'], c.isUpper = false := by
    simp only [List.mem_cons, List.not_mem_nil, or_false]
    rintro c (rfl | rfl | rfl | rfl | rfl | rfl) <;> rfl
  -- The class takes the only capital.
  cases hfirst : n.className.toList with
  | nil => exact hclass (String.toList_eq_nil_iff.mp hfirst)
  | cons c rest =>
      rw [hfirst, List.cons_append, List.cons.injEq] at htext
      obtain ⟨d, hd, hupper⟩ := hcapital
      have hmem : d ∈ rest ++ f.name.toList := List.mem_append_right rest hd
      rw [htext.2] at hmem
      simp [hlower d hmem] at hupper

namespace Draft

section Scope

variable {g : Grammar} {l : Linked} {dress : Dress} {drafts : List Draft}

/-! ## What each file brings into scope -/

theorem introduced_ofFamily
    (hlink : g.link = .ok l) {f : Family} {d : Draft} (h : ofFamily l dress f = .ok d) :
    d.items.flatMap Item.introduced =
      ((Linked.dependencies g f).map (·.name) ++ ["Visitor", f.name]) ++
        f.nodes.map f.typeName := by
  have himport : ∀ e ∈ Linked.dependencies l.grammar f, ∀ item,
      dependencyImport e = .ok item → item.introduced = [e.name] := by
    intro e _ item hitem
    obtain ⟨home, -, rfl⟩ := exists_of_dependencyImport_eq_ok hitem
    rfl
  have hbase : (∀ n ∈ f.nodes, Code.isWord (f.typeName n) = true) → ∀ items,
      baseItems l dress f = .ok items → items.flatMap Item.introduced = [f.name] := by
    intro _ items hitems
    obtain ⟨doc, variants, -, rfl⟩ := exists_of_baseItems_eq_ok hitems
    rfl
  have hnode : ∀ n items, nodeItems l dress f n = .ok items →
      items.flatMap Item.introduced = [f.typeName n] := by
    intro n items hitems
    obtain ⟨label, slots, -, -, rfl⟩ := exists_of_nodeItems_eq_ok hitems
    rfl
  rw [flatMap_ofFamily (fun _ => rfl) h himport hbase hnode, Grammar.grammar_of_link hlink,
    ← List.map_eq_flatMap, ← List.map_eq_flatMap]
  simp [Item.introduced]

theorem introduced_ofVisitor
    (hlink : g.link = .ok l) {d : Draft} (h : ofVisitor l dress = .ok d) :
    d.items.flatMap Item.introduced =
      ((Family.members g.families).map fun m => m.1.typeName m.2) ++ ["Visitor"] := by
  have himport : ∀ f ∈ l.grammar.families, ∀ item, nodesImport f = .ok item →
      item.introduced = f.nodes.map f.typeName := by
    intro f _ item hitem
    obtain ⟨home, -, rfl⟩ := exists_of_nodesImport_eq_ok hitem
    rfl
  obtain ⟨doc, methods, -, hshown⟩ := flatMap_ofVisitor (fun _ => rfl) h himport
  rw [hshown, Grammar.grammar_of_link hlink, Family.members, List.map_flatMap]
  simp only [List.map_map]
  rfl

theorem introduced_ofModule
    (hlink : g.link = .ok l) {d : Draft} (h : ofModule l = .ok d) :
    d.items.flatMap Item.introduced =
      (l.order.map (·.moduleName) ++ ["visitor"]) ++ (l.order.map (·.name) ++ ["Visitor"]) := by
  have hhome : ∀ f ∈ l.order, ∀ home, Code.Word.spell f.moduleName = .ok home →
      (Item.moduleDecl home).introduced = [f.moduleName] := by
    intro f hf home hspell
    rw [Grammar.mem_order_iff hlink] at hf
    rw [Item.introduced, name_of_spell_moduleName hlink hf hspell]
  have hreexport : ∀ f ∈ l.order, ∀ home, Code.Word.spell f.moduleName = .ok home →
      (Item.reexport home f.name).introduced = [f.name] := fun _ _ _ _ => rfl
  rw [flatMap_ofModule h hhome hreexport, ← List.map_eq_flatMap, ← List.map_eq_flatMap]
  simp [Item.introduced]

/-! ## When the names of a file are distinct -/

/-- No family has a name that leads to a module which every grammar has. -/
theorem snake_name_ne
    (hlink : g.link = .ok l) {f : Family} (hf : f ∈ g.families) {name : String}
    (hname : Name.snake name ∈ reservedModules) : f.name ≠ name := by
  rintro rfl
  have hvalid := (Grammar.link_eq_ok_iff_stages.mp hlink).1
  exact (Grammar.family_of_validate hvalid hf).2.1 hname

theorem className_ne_empty
    (h : all l dress = .ok drafts) {f : Family} (hf : f ∈ l.order) {n : Node}
    (hn : n ∈ f.nodes) : n.className ≠ "" := by
  obtain ⟨d, -, hfd⟩ := exists_draft_of_mem_order h hf
  obtain ⟨-, -, nodes, -, -, hnodes, -⟩ := exists_of_ofFamily_eq_ok hfd
  obtain ⟨items, -, hitems⟩ := exists_built_of_mem hnodes hn
  obtain ⟨label, slots, hlabel, -⟩ := exists_of_nodeItems_eq_ok hitems
  exact Code.Word.ne_empty_of_spell_eq_ok hlabel

/-- Imported families, the imported trait and the family of a file have different names. -/
theorem heads_nodup
    (hlink : g.link = .ok l) {f : Family} (hf : f ∈ g.families) :
    ((Linked.dependencies g f).map (·.name) ++ ["Visitor", f.name]).Nodup := by
  have hg := Grammar.namesDistinct_of_link hlink
  have hvisitor : ∀ e ∈ g.families, e.name ≠ "Visitor" := fun e he =>
    snake_name_ne hlink he (by decide)
  rw [List.nodup_append]
  refine ⟨Linked.names_reachedFrom_nodup _ _, by simpa using (hvisitor f hf).symm, ?_⟩
  intro a ha b hb heq
  obtain ⟨e, he, rfl⟩ := List.mem_map.mp ha
  have hreach := (Linked.mem_dependencies_iff hg).mp he
  simp only [List.mem_cons, List.not_mem_nil, or_false] at hb
  rcases hb with rfl | rfl
  · exact hvisitor e (Grammar.Reaches.mem hreach) heq
  · rw [hg.eq (Grammar.Reaches.mem hreach) hf heq] at hreach
    exact Grammar.acyclic_of_link hlink f hf hreach

theorem introduced_ofFamily_nodup_iff
    (hlink : g.link = .ok l) (hall : all l dress = .ok drafts) {f : Family} (hf : f ∈ l.order)
    {d : Draft} (h : ofFamily l dress f = .ok d) :
    (d.items.flatMap Item.introduced).Nodup ↔
      ∀ n ∈ f.nodes, f.typeName n ≠ "Visitor" ∧
        ∀ e, g.Reaches f e → f.typeName n ≠ e.name := by
  have hg := Grammar.namesDistinct_of_link hlink
  have hvalid := (Grammar.link_eq_ok_iff_stages.mp hlink).1
  have hf' := (Grammar.mem_order_iff hlink).mp hf
  rw [introduced_ofFamily hlink h, List.nodup_append]
  constructor
  · rintro ⟨-, -, hapart⟩ n hn
    have htype : f.typeName n ∈ f.nodes.map f.typeName := List.mem_map_of_mem hn
    constructor
    · intro heq
      exact hapart "Visitor" (by simp) _ htype heq.symm
    · intro e hreach heq
      have he := List.mem_map_of_mem (f := (·.name)) ((Linked.mem_dependencies_iff hg).mpr hreach)
      exact hapart e.name (List.mem_append_left _ he) _ htype heq.symm
  · intro hfree
    refine ⟨heads_nodup hlink hf', Grammar.typeNames_nodup_of_mem hvalid hf', ?_⟩
    intro a ha b hb heq
    obtain ⟨n, hn, rfl⟩ := List.mem_map.mp hb
    simp only [List.mem_append, List.mem_map, List.mem_cons, List.not_mem_nil, or_false] at ha
    rcases ha with ⟨e, he, rfl⟩ | rfl | rfl
    · exact (hfree n hn).2 e ((Linked.mem_dependencies_iff hg).mp he) heq.symm
    · exact (hfree n hn).1 heq.symm
    · -- The class in front of the name of the family is not empty.
      have hself : n.className ++ f.name = "" ++ f.name := by
        rw [String.empty_append]
        exact heq.symm
      exact className_ne_empty hall hf hn ((String.append_left_inj f.name).mp hself)

theorem introduced_ofVisitor_nodup_iff
    (hlink : g.link = .ok l) {d : Draft} (h : ofVisitor l dress = .ok d) :
    (d.items.flatMap Item.introduced).Nodup ↔
      ∀ f ∈ g.families, ∀ n ∈ f.nodes, f.typeName n ≠ "Visitor" := by
  have hvalid := (Grammar.link_eq_ok_iff_stages.mp hlink).1
  rw [introduced_ofVisitor hlink h, List.nodup_append]
  constructor
  · rintro ⟨-, -, hapart⟩ f hf n hn
    have hmem := Family.mem_members_iff.mpr ⟨hf, hn⟩
    exact hapart _ (List.mem_map.mpr ⟨(f, n), hmem, rfl⟩) "Visitor" (List.mem_singleton_self _)
  · intro hfree
    refine ⟨Grammar.typeNames_nodup_of_validate hvalid, List.nodup_singleton _, ?_⟩
    intro a ha b hb heq
    obtain ⟨⟨f, n⟩, hmem, rfl⟩ := List.mem_map.mp ha
    obtain ⟨hf, hn⟩ := Family.mem_members_iff.mp hmem
    exact hfree f hf n hn (heq.trans (List.mem_singleton.mp hb))

/-- Families are told apart by their names, and no name is that of the trait. -/
theorem names_nodup (hlink : g.link = .ok l) :
    (l.order.map (·.name) ++ ["Visitor"]).Nodup := by
  have hnodup : (l.order.map (·.name)).Nodup :=
    ((Grammar.order_perm_of_link hlink).map _).nodup_iff.mpr
      (Grammar.namesDistinct_of_link hlink)
  rw [List.nodup_append]
  refine ⟨hnodup, List.nodup_singleton _, ?_⟩
  intro a ha b hb heq
  obtain ⟨f, hf, rfl⟩ := List.mem_map.mp ha
  rw [List.mem_singleton.mp hb] at heq
  exact snake_name_ne hlink ((Grammar.mem_order_iff hlink).mp hf) (by decide) heq

/-- A family that is named like a module is in snake case, so the module is its own. -/
theorem eq_of_moduleName_eq_name
    (hlink : g.link = .ok l) {e f : Family} (he : e ∈ l.order) (hf : f ∈ l.order)
    (hname : f.moduleName = e.name) : e = f := by
  apply eq_of_moduleName_eq hlink he hf
  rw [Family.moduleName, ← hname, Family.moduleName, Name.snake_snake]

theorem introduced_ofModule_nodup_iff
    (hlink : g.link = .ok l) {d : Draft} (h : ofModule l = .ok d) :
    (d.items.flatMap Item.introduced).Nodup ↔ ∀ f ∈ g.families, f.moduleName ≠ f.name := by
  have hmem : ∀ {f : Family}, f ∈ l.order ↔ f ∈ g.families := Grammar.mem_order_iff hlink
  have hmodules : (l.order.map (·.moduleName) ++ ["visitor"]).Nodup := by
    refine List.Nodup.sublist ?_ (homes_nodup hlink)
    exact (List.Sublist.refl _).append (by decide)
  rw [introduced_ofModule hlink h, List.nodup_append]
  constructor
  · rintro ⟨-, -, hapart⟩ f hf
    have hf' := hmem.mpr hf
    exact hapart _ (List.mem_append_left _ (List.mem_map_of_mem hf')) _
      (List.mem_append_left _ (List.mem_map_of_mem hf'))
  · intro hfree
    refine ⟨hmodules, names_nodup hlink, ?_⟩
    intro a ha b hb heq
    simp only [List.mem_append, List.mem_map, List.mem_singleton] at ha hb
    rcases ha with ⟨f, hf, rfl⟩ | rfl
    · rcases hb with ⟨e, he, rfl⟩ | rfl
      · obtain rfl := eq_of_moduleName_eq_name hlink he hf heq
        exact hfree e (hmem.mp he) heq
      · exact f.moduleName_ne_visitor heq
    · rcases hb with ⟨e, he, rfl⟩ | hb
      · exact snake_name_ne hlink (hmem.mp he) (by decide) heq.symm
      · exact absurd (heq.trans hb) (by decide)

/-! ## All scopes -/

theorem scopesDistinct_iff
    (hlink : g.link = .ok l) (h : all l dress = .ok drafts) :
    ScopesDistinct drafts ↔ g.ScopesApart := by
  have hmem : ∀ {f : Family}, f ∈ l.order ↔ f ∈ g.families := Grammar.mem_order_iff hlink
  constructor
  · intro hdistinct
    constructor
    · intro f hf
      obtain ⟨families, visitor, enclosing, -, -, henclosing, rfl⟩ := exists_of_all_eq_ok h
      have hscope := hdistinct enclosing (by simp)
      have hname := (introduced_ofModule_nodup_iff hlink henclosing).mp hscope f hf
      by_contra hcapital
      exact hname (Family.moduleName_eq_name_iff.mpr hcapital)
    · intro f hf n hn
      obtain ⟨d, hd, hfd⟩ := exists_draft_of_mem_order h (hmem.mpr hf)
      have hscope := hdistinct d hd
      exact ((introduced_ofFamily_nodup_iff hlink h (hmem.mpr hf) hfd).mp hscope n hn).2
  · intro hapart
    have hvisitorName : ∀ f ∈ g.families, ∀ n ∈ f.nodes, f.typeName n ≠ "Visitor" :=
      fun f hf n hn => Family.typeName_ne_visitor (hapart.capital f hf)
        (className_ne_empty h (hmem.mpr hf) hn)
    intro d hd
    rcases source_of_mem_all h hd with ⟨f, hf, hfd⟩ | hvisitor | henclosing
    · rw [introduced_ofFamily_nodup_iff hlink h hf hfd]
      have hf' := hmem.mp hf
      exact fun n hn => ⟨hvisitorName f hf' n hn, hapart.dependency f hf' n hn⟩
    · rw [introduced_ofVisitor_nodup_iff hlink hvisitor]
      exact hvisitorName
    · rw [introduced_ofModule_nodup_iff hlink henclosing]
      intro f hf hname
      exact Family.moduleName_eq_name_iff.mp hname (hapart.capital f hf)

end Scope

end Draft

/-- In the files of a rendered grammar no name is brought into a scope twice, exactly if
every family has a capital in its name and no node is written under the name of a family
that its own family depends on. -/
theorem render_scopes_distinct_iff
    {g : Grammar} {files : List SourceFile} (h : g.render = .ok files) :
    ∃ drafts, g.drafts = .ok drafts ∧ files = drafts.map (fun d => ⟨d.path, d.write⟩) ∧
      (ScopesDistinct drafts ↔ g.ScopesApart) := by
  obtain ⟨drafts, hdrafts, hfiles⟩ := Grammar.exists_of_render_eq_ok h
  obtain ⟨l, dress, hlink, -, hall⟩ := Grammar.exists_of_drafts_eq_ok hdrafts
  exact ⟨drafts, hdrafts, hfiles, Draft.scopesDistinct_iff hlink hall⟩

/-- A family whose node has the name of a family that depends on it, but not the other way
round. -/
def dependentName : Grammar :=
  { name := "Scopes"
    families := [⟨"B", [⟨"A", [⟨⟨"u8", []⟩, "width"⟩]⟩], none⟩,
      ⟨"AB", [⟨"Nil", [⟨⟨"B", []⟩, "base"⟩]⟩], some "B"⟩]
    options := { result := "Value" } }

theorem render_scopes_distinct_iff_dependentName :
    ∃ drafts, dependentName.drafts = .ok drafts ∧ dependentName.ScopesApart ∧
      ScopesDistinct drafts := by
  have hscopes : ∃ drafts, dependentName.drafts = .ok drafts ∧ ScopesDistinct drafts :=
    Grammar.exists_drafts_of_any (by decide +kernel)
  obtain ⟨drafts, hdrafts, hdistinct⟩ := hscopes
  obtain ⟨_, hdrafts', -, hiff⟩ :=
    render_scopes_distinct_iff (Grammar.render_eq_ok_of_drafts hdrafts)
  obtain rfl := Except.ok.inj (hdrafts.symm.trans hdrafts')
  exact ⟨drafts, hdrafts, hiff.mp hdistinct, hdistinct⟩

/-- A family that has the name of its own module. -/
def lowercaseFamily : Grammar :=
  { name := "Lower"
    families := [⟨"expr", [⟨"Nil", [⟨⟨"u8", []⟩, "width"⟩]⟩], none⟩]
    options := { result := "Value" } }

/-- A node that is written under the name of the visitor trait. -/
def visitorNode : Grammar :=
  { name := "Trait"
    families := [⟨"tor", [⟨"Visi", [⟨⟨"u8", []⟩, "width"⟩]⟩], none⟩]
    options := { result := "Value" } }

/-- A node that is written under the name of the family which its own one depends on. -/
def dependencyNode : Grammar :=
  { name := "Base"
    families := [⟨"AB", [⟨"Nil", [⟨⟨"u8", []⟩, "width"⟩]⟩], none⟩,
      ⟨"B", [⟨"A", [⟨⟨"u8", []⟩, "width"⟩]⟩], some "AB"⟩]
    options := { result := "Value" } }

/-- Grammars are written with the same name twice in one scope, in each kind of file. -/
theorem scopes_collide :
    (∃ drafts, lowercaseFamily.drafts = .ok drafts ∧ ∃ d ∈ drafts, d.path = "mod.rs" ∧
      ¬(d.items.flatMap Item.introduced).Nodup) ∧
    (∃ drafts, visitorNode.drafts = .ok drafts ∧ ∃ d ∈ drafts, d.path = "visitor.rs" ∧
      ¬(d.items.flatMap Item.introduced).Nodup) ∧
    (∃ drafts, dependencyNode.drafts = .ok drafts ∧ ∃ d ∈ drafts, d.path = "b.rs" ∧
      ¬(d.items.flatMap Item.introduced).Nodup) := by
  refine ⟨?_, ?_, ?_⟩
  · exact Grammar.exists_drafts_of_any (by decide +kernel)
  · exact Grammar.exists_drafts_of_any (by decide +kernel)
  · exact Grammar.exists_drafts_of_any (by decide +kernel)

end Treewright
