import Treewright.Proofs.Chain
import Treewright.Proofs.References

/-!
# What a family file depends on

The file of a family is written from the family and from the families that it needs.  The
generator asks the whole grammar for more than that: which names are families, and which
families borrow.  The answers for the names in a family do not depend on the rest of the
grammar, because linking has checked that every family mentioned in the family is one that
it needs, and so on along the chain.

The first part compares two linked grammars that share what a family needs.  The second
part says which answers of a linked grammar the writing of a family file makes use of.
-/

namespace Treewright

namespace Grammar

variable {g g' : Grammar} {f : Family}

/-- The family belongs to both grammars, and whatever it needs in the first one belongs to
the second one, too. -/
structure Shares (g g' : Grammar) (f : Family) : Prop where
  mem : f ∈ g.families
  needs : ∀ d, g.Needs f d → d ∈ g'.families

namespace Shares

theorem needs_of_needs
    (h : g.Shares g' f) (hexist : g.DependenciesExist) (hg' : g'.NamesDistinct) {d : Family}
    (hneeds : g'.Needs f d) : g.Needs f d := by
  induction hneeds with
  | refl => exact .refl
  | tail _ hstep ih =>
      -- The dependency exists in the first grammar, and the second one has it as well.
      obtain ⟨e, he, hname⟩ := hexist _ (ih.mem h.mem) _ hstep.2
      have hneeds := ih.tail ⟨he, hname.symm ▸ hstep.2⟩
      rwa [hg'.eq hstep.1 (h.needs e hneeds) hname.symm]

theorem symm
    (h : g.Shares g' f) (hexist : g.DependenciesExist) (hg' : g'.NamesDistinct) :
    g'.Shares g f where
  mem := h.needs f .refl
  needs := fun _ hneeds => (h.needs_of_needs hexist hg' hneeds).mem h.mem

theorem of_needs (h : g.Shares g' f) {d : Family} (hneeds : g.Needs f d) : g.Shares g' d where
  mem := hneeds.mem h.mem
  needs := fun _ he => h.needs _ (hneeds.trans he)

theorem of_mentions
    (h : g.Shares g' f) (hdeclared : g.ReferencesDeclared) {d : Family} (hd : d ∈ g.families)
    (hmentions : f.Mentions d.name) : g.Shares g' d :=
  h.of_needs (hdeclared f h.mem d hd hmentions)

theorem isFamily_of_mentions
    (h : g.Shares g' f) (hdeclared : g.ReferencesDeclared) {name : String}
    (hmentions : f.Mentions name) (hname : g.isFamily name = true) : g'.isFamily name = true := by
  obtain ⟨d, hd, rfl⟩ := isFamily_iff.mp hname
  have hshares := h.of_mentions hdeclared hd hmentions
  exact isFamily_iff.mpr ⟨d, hshares.needs d .refl, rfl⟩

end Shares

/-- A chain to a borrowed name does not leave what is shared. -/
theorem BorrowChain.of_shares
    (hdeclared : g.ReferencesDeclared) (hownership : g.ownership = g'.ownership)
    {chain : List Family} (hchain : g.BorrowChain chain) :
    (∀ d ∈ chain.head?, g.Shares g' d) → g'.BorrowChain chain := by
  induction hchain with
  | @last d name _ hname hmentions =>
      intro hshares
      exact .last ((hshares d rfl).needs d .refl) (hownership ▸ hname) hmentions
  | @step d e rest _ hmentions hrest ih =>
      intro hshares
      have hd := hshares d rfl
      refine .step (hd.needs d .refl) hmentions (ih ?_)
      rintro _ ⟨⟩
      exact hd.of_mentions hdeclared hrest.head_mem hmentions

/-- A name that only stands for shared families borrows in the second grammar if it does in
the first one. -/
theorem chainHead_of_shares
    (hdeclared : g.ReferencesDeclared) (hownership : g.ownership = g'.ownership)
    {name : String} (hname : name ∈ g.chainHeads)
    (hshares : ∀ d ∈ g.families, d.name = name → g.Shares g' d) : name ∈ g'.chainHeads := by
  obtain ⟨d, rest, rfl, hchain⟩ := hname
  refine ⟨d, rest, rfl, hchain.of_shares hdeclared hownership ?_⟩
  rintro _ ⟨⟩
  exact hshares d hchain.head_mem rfl

end Grammar

namespace Linked

variable {g g' : Grammar} {l l' : Linked} {f : Family}

/-! ## Equal answers -/

/-- The linked grammars give the same answers to all that is asked of them when the file of
the family is written. -/
structure AgreeOn (l l' : Linked) (f : Family) : Prop where
  name : l.grammar.name = l'.grammar.name
  ownership : l.grammar.ownership = l'.grammar.ownership
  options : l.grammar.options = l'.grammar.options
  dependencies : dependencies l.grammar f = Linked.dependencies l'.grammar f
  isFamily : ∀ name, f.Mentions name → l.grammar.isFamily name = l'.grammar.isFamily name
  borrowing : ∀ name, name = f.name ∨ f.Mentions name →
    (name ∈ l.borrowing ↔ name ∈ l'.borrowing)

theorem mem_borrowing_of_shares
    (hl : g.link = .ok l) (hl' : g'.link = .ok l') (hownership : g.ownership = g'.ownership)
    (h : g.Shares g' f) {name : String} (hname : name = f.name ∨ f.Mentions name)
    (hborrows : name ∈ l.borrowing) : name ∈ l'.borrowing := by
  obtain ⟨hvalid, -, -, hdeclared⟩ := (Grammar.exists_link_eq_ok_iff g).mp ⟨l, hl⟩
  rw [Grammar.borrowing_of_link hl, mem_borrowingFamilies_iff] at hborrows
  rw [Grammar.borrowing_of_link hl', mem_borrowingFamilies_iff]
  apply Grammar.chainHead_of_shares hdeclared hownership hborrows
  rintro d hd rfl
  rcases hname with hname | hmentions
  · rwa [(Grammar.namesDistinct_of_validate hvalid).eq hd h.mem hname]
  · exact h.of_mentions hdeclared hd hmentions

theorem agreeOn_of_shares
    (hl : g.link = .ok l) (hl' : g'.link = .ok l') (hname : g.name = g'.name)
    (hownership : g.ownership = g'.ownership) (hoptions : g.options = g'.options)
    (h : g.Shares g' f) : l.AgreeOn l' f := by
  obtain rfl := Grammar.grammar_of_link hl
  obtain rfl := Grammar.grammar_of_link hl'
  obtain ⟨hvalid, hexist, -, hdeclared⟩ := (Grammar.exists_link_eq_ok_iff _).mp ⟨l, hl⟩
  obtain ⟨hvalid', -, -, hdeclared'⟩ := (Grammar.exists_link_eq_ok_iff _).mp ⟨l', hl'⟩
  have hg := Grammar.namesDistinct_of_validate hvalid
  have hg' := Grammar.namesDistinct_of_validate hvalid'
  have h' := h.symm hexist hg'
  have hchain : l'.grammar.DependencyChain f.dependsOn (dependencies l.grammar f) := by
    apply (dependencyChain_dependencies hl h.mem).of_subset
    intro d hd
    exact h.needs d ((mem_dependencies_iff hg).mp hd).to_reflTransGen
  refine ⟨hname, hownership, hoptions, ?_, fun name hmentions => ?_, fun name hname => ?_⟩
  · exact hchain.unique hg' (dependencyChain_dependencies hl' h'.mem)
  · rw [Bool.eq_iff_iff]
    exact ⟨h.isFamily_of_mentions hdeclared hmentions,
      h'.isFamily_of_mentions hdeclared' hmentions⟩
  · exact ⟨mem_borrowing_of_shares hl hl' hownership h hname,
      mem_borrowing_of_shares hl' hl hownership.symm h' hname⟩

namespace AgreeOn

theorem familyBorrows
    (h : l.AgreeOn l' f) {name : String} (hname : name = f.name ∨ f.Mentions name) :
    l.familyBorrows name = l'.familyBorrows name :=
  decide_eq_decide.mpr (h.borrowing name hname)

theorem familyMention
    (h : l.AgreeOn l' f) {name : String} (hname : name = f.name ∨ f.Mentions name) :
    l.familyMention name = l'.familyMention name := by
  rw [Linked.familyMention, Linked.familyMention, h.familyBorrows hname]

theorem borrows (h : l.AgreeOn l' f) {n : Node} (hn : n ∈ f.nodes) :
    l.borrows n = l'.borrows n := by
  have hborrowing : ∀ name, n.Mentions name → (name ∈ l.borrowing ↔ name ∈ l'.borrowing) :=
    fun name hname => h.borrowing name (Or.inr ⟨n, hn, hname⟩)
  rw [Bool.eq_iff_iff, Linked.borrows, Linked.borrows, nodeBorrows_iff, nodeBorrows_iff,
    h.ownership]
  exact exists_congr fun name => and_congr_right fun hname => or_congr_right (hborrowing name hname)

theorem nodeMention (h : l.AgreeOn l' f) {n : Node} (hn : n ∈ f.nodes) :
    l.nodeMention f n = l'.nodeMention f n := by
  rw [Linked.nodeMention, Linked.nodeMention, h.borrows hn]

/-- A type is written in the same way when the family mentions all names in it. -/
theorem fieldTypeIn
    (h : l.AgreeOn l' f) {t : TypeRef} (ht : ∀ name, t.Mentions name → f.Mentions name)
    (box : Bool) : l.fieldTypeIn box t = l'.fieldTypeIn box t := by
  induction t using TypeRef.induction_args generalizing box with
  | step name args ih =>
      have hname : f.Mentions name := ht name .outermost
      have hargs : ∀ box, l.fieldTypesIn box args = l'.fieldTypesIn box args := by
        intro box
        rw [fieldTypesIn_eq_mapM, fieldTypesIn_eq_mapM]
        exact mapM_congr fun t hmem =>
          ih t hmem (fun inner hinner => ht inner (.inside hmem hinner)) box
      have hpath : l.typePath name = l'.typePath name := by
        rw [Linked.typePath, Linked.typePath, h.options]
      rw [fieldTypeIn.eq_def, fieldTypeIn.eq_def l']
      dsimp only
      rw [h.isFamily name hname, h.familyMention (Or.inr hname), h.options, hargs, hpath,
        h.ownership]

theorem slot
    (h : l.AgreeOn l' f) {n : Node} (hn : n ∈ f.nodes) {field : Field} (hfield : field ∈ n.fields) :
    Draft.slot l field = Draft.slot l' field := by
  have htype : l.fieldType field.type = l'.fieldType field.type :=
    h.fieldTypeIn (fun name hname => ⟨n, hn, field, hfield, hname⟩) true
  rw [Draft.slot, Draft.slot, htype]

theorem constructorOf (h : l.AgreeOn l' f) (slots : List (Field × Slot)) :
    Draft.constructorOf l slots = Draft.constructorOf l' slots := by
  have hparameter : Draft.isParameter l = Draft.isParameter l' := by
    funext field
    rw [Draft.isParameter, Draft.isParameter, h.ownership]
  unfold Draft.constructorOf
  rw [hparameter]

/-! ## Equal files -/

theorem baseItems (h : l.AgreeOn l' f) (dress : Dress) :
    Draft.baseItems l dress f = Draft.baseItems l' dress f := by
  unfold Draft.baseItems
  rw [h.familyBorrows (Or.inl rfl), h.familyMention (Or.inl rfl)]
  congr 1
  funext name
  congr 1
  exact mapM_congr fun n hn => by rw [h.nodeMention hn]

theorem nodeItems (h : l.AgreeOn l' f) (dress : Dress) {n : Node} (hn : n ∈ f.nodes) :
    Draft.nodeItems l dress f n = Draft.nodeItems l' dress f n := by
  have hslots : (n.fields.mapM fun field => do .ok (field, ← Draft.slot l field)) =
      (n.fields.mapM fun field => do .ok (field, ← Draft.slot l' field)) :=
    mapM_congr fun field hfield => by rw [h.slot hn hfield]
  unfold Draft.nodeItems
  rw [h.borrows hn, h.nodeMention hn, h.familyBorrows (Or.inl rfl), h.familyMention (Or.inl rfl),
    hslots, funext h.constructorOf]

/-- The file of a family is the same for linked grammars that agree on it. -/
theorem ofFamily (h : l.AgreeOn l' f) (dress : Dress) :
    Draft.ofFamily l dress f = Draft.ofFamily l' dress f := by
  have hnodes : f.nodes.mapM (Draft.nodeItems l dress f) =
      f.nodes.mapM (Draft.nodeItems l' dress f) :=
    mapM_congr fun _ hn => h.nodeItems dress hn
  rw [Draft.ofFamily, Draft.ofFamily, h.dependencies, h.baseItems, hnodes, h.name]

end AgreeOn

end Linked

/-! ## Rendered grammars -/

namespace Grammar

/-- Among the rendered files there is exactly one for a family, and it is the one that is
written from its draft. -/
theorem exists_of_render_eq_ok_of_mem
    {g : Grammar} {files : List SourceFile} (h : g.render = .ok files) {f : Family}
    (hf : f ∈ g.families) :
    ∃ l dress d, g.link = .ok l ∧ Dress.ofOptions g.options = .ok dress ∧
      Draft.ofFamily l dress f = .ok d ∧
      files.filter (·.path == Draft.fileName f) = [⟨Draft.fileName f, d.write⟩] := by
  obtain ⟨drafts, hdrafts, rfl⟩ := exists_of_render_eq_ok h
  obtain ⟨l, dress, hlink, hdress, hall⟩ := exists_of_drafts_eq_ok hdrafts
  obtain ⟨d, hd, hfd⟩ := Draft.exists_draft_of_mem_order hall ((mem_order_iff hlink).mpr hf)
  refine ⟨l, dress, d, hlink, hdress, hfd, ?_⟩
  have hpaths : ((drafts.map fun d => (⟨d.path, d.write⟩ : SourceFile)).map (·.path)).Nodup := by
    rw [List.map_map]
    exact Draft.paths_nodup_of_all hlink hall
  rw [← Draft.path_of_ofFamily_eq_ok hfd]
  exact filter_key_eq_singleton hpaths (List.mem_map_of_mem hd)

/-- The file of a family is determined by the family and its dependencies, together with
the name, the ownership lists and the options of the grammar.  What else is in the grammar,
and in which order, does not matter. -/
theorem render_family_local
    {g g' : Grammar} {files files' : List SourceFile} (h : g.render = .ok files)
    (h' : g'.render = .ok files') (hname : g.name = g'.name)
    (hownership : g.ownership = g'.ownership) (hoptions : g.options = g'.options) {f : Family}
    (hf : f ∈ g.families) (hf' : f ∈ g'.families)
    (hdependencies : ∀ d ∈ Linked.dependencies g f, d ∈ g'.families) :
    ∃ file, file.path = Draft.fileName f ∧
      files.filter (·.path == Draft.fileName f) = [file] ∧
      files'.filter (·.path == Draft.fileName f) = [file] := by
  obtain ⟨l, dress, d, hlink, hdress, hd, hfile⟩ := exists_of_render_eq_ok_of_mem h hf
  obtain ⟨l', dress', d', hlink', hdress', hd', hfile'⟩ := exists_of_render_eq_ok_of_mem h' hf'
  have hshares : g.Shares g' f := by
    refine ⟨hf, fun d hneeds => ?_⟩
    rcases Relation.reflTransGen_iff_eq_or_transGen.mp hneeds with rfl | hreach
    · exact hf'
    · exact hdependencies d ((Linked.mem_dependencies_iff (namesDistinct_of_link hlink)).mpr hreach)
  have hagree := Linked.agreeOn_of_shares hlink hlink' hname hownership hoptions hshares
  rw [hoptions, hdress'] at hdress
  obtain rfl := Except.ok.inj hdress
  rw [hagree.ofFamily, hd'] at hd
  obtain rfl := Except.ok.inj hd
  exact ⟨_, rfl, hfile, hfile'⟩

/-- A family with a borrowed value. -/
def borrowedExpr : Family :=
  ⟨"Expr", [⟨"Name", [⟨⟨"Token", []⟩, "name"⟩]⟩], none⟩

/-- A family that borrows through the one that it depends on. -/
def dependentStmt : Family :=
  ⟨"Stmt", [⟨"Run", [⟨⟨"Vec", [⟨"Expr", []⟩]⟩, "body"⟩]⟩], some "Expr"⟩

/-- The two families, the dependent one first, next to one on its own. -/
def quietNeighbour : Grammar :=
  { name := "Lang"
    families := [⟨"Type", [⟨"Any", [⟨⟨"u8", []⟩, "width"⟩]⟩], none⟩, dependentStmt, borrowedExpr]
    options := { result := "Value" } }

/-- The two families the other way around, among others that depend on them. -/
def busyNeighbours : Grammar :=
  { name := "Lang"
    families := [borrowedExpr,
      ⟨"Item", [⟨"Main", [⟨⟨"Stmt", []⟩, "body"⟩, ⟨⟨"Token", []⟩, "name"⟩]⟩], some "Stmt"⟩,
      dependentStmt, ⟨"Type", [⟨"Of", [⟨⟨"Item", []⟩, "item"⟩]⟩], some "Item"⟩]
    options := { result := "Value" } }

theorem mem_busyNeighbours_of_mem_dependencies :
    ∀ d ∈ Linked.dependencies quietNeighbour dependentStmt, d ∈ busyNeighbours.families := by
  intro d hd
  have hnames : (Linked.dependencies quietNeighbour dependentStmt).map (·.name) = ["Expr"] := by
    decide +kernel
  have hname : d.name ∈ ["Expr"] := hnames ▸ List.mem_map_of_mem hd
  have hmem : d ∈ quietNeighbour.families := Linked.reachedFrom_subset _ _ hd
  simp only [quietNeighbour, List.mem_cons, List.not_mem_nil, or_false] at hmem
  rcases hmem with rfl | rfl | rfl
  · simp at hname
  · simp [dependentStmt] at hname
  · exact List.mem_cons_self

theorem render_family_local_neighbours :
    ∃ files files' file, quietNeighbour.render = .ok files ∧ busyNeighbours.render = .ok files' ∧
      files ≠ files' ∧ file.path = "stmt.rs" ∧ files.filter (·.path == "stmt.rs") = [file] ∧
      files'.filter (·.path == "stmt.rs") = [file] := by
  obtain ⟨drafts, hdrafts, hlength⟩ : ∃ drafts, quietNeighbour.drafts = .ok drafts ∧
      drafts.length = 5 := exists_drafts_of_any (by decide +kernel)
  obtain ⟨drafts', hdrafts', hlength'⟩ : ∃ drafts, busyNeighbours.drafts = .ok drafts ∧
      drafts.length = 6 := exists_drafts_of_any (by decide +kernel)
  have h := render_eq_ok_of_drafts hdrafts
  have h' := render_eq_ok_of_drafts hdrafts'
  obtain ⟨file, hpath, hfile, hfile'⟩ := render_family_local h h' rfl rfl rfl
    (by simp [quietNeighbour]) (by simp [busyNeighbours]) mem_busyNeighbours_of_mem_dependencies
  have hname : Draft.fileName dependentStmt = "stmt.rs" := by
    decide
  rw [hname] at hpath hfile hfile'
  refine ⟨_, _, file, h, h', ?_, hpath, hfile, hfile'⟩
  intro hsame
  have hlengths := congrArg List.length hsame
  simp [hlength, hlength'] at hlengths

end Grammar

end Treewright
