import Treewright.Proofs.Drafts

/-!
# Drafts are laid out to their end

Writing a document stops at the first part of it that has no form.  Boxes, separators and
shifted breaks neither bring such parts along nor hide them, so whether an item is written to
its end depends only on the code that it takes from the grammar.  This is what is asked of the
items of a draft before it is written.
-/

namespace Treewright

namespace Layout.Doc

/-! ## Documents put together -/

@[simp] theorem allPrintable_nil : allPrintable [] = true := by
  rw [allPrintable]

@[simp] theorem allPrintable_cons (d : Doc) (rest : List Doc) :
    allPrintable (d :: rest) = (d.printable && allPrintable rest) := by
  rw [allPrintable]

@[simp] theorem printable_text (s : String) : (text s).printable = true := by
  rw [printable] <;> simp

@[simp] theorem printable_brk (b : Break) : (brk b).printable = true := by
  rw [printable] <;> simp

@[simp] theorem printable_wide : wide.printable = true := by
  rw [printable] <;> simp

@[simp] theorem printable_box (style : Style) (indent : Int) (body : List Doc) :
    (box style indent body).printable = allPrintable body := by
  rw [printable]

@[simp] theorem allPrintable_append (front back : List Doc) :
    allPrintable (front ++ back) = (allPrintable front && allPrintable back) := by
  induction front with
  | nil => simp
  | cons d front ih =>
      rw [List.cons_append, allPrintable_cons, allPrintable_cons, ih, Bool.and_assoc]

@[simp] theorem allPrintable_ite (p : Prop) [Decidable p] (docs others : List Doc) :
    allPrintable (if p then docs else others) =
      if p then allPrintable docs else allPrintable others :=
  apply_ite _ _ _ _

@[simp] theorem allPrintable_flatMap {α : Type} (f : α → List Doc) (sources : List α) :
    allPrintable (sources.flatMap f) = sources.all fun a => allPrintable (f a) := by
  induction sources with
  | nil => simp
  | cons a rest ih => rw [List.flatMap_cons, allPrintable_append, List.all_cons, ih]

@[simp] theorem allPrintable_shiftLast (offset : Int) (docs : List Doc) :
    allPrintable (shiftLast offset docs) = allPrintable docs := by
  fun_induction shiftLast offset docs with
  | case1 => rfl
  | case2 => simp
  | case3 d rest _ ih => rw [allPrintable_cons, allPrintable_cons, ih]

@[simp] theorem allPrintable_closeBody (docs : List Doc) :
    allPrintable (closeBody docs) = allPrintable docs := by
  fun_induction closeBody docs with
  | case1 => rfl
  | case2 => simp
  | case3 => rfl
  | case4 d rest _ ih => rw [allPrintable_cons, allPrintable_cons, ih]

@[simp] theorem allPrintable_boxed (style : Style) (indent : Int) (body : List Doc) :
    allPrintable (boxed style indent body) = allPrintable body := by
  unfold boxed
  split <;> simp

@[simp] theorem allPrintable_cbox (indent : Int) (body : List Doc) :
    allPrintable (cbox indent body) = allPrintable body :=
  allPrintable_boxed _ _ _

@[simp] theorem allPrintable_ibox (indent : Int) (body : List Doc) :
    allPrintable (ibox indent body) = allPrintable body :=
  allPrintable_boxed _ _ _

@[simp] theorem allPrintable_cboxAtMost (limit : Nat) (indent : Int) (body : List Doc) :
    allPrintable (cboxAtMost limit indent body) = allPrintable body := by
  unfold cboxAtMost
  split <;> simp

@[simp] theorem allPrintable_ofText (s : String) : allPrintable (ofText s) = true := by
  simp [ofText]

@[simp] theorem allPrintable_zero : allPrintable zero = true := by
  simp [zero]

@[simp] theorem allPrintable_space : allPrintable space = true := by
  simp [space]

@[simp] theorem allPrintable_newline : allPrintable newline = true := by
  simp [newline]

@[simp] theorem allPrintable_newlineIfNonempty : allPrintable newlineIfNonempty = true := by
  simp [newlineIfNonempty]

@[simp] theorem allPrintable_comma (isLast : Bool) : allPrintable (comma isLast) = true := by
  cases isLast <;> simp [comma]

@[simp] theorem allPrintable_commaOrBlank (isLast : Bool) :
    allPrintable (commaOrBlank isLast) = true := by
  cases isLast <;> simp [commaOrBlank]

theorem allPrintable_separated
    {separator : Bool → List Doc} (h : ∀ isLast, allPrintable (separator isLast) = true)
    (items : List (List Doc)) :
    allPrintable (separated separator items) = items.all allPrintable := by
  fun_induction separated separator items with
  | case1 => rfl
  | case2 item => simp [h]
  | case3 item rest _ ih => simp [h, ih]

@[simp] theorem allPrintable_listBody (items : List (List Doc)) :
    allPrintable (listBody items) = items.all allPrintable := by
  simp [listBody, allPrintable_separated allPrintable_comma]

end Layout.Doc

open Layout (Doc)
open Layout.Doc (allPrintable)

/-! ## Code that never lacks a form -/

namespace Code

/-- The order in which arguments are written does not matter. -/
@[simp] theorem allPrintable_angleDoc (introduction : String) (items : List (Bool × List Doc)) :
    allPrintable (angleDoc introduction items) = items.all fun item => allPrintable item.2 := by
  have hperm : (items.filter (·.1) ++ items.filter (!·.1)).Perm items :=
    List.filter_append_perm _ _
  unfold angleDoc
  dsimp only
  split
  next hempty =>
    rw [List.isEmpty_iff.mp hempty] at hperm
    rw [← hperm.nil_eq, List.all_nil, allPrintable]
  next =>
    rw [← hperm.all_eq]
    simp [List.all_map, Function.comp_def]

theorem CommentStyle.allPrintable_of_doc?
    {style : CommentStyle} {text : List Char} {docs : List Doc} (h : style.doc? text = some docs) :
    allPrintable docs = true := by
  unfold doc? at h
  dsimp only at h
  split at h
  · obtain rfl := Option.some.inj h
    simp
  · split at h
    · obtain rfl := Option.some.inj h
      simp
    · simp at h

@[simp] theorem Attribute.allPrintable_commentDoc (inner : Bool) (text : String) :
    allPrintable (commentDoc inner text) = true := by
  unfold commentDoc
  cases hdocs : (if inner then CommentStyle.inner else .outer).doc? text.toList with
  | none => simp
  | some docs => exact CommentStyle.allPrintable_of_doc? hdocs

@[simp] theorem Token.allPrintable_attributeDoc (before : Adjacency) (tokens : List Token) :
    allPrintable (attributeDoc before tokens) = true := by
  fun_induction attributeDoc before tokens <;> simp_all

@[simp] theorem Attribute.allPrintable_listDoc (inner : Bool) (name : String) (bracket : Bracket)
    (content : List Token) : allPrintable (listDoc inner name bracket content) = true := by
  simp [listDoc]

namespace UseTree

theorem allPrintable_itemsDoc (items : List (Bool × List Doc)) :
    allPrintable (itemsDoc items) = items.all fun item => allPrintable item.2 := by
  fun_induction itemsDoc items with
  | case1 => rfl
  | case2 => simp
  | case3 isGroup d rest _ ih => cases isGroup <;> simp [ih]

@[simp] theorem allPrintable_groupDoc (items : List (Bool × List Doc)) :
    allPrintable (groupDoc items) = items.all fun item => allPrintable item.2 := by
  simp [groupDoc, allPrintable_itemsDoc]

mutual

@[simp] theorem allPrintable_doc : ∀ tree : UseTree, allPrintable tree.doc = true
  | name _ => by simp [doc]
  | rename _ _ => by simp [doc]
  | path _ rest => by simp [doc, allPrintable_doc rest]
  | glob => by simp [doc]
  | group [] => by simp [doc]
  | group [item] => by
    rw [doc]
    split
    · rw [allPrintable_groupDoc, allPrintable_docs [item]]
    · exact allPrintable_doc item
  | group (first :: second :: rest) => by
    rw [doc, allPrintable_groupDoc, allPrintable_docs (first :: second :: rest)]

theorem allPrintable_docs : ∀ trees : List UseTree,
    ((docs trees).all fun item => allPrintable item.2) = true
  | [] => by rw [docs, List.all_nil]
  | tree :: rest => by
    rw [docs, List.all_cons, allPrintable_doc tree, allPrintable_docs rest, Bool.and_self]

end

end UseTree

end Code

/-! ## Items -/

@[simp] theorem Mention.allPrintable_doc (m : Mention) : allPrintable m.doc = true := by
  cases hlifetime : m.lifetime <;> simp [doc, hlifetime]

namespace FieldType

@[simp] theorem allPrintable_appliedDoc (path : Code.Path) (args : List (List Doc)) :
    Layout.Doc.allPrintable (appliedDoc path args) =
      (path.printable && args.all Layout.Doc.allPrintable) := by
  simp [appliedDoc, Code.Path.printable, List.all_map, Function.comp_def]

mutual

/-- A field type is written to its end if its paths are. -/
@[simp] theorem printable_doc : ∀ type : FieldType,
    Layout.Doc.allPrintable type.doc = type.printable
  | family mention => by rw [doc, printable, Mention.allPrintable_doc]
  | boxed inner => by
    have hbox : (Code.Path.ofName "Box").printable = true := rfl
    simp [doc, printable, hbox, printable_doc inner]
  | borrowed inner => by simp [doc, printable, printable_doc inner]
  | applied path args => by
    rw [doc, printable, allPrintable_appliedDoc, all_printable_docs args]

theorem all_printable_docs : ∀ types : List FieldType,
    (docs types).all Layout.Doc.allPrintable = allPrintable types
  | [] => by rw [docs, allPrintable, List.all_nil]
  | type :: rest => by
    rw [docs, allPrintable, List.all_cons, printable_doc type, all_printable_docs rest]

end

end FieldType

@[simp] theorem allPrintable_paramListDoc (params : List (List Doc)) :
    allPrintable (paramListDoc params) = params.all allPrintable := by
  cases params <;> simp [paramListDoc]

@[simp] theorem allPrintable_lifetimeDoc (declares : Bool) :
    allPrintable (lifetimeDoc declares) = true := by
  cases declares <;> simp [lifetimeDoc]

@[simp] theorem allPrintable_signatureDoc (name : String) (generics args : List (List Doc))
    (result : List Doc) :
    allPrintable (signatureDoc name generics args result) =
      (generics.all allPrintable && args.all allPrintable && allPrintable result) := by
  simp [signatureDoc, Bool.and_assoc]

@[simp] theorem allPrintable_blockDoc (head body : List Doc) :
    allPrintable (blockDoc head body) = (allPrintable head && allPrintable body) := by
  simp [blockDoc]

@[simp] theorem allPrintable_functionDoc (head body : List Doc) :
    allPrintable (functionDoc head body) = (allPrintable head && allPrintable body) := by
  simp [functionDoc]

@[simp] theorem allPrintable_callDoc (function argument : String) :
    allPrintable (callDoc function argument) = true := by
  simp [callDoc]

@[simp] theorem MethodCall.allPrintable_doc (c : MethodCall) : allPrintable c.doc = true := by
  simp [doc]

@[simp] theorem allPrintable_acceptDoc (name visitor : String) (result : Code.Ty)
    (body : List Doc) :
    allPrintable (acceptDoc name visitor result body) =
      (result.printable && allPrintable body) := by
  simp [acceptDoc, Code.Ty.printable]

@[simp] theorem Arm.allPrintable_doc (a : Arm) : allPrintable a.doc = true := by
  simp [doc]

@[simp] theorem allPrintable_matchDoc (arms : List Arm) : allPrintable (matchDoc arms) = true := by
  simp [matchDoc]

@[simp] theorem Initializer.allPrintable_doc (i : Initializer) : allPrintable i.doc = true := by
  unfold doc
  split <;> simp

@[simp] theorem allPrintable_literalDoc (initializers : List Initializer) :
    allPrintable (literalDoc initializers) = true := by
  simp [literalDoc, Layout.Doc.allPrintable_separated Layout.Doc.allPrintable_commaOrBlank,
    List.all_map, Function.comp_def]

@[simp] theorem Slot.allPrintable_doc (s : Slot) : allPrintable s.doc = s.type.printable := by
  simp [doc]

@[simp] theorem allPrintable_implDoc (declares : Bool) (view : Option (List Doc))
    (target : Mention) : allPrintable (implDoc declares view target) = view.all allPrintable := by
  cases view <;> simp [implDoc]

@[simp] theorem allPrintable_derivesDoc (derives : List (List Code.Token)) :
    allPrintable (derivesDoc derives) = true := by
  simp [derivesDoc]

@[simp] theorem allPrintable_allowDoc (inner : Bool) (names : List String) :
    allPrintable (allowDoc inner names) = true := by
  simp [allowDoc]

@[simp] theorem Constructor.allPrintable_doc (c : Constructor) :
    allPrintable c.doc = c.params.all (·.type.printable) := by
  simp [doc, List.all_map, Function.comp_def]

@[simp] theorem VisitMethod.allPrintable_doc (m : VisitMethod) :
    allPrintable m.doc = m.result.printable := by
  simp [doc, Code.Ty.printable]

/-- An item is written to its end if the code that it takes from the grammar is. -/
@[simp] theorem Item.allPrintable_doc (item : Item) : allPrintable item.doc = item.printable := by
  cases item <;> simp [doc, printable]

namespace Draft

theorem allPrintable_doc (d : Draft) : allPrintable d.doc = d.items.all Item.printable := by
  simp [doc]

/-- A draft is refused for the lack of a form exactly when it is well-formed and writing it
would stop before its end. -/
theorem check_eq_unprintable_iff {d : Draft} :
    check d = .error (.unprintable d.path) ↔
      d.items.all Item.wellFormed = true ∧ allPrintable d.doc = false := by
  rw [allPrintable_doc]
  unfold check
  cases d.items.all Item.wellFormed <;> cases d.items.all Item.printable <;> simp

theorem allPrintable_of_check_eq_ok {d checked : Draft} (h : check d = .ok checked) :
    allPrintable checked.doc = true := by
  obtain ⟨-, hprintable, rfl⟩ := check_eq_ok_iff.mp h
  rw [allPrintable_doc, hprintable]

theorem allPrintable_of_mem_all
    {l : Linked} {dress : Dress} {drafts : List Draft} (h : all l dress = .ok drafts)
    {d : Draft} (hd : d ∈ drafts) : allPrintable d.doc = true := by
  rcases source_of_mem_all h hd with ⟨f, -, hfamily⟩ | hvisitor | henclosing
  · obtain ⟨_, -, hfamily⟩ := bind_eq_ok_iff.mp hfamily
    obtain ⟨_, -, hfamily⟩ := bind_eq_ok_iff.mp hfamily
    obtain ⟨_, -, hchecked⟩ := bind_eq_ok_iff.mp hfamily
    exact allPrintable_of_check_eq_ok hchecked
  · obtain ⟨_, -, hvisitor⟩ := bind_eq_ok_iff.mp hvisitor
    obtain ⟨_, -, hchecked⟩ := bind_eq_ok_iff.mp hvisitor
    exact allPrintable_of_check_eq_ok hchecked
  · obtain ⟨_, -, henclosing⟩ := bind_eq_ok_iff.mp henclosing
    obtain ⟨_, -, hchecked⟩ := bind_eq_ok_iff.mp henclosing
    exact allPrintable_of_check_eq_ok hchecked

end Draft

/-- Every file of a rendered grammar is a document that is written to its end. -/
theorem Grammar.exists_doc_of_render
    {g : Grammar} {files : List SourceFile} (h : g.render = .ok files) {file : SourceFile}
    (hfile : file ∈ files) :
    ∃ docs, allPrintable docs = true ∧ file.content = Layout.Doc.render docs := by
  obtain ⟨drafts, hdrafts, rfl⟩ := exists_of_render_eq_ok h
  obtain ⟨l, dress, -, -, hall⟩ := exists_of_drafts_eq_ok hdrafts
  obtain ⟨d, hd, rfl⟩ := List.mem_map.mp hfile
  exact ⟨d.doc, Draft.allPrintable_of_mem_all hall hd, rfl⟩

end Treewright
