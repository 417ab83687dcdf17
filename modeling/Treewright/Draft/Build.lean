import Treewright.Code.Arrangement
import Treewright.Draft.Item
import Treewright.Event

/-!
# Drafts from linked grammars

One draft for every family in writing order, one for the visitor trait and one for
the module that ties them together. Names are spelled and field types are read in
the order in which the items are written, and a draft is checked as soon as it is
complete, so the first fault in that order is the one reported.
-/

namespace Treewright

/-- The options of a grammar after the code in them has been read. -/
structure Dress where
  result : Code.Ty
  uses : List Code.UseTree
  derives : List (List Code.Token)

namespace Dress

def readUse (s : String) : Except Fault Code.UseTree :=
  match Code.UseTree.parse? s with
  | some tree => .ok tree
  | none => .error (.invalidCode s .useTree)

/-- Reads a derive, which has to be a path and is kept as tokens. -/
def readDerive (s : String) : Except Fault (List Code.Token) :=
  match Code.Path.parse? s, Code.Token.scan s with
  | some _, some tokens => .ok (Code.Arrangement.arrange tokens)
  | _, _ => .error (.invalidCode s .derivePath)

def ofOptions (o : Options) : Except Fault Dress :=
  match Code.Ty.parse? o.result with
  | none => .error (.invalidCode o.result .resultType)
  | some result => do
    let uses ← o.uses.mapM readUse
    let derives ← o.derives.mapM readDerive
    .ok ⟨result, uses, derives⟩

end Dress

namespace Draft

def headDocs (grammar title : String) : List String :=
  [" " ++ title, "",
    s!" Generated by `generate_ast` from the `{grammar}` grammar. Do not edit by hand."]

/-- More parameters than this need an allowance. -/
def usualParameters : Nat := 7

def slot (l : Linked) (f : Field) : Except Fault Slot := do
  let name ← Code.Word.spell f.slotName
  let type ← l.fieldType f.type
  .ok ⟨name, type⟩

def isParameter (l : Linked) (f : Field) : Bool :=
  (l.grammar.ownership.holding f.type).isParameter

/-- The constructor of a node from its fields and their slots. -/
def constructorOf (l : Linked) (slots : List (Field × Slot)) : Constructor :=
  let params := (slots.filter fun (f, _) => isParameter l f).map (·.2)
  { params
    initializers := slots.map fun (f, s) =>
      ⟨s.name, if isParameter l f then .parameter else .default⟩
    allowsMany := decide (usualParameters < params.length) }

def arm (label : Code.Word) : Arm :=
  { label, bound := "node", call := ⟨"node", "accept", "visitor"⟩ }

def baseItems (l : Linked) (dress : Dress) (f : Family) : Except Fault (List Item) := do
  let name ← Code.spellPlain f.name
  let variants ← f.nodes.mapM fun n => do
    let label ← Code.Word.spell n.className
    let _ ← Code.spellPlain (f.typeName n)
    .ok (⟨label, l.nodeMention f n⟩ : Variant)
  let doc :=
    s!" Any node of the `{name}` family. Dispatch to a [`Visitor`] with `accept`."
  .ok [
    .enumDecl doc dress.derives name (l.familyBorrows f.name) variants,
    .enumDispatch (l.familyBorrows f.name) (l.familyMention f.name)
      ⟨"accept", "visitor", variants.map fun v => arm v.label⟩ dress.result]

/-- The structure of a node, its constructor and dispatch, and its conversion. -/
def nodeItems (l : Linked) (dress : Dress) (f : Family) (n : Node) : Except Fault (List Item) := do
  let name ← Code.spellPlain (f.typeName n)
  let label ← Code.Word.spell n.className
  let visit ← Code.spellPlain (f.visitMethod n)
  let slots ← n.fields.mapM fun field => do .ok (field, ← slot l field)
  .ok [
    .structDecl (" `" ++ n.text ++ "`") dress.derives name (l.borrows n) (slots.map (·.2)),
    .structImpl (l.borrows n) (l.nodeMention f n) (constructorOf l slots)
      ⟨"accept", "visitor", ⟨"visitor", visit, "self"⟩⟩ dress.result,
    .conversion (l.familyBorrows f.name) (l.nodeMention f n) (l.familyMention f.name)
      ⟨"node", label, "node"⟩]

/-- The import of a family that another one depends on. -/
def dependencyImport (f : Family) : Except Fault Item := do
  let home ← Code.Word.spell f.moduleName
  let name ← Code.spellPlain f.name
  .ok (.siblingImport home [name])

def fileName (f : Family) : String :=
  f.moduleName ++ ".rs"

/-- The draft of a family: imports first, then the enumeration, then the nodes. -/
def ofFamily (l : Linked) (dress : Dress) (f : Family) : Except Fault Draft := do
  let dependencies ← (Linked.dependencies l.grammar f).mapM dependencyImport
  let base ← baseItems l dress f
  let nodes ← f.nodes.mapM (nodeItems l dress f)
  check {
    path := fileName f
    docs := headDocs l.grammar.name ("`" ++ f.name ++ "` syntax tree nodes.")
    items :=
      dependencies ++ [.siblingImport ⟨"visitor", false⟩ ["Visitor"]] ++
        dress.uses.map .userImport ++ base ++ nodes.flatten }

/-- The import of all nodes of a family. -/
def nodesImport (f : Family) : Except Fault Item := do
  let home ← Code.Word.spell f.moduleName
  let names ← f.nodes.mapM fun n => Code.spellPlain (f.typeName n)
  .ok (.siblingImport home names)

/-- The visitor method of a node. It takes the node with any lifetime. -/
def visitMethod (l : Linked) (dress : Dress) (f : Family) (n : Node) :
    Except Fault VisitMethod := do
  let name ← Code.spellPlain (f.visitMethod n)
  let type ← Code.spellPlain (f.typeName n)
  .ok {
    comment := s!" Called by [`{type}::accept`]."
    name
    value := ⟨type, if l.borrows n then some "'_" else none⟩
    result := dress.result }

def ofVisitor (l : Linked) (dress : Dress) : Except Fault Draft := do
  let imports ← l.grammar.families.mapM nodesImport
  let methods ← l.grammar.families.mapM fun f => f.nodes.mapM (visitMethod l dress f)
  check {
    path := "visitor.rs"
    docs := headDocs l.grammar.name "Visitor over every syntax tree node."
    items :=
      imports ++ dress.uses.map .userImport ++
        [.visitorTrait " One handler per node type, in grammar order." methods.flatten] }

def ofModule (l : Linked) : Except Fault Draft := do
  let homes ← l.order.mapM fun f => Code.Word.spell f.moduleName
  let names ← l.order.mapM fun f => Code.spellPlain f.name
  check {
    path := "mod.rs"
    docs := headDocs l.grammar.name ("Syntax tree of the `" ++ l.grammar.name ++ "` grammar.")
    items :=
      homes.map .moduleDecl ++ [.moduleDecl ⟨"visitor", false⟩] ++
        (homes.zip names).map (fun (home, name) => .reexport home name) ++
        [.reexport ⟨"visitor", false⟩ "Visitor"] }

def all (l : Linked) (dress : Dress) : Except Fault (List Draft) := do
  let families ← l.order.mapM (ofFamily l dress)
  let visitor ← ofVisitor l dress
  let enclosing ← ofModule l
  .ok (families ++ [visitor, enclosing])

end Draft

end Treewright
