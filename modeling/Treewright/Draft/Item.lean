import Treewright.Draft.FieldType

/-!
# Items of written files

What a file is made of before it is laid out: imports, the enumeration of a
family with its dispatch, the structure of a node with its constructor and its
dispatch, conversions from nodes into families, and the visitor trait.
-/

namespace Treewright

structure Variant where
  label : Code.Word
  payload : Mention

/-- A named slot of a node's structure, and a parameter of its constructor. -/
structure Slot where
  name : Code.Word
  type : FieldType

inductive Filling where
  /-- From the parameter of the same name. -/
  | parameter
  /-- With the default value of its type. -/
  | default
deriving DecidableEq, Repr

structure Initializer where
  name : Code.Word
  filling : Filling
deriving DecidableEq, Repr

structure Constructor where
  params : List Slot
  initializers : List Initializer
  /-- The constructor is allowed to have more parameters than is usual. -/
  allowsMany : Bool

/-- A call of a method with one argument. -/
structure MethodCall where
  receiver : String
  method : String
  argument : String
deriving DecidableEq, Repr

/-- A case of a match on a family: the node is bound to a name, and a method is called. -/
structure Arm where
  label : Code.Word
  bound : String
  call : MethodCall
deriving DecidableEq, Repr

/-- A function that takes a visitor, with what it does. -/
structure Acceptance (Body : Type) where
  name : String
  visitor : String
  body : Body

/-- A function that takes a node and makes it the payload of a case. -/
structure Wrapping where
  parameter : String
  label : Code.Word
  payload : String
deriving DecidableEq, Repr

/-- A method of the visitor trait, with the node it handles. -/
structure VisitMethod where
  comment : String
  name : String
  value : Mention
  result : Code.Ty

inductive Item where
  /-- `pub mod home;` -/
  | moduleDecl (home : Code.Word)
  /-- Imports written types from a sibling module. -/
  | siblingImport (home : Code.Word) (names : List String)
  /-- Makes a written type of a module public in the enclosing one. -/
  | reexport (home : Code.Word) (name : String)
  /-- Imports what the grammar asks for. -/
  | userImport (tree : Code.UseTree)
  /-- The enumeration of a family; `declares` says whether it declares the lifetime. -/
  | enumDecl (doc : String) (derives : List (List Code.Token)) (name : String) (declares : Bool)
    (variants : List Variant)
  /-- The dispatch of a family, with an arm for each case. -/
  | enumDispatch (declares : Bool) (target : Mention) (accept : Acceptance (List Arm))
    (result : Code.Ty)
  /-- The structure of a node; `declares` says whether it declares the lifetime. -/
  | structDecl (doc : String) (derives : List (List Code.Token)) (name : String)
    (declares : Bool) (slots : List Slot)
  | structImpl (declares : Bool) (target : Mention) (constructor : Constructor)
    (accept : Acceptance MethodCall) (result : Code.Ty)
  | conversion (declares : Bool) (source target : Mention) (wrapping : Wrapping)
  | visitorTrait (doc : String) (methods : List VisitMethod)

namespace Item

/-- The written types that an item declares. -/
def declared? : Item → Option String
  | enumDecl _ _ name _ _ => some name
  | structDecl _ _ name _ _ => some name
  | visitorTrait _ _ => some "Visitor"
  | _ => none

/-- Decides whether an item is well-formed once it is written: the types it declares or
names are not reserved words, and the types of its slots are well-formed. -/
def wellFormed : Item → Bool
  | siblingImport _ names => names.all fun name => decide (name ∉ Code.reservedWords)
  | reexport _ name => decide (name ∉ Code.reservedWords)
  | enumDecl _ _ name _ _ => decide (name ∉ Code.reservedWords)
  | structDecl _ _ name _ slots =>
    decide (name ∉ Code.reservedWords) && slots.all (·.type.wellFormed)
  | _ => true

/-- Decides whether the code that an item takes from the grammar can be written to its end. -/
def printable : Item → Bool
  | enumDispatch _ _ _ result => result.printable
  | structDecl _ _ _ _ slots => slots.all (·.type.printable)
  | structImpl _ _ constructor _ result =>
    constructor.params.all (·.type.printable) && result.printable
  | visitorTrait _ methods => methods.all (·.result.printable)
  | _ => true

end Item

/-- A file before it is laid out. -/
structure Draft where
  path : String
  /-- The lines of the comment at the top. -/
  docs : List String
  items : List Item

namespace Draft

/-- Accepts a draft whose items are all well-formed and can be written. -/
def check (d : Draft) : Except Fault Draft :=
  if !d.items.all Item.wellFormed then .error (.unparsable d.path)
  else if !d.items.all Item.printable then .error (.unprintable d.path)
  else .ok d

end Draft

end Treewright
