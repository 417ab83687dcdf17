import Treewright.Name
import Treewright.Ownership
import Treewright.TypeRef

/-!
# Grammars

A grammar is a list of node families with the options for the code written from
it. A node has a class name and typed fields; inside its family it becomes a
type named after class and family together.
-/

namespace Treewright

structure Field where
  type : TypeRef
  name : String

namespace Field

/-- The text of a field: its type, then its name. -/
def text (f : Field) : String :=
  f.type.text ++ " " ++ f.name

/-- The name a field has in the written code, before reserved words are escaped. -/
def slotName (f : Field) : String :=
  Name.snake f.name

end Field

/-- A node of a family: a class name and fields in order. -/
structure Node where
  className : String
  fields : List Field

namespace Node

/-- The text of a node as a grammar row. -/
def text (n : Node) : String :=
  n.className ++ " : " ++ ", ".intercalate (n.fields.map Field.text)

end Node

/-- A family of nodes, which may use the nodes of the family it depends on. -/
structure Family where
  name : String
  nodes : List Node
  dependsOn : Option String

namespace Family

def typeName (f : Family) (n : Node) : String :=
  n.className ++ f.name

def visitMethod (f : Family) (n : Node) : String :=
  "visit_" ++ Name.snake (f.typeName n)

def moduleName (f : Family) : String :=
  Name.snake f.name

end Family

/-- How the code of a grammar is written. -/
structure Options where
  /-- The type that every dispatch returns. -/
  result : String := "Result<Value>"
  /-- What every file brings into scope. -/
  uses : List String := []
  derives : List String := ["Debug", "Clone"]
  /-- The code names of grammar type names. -/
  aliases : List (String × String) := []
  /-- Types whose arguments live on the heap, so that families need no box in them. -/
  heapContainers : List String := ["Vec"]
deriving DecidableEq, Repr

namespace Options

/-- The code name of a grammar type name: its alias, or the name itself. -/
def codeName (o : Options) (name : String) : String :=
  (o.aliases.lookup name).getD name

/-- Decides whether a type name or its alias is a heap container. -/
def isHeapContainer (o : Options) (name : String) : Bool :=
  name ∈ o.heapContainers || o.codeName name ∈ o.heapContainers

end Options

structure Grammar where
  name : String
  families : List Family
  ownership : Ownership := {}
  options : Options := {}

namespace Grammar

def family? (g : Grammar) (name : String) : Option Family :=
  g.families.find? (·.name == name)

def isFamily (g : Grammar) (name : String) : Bool :=
  g.families.any (·.name == name)

def nodeCount (g : Grammar) : Nat :=
  (g.families.flatMap (·.nodes)).length

end Grammar

end Treewright
