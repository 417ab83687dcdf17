import Treewright.Grammar.Validation
import Treewright.Linked.Order
import Treewright.Linked.Borrowing

/-!
# Linked grammars

Linking checks what only the whole grammar shows: every dependency exists, no
family depends on itself through others, and every family mentioned in a field is
the field's own family or one that it depends on. A linked grammar knows the order
in which its families are written and which of them hold borrowed values.
-/

namespace Treewright

/-- A grammar with its families in writing order and the names of those that borrow. -/
structure Linked where
  grammar : Grammar
  order : List Family
  borrowing : List String

namespace Linked

/-- The type names that need no declaration. -/
def builtinTypes : List String :=
  ["Box", "Option", "Vec", "String", "bool", "char", "u8", "u16", "u32", "u64", "usize", "i8",
    "i16", "i32", "i64", "isize", "f32", "f64"]

/-- The first family whose dependency does not exist is a fault. -/
def checkDependencies (g : Grammar) : List Family → Except Fault Unit
  | [] => .ok ()
  | f :: rest =>
    match f.dependsOn with
    | none => checkDependencies g rest
    | some dependency =>
      if g.isFamily dependency then checkDependencies g rest
      else .error (.unknownDependency f.name dependency)

/-- The names that a field of the family may use as families: its own and those of its
dependencies. -/
def reachableNames (g : Grammar) (f : Family) : List String :=
  f.name :: (dependencies g f).map (·.name)

/-- The first family name in a type that is not among the reachable ones. -/
def stray? (g : Grammar) (reachable : List String) (type : TypeRef) : Option String :=
  type.names.find? fun name => g.isFamily name && decide (name ∉ reachable)

/-- The first stray reference of a node, as the field and the family it refers to. -/
def strayField? (g : Grammar) (reachable : List String) (n : Node) : Option (Field × String) :=
  n.fields.findSome? fun field => (stray? g reachable field.type).map (field, ·)

/-- The first stray reference of a family, as the fault it is reported as. -/
def strayReference? (g : Grammar) (f : Family) : Option Fault :=
  f.nodes.findSome? fun n =>
    (strayField? g (reachableNames g f) n).map fun (field, target) =>
      .undeclaredReference f.name (f.typeName n) field.name target

/-- The first stray reference of the grammar is a fault. -/
def checkReferences (g : Grammar) : Except Fault Unit :=
  match g.families.findSome? (strayReference? g) with
  | some fault => .error fault
  | none => .ok ()

/-- The names of a list, in order and without repetition. -/
def sortedNames (names : List String) : List String :=
  names.eraseDups.mergeSort (fun a b => decide (a ≤ b))

/-- The type names of a grammar that nothing declares, in order. -/
def unrecognizedTypes (g : Grammar) : List String :=
  let fields := (g.families.flatMap (·.nodes)).flatMap (·.fields)
  sortedNames <| (fields.flatMap (·.type.names)).filter fun name =>
    !g.isFamily name && !g.ownership.lists name && (g.options.aliases.lookup name).isNone
      && decide (name ∉ g.options.heapContainers) && decide (name ∉ builtinTypes)

def familyBorrows (l : Linked) (name : String) : Bool :=
  name ∈ l.borrowing

def borrows (l : Linked) (n : Node) : Bool :=
  nodeBorrows l.grammar.ownership l.borrowing n

end Linked

namespace Grammar

/-- Links a grammar: validity first, then dependencies, the writing order, and the
references between families. -/
def link (g : Grammar) : Except Fault Linked :=
  match g.validate with
  | .error fault => .error fault
  | .ok () =>
    match Linked.checkDependencies g g.families with
    | .error fault => .error fault
    | .ok () =>
      match Linked.emissionOrder g with
      | .error fault => .error fault
      | .ok order =>
        match Linked.checkReferences g with
        | .error fault => .error fault
        | .ok () => .ok ⟨g, order, Linked.borrowingFamilies g⟩

end Grammar

end Treewright
