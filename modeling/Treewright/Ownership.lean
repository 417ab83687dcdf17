import Treewright.Fault
import Treewright.TypeRef

/-!
# Ownership of field values

Two lists of type names decide how a node holds its fields: names on the
borrowed list are held by reference, names on the defaulted list start with
their default value and are left out of the constructor, and every other name
is owned. The borrowed list wins where both apply.
-/

namespace Treewright

/-- How a node holds the value of a field. -/
inductive Holding where
  | owned
  | borrowed
  | defaulted
deriving DecidableEq, Repr

namespace Holding

/-- A held value is passed to the constructor unless it starts with its default. -/
def isParameter : Holding → Bool
  | defaulted => false
  | _ => true

end Holding

/-- The two lists of type names that are not simply owned. -/
structure Ownership where
  borrowed : List String := ["Token"]
  defaulted : List String := ["String"]
deriving DecidableEq, Repr

namespace Ownership

/-- How a type name is held: the borrowed list is looked at first. -/
def holdingOf (o : Ownership) (name : String) : Holding :=
  if name ∈ o.borrowed then .borrowed
  else if name ∈ o.defaulted then .defaulted
  else .owned

/-- How a type is held: only its outermost name counts. -/
def holding (o : Ownership) (type : TypeRef) : Holding :=
  o.holdingOf type.name

/-- Decides whether a name of the type, at any depth, is held by reference. -/
def mentionsBorrowed (o : Ownership) (type : TypeRef) : Bool :=
  type.names.any fun name => o.holdingOf name == .borrowed

def lists (o : Ownership) (name : String) : Bool :=
  o.holdingOf name != .owned

/-- No name may be on both lists; the first borrowed name that is on the other list
is reported. -/
def validate (o : Ownership) : Except Fault Unit :=
  match o.borrowed.find? (· ∈ o.defaulted) with
  | some name => .error (.conflictingOwnership name)
  | none => .ok ()

end Ownership

end Treewright
