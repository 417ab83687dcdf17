import Treewright.Code.Parser
import Treewright.Code.Written
import Treewright.Linked

/-!
# Types of fields

A field type of the grammar becomes a type of the written code. A family is held in
a box unless it stands directly in a heap container; a borrowed type is held by
reference; every other name is written as its alias. A family is written with the
lifetime of the source text when it borrows, and takes no type arguments.
-/

namespace Treewright

/-- The lifetime of the text that nodes borrow from. -/
def sourceLifetime : String := "'src"

/-- A mention of a written type, with the lifetime argument it carries. -/
structure Mention where
  name : String
  lifetime : Option String
deriving DecidableEq, Repr

inductive FieldType where
  | family (mention : Mention)
  | boxed (inner : FieldType)
  /-- A reference to a type, for the lifetime of the source text. -/
  | borrowed (inner : FieldType)
  | applied (path : Code.Path) (args : List FieldType)

namespace Linked

def lifetimeIf (borrows : Bool) : Option String :=
  if borrows then some sourceLifetime else none

def familyMention (l : Linked) (name : String) : Mention :=
  ⟨name, lifetimeIf (l.familyBorrows name)⟩

def nodeMention (l : Linked) (f : Family) (n : Node) : Mention :=
  ⟨f.typeName n, lifetimeIf (l.borrows n)⟩

/-- The path written for a type name that is not a family. -/
def typePath (l : Linked) (name : String) : Except Fault Code.Path :=
  match Code.Path.parse? (l.grammar.options.codeName name) with
  | some path => .ok path
  | none => .error (.invalidCode (l.grammar.options.codeName name) .typePath)

mutual

/-- The written type of a type reference. A family is boxed if `box` says so. -/
def fieldTypeIn (l : Linked) (box : Bool) : TypeRef → Except Fault FieldType
  | ⟨name, args⟩ =>
    if l.grammar.isFamily name then
      match args with
      | [] =>
        let family := FieldType.family (l.familyMention name)
        .ok (if box then .boxed family else family)
      | arg :: rest =>
        .error (.invalidCode (TypeRef.text ⟨name, arg :: rest⟩) .familyReference)
    else
      match fieldTypesIn l (!l.grammar.options.isHeapContainer name) args with
      | .error fault => .error fault
      | .ok args =>
        match l.typePath name with
        | .error fault => .error fault
        | .ok path =>
          if l.grammar.ownership.holdingOf name = .borrowed then
            .ok (.borrowed (.applied path args))
          else
            .ok (.applied path args)

/-- The written types of type references in order; the first fault wins. -/
def fieldTypesIn (l : Linked) (box : Bool) : List TypeRef → Except Fault (List FieldType)
  | [] => .ok []
  | t :: rest =>
    match fieldTypeIn l box t with
    | .error fault => .error fault
    | .ok type =>
      match fieldTypesIn l box rest with
      | .error fault => .error fault
      | .ok types => .ok (type :: types)

end

def fieldType (l : Linked) (type : TypeRef) : Except Fault FieldType :=
  fieldTypeIn l true type

end Linked

namespace FieldType

def startsType : Code.Path → Bool
  | .mk false (.plain ⟨"try", false⟩ :: _) => false
  | _ => true

/-- Decides whether arguments can be written after a path: its last word has none yet and
is not one of the words that never take any. -/
def takesArgs (path : Code.Path) : Bool :=
  match path.segments.getLast? with
  | some (.plain word) =>
    word.raw || decide (word.name ∉ ["super", "self", "crate", "try"])
  | _ => false

mutual

/-- Decides whether a type is well-formed once it is written. -/
def wellFormed : FieldType → Bool
  | family mention => decide (mention.name ∉ Code.reservedWords)
  | boxed inner => inner.wellFormed
  | borrowed inner => inner.wellFormed
  | applied path [] => startsType path
  | applied path (arg :: rest) =>
    startsType path && takesArgs path && arg.wellFormed && allWellFormed rest

def allWellFormed : List FieldType → Bool
  | [] => true
  | t :: rest => t.wellFormed && allWellFormed rest

end

mutual

/-- Decides whether a type can be written to its end. -/
def printable : FieldType → Bool
  | family _ => true
  | boxed inner => inner.printable
  | borrowed inner => inner.printable
  | applied path args => path.printable && allPrintable args

def allPrintable : List FieldType → Bool
  | [] => true
  | t :: rest => t.printable && allPrintable rest

end

end FieldType

end Treewright
