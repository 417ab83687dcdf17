import Treewright.Fault
import Treewright.Grammar
import Treewright.TypeRef.Parser

/-!
# Grammar rows

A row describes one node: a class name, a colon and a comma-separated list of
fields, each a type followed by a name. Commas and blanks inside angle brackets
belong to a type and do not separate.
-/

namespace Treewright.Row

def pushFront (c : Char) : List (List Char) → List (List Char)
  | [] => [[c]]
  | part :: rest => (c :: part) :: rest

/-- Splits a text at the separators that stand outside all angle brackets, where
`depth` brackets are already open. A closing bracket outside all brackets leaves the
depth at zero. -/
def splitAtDepth (isSeparator : Char → Bool) (depth : Nat) : List Char → List (List Char)
  | [] => [[]]
  | c :: rest =>
    if c = '<' then pushFront c (splitAtDepth isSeparator (depth + 1) rest)
    else if c = '>' then pushFront c (splitAtDepth isSeparator (depth - 1) rest)
    else if depth = 0 ∧ isSeparator c then [] :: splitAtDepth isSeparator 0 rest
    else pushFront c (splitAtDepth isSeparator depth rest)

/-- Splits a text at the separators that stand outside all angle brackets. -/
def splitTopLevel (isSeparator : Char → Bool) (s : List Char) : List (List Char) :=
  splitAtDepth isSeparator 0 s

/-- Reads a field, a type and a name with blanks between them, from a trimmed part of
the row `line`. -/
def parseField (line : String) (field : List Char) : Except Fault Field :=
  match (splitTopLevel Text.isBlank field).filter (· ≠ []) with
  | [type, name] =>
    if Name.isIdentifierText name then
      match TypeRef.parseText? type with
      | some t => .ok ⟨t, String.ofList name⟩
      | none => .error (.malformedType line (String.ofList type))
    else
      .error (.malformedField line (String.ofList field))
  | _ => .error (.malformedField line (String.ofList field))

/-- Reads the parts of a field list in order; the first fault wins. -/
def parseFields (line : String) : List (List Char) → Except Fault (List Field)
  | [] => .ok []
  | part :: rest =>
    match parseField line (Text.trim part) with
    | .error fault => .error fault
    | .ok field =>
      match parseFields line rest with
      | .error fault => .error fault
      | .ok fields => .ok (field :: fields)

/-- The texts before and after the only colon, or nothing if there is not exactly one. -/
def splitAtColon? (s : List Char) : Option (List Char × List Char) :=
  match s.dropWhile (· ≠ ':') with
  | [] => none
  | _ :: after => if ':' ∈ after then none else some (s.takeWhile (· ≠ ':'), after)

def parse (line : String) : Except Fault Node :=
  match splitAtColon? line.toList with
  | none => .error (.missingSeparator line)
  | some (before, after) =>
    let className := Text.trim before
    if Name.isIdentifierText className then
      match parseFields line (splitTopLevel (· == ',') (Text.trim after)) with
      | .error fault => .error fault
      | .ok fields => .ok ⟨String.ofList className, fields⟩
    else
      .error (.invalidClassName line (String.ofList className))

/-- Reads a list of rows in order; the first fault wins. -/
def parseAll : List String → Except Fault (List Node)
  | [] => .ok []
  | line :: rest =>
    match parse line with
    | .error fault => .error fault
    | .ok node =>
      match parseAll rest with
      | .error fault => .error fault
      | .ok nodes => .ok (node :: nodes)

end Treewright.Row
