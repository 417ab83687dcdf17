import Treewright.Fault
import Treewright.Text.Letter

/-!
# Words of the target language

A word is an identifier of the generated code. Reserved words can be used as
identifiers in a raw spelling, with the exception of a few that have no raw
spelling at all.
-/

namespace Treewright.Code

def isWordText : List Char → Bool
  | [] => false
  | c :: rest => (Text.isLetter c || c == '_') && rest.all Text.isLetterOrMark

def isWord (s : String) : Bool :=
  isWordText s.toList

def reservedWords : List String :=
  ["_", "abstract", "as", "async", "await", "become", "box", "break", "const", "continue", "crate",
    "do", "dyn", "else", "enum", "extern", "false", "final", "fn", "for", "if", "impl", "in", "let",
    "loop", "macro", "match", "mod", "move", "mut", "override", "priv", "pub", "ref", "return",
    "Self", "self", "static", "struct", "super", "trait", "true", "try", "type", "typeof",
    "unsafe", "unsized", "use", "virtual", "where", "while", "yield"]

def unescapableWords : List String :=
  ["self", "Self", "super", "crate", "_"]

/-- A word in its plain or its raw spelling. -/
structure Word where
  name : String
  raw : Bool := false
deriving DecidableEq, Repr

namespace Word

def text (w : Word) : String :=
  if w.raw then "r#" ++ w.name else w.name

/-- Decides whether a word is an identifier: a raw one always is. -/
def isIdentifier (w : Word) : Bool :=
  w.raw || decide (w.name ∉ reservedWords)

def ofRawSpelling? (text : List Char) : Option Word :=
  match text with
  | 'r' :: '#' :: rest =>
    let name := String.ofList rest
    if isWordText rest ∧ name ∉ unescapableWords then some ⟨name, true⟩ else none
  | _ => none

/-- The word of a name as an identifier, raw where the name is reserved. A name that is in
raw spelling already keeps it. -/
def spell (name : String) : Except Fault Word :=
  if name = "" ∨ name ∈ unescapableWords then .error (.invalidCode name .identifier)
  else if isWord name then .ok ⟨name, decide (name ∈ reservedWords)⟩
  else
    match ofRawSpelling? name.toList with
    | some w => .ok w
    | none => .error (.unspellable name)

end Word

/-- A generated name, which is written as it is and therefore has to be a word. -/
def spellPlain (name : String) : Except Fault String :=
  if isWord name then .ok name else .error (.unspellable name)

end Treewright.Code
