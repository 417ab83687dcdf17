import Treewright.Code.Reading.Atom
import Treewright.Code.Reading.Item

/-!
# Reading statements

The statements of a block: bindings, values with and without a semicolon, calls of
expansions, and the items that a block declares.
-/

namespace Treewright.Code.Reading

/-- Reads a binding. It may have an alternative, unless its value ends with a brace. -/
def binding (r : Readers) (attributes : List Attribute) : Reader Entry := do
  word "let"
  let name ← r.singlePattern
  let item ←
    if ← skipIf (atMark ':') 1 then pure (Pattern.typed name (← r.type true)) else pure name
  let (value, otherwise) ←
    if ← skipIf (atMark '=') 1 then
      let v ← r.value true
      if !v.endsInBrace && atWord "else" (← get) then
        skip 1
        pure (some v, some (Value.block "" (← group .curly r.statements)))
      else pure (some v, none)
    else pure (none, none)
  mark ';'
  return .binding attributes item value otherwise

/-- Reads a value as a statement, with its semicolon. Attributes belong to its leftmost
operand. -/
def valueStatement (r : Readers) (attributes : List Attribute) : Reader Entry := do
  let v ← r.statementValue
  let isClosed ← skipIf (atMark ';') 1
  match v.attach attributes with
  | .invoked call =>
    if isClosed || call.bracket = .curly then return .invoked [] call isClosed
    else return .value (.invoked call)
  | .attributed more (.invoked call) =>
    if isClosed || call.bracket = .curly then return .invoked more call isClosed
    else return .value (.attributed more (.invoked call))
  | v => return if isClosed then .closed v else .value v

def atItem (s : List Token) : Bool :=
  let next := s.tail
  let afterNext := s.drop 2
  atOneOf
      ["pub", "extern", "use", "fn", "mod", "type", "struct", "enum", "trait", "impl", "macro"] s ||
    (atWord "crate" s && !atMarks "::" next) ||
    (atWord "static" s && (atWord "mut" next || atIdentifier next)) ||
    (atWord "const" s &&
      !(atGroup .curly next || atWord "static" next || atWord "move" next || atMark '|' next ||
        (atWord "async" next && !atOneOf ["unsafe", "extern", "fn"] afterNext))) ||
    (atWord "unsafe" s && !atGroup .curly next) ||
    (atWord "async" s && atOneOf ["unsafe", "extern", "fn"] next) ||
    (atWord "union" s && atIdentifier next) || (atWord "auto" s && atWord "trait" next) ||
    (atWord "default" s && atOneOf ["unsafe", "impl"] next)

def invocation? (s : List Token) : Option (Invocation × List Token) :=
  match plainPath s with
  | some (name, .mark '!' _ :: .group .curly content :: rest) =>
    if (atMark '.' rest && !atMarks ".." rest) || atMark '?' rest then none
    else some (⟨name, .curly, content⟩, rest)
  | _ => none

def atExpansion (s : List Token) : Bool :=
  match plainPath s with
  | some (_, .mark '!' _ :: rest) => atIdentifier rest || atWord "try" rest
  | _ => false

def statement (r : Readers) : Reader Entry := do
  let attributes ← attributes r
  let s ← get
  match invocation? s with
  | some (call, rest) =>
    set rest
    return .invoked attributes call (← skipIf (atMark ';') 1)
  | none =>
    if atWord "let" s then binding r attributes
    else if atItem s || atExpansion s then itemAfter r attributes
    else valueStatement r attributes

/-- Reads statements up to the end. One that needs a semicolon and has none is the last. -/
def statements (r : Readers) : Reader (List Entry) := do
  let entries ← repeatStep
    (fun entries => do
      if (← get).isEmpty then return none
      if ← skipIf (atMark ';') 1 then return some (.empty :: entries)
      let entry ← statement r
      guard !(entry.isUnclosed && !(← get).isEmpty)
      return some (entry :: entries)) []
  return entries.reverse

end Treewright.Code.Reading
