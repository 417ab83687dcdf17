import Treewright.Code.Shape

/-!
# Readers

The second step of reading code: trees from tokens. A reader takes tokens from the
front of a list and fails where they do not have the form it wants; there is no
turning back, so a reader looks ahead before it decides. This file holds the looks,
the small readers, and the bundle of readers that call each other.
-/

namespace Treewright.Code.Reading

abbrev Reader := StateT (List Token) Option

def atMark (c : Char) : List Token → Bool
  | .mark d _ :: _ => d == c
  | _ => false

/-- Decides whether these marks come next, each joined to the one after it. -/
def atJoined : List Char → List Token → Bool
  | [], _ => true
  | [c], s => atMark c s
  | c :: cs, .mark d joined :: s => d == c && joined && atJoined cs s
  | _, _ => false

/-- Decides whether the marks of a text come next, joined to each other. -/
def atMarks (text : String) (s : List Token) : Bool :=
  atJoined text.toList s

def atGroup (bracket : Bracket) : List Token → Bool
  | .group b _ :: _ => b = bracket
  | _ => false

def atWord (name : String) : List Token → Bool
  | .word w :: _ => !w.raw && w.name == name
  | _ => false

def atOneOf (names : List String) : List Token → Bool
  | .word w :: _ => !w.raw && decide (w.name ∈ names)
  | _ => false

def atAnyWord : List Token → Bool
  | .word _ :: _ => true
  | _ => false

def atIdentifier : List Token → Bool
  | .word w :: _ => w.isIdentifier
  | _ => false

def atLifetime : List Token → Bool
  | .lifetime _ :: _ => true
  | _ => false

def atLiteral : List Token → Bool
  | .literal _ :: _ => true
  | .mark '-' _ :: .literal l :: _ => l.isNumber
  | .word ⟨"true", false⟩ :: _ => true
  | .word ⟨"false", false⟩ :: _ => true
  | _ => false

/-- The words that may stand for an identifier in a path. -/
def pathWords : List String :=
  ["super", "self", "Self", "crate"]

def atPathWord (s : List Token) : Bool :=
  atIdentifier s || atOneOf pathWords s

def skip (n : Nat) : Reader Unit :=
  modify (List.drop n)

/-- Skips `n` tokens if a test holds, and tells whether it does. -/
def skipIf (test : List Token → Bool) (n : Nat) : Reader Bool := do
  if test (← get) then
    skip n
    return true
  else
    return false

/-- Takes `n` tokens for which a test has to hold. -/
def expect (test : List Token → Bool) (n : Nat) : Reader Unit := do
  guard (test (← get))
  skip n

def mark (c : Char) : Reader Unit :=
  expect (atMark c) 1

def marks (text : String) : Reader Unit :=
  expect (atMarks text) text.length

def word (name : String) : Reader Unit :=
  expect (atWord name) 1

/-- Reads a word of this plain spelling if it comes next, and gives it with a blank. -/
def optionalWord (name : String) : Reader String := do
  return if ← skipIf (atWord name) 1 then name ++ " " else ""

def identifierOr (names : List String) : Reader Word := do
  match ← get with
  | .word w :: rest =>
    guard (w.isIdentifier || decide (w.name ∈ names))
    set rest
    return w
  | _ => failure

def identifier : Reader Word :=
  identifierOr []

def lifetime : Reader String := do
  match ← get with
  | .lifetime name :: rest =>
    set rest
    return name
  | _ => failure

def literal : Reader Literal := do
  match ← get with
  | .literal l :: rest =>
    set rest
    return l
  | .mark '-' _ :: .literal l :: rest =>
    guard l.isNumber
    set rest
    return ⟨"-" ++ l.text, l.kind⟩
  | .word w :: rest =>
    guard (!w.raw && (w.name == "true" || w.name == "false"))
    set rest
    return ⟨w.name, .truth⟩
  | _ => failure

/-- Runs a reader on tokens that it has to read completely. -/
def inside {α : Type} (reader : Reader α) (content : List Token) : Reader α :=
  match reader content with
  | some (a, []) => pure a
  | _ => failure

/-- Reads a group in these brackets, whose content another reader reads completely. -/
def group {α : Type} (bracket : Bracket) (reader : Reader α) : Reader α := do
  match ← get with
  | .group b content :: rest =>
    guard (b = bracket)
    set rest
    inside reader content
  | _ => failure

def anyGroup : Reader (Bracket × List Token) := do
  match ← get with
  | .group b content :: rest =>
    set rest
    return (b, content)
  | _ => failure

/-- Decides whether the token that was taken last is a group in braces, where `start` is what
there was before. -/
def tookBrace (start : List Token) : Reader Bool := do
  match (start.take (start.length - (← get).length)).getLast? with
  | some (.group .curly _) => return true
  | _ => return false

/-- Repeats a step at most `limit` times, until it gives nothing new. -/
def repeatUpTo {α : Type} (step : α → Reader (Option α)) : Nat → α → Reader α
  | 0, _ => failure
  | limit + 1, a => do
    match ← step a with
    | none => return a
    | some b => repeatUpTo step limit b

/-- Repeats a step that takes tokens whenever it gives something new. -/
def repeatStep {α : Type} (step : α → Reader (Option α)) (start : α) : Reader α := do
  repeatUpTo step ((← get).length + 1) start

/-- Reads items in a row while a test holds. -/
def manyWhile {α : Type} (test : List Token → Bool) (item : Reader α) : Reader (List α) := do
  let items ← repeatStep
    (fun items => do
      if test (← get) then return some ((← item) :: items) else return none) []
  return items.reverse

/-- Reads at most `limit` items separated by commas, up to where `stop` holds. A comma may
end the list. -/
def separatedUpTo {α : Type} (stop : List Token → Bool) (item : Reader α) :
    Nat → Reader (List α)
  | 0 => failure
  | limit + 1 => do
    if stop (← get) then return []
    let first ← item
    if stop (← get) then return [first]
    mark ','
    return first :: (← separatedUpTo stop item limit)

/-- Reads items separated by commas, up to where `stop` holds. -/
def separatedUntil {α : Type} (stop : List Token → Bool) (item : Reader α) : Reader (List α) := do
  separatedUpTo stop item ((← get).length + 1)

/-- Reads items separated by commas, up to the end. -/
def separated {α : Type} (item : Reader α) : Reader (List α) :=
  separatedUntil List.isEmpty item

/-- Reads a path without arguments, and gives its text. -/
def plainPath : Reader String := do
  let rooted ← skipIf (atMarks "::") 2
  let first ← identifierOr pathWords
  let rest ← manyWhile (atMarks "::") (do skip 2; identifierOr pathWords)
  return (if rooted then "::" else "") ++ "::".intercalate ((first :: rest).map (·.text))

/-- The readers that call each other. Each bundle is built from the one of the next smaller
depth, so that reading ends. -/
structure Readers where
  /-- A word of a path with its arguments. In a value, arguments have to be introduced by a
  double colon. -/
  segment (inValue : Bool) : Reader Segment
  /-- A bound; captured names only if `mayCapture`, a constant trait only if `mayBeConst`. -/
  bound (mayCapture mayBeConst : Bool) : Reader Bound
  /-- A type; bounds joined by `+` are part of it only if `plus` allows. -/
  type (plus : Bool) : Reader Ty
  /-- A value; a structure with its fields only if `records` allows. -/
  value (records : Bool) : Reader Value
  /-- A value without binary operators. -/
  operand (records : Bool) : Reader Value
  /-- The rest of a value after its left part, with operators of at least some strength. -/
  more (records : Bool) (least : Nat) (left : Value) : Reader Value
  statementValue : Reader Value
  /-- A pattern, possibly of several cases. -/
  pattern : Reader Pattern
  singlePattern : Reader Pattern
  /-- The statements of a block, up to the end. -/
  statements : Reader (List Entry)
  item : Reader Entry
  /-- A field of a structure, with its name if `isNamed`. -/
  member ( isNamed : Bool) : Reader Entry

namespace Readers

/-- The bundle of readers that read nothing. -/
def exhausted : Readers where
  segment _ := failure
  bound _ _ := failure
  type _ := failure
  value _ := failure
  operand _ := failure
  more _ _ _ := failure
  statementValue := failure
  pattern := failure
  singlePattern := failure
  statements := failure
  item := failure
  member _ := failure

end Readers

end Treewright.Code.Reading
