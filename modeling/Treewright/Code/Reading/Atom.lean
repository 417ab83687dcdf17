import Treewright.Code.Reading.Value

/-!
# Reading atoms

The values that start with a word, a literal or a bracket. In the head of a branch or
a loop a structure with its fields is not read, because the brace there starts the
body.
-/

namespace Treewright.Code.Reading

def fieldValue (r : Readers) : Reader Entry := do
  let attributes ← attributes r
  let (isName, name) ← member
  if atMark ':' (← get) || !isName then
    mark ':'
    return .field attributes name (some (← r.value true))
  else return .field attributes name none

/-- Reads the fields of a structure, up to the end, and the value that the others come
from. -/
def fieldValues (r : Readers) : Reader (List Entry × Option Value) := do
  let (items, _) ← repeatStep
    (fun (read : List Entry × Bool) => do
      let (items, isDone) := read
      let s ← get
      if isDone || s.isEmpty || atMarks ".." s then return none
      let item ← fieldValue r
      if (← get).isEmpty then return some (item :: items, true)
      mark ','
      return some (item :: items, false)) ([], false)
  if ← skipIf (atMarks "..") 2 then
    if (← get).isEmpty then return (items.reverse, none)
    else return (items.reverse, some (← r.value true))
  else return (items.reverse, none)

/-- Reads a value that starts with a path: the path, a call of an expansion, or a structure
with its fields. -/
def pathValue (r : Readers) (records : Bool) : Reader Value := do
  let p ← anyPath r true
  let s ← get
  match p.plainName? with
  | some name =>
    if atMark '!' s && !atMarks "!=" s then
      skip 1
      let (bracket, content) ← anyGroup
      return .invoked ⟨name, bracket, content⟩
  | none => pure ()
  if records && atGroup .curly s then
    let (fields, rest) ← group .curly (fieldValues r)
    return .record p fields rest
  else return .path p

def bracketedValue (r : Readers) : Reader Value := do
  let trailing := (← get).getLast?.any fun | .mark ',' _ => true | _ => false
  let items ← separated (r.value true)
  match items, trailing with
  | [item], false => return .group item
  | items, _ => return .tuple items

/-- Reads what stands between square brackets: the items of an array, or one item and how
often it is repeated. -/
def arrayValue (r : Readers) : Reader Value := do
  if (← get).isEmpty then return .array []
  let first ← r.value true
  if ← skipIf (atMark ';') 1 then return .repeated first (← r.value true)
  else if (← get).isEmpty then return .array [first]
  else
    mark ','
    return .array (first :: (← separated (r.value true)))

def closureParam (r : Readers) : Reader Pattern := do
  let attributes ← attributes r
  let p ← r.singlePattern
  if ← skipIf (atMark ':') 1 then return withAttributes attributes (.typed p (← r.type true))
  else return withAttributes attributes p

/-- Reads a closure. One with an output has a block as its body. -/
def closure (r : Readers) (records : Bool) : Reader Value := do
  let (binds, binder) ← binder r
  let constant ← optionalWord "const"
  let fixed ← optionalWord "static"
  let waiting ← optionalWord "async"
  let moving ← optionalWord "move"
  mark '|'
  let params ← separatedUntil (atMark '|') (closureParam r)
  mark '|'
  let lead := constant ++ fixed ++ waiting ++ moving
  match ← output r true with
  | some t =>
    let steps ← group .curly r.statements
    return .closure binds binder lead params (some t) (.block "" steps)
  | none => return .closure binds binder lead params none (← r.value records)

def clause (r : Readers) : Reader (Value × List Entry) := do
  word "if"
  let condition ← r.value false
  return (condition, ← group .curly r.statements)

def branch (r : Readers) : Reader Value := do
  let (condition, steps) ← clause r
  let more ← manyWhile (fun s => atWord "else" s && atWord "if" s.tail) (do skip 1; clause r)
  let last ←
    if ← skipIf (atWord "else") 1 then
      pure (some (Value.block "" (← group .curly r.statements)))
    else pure none
  return .branch condition steps
    (more.foldr (fun (condition, steps) rest => some (.branch condition steps rest)) last)

/-- Reads a case of a choice. A comma has to follow unless the case is the last one or its
value ends itself. -/
def arm (r : Readers) : Reader Entry := do
  let attributes ← attributes r
  let item ← r.pattern
  let guarded ← if ← skipIf (atWord "if") 1 then pure (some (← r.value true)) else pure none
  marks "=>"
  let value ← r.statementValue
  if !value.endsItself && !(← get).isEmpty then mark ','
  else let _ ← skipIf (atMark ',') 1
  return .arm attributes item guarded value.unwrapped

def choice (r : Readers) : Reader Value := do
  word "match"
  let subject ← r.value false
  let entries ← group .curly do
    let inner ← innerAttributes r
    return inner.map .attribute ++ (← manyWhile (!·.isEmpty) (arm r))
  return .cases subject entries

def atBoundClosure (s : List Token) : Bool :=
  atWord "for" s && atGenerics s.tail

def atBraced (s : List Token) : Bool :=
  atOneOf ["if", "while", "loop", "match", "unsafe"] s || (atWord "for" s && !atBoundClosure s) ||
    (atOneOf ["try", "const"] s && atGroup .curly s.tail) || atGroup .curly s || atLifetime s

def labelled (r : Readers) (label : String) : Reader Value := do
  let s ← get
  if ← skipIf (atWord "while") 1 then
    let condition ← r.value false
    return .whilst label condition (← body r)
  else if ← skipIf (atWord "for") 1 then
    let item ← r.pattern
    word "in"
    let source ← r.value false
    return .forEach label item source (← body r)
  else if ← skipIf (atWord "loop") 1 then return .forever label (← body r)
  else
    guard (atGroup .curly s)
    return .block label (← body r)

def braced (r : Readers) : Reader Value := do
  let s ← get
  if atWord "if" s then branch r
  else if atWord "match" s then choice r
  else if atWord "unsafe" s then
    skip 1
    return .block "unsafe " (← body r)
  else if atWord "const" s then
    skip 1
    return .block "const " (← body r)
  else if atWord "try" s then
    skip 1
    return .block "try " (← group .curly r.statements)
  else if atLifetime s then
    let name ← lifetime
    mark ':'
    labelled r (name ++ ": ")
  else labelled r ""

def atValue (s : List Token) : Bool :=
  let alone (text : String) (others : List String) : Bool :=
    atMarks text s && others.all (!atMarks · s)
  (atAnyWord s && !atWord "as" s) || atGroup .round s || atGroup .square s || atGroup .curly s ||
    atLiteral s || alone "!" ["!="] || alone "-" ["-=", "->"] || alone "*" ["*="] ||
    alone "|" ["|="] || alone "&" ["&="] || atMarks ".." s || alone "<" ["<=", "<<="] ||
    atMarks "::" s || atLifetime s || atMark '#' s

/-- Reads the end of a loop, a function or a step of it. A label is never followed by a
colon. -/
def jump (r : Readers) (records : Bool) : Reader Value := do
  if ← skipIf (atWord "continue") 1 then
    let label ← if atLifetime (← get) then pure (" " ++ (← lifetime)) else pure ""
    return .jump ("continue" ++ label) none
  else if ← skipIf (atWord "break") 1 then
    let label ← if atLifetime (← get) then pure (" " ++ (← lifetime)) else pure ""
    let s ← get
    guard (label.isEmpty || !atMark ':' s)
    if atValue s && (records || !atGroup .curly s) then
      return .jump ("break" ++ label) (some (← r.value true))
    else return .jump ("break" ++ label) none
  else
    let name := if atWord "return" (← get) then "return" else "yield"
    word name
    if atValue (← get) then return .jump name (some (← r.value true))
    else return .jump name none

def atClosure (s : List Token) : Bool :=
  atMark '|' s || atWord "move" s || atBoundClosure s ||
    (atWord "const" s && !atGroup .curly s.tail) || atWord "static" s ||
    (atWord "async" s && (atMark '|' s.tail || atWord "move" s.tail))

/-- Decides whether a block that waits comes next. -/
def atWaiting (s : List Token) : Bool :=
  atWord "async" s &&
    (atGroup .curly s.tail || (atWord "move" s.tail && atGroup .curly (s.drop 2)))

/-- Reads a call that is built into the language and has no written form. -/
def builtIn : Reader Value := do
  word "builtin"
  mark '#'
  let _ ← identifier
  let (bracket, _) ← anyGroup
  guard (bracket = .round)
  return .formless false

/-- Reads a value without operators, calls and fields. -/
def atom (r : Readers) (records : Bool) : Reader Value := do
  let s ← get
  if atLiteral s then return .literal (← literal)
  else if atWaiting s then
    skip 1
    let moving ← optionalWord "move"
    return .block ("async " ++ moving) (← group .curly r.statements)
  else if atClosure s then closure r records
  else if atBraced s then braced r
  else if atWord "builtin" s && atMark '#' s.tail then builtIn
  else if atPathWord s || atMarks "::" s || atMark '<' s ||
      (atWord "try" s && (atMark '!' s.tail || atMarks "::" s.tail)) then
    pathValue r records
  else if atGroup .round s then group .round (bracketedValue r)
  else if atOneOf ["break", "continue", "return", "yield"] s then jump r records
  else if ← skipIf (atWord "become") 1 then
    let _ ← r.value true
    return .formless (← tookBrace s)
  else if atGroup .square s then group .square (arrayValue r)
  else if ← skipIf (atWord "let") 1 then
    let item ← r.pattern
    mark '='
    let first ← r.operand records
    return .matching item (← r.more records Strength.compare first)
  else if atMarks ".." s then rangeFrom r records none
  else if ← skipIf (atWord "_") 1 then return .inferred
  else failure

def operand (r : Readers) (records : Bool) : Reader Value :=
  operandOf r (atom r records) records

/-- Reads a value at the start of a statement. A block, a loop, a branch or a choice is the
whole value there, unless a point or a question mark follows it. -/
def statementValue (r : Readers) : Reader Value := do
  let attributes ← attributes r
  if atBraced (← get) then
    let v ← braced r
    let s ← get
    if (atMark '.' s && !atMarks ".." s) || atMark '?' s then
      let v ← trailers r v
      r.more true Strength.least (v.withAttributes attributes)
    else return v.withAttributes attributes
  else
    let v ← r.operand true
    r.more true Strength.least (v.withAttributes attributes)

end Treewright.Code.Reading
