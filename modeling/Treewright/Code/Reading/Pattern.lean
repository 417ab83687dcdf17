import Treewright.Code.Reading.Path

/-!
# Reading patterns

A pattern is told by its first one or two tokens. Ranges have bounds that are
literals, paths or constant blocks, and a range without an upper bound ends where
something follows that a pattern cannot contain.
-/

namespace Treewright.Code.Reading

/-- Reads the dots of a range in a pattern. Three dots are an old spelling. -/
def patternDots : Reader String := do
  if ← skipIf (atMarks "..=") 3 then return "..="
  else if ← skipIf (atMarks "...") 3 then return "..="
  else
    marks ".."
    return ".."

def omitsBound (s : List Token) : Bool :=
  s.isEmpty || atMark '|' s || atMark '=' s || (atMark ':' s && !atMarks "::" s) ||
    atMark ',' s || atMark ';' s || atWord "if" s

/-- Reads a bound of a range: a literal, a path or a constant block. -/
def rangeBound (r : Readers) : Reader Value := do
  let s ← get
  if atLiteral s then return .literal (← literal)
  else if atWord "const" s then
    skip 1
    return .block "const " (← body r)
  else return .path (← anyPath r true)

/-- Reads a range after its lower bound, from the dots on. -/
def patternRange (r : Readers) (start : Value) : Reader Pattern := do
  let dots ← patternDots
  if omitsBound (← get) then
    guard (dots == "..")
    return .value (.range (some start) dots none)
  else return .value (.range (some start) dots (some (← rangeBound r)))

/-- Reads a range without lower bound, or the rest of a list. -/
def openRange (r : Readers) : Reader Pattern := do
  let s ← get
  guard (!atMarks "..." s)
  let dots ← patternDots
  if omitsBound (← get) then
    guard (dots == "..")
    return .value (.range none dots none)
  else return .value (.range none dots (some (← rangeBound r)))

def isRest : Pattern → Bool
  | .value (.range none _ none) => true
  | _ => false

def isHalfRange : Pattern → Bool
  | .value (.range (some _) _ none) => true
  | .value (.range none _ (some _)) => true
  | _ => false

def indexText? (l : Literal) : Option String :=
  match l.naturalValue? with
  | some n => if n < Nat.pow 2 32 then some (toString n) else none
  | none => none

def member : Reader (Bool × String) := do
  match ← get with
  | .literal l :: rest =>
    match indexText? l with
    | some text =>
      set rest
      return (false, text)
    | none => failure
  | _ => return (true, (← identifier).text)

def bindingName : Reader Pattern := do
  let byReference ← skipIf (atWord "ref") 1
  let mutable ← skipIf (atWord "mut") 1
  return .name byReference mutable (← identifierOr ["self"])

def fieldPattern (r : Readers) : Reader Pattern := do
  let s ← get
  if atOneOf ["box", "ref", "mut"] s then
    let isFormless ← skipIf (atWord "box") 1
    let byReference ← skipIf (atWord "ref") 1
    let mutable ← skipIf (atWord "mut") 1
    let name ← identifier
    return if isFormless then .formless else .name byReference mutable name
  let word? := match s with
    | .word w :: _ => some w
    | _ => none
  let (isName, name) ← member
  match word?, isName && !atMark ':' (← get) with
  | some w, true => return .name false false w
  | _, _ =>
    mark ':'
    return .field name (← r.pattern)

def withAttributes (attributes : List Attribute) (p : Pattern) : Pattern :=
  if attributes.isEmpty then p else .attributed attributes p

/-- Reads the fields of a structure in a pattern, up to the end. If dots end them, gives the
attributes of the dots. -/
def fieldPatterns (r : Readers) : Reader (List Pattern × Option (List Attribute)) := do
  let (items, rest) ← repeatStep
    (fun (read : List Pattern × Option (List Attribute)) => do
      let (items, rest) := read
      if rest.isSome || (← get).isEmpty then return none
      let attributes ← attributes r
      if ← skipIf (atMarks "..") 2 then return some (items, some attributes)
      let item ← fieldPattern r
      if !(← get).isEmpty then mark ','
      return some (withAttributes attributes item :: items, none)) ([], none)
  return (items.reverse, rest)

/-- A path without the type it is looked up in. -/
def withoutSubject : Path → Path
  | .mk rooted segments => .mk rooted segments
  | .within _ rooted view rest => .mk (rooted || view.isEmpty) (view ++ rest)

def pathPattern (r : Readers) : Reader Pattern := do
  let p ← anyPath r true
  let s ← get
  match p.plainName? with
  | some name =>
    if atMark '!' s && !atMarks "!=" s then
      skip 1
      let (bracket, content) ← anyGroup
      return .value (.invoked ⟨name, bracket, content⟩)
  | none => pure ()
  if atGroup .curly s then
    let (fields, rest) ← group .curly (fieldPatterns r)
    return .record p fields rest.isSome (rest.getD [])
  else if atGroup .round s then
    return .variant (withoutSubject p) (← group .round (separated r.pattern))
  else if atMarks ".." s then patternRange r (.path p)
  else return .value (.path p)

/-- Decides whether a pattern comes next that starts with a path and is not a name alone. -/
def atPathPattern (s : List Token) : Bool :=
  let next := s.tail
  (atIdentifier s &&
      (atMarks "::" next || atMark '!' next || atGroup .curly next || atGroup .round next ||
        atMarks ".." next)) ||
    (atWord "self" s && atMarks "::" next) || atMarks "::" s || atMark '<' s ||
    atOneOf ["Self", "super", "crate"] s

def bracketedPattern (r : Readers) : Reader Pattern := do
  let trailing := (← get).getLast?.any fun | .mark ',' _ => true | _ => false
  let items ← separated r.pattern
  match items, trailing with
  | [item], false => return if isRest item then .tuple [item] false else .group item
  | items, trailing => return .tuple items trailing

def singlePattern (r : Readers) : Reader Pattern := do
  let s ← get
  if atPathPattern s then pathPattern r
  else if atWord "_" s then
    skip 1
    return .value .inferred
  else if atWord "box" s then
    skip 1
    let _ ← r.singlePattern
    return .formless
  else if atMark '-' s || atLiteral s || atWord "const" s then
    let start ← rangeBound r
    if atMarks ".." (← get) then patternRange r start else return .value start
  else if atOneOf ["ref", "mut", "self"] s || atIdentifier s then
    let name ← bindingName
    if ← skipIf (atMark '@') 1 then return .named name (← r.singlePattern) else return name
  else if atMark '&' s then
    skip 1
    let mutable ← skipIf (atWord "mut") 1
    return .reference mutable (← r.singlePattern)
  else if atGroup .round s then group .round (bracketedPattern r)
  else if atGroup .square s then
    let items ← group .square (separated r.pattern)
    guard (items.all fun p => !isHalfRange p)
    return .slice items
  else if atMarks ".." s then openRange r
  else failure

/-- Decides whether another case of a pattern follows. -/
def atCase (s : List Token) : Bool :=
  atMark '|' s && !atMarks "||" s && !atMarks "|=" s

def pattern (r : Readers) : Reader Pattern := do
  let leading ← skipIf (atMark '|') 1
  let first ← r.singlePattern
  let more ← manyWhile atCase (do skip 1; r.singlePattern)
  return if leading || !more.isEmpty then .either (first :: more) else first

end Treewright.Code.Reading
