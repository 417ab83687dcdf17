import Treewright.Code.Reading.Attribute

/-!
# Reading paths and bounds

Paths with their arguments, the bounds of types, and binders. A bound is a path
whose last word may have the arguments of a function.
-/

namespace Treewright.Code.Reading

/-- Reads a block together with the attributes it starts with. -/
def body (r : Readers) : Reader (List Entry) :=
  group .curly do
    let inner ← innerAttributes r
    return inner.map .attribute ++ (← r.statements)

/-- Decides whether a constant comes next that needs no type to tell it: a literal or a
block. -/
def atConstant (s : List Token) : Bool :=
  atLiteral s || atGroup .curly s

/-- Reads a constant that needs no type to tell it. -/
def constant (r : Readers) : Reader Value := do
  if atLiteral (← get) then return .literal (← literal)
  else return .block "" (← body r)

def after? {α : Type} (c : Char) (reader : Reader α) : Reader (Option α) := do
  if ← skipIf (atMark c) 1 then return some (← reader) else return none

/-- Reads the output of a function, if there is one. -/
def output (r : Readers) (plus : Bool) : Reader (Option Ty) := do
  if ← skipIf (atMarks "->") 2 then return some (← r.type plus) else return none

/-- Reads a path that starts with a word or a double colon. -/
def path (r : Readers) (inValue : Bool) : Reader Path := do
  let rooted ← skipIf (atMarks "::") 2
  let first ← r.segment inValue
  let rest ← manyWhile (fun s => atMarks "::" s && !atGroup .round (s.drop 2))
    (do skip 2; r.segment inValue)
  return .mk rooted (first :: rest)

def anyPath (r : Readers) (inValue : Bool) : Reader Path := do
  if ← skipIf (atMark '<') 1 then
    let subject ← r.type true
    let (rooted, view) ←
      if ← skipIf (atWord "as") 1 then
        match ← path r false with
        | .mk rooted view => pure (rooted, view)
        | .within .. => failure
      else pure (false, [])
    mark '>'
    marks "::"
    let first ← r.segment inValue
    let rest ← manyWhile (atMarks "::") (do skip 2; r.segment inValue)
    return .within subject rooted view (first :: rest)
  else path r inValue

/-- Reads bounds joined by `+` up to where `stop` holds; a `+` may end them. -/
def boundsUntil {α : Type} (stop : List Token → Bool) (bound : Reader α) : Reader (List α) := do
  if stop (← get) then return []
  let first ← bound
  let more ← manyWhile (fun s => atMark '+' s && !stop s.tail) (do skip 1; bound)
  let _ ← skipIf (atMark '+') 1
  return first :: more

/-- Reads an argument between angle brackets. A single word followed by an equals sign or a
colon names the argument. -/
def arg (r : Readers) : Reader Arg := do
  let s ← get
  if atLifetime s && !atMark '+' s.tail then return .lifetime (← lifetime)
  if atConstant s then return .value (← constant r)
  let t ← r.type true
  match t with
  | .path (.mk false [name]) =>
    if ← skipIf (atMark '=') 1 then
      if atConstant (← get) then return .equalValue name (← constant r)
      else return .equalType name (← r.type true)
    else if ← skipIf (atMark ':') 1 then
      return .bounded name
        (← boundsUntil (fun s => atMark ',' s || atMark '>' s) (r.bound false true))
    else return .type t
  | t => return .type t

def args (r : Readers) : Reader (List Arg) := do
  mark '<'
  let items ← separatedUntil (atMark '>') (arg r)
  mark '>'
  return items

def atArgs (s : List Token) : Bool :=
  atMark '<' s && !atMarks "<=" s && !atMarks "<<=" s

/-- Decides whether an argument list after a double colon comes next. -/
def atIntroducedArgs (s : List Token) : Bool :=
  atMarks "::" s && atMark '<' (s.drop 2)

def segment (r : Readers) (inValue : Bool) : Reader Segment := do
  if atOneOf ["super", "self", "crate", "try"] (← get) then
    return .plain (← identifierOr ["super", "self", "crate", "try"])
  let w ← identifierOr ["Self"]
  let s ← get
  if atIntroducedArgs s then
    skip 2
    return .angle w (← args r)
  else if !inValue && atArgs s then return .angle w (← args r)
  else return .plain w

/-- Reads the names that a type may capture. -/
def captures : Reader Bound := do
  word "use"
  mark '<'
  let names ← separatedUntil (atMark '>') do
    if atLifetime (← get) then lifetime else return (← identifierOr ["Self"]).text
  mark '>'
  let isLifetime (name : String) : Bool := "'".isPrefixOf name
  return .captures (names.filter isLifetime ++ names.filter (!isLifetime ·))

/-- Reads the constant that a parameter stands for where none is given: one that needs no
type to tell it, or a name. -/
def standardConstant (r : Readers) : Reader Value := do
  if atIdentifier (← get) then return .path (.mk false [.plain (← identifier)])
  else constant r

def genericParam (r : Readers) : Reader Param := do
  let attributes ← attributes r
  let stops (s : List Token) : Bool := s.isEmpty || atMark ',' s || atMark '>' s || atMark '=' s
  match ← get with
  | .lifetime name :: rest =>
    set rest
    let bounds ← after? ':' (boundsUntil stops lifetime)
    return .lifetime attributes name (bounds.getD [])
  | .word ⟨"const", false⟩ :: rest =>
    set rest
    let name ← identifier
    mark ':'
    let type ← r.type true
    return .constant attributes name type (← after? '=' (standardConstant r))
  | _ =>
    let name ← identifier
    let bounds ← after? ':' (boundsUntil stops (r.bound false true))
    return .type attributes name (bounds.getD []) (← after? '=' (r.type true))

/-- Decides whether the parameters of an item come next, and not a path with a subject. -/
def atGenerics (s : List Token) : Bool :=
  let first := s.tail
  let second := s.drop 2
  atMark '<' s &&
    (atMark '>' first || atMark '#' first || atWord "const" first ||
      ((atLifetime first || atIdentifier first) &&
        (atMark '>' second || atMark ',' second || atMark '=' second ||
          (atMark ':' second && !atMarks "::" second))))

def binder (r : Readers) : Reader (Bool × List Param) := do
  if ← skipIf (atWord "for") 1 then
    mark '<'
    let params ← separatedUntil (atMark '>') (genericParam r)
    mark '>'
    return (true, params)
  else return (false, [])

/-- Reads the path of a trait. Its last word may have the arguments of a function. -/
def traitPath (r : Readers) : Reader Path := do
  let p ← path r false
  match p, p.segments.getLast? with
  | .mk rooted segments, some last =>
    let s ← get
    let introduced := atMarks "::" s && atGroup .round (s.drop 2)
    if last.hasNoArgs && (introduced || atGroup .round s) then
      skip (if introduced then 2 else 0)
      let inputs ← group .round (separated (r.type true))
      let result ← output r false
      return .mk rooted (segments.dropLast ++ [.call last.word inputs result])
    else return p
  | p, _ => return p

/-- Decides whether the mark of a trait comes next that has to be constant where it is used,
or always. -/
def atConstMark : List Token → Bool
  | .group .square [.word ⟨"const", false⟩] :: _ => true
  | s => atWord "const" s

/-- Reads a trait with its binder or its question mark. A constant trait has no written
form. -/
def traitBound (r : Readers) (grouped mayBeConst : Bool) : Reader Bound := do
  let (binds, params) ← binder r
  let isConst ← skipIf atConstMark 1
  guard (mayBeConst || !isConst)
  let optional ← skipIf (atMark '?') 1
  guard !(binds && optional)
  let p ← traitPath r
  if isConst then return .formless (!grouped && p.ending = .brace)
  else return .trait grouped optional binds params p

def bound (r : Readers) (mayCapture mayBeConst : Bool) : Reader Bound := do
  let s ← get
  if atLifetime s then return .lifetime (← lifetime)
  else if atWord "use" s then
    guard mayCapture
    captures
  else if atGroup .round s then group .round (traitBound r true mayBeConst)
  else traitBound r false mayBeConst

def atBound (mayBeConst : Bool) (s : List Token) : Bool :=
  atAnyWord s || atLifetime s || atMarks "::" s || atMark '?' s || atGroup .round s ||
    (mayBeConst && atGroup .square s)

/-- Reads the bounds after the first one; a `+` may end the list if `mayTrail` allows. Only
the bounds of some type, and not of a value behind them, capture names and may be constant. -/
def moreBounds (r : Readers) (ofSome mayTrail : Bool) : Reader (List Bound) := do
  let more ← manyWhile (fun s => atMark '+' s && (atBound ofSome s.tail || !mayTrail))
    (do skip 1; r.bound ofSome ofSome)
  let _ ← skipIf (atMark '+') 1
  return more

/-- Reads bounds of which one at least is a trait; more than one only if `plus` allows. -/
def bounds (r : Readers) (ofSome plus : Bool) : Reader (List Bound) := do
  let first ← r.bound ofSome ofSome
  let more ← if plus then moreBounds r ofSome true else pure []
  guard ((first :: more).any fun | .trait .. => true | .formless _ => true | _ => false)
  return first :: more

end Treewright.Code.Reading
