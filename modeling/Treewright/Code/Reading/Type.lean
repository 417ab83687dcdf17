import Treewright.Code.Reading.Path

/-!
# Reading types

A type is told by its first token. What needs a second look are round brackets, which
may hold a tuple, a type or a bound, and paths, which may start a list of bounds.
-/

namespace Treewright.Code.Reading

/-- Reads the language of a function, and gives what is written for it. -/
def foreignLead : Reader String := do
  let lead ← optionalWord "extern"
  match lead, ← get with
  | "", _ => return ""
  | _, .literal l :: rest =>
    guard (l.kind = .text)
    set rest
    return lead ++ l.text ++ " "
  | _, _ => return lead

def functionLead : Reader String := do
  return (← optionalWord "unsafe") ++ (← foreignLead)

/-- Reads the name of a parameter and its colon, if there is one. Dots do not follow the name
of the value that a method belongs to. -/
def paramName (isFirst : Bool) : Reader (Option Word) := do
  match ← get with
  | .word w :: rest =>
    let mayName := w.isIdentifier || w.name == "_" ||
      (isFirst && w.name == "self" && !atMarks "..." rest.tail)
    if mayName && atMark ':' rest && !atMarks "::" rest then
      set rest.tail
      return some w
    else return none
  | _ => return none

/-- Reads the value that a method belongs to, marked as mutable, where a parameter of a
function type is wanted. It has no written form there. -/
def mutableSelf (r : Readers) : Reader Ty := do
  word "mut"
  word "self"
  if ← skipIf (fun s => atMark ':' s && !atMarks "::" s) 1 then
    let _ ← r.type true
  return .formless false

/-- Reads the parameters of a function type, up to the end. Dots can only come last. -/
def params (r : Readers) : Reader (List Param) := do
  let read ← repeatStep
    (fun (read : List Param × Bool) => do
      let (items, isDone) := read
      if isDone || (← get).isEmpty then return none
      let attributes ← attributes r
      let name ← paramName items.isEmpty
      if ← skipIf (atMarks "...") 3 then
        let _ ← skipIf (atMark ',') 1
        return some (.variadic attributes name :: items, true)
      else
        let s ← get
        let t ←
          if items.isEmpty && atWord "mut" s && atWord "self" s.tail then mutableSelf r
          else r.type true
        if !(← get).isEmpty then mark ','
        return some (.typed attributes name t :: items, false)) ([], false)
  return read.1.reverse

def function (r : Readers) (binds : Bool) (binder : List Param) : Reader Ty := do
  let lead ← functionLead
  word "fn"
  let params ← group .round (params r)
  return .function binds binder lead params (← output r false)

/-- The bound that a bracketed type becomes when more bounds follow it: a path, or a single
bound without a word before it. -/
def bracketedBound? : Ty → Option Bound
  | .path (.mk rooted segments) => some (.trait true false false [] (.mk rooted segments))
  | .dyn true [.trait _ optional binds binder p] => some (.trait true optional binds binder p)
  | _ => none

/-- What stands between the round brackets of a type. -/
inductive Bracketed where
  | tuple (items : List Ty)
  | type (t : Ty)
  /-- A bound, which more bounds may follow. -/
  | bound (b : Bound)

/-- Reads what stands between round brackets, up to the end. -/
def bracketed (r : Readers) : Reader Bracketed := do
  let s ← get
  if s.isEmpty then return .tuple []
  else if atLifetime s then return .type (.group (.dyn true (← bounds r false true)))
  else if atMark '?' s then return .bound (← traitBound r true false)
  else
    let first ← r.type true
    if ← skipIf (atMark ',') 1 then return .tuple (first :: (← separated (r.type true)))
    else return .type first

def bracketedType (r : Readers) (plus : Bool) : Reader Ty := do
  let s ← get
  match s, ← group .round (bracketed r) with
  | _, .tuple items => return .tuple items
  | _, .bound b => return .dyn true (b :: (← moreBounds r false false))
  | .group _ content :: _, .type t =>
    if atLifetime content then return t
    let closed := content.getLast?.all fun | .mark '+' _ => false | _ => true
    match bracketedBound? t with
    | some b =>
      if plus && closed && atMark '+' (← get) then
        return .dyn true (b :: (← moreBounds r false false))
      else return .group t
    | none => return .group t
  | _, .type t => return .group t

/-- Decides whether a function type comes next, after its binder. -/
def atFunction (s : List Token) : Bool :=
  atOneOf ["fn", "unsafe", "extern"] s

/-- Reads a type that starts with a path: the path, a call of an expansion, or bounds. -/
def pathType (r : Readers) (plus binds : Bool) (binder : List Param) : Reader Ty := do
  let p ← anyPath r false
  let s ← get
  match p, p.plainName? with
  | .within .., _ => return .path p
  | .mk .., some name =>
    if atMark '!' s && !atMarks "!=" s then
      skip 1
      let (bracket, content) ← anyGroup
      return .invoked ⟨name, bracket, content⟩
  | _, _ => pure ()
  if binds || (plus && atMark '+' s) then
    let more ← if plus then moreBounds r false true else pure []
    return .dyn true (.trait false false binds binder p :: more)
  else return .path p

def type (r : Readers) (plus : Bool) : Reader Ty := do
  let (binds, binder) ← binder r
  let s ← get
  guard (!binds || atFunction s || atPathWord s)
  if atFunction s then function r binds binder
  else if atPathWord s || atMarks "::" s || atMark '<' s then pathType r plus binds binder
  else if atGroup .round s then bracketedType r plus
  else if atGroup .square s then
    group .square do
      let item ← r.type true
      if ← skipIf (atMark ';') 1 then return .array item (← r.value true)
      else return .slice item
  else if atMark '*' s then
    skip 1
    let mutable ← skipIf (atWord "mut") 1
    if !mutable then word "const"
    return .pointer mutable (← r.type false)
  else if atMark '&' s then
    skip 1
    let name ← if atLifetime (← get) then pure (some (← lifetime)) else pure none
    let mutable ← skipIf (atWord "mut") 1
    return .reference name mutable (← r.type false)
  else if atMark '!' s then
    skip 1
    return .never
  else if atWord "_" s then
    skip 1
    return .inferred
  else if atWord "dyn" s then
    skip 1
    let isFormless ← skipIf (atMark '*') 1
    let limits ← bounds r false plus
    if isFormless then return .formless (← tookBrace s) else return .dyn false limits
  else if atWord "impl" s then
    skip 1
    return .impl (← bounds r true plus)
  else if atLifetime s then return .dyn true (← bounds r false true)
  else failure

end Treewright.Code.Reading
