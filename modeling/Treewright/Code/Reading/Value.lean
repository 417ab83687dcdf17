import Treewright.Code.Reading.Pattern

/-!
# Reading values

Values are read by precedence: an operand, and then operators of at least some
strength, each with the operands that bind more tightly to it. An operand is an atom
with the calls, fields and indices after it, behind its unary operators.
-/

namespace Treewright.Code.Reading

/-- The binary operator that comes next, with its strength. -/
def operator? (s : List Token) : Option (String × Nat) :=
  operators.find? fun (text, _) => atMarks text s

def atAssign (s : List Token) : Bool :=
  atMark '=' s && !atMarks "=>" s

def nextStrength (s : List Token) : Nat :=
  match operator? s with
  | some (_, strength) => strength
  | none =>
    if atAssign s then Strength.assign
    else if atMarks ".." s then Strength.range
    else if atWord "as" s then Strength.cast
    else Strength.least

def rightOperand (r : Readers) (records : Bool) (strength : Nat) : Reader Value := do
  let first ← r.operand records
  repeatStep
    (fun left => do
      let s ← get
      let next := nextStrength s
      if strength < next || (next == strength && strength == Strength.assign) then
        let value ← r.more records next left
        return if (← get).length == s.length then none else some value
      else return none) first

def isComparison : Value → Bool
  | .binary _ operator _ => decide (operator ∈ ["==", "<=", "!=", ">=", "<", ">"])
  | _ => false

/-- Decides whether a range has no upper bound before what comes next. -/
def omitsStop (records : Bool) (s : List Token) : Bool :=
  s.isEmpty || (atMark '.' s && !atMarks ".." s) || (!records && atGroup .curly s) ||
    atWord "as" s ||
    [",", ";", "?", "=>", "=", "+", "/", "%", "^", ">", "<=", "!=", "-=", "*=", "&=", "|=",
      "<<="].any (atMarks · s)

def rangeFrom (r : Readers) (records : Bool) (start : Option Value) : Reader Value := do
  let s ← get
  guard (!atMarks "..." s)
  if ← skipIf (atMarks "..=") 3 then
    return .range start "..=" (some (← rightOperand r records Strength.range))
  else
    marks ".."
    if omitsStop records (← get) then return .range start ".." none
    else return .range start ".." (some (← rightOperand r records Strength.range))

/-- Decides whether something comes next that cannot follow a cast. -/
def atTrailer (s : List Token) : Bool :=
  (atMark '.' s && !atMarks ".." s) || atMark '?' s || atGroup .square s || atGroup .round s

/-- Reads the rest of a value after its left part. -/
def more (r : Readers) (records : Bool) (least : Nat) (left : Value) : Reader Value :=
  repeatStep
    (fun left => do
      let s ← get
      if left.isRange then return none
      match operator? s with
      | some (text, strength) =>
        if strength < least then return none
        guard !(strength == Strength.compare && isComparison left)
        skip text.length
        return some (.binary left text (← rightOperand r records strength))
      | none =>
        if least ≤ Strength.assign && atAssign s then
          skip 1
          return some (.assign left (← rightOperand r records Strength.assign))
        else if least ≤ Strength.range && atMarks ".." s then
          return some (← rangeFrom r records (some left))
        else if least ≤ Strength.cast && atWord "as" s then
          skip 1
          let t ← r.type false
          guard (!atTrailer (← get))
          return some (.cast left t)
        else return none) left

def value (r : Readers) (records : Bool) : Reader Value := do
  r.more records Strength.least (← r.operand records)

/-- The indices of nested tuples that a number with points stands for. -/
def indices? (text : String) : Option (List String) :=
  (text.splitOn ".").mapM fun part =>
    match Literal.takeNumber part.toList with
    | some (l, []) => indexText? l
    | _ => none

/-- Reads what follows the point after a value: a field, a method call, or indices that look
like a number with a point. -/
def afterPoint (r : Readers) (base : Value) : Reader Value := do
  let (base, isDone) ←
    match ← get with
    | .literal l :: rest =>
      if l.kind = .float then
        set rest
        let trailing := ".".toList.isSuffixOf l.text.toList
        match indices? (if trailing then String.ofList l.text.toList.dropLast else l.text) with
        | some indices => pure (indices.foldl .field base, !trailing)
        | none => failure
      else pure (base, false)
    | _ => pure (base, false)
  if isDone then return base
  if ← skipIf (atWord "await") 1 then return .field base "await"
  match ← get with
  | .word w :: rest =>
    guard w.isIdentifier
    set rest
    if atMarks "::" rest then
      skip 2
      let types ← args r
      return .method base (.angle w types) (← group .round (separated (r.value true)))
    else if atGroup .round rest then
      return .method base (.plain w) (← group .round (separated (r.value true)))
    else return .field base w.text
  | _ => return .field base (← member).2

def trailers (r : Readers) (start : Value) : Reader Value :=
  repeatStep
    (fun base => do
      let s ← get
      if atGroup .round s then
        return some (.call base (← group .round (separated (r.value true))))
      else if atGroup .square s then return some (.index base (← group .square (r.value true)))
      else if base.isRange then return none
      else if atMark '?' s then
        skip 1
        return some (.attempt base)
      else if atMark '.' s && !atMarks ".." s then
        skip 1
        return some (← afterPoint r base)
      else return none) start

/-- Reads a value without binary operators. Attributes belong to the operand with all that
follows it, and a range has none. -/
def operandOf (r : Readers) (atom : Reader Value) (records : Bool) : Reader Value := do
  let attributes ← attributes r
  let s ← get
  if atMark '&' s then
    skip 1
    let rest ← get
    let lead ←
      if atWord "raw" rest && atOneOf ["mut", "const"] rest.tail then
        let kind := if atWord "mut" rest.tail then "mut " else "const "
        skip 2
        pure ("&raw " ++ kind)
      else pure ("&" ++ (← optionalWord "mut"))
    return Value.withAttributes attributes (.unary lead (← r.operand records))
  else if atMark '*' s || atMark '!' s || atMark '-' s then
    skip 1
    let text := if atMark '*' s then "*" else if atMark '!' s then "!" else "-"
    return Value.withAttributes attributes (.unary text (← r.operand records))
  else
    let v ← trailers r (← atom)
    guard (attributes.isEmpty || !v.isRange)
    return v.withAttributes attributes

end Treewright.Code.Reading
