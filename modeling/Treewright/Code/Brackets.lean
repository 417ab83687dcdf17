import Treewright.Code.Shape

/-!
# Where brackets are needed

A value is read back as it was only if no part of it can take what stands around it.
Most values that are read need no brackets of their own. The exceptions come from
values that are open to the right: a range without an end stops the reading of
operators, so that what follows it belongs to something further out.
-/

namespace Treewright.Code

/-- What stands around a value, as far as it matters to brackets. -/
structure Surroundings where
  /-- The strength of the operator before the value. -/
  before : Nat := Strength.least
  /-- The strength of the operator after the value. -/
  after : Nat := Strength.least
  /-- The value stands in the head of a branch, a choice or a loop. -/
  inHead : Bool := false
  endsHead : Bool := false
  /-- The value starts an operand in a head that may be left out. -/
  startsOption : Bool := false
  /-- What comes after the value could start a value. -/
  afterStarts : Bool := false
  /-- What comes after the value could go on with it. -/
  afterContinues : Bool := false
  /-- What comes after the value could start the arguments of a type. -/
  afterOpens : Bool := false

namespace Surroundings

def head : Surroundings :=
  { inHead := true, endsHead := true }

/-- The surroundings of what stands to the left of an operator. -/
def leftOf (c : Surroundings) (strength : Nat) (starts opens : Bool) : Surroundings :=
  { c with
    after := strength
    endsHead := false
    afterStarts := starts
    afterContinues := true
    afterOpens := opens }

/-- The surroundings of what stands before a point or a question mark. -/
def beforePoint (c : Surroundings) : Surroundings :=
  c.leftOf Strength.closed false false

/-- The surroundings of what stands before round or square brackets. -/
def beforeBracket (c : Surroundings) : Surroundings :=
  c.leftOf Strength.closed true false

/-- The surroundings of what stands to the right of an operator. `leavesHead` says that a
structure may follow although the value stands in a head, and `optional` that the operand may
be left out. -/
def rightOf (c : Surroundings) (strength : Nat) (leavesHead optional : Bool) : Surroundings :=
  { c with
    before := strength
    inHead := c.inHead && !leavesHead
    startsOption := c.inHead && optional }

/-- The binary operators that could also start a value. -/
def startingOperators : List String :=
  ["-", "*", "&&", "||", "&", "|", "<<", "<"]

def leftOfBinary (c : Surroundings) (operator : String) : Surroundings :=
  c.leftOf (Strength.ofOperator operator) (decide (operator ∈ startingOperators))
    (operator == "<<" || operator == "<")

end Surroundings

namespace Value

/-- Decides whether a value ends a loop, a function or a step of it, and may have a value. -/
def isExit : Value → Bool
  | jump lead _ => !"continue".isPrefixOf lead
  | attributed _ inner => inner.isExit
  | _ => false

/-- Decides whether a value has an operator between two operands; attributes in front of it
would belong to the left one. -/
def isCompound : Value → Bool
  | assign .. => true
  | binary .. => true
  | cast .. => true
  | range .. => true
  | _ => false

/-- Decides whether a value has to be in brackets wherever it stands in such surroundings. -/
def isForced (c : Surroundings) : Value → Bool
  | record .. => c.inHead
  | jump lead none =>
    c.endsHead && !"continue".isPrefixOf lead && (!"break".isPrefixOf lead || !c.inHead)
  | path _ => c.endsHead && !c.inHead
  | range _ _ none => c.endsHead && !c.inHead
  | block "" (.attribute _ :: _) => false
  | block "" _ => c.startsOption
  | attributed _ (block ..) => false
  | attributed _ inner => inner.isForced c
  | _ => false

/-- The strength that holds a value together. -/
def strength : Value → Nat
  | closure _ _ _ _ none _ => Strength.least
  | jump _ (some _) => Strength.least
  | assign .. => Strength.assign
  | range .. => Strength.range
  | binary _ operator _ => Strength.ofOperator operator
  | matching .. => Strength.matching
  | cast .. => Strength.cast
  | unary .. => Strength.leading
  | attributed _ inner => min Strength.leading inner.strength
  | _ => Strength.closed

def strengthIn (c : Surroundings) : Value → Nat
  | attributed _ inner => min Strength.leading (inner.strengthIn c)
  | jump lead none =>
    if c.afterStarts && (jump lead none).isExit then Strength.least else Strength.closed
  | jump _ (some _) => if c.afterContinues then Strength.least else Strength.leading
  | closure _ _ _ _ output _ =>
    if !c.afterContinues then Strength.leading
    else if output.isNone then Strength.least
    else Strength.closed
  | matching .. => if c.afterContinues then Strength.matching else Strength.leading
  | range none _ _ => if c.afterContinues then Strength.range else Strength.leading
  | cast _ type =>
    if c.afterOpens && type.ending = .word then Strength.least else Strength.cast
  | v => v.strength

/-- Decides whether what stands before a value leaves it whole. -/
def standsFree (c : Surroundings) : Value → Bool
  | assign .. => c.before ≤ Strength.assign
  | binary _ operator _ =>
    let own := Strength.ofOperator operator
    if own = Strength.assign then c.before ≤ Strength.assign else c.before < own
  | cast .. => c.before < Strength.cast
  | range (some _) _ _ => c.before < Strength.assign
  | attributed _ inner => inner.standsFree c
  | _ => true

end Value

/-- What happens at the operator after a value when its last operand has been read. -/
inductive Outcome where
  /-- Reading cannot go on there. -/
  | stuck
  /-- Reading goes on further out. -/
  | returned
  /-- The operand takes the operator. -/
  | taken
deriving DecidableEq, Repr

namespace Outcome

/-- What an operand after an operator of some strength does with the operator after it. -/
def byStrength (c : Surroundings) (strength : Nat) : Outcome :=
  let holds :=
    if strength = Strength.assign ∨ strength = Strength.compare then strength ≤ c.after
    else strength < c.after
  if holds ∨ c.after = Strength.least then taken else returned

/-- What an operand does that is open at neither end. -/
def ofClosed (c : Surroundings) (strength : Nat) : Outcome :=
  if strength = Strength.range ∧ (c.after = Strength.assign ∨ c.after = Strength.range) then stuck
  else if strength = Strength.matching ∧ c.after < Strength.matching then stuck
  else byStrength c strength

end Outcome

namespace Value

/-- The strength of a right operand, where `outcome` is what happens at the operator after
it. -/
def rightStrengthBy (c : Surroundings) (v : Value) (outcome : Unit → Outcome) : Nat :=
  let own := v.strengthIn c
  let isWeak :=
    if c.before = Strength.assign ∨ c.before = Strength.matching ∨ c.before = Strength.leading then
      own < c.before
    else own ≤ c.before
  let mayReturn :=
    c.after = Strength.range ∨ c.after = Strength.either ∨ c.after = Strength.both ∨
      !c.afterStarts
  if isWeak ∧ mayReturn ∧ v.standsFree c ∧ outcome () ≠ .taken then Strength.leading else own

/-- What happens at the operator after a value that is itself read after an operator of some
strength. `isOperand` says that a range could not go on in it, and `isBound` that the operand
around it would take the operator. -/
def outcome (c : Surroundings) (strength : Nat) (isOperand isBound : Bool) (v : Value) : Outcome :=
  let byStrength := Outcome.byStrength c strength
  let isLast := c.after = Strength.closed
  let atOperand := !isLast || isOperand
  if v.isForced c then byStrength
  else
    match v with
    | assign _ source =>
      if !isLast && isBound then .taken
      else
        match
          source.outcome (c.rightOf Strength.assign false false) Strength.assign atOperand true
        with
        | .stuck => if isLast then .stuck else .returned
        | _ => .taken
    | binary _ operator right =>
      let own := Strength.ofOperator operator
      let inner := c.rightOf own false false
      if !isLast && isBound then .taken
      else if own = Strength.compare ∧ c.after = Strength.compare then .taken
      else
        match right.outcome inner own atOperand (byStrength = .taken) with
        | .taken => .taken
        | .returned => byStrength
        | .stuck =>
          if own ≠ Strength.assign ∧
              right.rightStrengthBy inner (fun _ => right.outcome inner own true false) ≤ own then
            byStrength
          else if isLast then .stuck
          else .returned
    | unary _ operand =>
      let inner := c.rightOf Strength.leading false false
      if !isLast && isBound then .taken
      else
        match operand.outcome inner strength atOperand (byStrength = .taken) with
        | .taken => .taken
        | .returned => byStrength
        | .stuck =>
          if operand.rightStrengthBy inner
              (fun _ => operand.outcome inner Strength.leading true false) < Strength.leading then
            byStrength
          else if isLast then .stuck
          else .returned
    | range _ _ none => if c.afterStarts then .taken else .stuck
    | range _ _ (some stop) =>
      let inner := c.rightOf Strength.range false true
      let mayGoOn := c.after = Strength.assign ∨ c.after = Strength.range
      if isOperand then .taken
      else
        let read := stop.outcome inner Strength.range false (!mayGoOn)
        if read = .taken ∨ (read = .returned ∧ ¬ mayGoOn) then .taken
        else if stop.rightStrengthBy inner
            (fun _ => stop.outcome inner Strength.range true false) ≤ Strength.range then .taken
        else .stuck
    | jump lead (some value) =>
      if isBound then .taken
      else
        match
          value.outcome (c.rightOf Strength.least true ("break".isPrefixOf lead))
            Strength.least true true
        with
        | .stuck => .returned
        | _ => .taken
    | jump lead none =>
      if (jump lead none).isExit then
        if c.after = Strength.assign ∧ Strength.assign < strength then .stuck else .taken
      else Outcome.ofClosed c strength
    | closure .. => .taken
    | matching _ subject =>
      let inner := c.rightOf Strength.matching false false
      let isWeaker := c.after < Strength.matching
      if isBound then .taken
      else
        let read := subject.outcome inner Strength.matching true (!isWeaker)
        if read = .taken then .taken
        else if isWeaker then .returned
        else if subject.rightStrengthBy inner
            (fun _ => subject.outcome inner Strength.matching true false) <
              Strength.matching then .taken
        else if read = .stuck then .returned
        else .taken
    | attributed _ inner =>
      if inner.isCompound then Outcome.ofClosed c strength
      else inner.outcome { c with startsOption := false } strength isOperand isBound
    | _ => Outcome.ofClosed c strength

def leftStrength (c : Surroundings) (v : Value) : Nat :=
  if (!c.afterStarts || c.after = Strength.range) &&
      v.outcome c Strength.least false false = .returned && v.standsFree c then
    Strength.closed
  else v.strengthIn c

def rightStrength (c : Surroundings) (v : Value) : Nat :=
  v.rightStrengthBy c fun _ => v.outcome c c.before true false

end Value

end Treewright.Code
