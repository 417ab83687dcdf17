import Treewright.Code.Strength
import Treewright.Code.Tree

/-!
# Shapes of values

Questions about the form of a value that both reading and layout ask: whether it
ends a statement by itself, how it joins what stands around it, and whether it has to
be closed by a semicolon or a comma.
-/

namespace Treewright.Code

/-- What a type ends with, as far as it matters to what follows it. -/
inductive TypeEnd where
  /-- A word of a path, which could have arguments. -/
  | word
  | brace
  | other
deriving DecidableEq, Repr

mutual

def Ty.ending : Ty → TypeEnd
  | .path p => p.ending
  | .reference _ _ target => target.ending
  | .pointer _ target => target.ending
  | .function _ _ _ _ (some output) => output.ending
  | .impl bounds => boundsEnding bounds
  | .dyn _ bounds => boundsEnding bounds
  | .invoked call => if call.bracket = .curly then .brace else .other
  | .formless inBrace => if inBrace then .brace else .other
  | _ => .other

def Path.ending : Path → TypeEnd
  | .mk _ segments => segmentsEnding segments
  | .within _ _ _ rest => segmentsEnding rest

def segmentsEnding : List Segment → TypeEnd
  | [] => .other
  | [s] => s.ending
  | _ :: rest => segmentsEnding rest

def Segment.ending : Segment → TypeEnd
  | .plain _ => .word
  | .call _ _ (some output) => output.ending
  | _ => .other

def boundsEnding : List Bound → TypeEnd
  | [] => .other
  | [b] => b.ending
  | _ :: rest => boundsEnding rest

def Bound.ending : Bound → TypeEnd
  | .trait _ _ _ _ path => path.ending
  | .formless inBrace => if inBrace then .brace else .other
  | _ => .other

end

/-- Decides whether a block has a label or nothing before it. -/
def isUnmarked (lead : String) : Bool :=
  lead.isEmpty || "'".isPrefixOf lead

namespace Value

def isRange : Value → Bool
  | range .. => true
  | _ => false

/-- Decides whether a value is a block after these words, a branch, a choice or a loop, and
so needs no comma after it. -/
def endsItself : Value → Bool
  | block lead _ => !"async ".isPrefixOf lead
  | branch .. => true
  | cases .. => true
  | forever .. => true
  | whilst .. => true
  | forEach .. => true
  | attributed _ inner => inner.endsItself
  | _ => false

/-- Decides whether a value needs a semicolon before another statement. -/
def needsSemicolon : Value → Bool
  | invoked i => i.bracket != .curly
  | attributed _ inner => inner.needsSemicolon
  | v => !v.endsItself

/-- Decides whether a value that is written at the start of a statement is read back whole. -/
def isStatement : Value → Bool
  | matching .. => false
  | attributed _ inner => inner.isStatement
  | assign target _ => target.needsSemicolon && target.isStatement
  | field base _ => base.isStatement
  | method receiver _ _ => receiver.isStatement
  | attempt base => base.isStatement
  | binary left _ _ => left.needsSemicolon && left.isStatement
  | call function _ => function.needsSemicolon && function.isStatement
  | cast operand _ => operand.needsSemicolon && operand.isStatement
  | index base _ => base.needsSemicolon && base.isStatement
  | range (some start) _ _ => start.needsSemicolon && start.isStatement
  | _ => true

/-- Decides whether a value is one that a semicolon is always written after. -/
def wantsSemicolon : Value → Bool
  | assign .. => true
  | jump .. => true
  | binary _ operator _ => decide (operator ∈ assigningOperators)
  | attributed _ inner => inner.wantsSemicolon
  | _ => false

/-- Decides whether a value is one that no semicolon is written after. -/
def dropsSemicolon : Value → Bool
  | forEach .. => true
  | whilst .. => true
  | branch _ _ none => true
  | branch _ _ (some other) => other.dropsSemicolon
  | attributed _ inner => inner.dropsSemicolon
  | _ => false

/-- Decides whether the brackets of a value may stand directly inside those of a call. -/
def isBlocklike : Value → Bool
  | array _ => true
  | block .. => true
  | closure .. => true
  | record .. => true
  | tuple _ => true
  | _ => false

/-- Decides whether a brace after a value starts a new line when the value is broken. -/
def breaksBeforeBrace : Value → Bool
  | assign .. => true
  | binary .. => true
  | cast .. => true
  | field .. => true
  | index .. => true
  | method .. => true
  | call function _ => function.breaksBeforeBrace
  | matching _ subject => subject.breaksBeforeBrace
  | group inner => inner.breaksBeforeBrace
  | range _ _ (some stop) => stop.breaksBeforeBrace
  | unary _ operand => operand.breaksBeforeBrace
  | attempt base => base.breaksBeforeBrace
  | jump _ (some v) => v.breaksBeforeBrace
  | attributed _ inner => inner.breaksBeforeBrace
  | _ => false

def endsInBrace : Value → Bool
  | block .. => true
  | branch .. => true
  | cases .. => true
  | forever .. => true
  | whilst .. => true
  | forEach .. => true
  | record .. => true
  | assign _ source => source.endsInBrace
  | binary _ _ right => right.endsInBrace
  | closure _ _ _ _ _ body => body.endsInBrace
  | matching _ subject => subject.endsInBrace
  | invoked i => i.bracket == .curly
  | cast _ type => type.ending = .brace
  | range _ _ (some stop) => stop.endsInBrace
  | unary _ operand => operand.endsInBrace
  | jump _ (some v) => v.endsInBrace
  | attributed _ inner => inner.endsInBrace
  | formless inBrace => inBrace
  | _ => false

/-- Decides whether a value is a word of at most `limit` bytes. -/
def isShortWord (limit : Nat) : Value → Bool
  | path p => p.word?.any fun w => w.text.utf8ByteSize ≤ limit
  | _ => false

/-- A value without the braces around a lone value; the empty tuple becomes an empty
block, and a block loses its attributes. -/
def unwrapped : Value → Value
  | block "" [.value v] => v.unwrapped
  | tuple [] => block "" []
  | attributed attributes (block lead body) =>
    if isUnmarked lead then block lead body else attributed attributes (block lead body)
  | v => v

def withAttributes (attributes : List Attribute) (v : Value) : Value :=
  if attributes.isEmpty then v
  else
    match v with
    | attributed more inner => attributed (attributes ++ more) inner
    | v => attributed attributes v

/-- Puts attributes on the leftmost operand of a value. -/
def attach (attributes : List Attribute) : Value → Value
  | assign target source => assign (target.attach attributes) source
  | binary left operator right => binary (left.attach attributes) operator right
  | cast operand type => cast (operand.attach attributes) type
  | v => v.withAttributes attributes

end Value

/-- Decides whether a statement has to be the last one, because it has no semicolon and
needs one. -/
def Entry.isUnclosed : Entry → Bool
  | value v => v.needsSemicolon
  | invoked _ i isClosed => !isClosed && i.bracket != .curly
  | _ => false

end Treewright.Code
