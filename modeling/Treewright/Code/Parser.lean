import Treewright.Code.Reading.Block
import Treewright.Code.Reading.Type

/-!
# Code from text

The bundle of readers of every depth, and the readers for whole texts. Readers call
each other without taking a token only a few times in a row, so a depth that is a
multiple of the number of tokens is never reached by code that is accepted.
-/

namespace Treewright.Code

namespace Reading

namespace Readers

/-- One more layer of readers around a bundle. -/
def step (r : Readers) : Readers where
  segment inValue := Reading.segment r inValue
  bound mayCapture mayBeConst := Reading.bound r mayCapture mayBeConst
  type plus := Reading.type r plus
  value records := Reading.value r records
  operand records := Reading.operand r records
  more records least left := Reading.more r records least left
  statementValue := Reading.statementValue r
  pattern := Reading.pattern r
  singlePattern := Reading.singlePattern r
  statements := Reading.statements r
  item := Reading.item r
  member isNamed := Reading.fieldItem r isNamed

/-- The readers that call each other at most `depth` deep. -/
def ofDepth : Nat → Readers
  | 0 => exhausted
  | depth + 1 => step (ofDepth depth)

end Readers

/-- A depth that no code in these tokens reaches. -/
def depthOf (tokens : List Token) : Nat :=
  16 * (Token.sizeAll tokens + 1)

/-- Reads tokens that a reader takes completely. -/
def whole {α : Type} (reader : Nat → Reader α) (tokens : List Token) : Option α :=
  match reader (depthOf tokens) tokens with
  | some (tree, []) => some tree
  | _ => none

end Reading

def Ty.ofTokens? (tokens : List Token) : Option Ty :=
  Reading.whole (fun depth => (Reading.Readers.ofDepth depth).type true) tokens

/-- How many of the tokens at the front are a type; none if there is no type. Bounds joined by
`+` are part of it only if `plus` allows. -/
def Ty.lengthIn (plus : Bool) (tokens : List Token) : Nat :=
  match (Reading.Readers.ofDepth (Reading.depthOf tokens)).type plus tokens with
  | some (_, rest) => tokens.length - rest.length
  | none => 0

def Path.ofTokens? (tokens : List Token) : Option Path :=
  Reading.whole (fun depth => Reading.path (Reading.Readers.ofDepth depth) false) tokens

def UseTree.ofTokens? (tokens : List Token) : Option UseTree :=
  Reading.whole Reading.useTree tokens

def Ty.parse? (s : String) : Option Ty :=
  (Token.scan s).bind Ty.ofTokens?

def Path.parse? (s : String) : Option Path :=
  (Token.scan s).bind Path.ofTokens?

def UseTree.parse? (s : String) : Option UseTree :=
  (Token.scan s).bind UseTree.ofTokens?

end Treewright.Code
