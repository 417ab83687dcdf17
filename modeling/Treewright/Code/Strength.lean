/-!
# Strengths of operators

How tightly an operator holds its operands. A value is read by strengths, and the same
strengths tell where a value needs brackets when it is written.
-/

namespace Treewright.Code

namespace Strength

/-- The strength that is below those of all operators. A greater strength binds more
tightly. -/
def least : Nat := 0

def assign : Nat := 1

def range : Nat := 2

/-- The tests of which one has to hold. -/
def either : Nat := 3

/-- The tests that have to hold together. -/
def both : Nat := 4

/-- The test whether a value matches a pattern. -/
def matching : Nat := 5

/-- Comparisons, which cannot be chained. -/
def compare : Nat := 6

def cast : Nat := 13

/-- Operators before their operand. -/
def leading : Nat := 14

/-- What cannot be taken apart. -/
def closed : Nat := 15

end Strength

/-- The operators that change their left operand. -/
def assigningOperators : List String :=
  ["+=", "-=", "*=", "/=", "%=", "^=", "&=", "|=", "<<=", ">>="]

/-- The binary operators with their strengths. One that starts with another stands before
it. -/
def operators : List (String × Nat) :=
  assigningOperators.map (fun text => (text, Strength.assign)) ++
    [("&&", Strength.both), ("||", Strength.either), ("<<", 10), (">>", 10),
      ("==", Strength.compare), ("<=", Strength.compare), ("!=", Strength.compare),
      (">=", Strength.compare), ("+", 11), ("-", 11), ("*", 12), ("/", 12), ("%", 12), ("^", 8),
      ("&", 9), ("|", 7), ("<", Strength.compare), (">", Strength.compare)]

def Strength.ofOperator (text : String) : Nat :=
  (operators.lookup text).getD least

end Treewright.Code
