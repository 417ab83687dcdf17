/-!
# Names

Grammar names are ASCII identifiers, and every generated name is spelled from
them in snake case. The case conversion inserts an underscore before a capital
that follows a lowercase letter or a digit, and before the last capital of a
run of capitals; it never doubles an underscore that is already there.
Characters outside ASCII are copied unchanged.
-/

namespace Treewright.Name

/-- The characters an identifier may start with: an ASCII letter or an underscore. -/
def isHead (c : Char) : Bool :=
  c.isAlpha || c == '_'

/-- The characters an identifier may go on with: an ASCII letter, a digit or an
underscore. -/
def isTail (c : Char) : Bool :=
  c.isAlphanum || c == '_'

/-- Decides whether a text is an identifier: a head followed by tails. -/
def isIdentifierText : List Char → Bool
  | [] => false
  | c :: rest => isHead c && rest.all isTail

def isIdentifier (s : String) : Bool :=
  isIdentifierText s.toList

/-- Decides whether a capital starts a new word, from the text written so far
(last character first), the character before the capital and the one after it. -/
def startsWord (written : List Char) (previous next : Option Char) : Bool :=
  written.head? != some '_' &&
    match previous with
    | none => false
    | some p => p.isLower || p.isDigit || (p.isUpper && next.any Char.isLower)

/-- Continues a snake case conversion: `written` is the text written so far, last
character first, and `previous` the last character read. -/
def snakeFrom (written : List Char) (previous : Option Char) : List Char → List Char
  | [] => written.reverse
  | c :: rest =>
    if c.isUpper then
      if startsWord written previous rest.head? then
        snakeFrom (c.toLower :: '_' :: written) (some c) rest
      else
        snakeFrom (c.toLower :: written) (some c) rest
    else
      snakeFrom (c :: written) (some c) rest

def snakeText (s : List Char) : List Char :=
  snakeFrom [] none s

def snake (s : String) : String :=
  String.ofList (snakeText s.toList)

end Treewright.Name
