import Treewright.Code.Parser

/-!
# Arranged tokens

A path that is kept as tokens is written with the lifetimes of every argument list
first. Each argument keeps the comma after it, and a comma is added only where two
arguments would stand side by side without one. Types and values are arranged at every
depth; attributes and the arguments of expansions are left as they are. In a type every
angle bracket belongs to a list. In a value it does so after a double colon, in front of
a subject, and where a type stands inside the value.
-/

namespace Treewright.Code.Arrangement

structure Argument where
  tokens : List Token
  hasComma : Bool

namespace Argument

def isLifetime (a : Argument) : Bool :=
  match a.tokens with
  | [.lifetime _] => true
  | _ => false

def withComma (a : Argument) : List Token :=
  a.tokens ++ if a.hasComma then [.mark ',' false] else []

end Argument

/-- The tokens of arguments one after the other, where `separated` tells whether what comes
before them ends with a comma. -/
def inOrder (separated : Bool) : List Argument → List Token
  | [] => []
  | a :: rest =>
    (if separated then [] else [.mark ',' false]) ++ a.withComma ++ inOrder a.hasComma rest

def lifetimesFirst (arguments : List Argument) : List Token :=
  let lifetimes := arguments.filter Argument.isLifetime
  let others := arguments.filter (!·.isLifetime)
  lifetimes.flatMap Argument.withComma ++
    inOrder ((lifetimes.getLast?.map Argument.hasComma).getD true) others

/-- An argument list that is still open: the tokens before it, its arguments so far, latest
first, and whether it is a binder, which keeps its order. -/
structure OpenList where
  before : List Token
  arguments : List Argument
  isBinder : Bool

/-- A parameter of a binder without a colon that no bounds follow. -/
def Argument.withoutColon (a : Argument) : Argument :=
  match a.tokens.getLast? with
  | some (.mark ':' _) => { a with tokens := a.tokens.dropLast }
  | _ => a

/-- Tokens in reverse order after an open list has been closed, with its last argument. -/
def OpenList.close (list : OpenList) (last : List Token) : List Token :=
  let arguments :=
    (if last.isEmpty then list.arguments else ⟨last.reverse, false⟩ :: list.arguments).reverse
  let content :=
    if list.isBinder then arguments.flatMap (·.withoutColon.withComma)
    else lifetimesFirst arguments
  .mark '>' false :: content.reverse ++ .mark '<' false :: list.before

/-- Decides whether the tokens before, latest first, end with the word before a binder. -/
def opensBinder : List Token → Bool
  | .word ⟨"for", false⟩ :: _ => true
  | _ => false

/-- Decides whether a word can end an operand: an identifier, a word of a path or a truth
value. -/
def endsOperand (w : Word) : Bool :=
  w.isIdentifier || decide (w.name ∈ "true" :: "false" :: Reading.pathWords)

/-- Decides whether the tokens before, latest first, leave a group as it is. -/
def keepsGroup : List Token → Bool
  | .mark '#' _ :: _ => true
  | .mark '!' _ :: .mark '#' _ :: _ => true
  | .mark '!' _ :: .word w :: _ => endsOperand w
  | _ => false

/-- Decides whether an angle bracket in a value opens a list, by the tokens before, latest
first: after a double colon, or where an operand is still to come. -/
def opensList : List Token → Bool
  | [] => true
  | .mark '<' joined :: _ => !joined
  | .mark '>' _ :: .mark '=' joined :: _ => joined
  | .mark c _ :: _ => c != '>' && c != '?'
  | .word w :: _ => !endsOperand w
  | _ => false

/-- The type that has to come in a value after the tokens before, latest first: whether it
may have bounds joined by `+`. -/
def opensType? : List Token → Option Bool
  | .word ⟨"as", false⟩ :: _ => some false
  | .mark '>' _ :: .mark '-' true :: _ => some true
  | .mark ':' false :: .mark ':' true :: _ => none
  | .mark ':' false :: _ => some true
  | _ => none

/-- How many of the tokens that come next are in a type, where `typed` is how many there were
before the latest token was taken. -/
def typedAfter (typed : Nat) (current rest : List Token) : Nat :=
  if 1 < typed then typed - 1
  else
    match opensType? current with
    | some plus => Ty.lengthIn plus rest
    | none => 0

/-- The tokens before a round group, latest first, without a double colon at their end. -/
def dropDoubleColon : List Token → List Token
  | .mark ':' _ :: .mark ':' _ :: rest => rest
  | before => before

/-- The tokens of open lists that are never closed, in order. -/
def abandon (current : List Token) : List OpenList → List Token
  | [] => current.reverse
  | list :: around => abandon (list.close current).tail around

/-- Arranges tokens of which the first `typed` are in a type: `current` holds those of the
innermost argument so far, latest first, and `around` the open lists. What is in a list is in
a type, and after a semicolon comes a value. -/
def arrangeIn (typed : Nat) (around : List OpenList) (current : List Token) :
    List Token → List Token
  | [] => abandon current around
  | .mark '<' j :: rest =>
    if 0 < typed || !around.isEmpty || opensList current then
      arrangeIn (typed - 1) (⟨current, [], opensBinder current⟩ :: around) [] rest
    else arrangeIn 0 around (.mark '<' j :: current) rest
  | .mark '>' j :: rest =>
    match current, around with
    | .mark '-' true :: _, _ =>
      let current := .mark '>' j :: current
      arrangeIn (typedAfter typed current rest) around current rest
    | _, list :: outer => arrangeIn (typed - 1) outer (list.close current) rest
    | _, [] => arrangeIn (typed - 1) [] (.mark '>' j :: current) rest
  | .mark ',' j :: rest =>
    match around with
    | list :: outer =>
      arrangeIn (typed - 1)
        ({ list with arguments := ⟨current.reverse, true⟩ :: list.arguments } :: outer) [] rest
    | [] => arrangeIn (typed - 1) [] (.mark ',' j :: current) rest
  | .mark ';' j :: rest => abandon current around ++ .mark ';' j :: arrangeIn 0 [] [] rest
  | .group bracket content :: rest =>
    let inType := 0 < typed || !around.isEmpty
    if keepsGroup current then
      arrangeIn (typed - 1) around (.group bracket content :: current) rest
    else if bracket = .curly || !inType then
      arrangeIn (typed - 1) around (.group bracket (arrangeIn 0 [] [] content) :: current) rest
    else
      let arranged := arrangeIn content.length [] [] content
      arrangeIn (typed - 1) around
        (.group bracket arranged :: if bracket = .round then dropDoubleColon current else current)
        rest
  | t :: rest =>
    arrangeIn (typedAfter typed (t :: current) rest) around (t :: current) rest

def arrange (tokens : List Token) : List Token :=
  arrangeIn tokens.length [] [] tokens

end Treewright.Code.Arrangement
