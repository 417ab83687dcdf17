import Treewright.Layout.Doc
import Treewright.Text.Escape

/-!
# How comments are laid out

A text that documents something is written as a comment where that is possible: on
one line if it is one, otherwise as a block comment if its marks are balanced.
-/

namespace Treewright.Code

open Layout (Doc)
open Layout.Doc (ofText newline)

/-- Decides whether the delimiters of block comments are balanced in a text that is
inside `depth` comments. -/
def balancedFrom (depth : Nat) : List Char → Bool
  | [] => depth == 0
  | '/' :: '*' :: rest => balancedFrom (depth + 1) rest
  | '*' :: '/' :: rest =>
    match depth with
    | 0 => false
    | outer + 1 => balancedFrom outer rest
  | _ :: rest => balancedFrom depth rest

def fitsBlockComment (s : List Char) : Bool :=
  balancedFrom 0 s && s.getLast? != some '/'

/-- Drops the blanks before line ends. The blanks met since the last other character are
`held` back. -/
def trimLineEnds (held : List Char) : List Char → List Char
  | [] => held
  | ' ' :: rest => trimLineEnds (' ' :: held) rest
  | '\n' :: rest => '\n' :: trimLineEnds [] rest
  | c :: rest => held ++ c :: trimLineEnds [] rest

def trimEndBlanks (s : List Char) : List Char :=
  (s.reverse.dropWhile (· == ' ')).reverse

/-- The marks of a kind of comment. -/
structure CommentStyle where
  line : String
  block : String
  /-- A line that starts with one of these would be another kind of comment. -/
  lineHazards : List Char
  /-- A block that starts with one of these would be another kind of comment. -/
  blockHazards : List Char

namespace CommentStyle

/-- Comments that document what they stand in. -/
def inner : CommentStyle := ⟨"//!", "/*!", [], []⟩

/-- Comments that document what comes after them. -/
def outer : CommentStyle := ⟨"///", "/**", ['/'], ['*', '/']⟩

/-- Comments that document nothing. -/
def plain : CommentStyle := ⟨"//", "/*", [], ['*', '!']⟩

/-- The document of a text as a comment, if it can be one. -/
def doc? (style : CommentStyle) (text : List Char) : Option (List Doc) :=
  let startsIn (hazards : List Char) : Bool := text.head?.any fun c => decide (c ∈ hazards)
  if '\n' ∉ text && !startsIn style.lineHazards then
    some (ofText style.line ++ ofText (String.ofList (trimEndBlanks text)) ++ newline)
  else if fitsBlockComment text && !startsIn style.blockHazards then
    some
      (ofText style.block ++ ofText (String.ofList (trimLineEnds [] text)) ++ ofText "*/" ++
        newline)
  else none

end CommentStyle

end Treewright.Code
