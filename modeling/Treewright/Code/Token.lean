import Treewright.Code.Literal
import Treewright.Code.Word
import Treewright.Text.Blank

/-!
# Tokens

Code given as text is read in two steps. This file does the first one: it cuts a
text into words, lifetimes, literals and marks, and groups what stands between
matching brackets. Blanks and ordinary comments separate tokens and vanish; a comment
that documents something becomes an attribute that holds its text.
-/

namespace Treewright.Code

inductive Bracket where
  | round
  | square
  | curly
deriving DecidableEq, Repr

namespace Bracket

def opening : Bracket → String
  | round => "("
  | square => "["
  | curly => "\x7b"

def closing : Bracket → String
  | round => ")"
  | square => "]"
  | curly => "\x7d"

def opened? (c : Char) : Option Bracket :=
  if c == '(' then some round
  else if c == '[' then some square
  else if c == '\x7b' then some curly
  else none

def closed? (c : Char) : Option Bracket :=
  if c == ')' then some round
  else if c == ']' then some square
  else if c == '\x7d' then some curly
  else none

end Bracket

/-- A smallest meaningful piece of code, or a group of them in brackets. -/
inductive Token where
  | word (w : Word)
  /-- A lifetime with its quote. -/
  | lifetime (text : String)
  | literal (l : Literal)
  /-- A punctuation mark, and whether another mark follows at once. -/
  | mark (c : Char) (joined : Bool)
  | group (bracket : Bracket) (content : List Token)

namespace Token

mutual

/-- How many tokens there are in a token, itself included. -/
def size : Token → Nat
  | group _ content => 1 + sizeAll content
  | _ => 1

def sizeAll : List Token → Nat
  | [] => 0
  | t :: rest => size t + sizeAll rest

end

/-- Blanks between tokens; the two marks of writing direction count as blanks. -/
def isGap (c : Char) : Bool :=
  Text.isBlank c || c.toNat == 0x200E || c.toNat == 0x200F

/-- Decides whether the text after two slashes makes a comment a documenting one. -/
def documentsLine : List Char → Bool
  | '!' :: _ => true
  | '/' :: '/' :: _ => false
  | '/' :: _ => true
  | _ => false

/-- Decides whether the text after a slash and a star makes a comment a documenting one. -/
def documentsBlock : List Char → Bool
  | '!' :: _ => true
  | '*' :: '*' :: _ => false
  | '*' :: '/' :: _ => false
  | '*' :: _ => true
  | _ => false

mutual

/-- Skips blanks and ordinary comments; fails at an unclosed comment. -/
def skipGap : List Char → Option (List Char)
  | [] => some []
  | '/' :: '/' :: rest =>
    if documentsLine rest then some ('/' :: '/' :: rest) else skipLine rest
  | '/' :: '*' :: rest =>
    if documentsBlock rest then some ('/' :: '*' :: rest) else skipBlock 0 rest
  | c :: rest => if isGap c then skipGap rest else some (c :: rest)

/-- Skips the rest of a line, then blanks and ordinary comments. -/
def skipLine : List Char → Option (List Char)
  | [] => some []
  | '\n' :: rest => skipGap rest
  | _ :: rest => skipLine rest

/-- Skips the rest of a block comment inside `depth` others, then blanks and ordinary
comments. -/
def skipBlock (depth : Nat) : List Char → Option (List Char)
  | [] => none
  | '/' :: '*' :: rest => skipBlock (depth + 1) rest
  | '*' :: '/' :: rest =>
    match depth with
    | 0 => skipGap rest
    | outer + 1 => skipBlock outer rest
  | _ :: rest => skipBlock depth rest

end

/-- The text of a comment up to the end of its line, and the rest. -/
def takeLine : List Char → List Char × List Char
  | [] => ([], [])
  | '\n' :: rest => ([], '\n' :: rest)
  | '\r' :: '\n' :: rest => ([], '\n' :: rest)
  | c :: rest =>
    let (text, after) := takeLine rest
    (c :: text, after)

/-- The text of a block comment inside `depth` others up to its end, and the rest. -/
def takeBlock (depth : Nat) : List Char → Option (List Char × List Char)
  | [] => none
  | '/' :: '*' :: rest =>
    (takeBlock (depth + 1) rest).map fun (text, after) => ('/' :: '*' :: text, after)
  | '*' :: '/' :: rest =>
    match depth with
    | 0 => some ([], rest)
    | outer + 1 =>
      (takeBlock outer rest).map fun (text, after) => ('*' :: '/' :: text, after)
  | c :: rest => (takeBlock depth rest).map fun (text, after) => (c :: text, after)

/-- Decides whether every carriage return stands before a line end. -/
def hasPlainLineEnds : List Char → Bool
  | [] => true
  | '\r' :: '\n' :: rest => hasPlainLineEnds rest
  | '\r' :: _ => false
  | _ :: rest => hasPlainLineEnds rest

/-- Reads the documenting comment at the front of a text, as the attribute it stands for. The
character after the opening marks tells whether it documents what it stands in. -/
def takeComment? (s : List Char) : Option (List Token × List Char) :=
  let comment : Option (Char × List Char × List Char) :=
    match s with
    | '/' :: '/' :: c :: rest => some (c, takeLine rest)
    | '/' :: '*' :: c :: rest => (takeBlock 0 rest).map fun read => (c, read)
    | _ => none
  match comment with
  | none => none
  | some (c, text, after) =>
    if hasPlainLineEnds text then
      let content :=
        [.word ⟨"doc", false⟩, .mark '=' false, .literal (.ofText (String.ofList text))]
      some
        ([.mark '#' false] ++ (if c == '!' then [.mark '!' false] else []) ++
          [.group .square content], after)
    else none

def startsComment : List Char → Bool
  | '/' :: '/' :: _ => true
  | '/' :: '*' :: _ => true
  | _ => false

def marks : List Char :=
  "~!@#$%^&*-=+|;:,<.>/?".toList

/-- Decides whether a text starts with a mark; the start of a comment is none. -/
def startsMark : List Char → Bool
  | '/' :: '/' :: _ => false
  | '/' :: '*' :: _ => false
  | c :: _ => c ∈ marks || c == '\''
  | [] => false

/-- Reads the word at the front of a text, plain or raw. -/
def takeWord (s : List Char) : Option (Word × List Char) :=
  let raw := "r#".toList.isPrefixOf s
  let start := if raw then s.drop 2 else s
  let text := start.takeWhile Text.isLetterOrMark
  let name := String.ofList text
  if !isWordText text || (raw && decide (name ∈ unescapableWords)) then none
  else some (⟨name, raw⟩, start.dropWhile Text.isLetterOrMark)

/-- Decides whether a text starts a literal that no word may be read from. -/
def startsPrefixedLiteral (s : List Char) : Bool :=
  ["r\"", "r#\"", "r##", "b\"", "b'", "br\"", "br#", "c\"", "cr\"", "cr#"].any
    (·.toList.isPrefixOf s)

/-- The spelling of a place where code could not be read. -/
def mistakeText : String := "(/*ERROR*/)"

/-- Reads the token at the front of a text that starts with neither blank, comment nor
bracket. Literals come first, because a quote may also start a lifetime and a letter a
word. A quote before a literal is a mark. -/
def takeLeaf (s : List Char) : Option (Token × List Char) :=
  match Literal.takeAnyQuoted s, s with
  | some (l, after), _ => some (.literal l, after)
  | none, [] => none
  | none, c :: rest =>
    if c == '\'' then
      match takeWord rest with
      | none => none
      | some (w, after) =>
        if after.head? == some '\'' || (after.head? == some '#' && !w.raw) then none
        else if (Literal.takeAnyQuoted rest).isSome then some (.mark c true, rest)
        else some (.lifetime ("'" ++ w.text), after)
    else if c.isDigit then
      (Literal.takeNumber s).map fun (l, after) => (.literal l, after)
    else if startsMark s then some (.mark c (startsMark rest), rest)
    else if startsPrefixedLiteral s then none
    else (takeWord s).map fun (w, after) => (.word w, after)

/-- What has been read of a text: the tokens of the innermost open group, and for every open
group its brackets and the tokens before it. All tokens are in reverse order. -/
structure Scanned where
  tokens : List Token := []
  around : List (Bracket × List Token) := []

namespace Scanned

def push (read : Scanned) (tokens : List Token) : Scanned :=
  { read with tokens := tokens.reverse ++ read.tokens }

def openGroup (read : Scanned) (bracket : Bracket) : Scanned :=
  ⟨[], (bracket, read.tokens) :: read.around⟩

/-- Closes the innermost group, which has to have the same brackets. -/
def closeGroup? (read : Scanned) (bracket : Bracket) : Option Scanned :=
  match read.around with
  | (opened, before) :: around =>
    if opened = bracket then some ⟨.group bracket read.tokens.reverse :: before, around⟩ else none
  | [] => none

/-- All tokens, if no group is open. -/
def finish? (read : Scanned) : Option (List Token) :=
  if read.around.isEmpty then some read.tokens.reverse else none

end Scanned

/-- Reads one piece of a text that does not start with a gap: a documenting comment, a
bracket or a token without brackets. -/
def takeNext (read : Scanned) (s : List Char) : Option (Scanned × List Char) :=
  if startsComment s then
    (takeComment? s).map fun (tokens, after) => (read.push tokens, after)
  else if mistakeText.toList.isPrefixOf s then
    some (read.push [.literal ⟨mistakeText, .mistake⟩], s.drop mistakeText.length)
  else
    match s.head?.bind Bracket.opened?, s.head?.bind Bracket.closed? with
    | some bracket, _ => some (read.openGroup bracket, s.tail)
    | none, some bracket => (read.closeGroup? bracket).map fun read => (read, s.tail)
    | none, none => (takeLeaf s).map fun (token, after) => (read.push [token], after)

/-- Reads the rest of a text in at most `limit` pieces; fails if there are more. -/
def scanUpTo : Nat → Scanned → List Char → Option (List Token)
  | limit, read, s =>
    match skipGap s with
    | none => none
    | some [] => read.finish?
    | some start =>
      match limit with
      | 0 => none
      | limit + 1 =>
        match takeNext read start with
        | none => none
        | some (read, rest) => scanUpTo limit read rest

/-- Cuts a string into tokens. A mark of byte order at the front is skipped, and there are at
most as many pieces as characters. -/
def scan (s : String) : Option (List Token) :=
  let text :=
    match s.toList with
    | c :: rest => if c.toNat == 0xFEFF then rest else c :: rest
    | [] => []
  scanUpTo text.length {} text

end Token

end Treewright.Code
