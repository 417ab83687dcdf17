import Treewright.Code.Tree
import Treewright.Code.Written.Comment

/-!
# How tokens are laid out

Tokens that are not read any further stand in attributes and in calls of expansions.
What is written between two of them depends on their kinds alone.
-/

namespace Treewright.Code

open Layout (Doc)
open Layout.Doc (ofText zero space newline newlineIfNonempty comma cbox ibox shiftLast step)

namespace Token

/-- The kinds of tokens that matter to the blanks in an attribute. -/
inductive Adjacency where
  | word
  | mark
deriving DecidableEq, Repr

def endsInComma (tokens : List Token) : Bool :=
  tokens.getLast?.any fun
    | mark ',' _ => true
    | _ => false

/-- The document of tokens inside an attribute: blanks only between two words, after a
comma and around an equals sign. A comma at the end of a group is left out unless the line
ends there. -/
def attributeDoc (before : Adjacency) : List Token → List Doc
  | [] => []
  | word w :: rest =>
    (if before = .word then space else []) ++ ofText w.text ++ attributeDoc .word rest
  | literal l :: rest =>
    (if before = .word then space else []) ++ ofText l.text ++ attributeDoc .word rest
  | lifetime text :: rest => ofText text ++ attributeDoc .word rest
  | mark c _ :: rest =>
    if c = ',' ∧ rest.isEmpty then comma true
    else
      (if c = '=' ∧ before = .word then ofText " " else []) ++ ofText (String.singleton c) ++
        (if c = '=' then ofText " " else if c = ',' then space else []) ++ attributeDoc .mark rest
  | group .round content :: rest =>
    ofText "(" ++
      cbox step
        (shiftLast (-step)
          (zero ++ attributeDoc .mark content ++ (if endsInComma content then [] else zero))) ++
      ofText ")" ++ attributeDoc .mark rest
  | group bracket content :: rest =>
    ofText bracket.opening ++ attributeDoc .mark content ++ ofText bracket.closing ++
      attributeDoc .mark rest

/-- What stands before a token in the argument of an expansion, as far as it matters to the
blank between them. -/
inductive Context where
  | start
  | dollar
  /-- A word after a dollar sign, where it names what is matched. -/
  | parameter
  /-- The colon after such a word. -/
  | parameterColon
  /-- A group after a dollar sign. -/
  | repetition
  | divider
  | pound
  | poundBang
  | point
  | colon
  | doubleColon
  | word
  | wordBang
  | bracket
  | other
deriving DecidableEq, Repr

def spacedWords : List String :=
  ["as", "async", "await", "box", "break", "const", "continue", "crate", "dyn", "else", "enum",
    "extern", "fn", "for", "if", "impl", "in", "let", "loop", "macro", "match", "mod", "move",
    "mut", "pub", "ref", "return", "static", "struct", "trait", "type", "unsafe", "use", "where",
    "while", "yield"]

def isSpaced (w : Word) : Bool :=
  decide (w.text ∈ spacedWords)

/-- Decides whether a blank is wanted before a token, and gives the context after it.
`isPattern` says that the tokens are ones to be matched. -/
def follow (isPattern : Bool) (before : Context) : Token → Bool × Context
  | word w =>
    if before = .dollar then
      (false, if isPattern then .parameter else if w.text = "crate" then .word else .other)
    else if before = .parameterColon then (false, .other)
    else if before = .repetition then (false, .divider)
    else if isSpaced w then (true, .other)
    else (before != .point && before != .doubleColon, .word)
  | lifetime text =>
    if before = .repetition then (false, .divider)
    else (true, if decide ((text.drop 1).toString ∈ spacedWords) then .other else .word)
  | literal l =>
    if before = .repetition then (false, .divider)
    else (before != .point, if l.endsInPoint then .other else .word)
  | group .curly _ => (true, .other)
  | group bracket _ =>
    if before = .dollar ∧ bracket = .round then (false, .repetition)
    else if (before = .pound ∨ before = .poundBang) ∧ bracket = .square then (false, .other)
    else if before = .word then (false, .bracket)
    else if before = .wordBang then (false, .other)
    else (true, .bracket)
  | mark c joined =>
    if before = .parameter ∧ c = ':' ∧ !joined then (false, .parameterColon)
    else if before = .repetition then
      (false,
        if joined then .repetition else if c = '+' ∨ c = '*' ∨ c = '?' then .other else .divider)
    else if before = .divider ∧ (c = '+' ∨ c = '*') then (false, .other)
    else if before = .pound ∧ c = '!' then (false, .poundBang)
    else if before = .word ∧ c = '!' ∧ !joined then (false, .wordBang)
    else if before = .colon ∧ c = ':' then (false, .doubleColon)
    else if c = ',' ∨ c = ';' then (false, .other)
    else if c = '.' ∧ !isPattern then (before != .word && before != .bracket, .point)
    else if c = ':' ∧ joined then (before != .word, .colon)
    else if c = '$' then (true, .dollar)
    else if c = '#' then (true, .pound)
    else (true, .other)

def isJoined : Token → Bool
  | mark c joined => joined || c = '$'
  | _ => false

/-- What is written between a token and the one before it. -/
def gap (isPattern : Bool) (before : Context) (joined : Bool) (t : Token) : List Doc :=
  if joined then []
  else if (follow isPattern before t).1 then space
  else
    match t with
    | mark '.' _ => zero
    | _ => []

/-- The document of the argument of an expansion, in a context and after a token that may be
joined to it. -/
def expansionDoc (isPattern : Bool) (before : Context) (joined : Bool) : List Token → List Doc
  | [] => []
  | word w :: rest =>
    gap isPattern before joined (word w) ++ ofText w.text ++
      expansionDoc isPattern (follow isPattern before (word w)).2 false rest
  | lifetime text :: rest =>
    gap isPattern before joined (lifetime text) ++ ofText text ++
      expansionDoc isPattern (follow isPattern before (lifetime text)).2 false rest
  | literal l :: rest =>
    gap isPattern before joined (literal l) ++ ofText l.text ++
      expansionDoc isPattern (follow isPattern before (literal l)).2 false rest
  | mark c j :: rest =>
    gap isPattern before joined (mark c j) ++ ofText (String.singleton c) ++
      expansionDoc isPattern (follow isPattern before (mark c j)).2 (isJoined (mark c j)) rest
  | group bracket content :: rest =>
    gap isPattern before joined (group bracket content) ++ ofText bracket.opening ++
      (if content.isEmpty then []
        else if bracket = .curly then space ++ expansionDoc isPattern .start true content ++ space
        else expansionDoc isPattern .start true content) ++
      ofText bracket.closing ++
      expansionDoc isPattern (follow isPattern before (group bracket content)).2 false rest

/-- The document of tokens inside brackets, which start and end with the breaks `edge`. -/
def bracketedDoc (isPattern : Bool) (edge : List Doc) (content : List Token) : List Doc :=
  if content.isEmpty then []
  else
    cbox step
      (edge ++ ibox 0 (expansionDoc isPattern .start true content) ++ shiftLast (-step) edge)

/-- The document of the rules of an expansion, each one tokens to be matched, an arrow and
tokens to be written, closed by a semicolon. -/
def rulesDoc : List Token → List Doc
  | group bracket content :: mark '=' _ :: mark '>' _ :: group _ result :: rest =>
    ofText bracket.opening ++ bracketedDoc true zero content ++
      ofText (bracket.closing ++ " => \x7b") ++ [.brk { never := true }] ++
      bracketedDoc false newline result ++ ofText "\x7d;" ++ newline ++ rulesDoc rest
  | mark ';' _ :: rest => rulesDoc rest
  | _ => []

end Token

namespace Invocation

/-- The document of a call of an expansion with the text before its brackets, closed by a
semicolon if `closed`. -/
def docAfter (call : Invocation) (head : String) (closed : Bool) : List Doc :=
  let edge := if call.bracket = .curly then newline else zero
  ofText (head ++ (if call.bracket = .curly then " " else "") ++ call.bracket.opening) ++
    Token.bracketedDoc false edge call.content ++
    ofText (call.bracket.closing ++ (if closed then ";" else ""))

def doc (call : Invocation) (closed : Bool) : List Doc :=
  call.docAfter (call.name ++ "!") closed

/-- The word that defines an expansion by rules. -/
def definingName : String :=
  "macro_rules"

/-- The document of an item that calls an expansion, possibly with a name. After braces no
semicolon is written. -/
def itemDoc (call : Invocation) : Option Word → List Doc
  | none => call.doc (call.bracket ≠ .curly)
  | some name =>
    if call.name = definingName then
      ofText (definingName ++ "! " ++ name.text ++ " \x7b") ++
        cbox step (shiftLast (-step) (newlineIfNonempty ++ Token.rulesDoc call.content)) ++
        ofText "\x7d"
    else call.docAfter (call.name ++ "! " ++ name.text) (call.bracket ≠ .curly)

end Invocation

namespace Attribute

def opening (inner : Bool) : String :=
  if inner then "#![" else "#["

def listDoc (inner : Bool) (name : String) (bracket : Bracket) (content : List Token) : List Doc :=
  ofText (opening inner ++ name) ++ Token.attributeDoc .mark [.group bracket content] ++
    ofText "]" ++ space

def commentDoc (inner : Bool) (text : String) : List Doc :=
  ((if inner then CommentStyle.inner else .outer).doc? text.toList).getD
    (ofText (opening inner ++ "doc = " ++ Text.quoted text ++ "]") ++ space)

/-- The document of an attribute with a text as its value, if that is a comment. -/
def comment? (inner : Bool) (name : String) : Value → Option (List Doc)
  | .literal l =>
    match l.value? with
    | none => none
    | some text =>
      if name = "doc" then (if inner then CommentStyle.inner else .outer).doc? text.toList
      else if name = "comment" then CommentStyle.plain.doc? text.toList
      else none
  | _ => none

end Attribute

end Treewright.Code
