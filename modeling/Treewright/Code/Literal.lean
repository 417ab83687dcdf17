import Treewright.Text.Escape
import Treewright.Text.Letter

/-!
# Literals

Readers for the quoted texts, the quoted characters and the numbers of code. A
literal is kept as it is written, together with its kind; what has to be decided is
where it ends, and whether the escapes in it are allowed. A reader returns the
literal, or its text, and the rest.
-/

namespace Treewright.Code

inductive LiteralKind where
  | text
  | bytes
  /-- A quoted text that is ended by a zero. -/
  | terminated
  | byte
  | character
  | integer
  | float
  | truth
  /-- A place where code could not be read, which is code itself. -/
  | mistake
deriving DecidableEq, Repr

structure Literal where
  text : String
  kind : LiteralKind
deriving DecidableEq, Repr

namespace Literal

/-- What may stand between the quotes of a literal. -/
inductive Alphabet where
  | characters
  /-- The characters of one byte, and any byte by its number. -/
  | bytes
  /-- Any character except zero, which ends the text. -/
  | terminated
deriving DecidableEq, Repr

def hexDigit? (c : Char) : Option Nat :=
  if c.isDigit then some (c.toNat - 48)
  else if 'a' ≤ c && c ≤ 'f' then some (c.toNat - 87)
  else if 'A' ≤ c && c ≤ 'F' then some (c.toNat - 55)
  else none

namespace Alphabet

/-- Decides whether a character can stand for itself. -/
def admits (a : Alphabet) (c : Char) : Bool :=
  match a with
  | characters => true
  | bytes => c.toNat < 0x80
  | terminated => c.toNat != 0

/-- Decides whether an escape of two digits may have this value. -/
def admitsCode (a : Alphabet) (n : Nat) : Bool :=
  match a with
  | characters => n < 0x80
  | bytes => true
  | terminated => n != 0

/-- Decides whether an escape in braces may have this value. -/
def admitsScalar (a : Alphabet) (n : Nat) : Bool :=
  match a with
  | characters => decide n.isValidChar
  | bytes => false
  | terminated => decide n.isValidChar && n != 0

end Alphabet

/-- Reads the rest of an escape in braces, whose digits so far are `count` many and have the
value `value`. Underscores may stand after the first digit. -/
def takeBraced (a : Alphabet) (count value : Nat) : List Char → Option (List Char × List Char)
  | [] => none
  | c :: rest =>
    match hexDigit? c with
    | some d =>
      if count = 6 then none
      else
        (takeBraced a (count + 1) (16 * value + d) rest).map fun (text, after) => (c :: text, after)
    | none =>
      if count = 0 then none
      else if c == '_' then
        (takeBraced a count value rest).map fun (text, after) => (c :: text, after)
      else if c == '\x7d' && a.admitsScalar value then some ([c], rest)
      else none

def takeEscape (a : Alphabet) : List Char → Option (List Char × List Char)
  | 'x' :: c :: d :: rest =>
    match hexDigit? c, hexDigit? d with
    | some high, some low =>
      if a.admitsCode (16 * high + low) then some (['x', c, d], rest) else none
    | _, _ => none
  | 'u' :: '\x7b' :: rest =>
    (takeBraced a 0 0 rest).map fun (text, after) => ('u' :: '\x7b' :: text, after)
  | '0' :: rest => if a = .terminated then none else some (['0'], rest)
  | c :: rest => if c ∈ ['n', 'r', 't', '\\', '\'', '"'] then some ([c], rest) else none
  | [] => none

/-- Reads the rest of a quoted text, its closing quote included. A backslash may end a line,
and a carriage return stands only before a line end. At most `limit` pieces are read. -/
def takeQuoted (a : Alphabet) (limit : Nat) (s : List Char) : Option (List Char × List Char) :=
  match limit, s with
  | 0, _ => none
  | _, [] => none
  | _ + 1, '"' :: rest => some (['"'], rest)
  | limit + 1, '\r' :: '\n' :: rest =>
    (takeQuoted a limit rest).map fun (text, after) => ('\r' :: '\n' :: text, after)
  | _ + 1, '\r' :: _ => none
  | limit + 1, '\\' :: '\n' :: rest =>
    (takeQuoted a limit rest).map fun (text, after) => ('\\' :: '\n' :: text, after)
  | limit + 1, '\\' :: '\r' :: '\n' :: rest =>
    (takeQuoted a limit rest).map fun (text, after) => ('\\' :: '\r' :: '\n' :: text, after)
  | limit + 1, '\\' :: rest => do
    let (escape, rest) ← takeEscape a rest
    let (text, after) ← takeQuoted a limit rest
    some ('\\' :: escape ++ text, after)
  | limit + 1, c :: rest =>
    if a.admits c then (takeQuoted a limit rest).map fun (text, after) => (c :: text, after)
    else none

def takeUnescaped (a : Alphabet) (fence : List Char) : List Char → Option (List Char × List Char)
  | [] => none
  | '\r' :: '\n' :: rest =>
    (takeUnescaped a fence rest).map fun (text, after) => ('\r' :: '\n' :: text, after)
  | '\r' :: _ => none
  | c :: rest =>
    if c == '"' && fence.isPrefixOf rest then some (c :: fence, rest.drop fence.length)
    else if a.admits c then
      (takeUnescaped a fence rest).map fun (text, after) => (c :: text, after)
    else none

/-- Reads a raw text from its fence of number signs on. A fence has at most 255 signs. -/
def takeFenced (a : Alphabet) (s : List Char) : Option (List Char × List Char) :=
  let fence := s.takeWhile (· == '#')
  match s.dropWhile (· == '#') with
  | '"' :: rest =>
    if fence.length ≤ 255 then
      (takeUnescaped a fence rest).map fun (text, after) => (fence ++ '"' :: text, after)
    else none
  | _ => none

def takeCharacter (a : Alphabet) (s : List Char) : Option (List Char × List Char) :=
  let piece :=
    match s with
    | '\\' :: rest => (takeEscape a rest).map fun (text, after) => ('\\' :: text, after)
    | c :: rest => if a.admits c then some ([c], rest) else none
    | [] => none
  match piece with
  | some (text, '\'' :: rest) => some (text ++ ['\''], rest)
  | _ => none

/-- A word that directly follows a literal belongs to it. -/
def takeSuffix (literal rest : List Char) : List Char × List Char :=
  if rest.head?.any (fun c => c == '_' || Text.isLetter c) then
    (literal ++ rest.takeWhile Text.isLetterOrMark, rest.dropWhile Text.isLetterOrMark)
  else (literal, rest)

/-- Decides whether a character is a digit of a number in some base, or a divider. -/
def isDigitOf (base : Nat) (c : Char) : Bool :=
  c == '_' ||
    (if c.isDigit then c.toNat - 48 < base
      else base == 16 && ('a' ≤ c && c ≤ 'f' || 'A' ≤ c && c ≤ 'F'))

/-- Reads an exponent after its letter: digits, a sign at most once and before the first
digit, and dividers anywhere. -/
def takeExponentDigits (signed started : Bool) : List Char → Option (List Char × List Char)
  | [] => if started then some ([], []) else none
  | c :: rest =>
    if c == '+' || c == '-' then
      if started then some ([], c :: rest)
      else if signed then none
      else (takeExponentDigits true false rest).map fun (text, after) => (c :: text, after)
    else if c.isDigit then
      (takeExponentDigits signed true rest).map fun (text, after) => (c :: text, after)
    else if c == '_' then
      (takeExponentDigits signed started rest).map fun (text, after) => (c :: text, after)
    else if started then some ([], c :: rest)
    else none

/-- The exponent of a decimal number with its digits, if there is one at the front. -/
def takeExponent : List Char → Option (List Char × List Char)
  | [] => none
  | e :: rest =>
    if e != 'e' && e != 'E' then none
    else (takeExponentDigits false false rest).map fun (text, after) => (e :: text, after)

/-- Reads the decimal number at the front of a text, and tells whether it is a whole one. A
point belongs to it unless a second point or a word follows. -/
def takeDecimal (s : List Char) : LiteralKind × List Char × List Char :=
  let whole := s.takeWhile (isDigitOf 10)
  let (kind, text, rest) : LiteralKind × List Char × List Char :=
    match s.dropWhile (isDigitOf 10) with
    | '.' :: more =>
      if more.head?.any (fun c => c == '.' || c == '_' || Text.isLetter c) then
        (.integer, whole, '.' :: more)
      else (.float, whole ++ '.' :: more.takeWhile (isDigitOf 10), more.dropWhile (isDigitOf 10))
    | more => (.integer, whole, more)
  match takeExponent rest with
  | some (exponent, after) => (.float, text ++ exponent, after)
  | none => (kind, text, rest)

/-- A number ends where no letter or digit follows. -/
def endsWord (read : List Char × List Char) : Option (List Char × List Char) :=
  if read.2.head?.any Text.isLetterOrMark then none else some read

/-- Reads the number at the front of a text, with its suffix. -/
def takeNumber (s : List Char) : Option (Literal × List Char) :=
  let suffixed (kind : LiteralKind) (text rest : List Char) : Option (Literal × List Char) :=
    (endsWord (takeSuffix text rest)).map fun (text, after) => (⟨String.ofList text, kind⟩, after)
  let based (base : Nat) (start digits : List Char) : Option (Literal × List Char) :=
    let text := digits.takeWhile (isDigitOf base)
    if text.any (· != '_') then
      suffixed .integer (start ++ text) (digits.dropWhile (isDigitOf base))
    else none
  match s with
  | '0' :: 'x' :: digits => based 16 ['0', 'x'] digits
  | '0' :: 'o' :: digits => based 8 ['0', 'o'] digits
  | '0' :: 'b' :: digits => based 2 ['0', 'b'] digits
  | c :: _ =>
    if c.isDigit then
      let (kind, text, rest) := takeDecimal s
      suffixed kind text rest
    else none
  | [] => none

/-- Reads the quoted literal at the front of a text: a text, plain or raw, of one of the
three alphabets, or a character. -/
def takeAnyQuoted (s : List Char) : Option (Literal × List Char) :=
  let whole (kind : LiteralKind) (start : List Char) (read : Option (List Char × List Char)) :
      Option (Literal × List Char) :=
    read.map fun (text, after) =>
      let (text, after) := takeSuffix (start ++ text) after
      (⟨String.ofList text, kind⟩, after)
  let quoted (a : Alphabet) (rest : List Char) := takeQuoted a (rest.length + 1) rest
  match s with
  | '"' :: rest => whole .text ['"'] (quoted .characters rest)
  | 'r' :: rest => whole .text ['r'] (takeFenced .characters rest)
  | 'b' :: '"' :: rest => whole .bytes ['b', '"'] (quoted .bytes rest)
  | 'b' :: 'r' :: rest => whole .bytes ['b', 'r'] (takeFenced .bytes rest)
  | 'c' :: '"' :: rest => whole .terminated ['c', '"'] (quoted .terminated rest)
  | 'c' :: 'r' :: rest => whole .terminated ['c', 'r'] (takeFenced .terminated rest)
  | 'b' :: '\'' :: rest => whole .byte ['b', '\''] (takeCharacter .bytes rest)
  | '\'' :: rest => whole .character ['\''] (takeCharacter .characters rest)
  | _ => none

def ofText (s : String) : Literal :=
  ⟨Text.quoted s, .text⟩

def isNumber (l : Literal) : Bool :=
  l.kind == .integer || l.kind == .float

/-- Decides whether a literal ends with a point, so that another point cannot follow at
once. -/
def endsInPoint (l : Literal) : Bool :=
  l.text.toList.getLast? == some '.'

/-- The value of the hexadecimal digits at the front, and the rest after the closing brace. -/
def bracedValue (value : Nat) : List Char → Nat × List Char
  | [] => (value, [])
  | c :: rest =>
    match hexDigit? c with
    | some d => bracedValue (16 * value + d) rest
    | none => if c == '_' then bracedValue value rest else (value, rest)

/-- The characters that a quoted text stands for, up to its closing quote. A line end after
a backslash vanishes together with the blanks after it. At most `limit` pieces are read. -/
def unquote (limit : Nat) (s : List Char) : List Char :=
  match limit, s with
  | 0, _ => []
  | _, [] => []
  | _ + 1, '"' :: _ => []
  | limit + 1, '\r' :: '\n' :: rest => '\n' :: unquote limit rest
  | limit + 1, '\\' :: 'n' :: rest => '\n' :: unquote limit rest
  | limit + 1, '\\' :: 'r' :: rest => '\r' :: unquote limit rest
  | limit + 1, '\\' :: 't' :: rest => '\t' :: unquote limit rest
  | limit + 1, '\\' :: '0' :: rest => Char.ofNat 0 :: unquote limit rest
  | limit + 1, '\\' :: 'x' :: c :: d :: rest =>
    Char.ofNat (16 * (hexDigit? c).getD 0 + (hexDigit? d).getD 0) :: unquote limit rest
  | limit + 1, '\\' :: 'u' :: '\x7b' :: rest =>
    let (value, rest) := bracedValue 0 rest
    Char.ofNat value :: unquote limit rest
  | limit + 1, '\\' :: c :: rest =>
    if c == '\n' || c == '\r' then
      unquote limit (rest.dropWhile fun c => c == ' ' || c == '\n' || c == '\t' || c == '\r')
    else c :: unquote limit rest
  | limit + 1, c :: rest => c :: unquote limit rest

def value? (l : Literal) : Option String :=
  if l.kind != .text then none
  else
    match l.text.toList with
    | 'r' :: rest =>
      let fence := rest.takeWhile (· == '#')
      (takeUnescaped .characters fence (rest.drop (fence.length + 1))).map fun (text, _) =>
        String.ofList (text.take (text.length - (fence.length + 1)))
    | _ :: rest => some (String.ofList (unquote (rest.length + 1) rest))
    | [] => none

/-- The number that the digits of an integer without suffix stand for. -/
def naturalValue? (l : Literal) : Option Nat :=
  let valueIn (base : Nat) (digits : List Char) : Option Nat :=
    let digits := digits.filter (· != '_')
    if digits.all (isDigitOf base) then
      some (digits.foldl (fun n c => base * n + (hexDigit? c).getD 0) 0)
    else none
  if l.kind != .integer then none
  else
    match l.text.toList with
    | '0' :: 'x' :: digits => valueIn 16 digits
    | '0' :: 'o' :: digits => valueIn 8 digits
    | '0' :: 'b' :: digits => valueIn 2 digits
    | digits => valueIn 10 digits

end Literal

end Treewright.Code
