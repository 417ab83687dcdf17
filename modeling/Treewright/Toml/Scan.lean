/-!
# Strings, keys and numbers of TOML

Readers for the parts of a document that do not contain other values. A reader
returns what it read and the rest of the text.
-/

namespace Treewright.Toml

def isBlank (c : Char) : Bool :=
  c == ' ' || c == '\t'

def skipBlanks (s : List Char) : List Char :=
  s.dropWhile isBlank

/-- The characters that may stand in a comment or a string: no control characters except
tabs. -/
def isPlain (c : Char) : Bool :=
  c == '\t' || (0x20 ≤ c.toNat && c.toNat != 0x7F)

def takeNewline : List Char → Option (List Char)
  | '\n' :: rest => some rest
  | '\r' :: '\n' :: rest => some rest
  | _ => none

/-- Skips a comment up to the end of its line, which is left; fails at a character that may
not stand in it. -/
def skipComment : List Char → Option (List Char)
  | [] => some []
  | c :: rest =>
    if isPlain c then skipComment rest
    else if (takeNewline (c :: rest)).isSome then some (c :: rest)
    else none

/-- Skips blanks, line ends and comments; whether the text is inside a comment is kept
track of. -/
def skipGap (inComment : Bool) : List Char → Option (List Char)
  | [] => some []
  | '\n' :: rest => skipGap false rest
  | '\r' :: '\n' :: rest => skipGap false rest
  | c :: rest =>
    if inComment then if isPlain c then skipGap true rest else none
    else if isBlank c then skipGap false rest
    else if c == '#' then skipGap true rest
    else some (c :: rest)

def hexDigit? (c : Char) : Option Nat :=
  if c.isDigit then some (c.toNat - 48)
  else if 'a' ≤ c && c ≤ 'f' then some (c.toNat - 87)
  else if 'A' ≤ c && c ≤ 'F' then some (c.toNat - 55)
  else none

/-- The character of a code point, if it is one. -/
def scalar? (n : Nat) : Option Char :=
  if h : n.isValidChar then some (Char.ofNatAux n h) else none

/-- Reads a code point of a given number of hexadecimal digits. -/
def takeCodePoint (digits : Nat) (s : List Char) : Option (Char × List Char) := do
  let values ← (s.take digits).mapM hexDigit?
  if values.length = digits then
    let c ← scalar? (values.foldl (fun n d => 16 * n + d) 0)
    some (c, s.drop digits)
  else none

def takeEscape : List Char → Option (Char × List Char)
  | 'b' :: rest => some ('\x08', rest)
  | 't' :: rest => some ('\t', rest)
  | 'n' :: rest => some ('\n', rest)
  | 'f' :: rest => some ('\x0c', rest)
  | 'r' :: rest => some ('\r', rest)
  | '"' :: rest => some ('"', rest)
  | '\\' :: rest => some ('\\', rest)
  | 'u' :: rest => takeCodePoint 4 rest
  | 'U' :: rest => takeCodePoint 8 rest
  | _ => none

/-- Reads the rest of a quoted string on one line. At most `limit` characters are read. -/
def takeQuoted (limit : Nat) (s : List Char) : Option (List Char × List Char) :=
  match limit, s with
  | 0, _ => none
  | _, [] => none
  | _ + 1, '"' :: rest => some ([], rest)
  | limit + 1, '\\' :: rest => do
    let (c, rest) ← takeEscape rest
    let (text, rest) ← takeQuoted limit rest
    some (c :: text, rest)
  | limit + 1, c :: rest =>
    if isPlain c then (takeQuoted limit rest).map fun (text, rest) => (c :: text, rest) else none

def takeLiteral : List Char → Option (List Char × List Char)
  | [] => none
  | '\'' :: rest => some ([], rest)
  | c :: rest =>
    if isPlain c then (takeLiteral rest).map fun (text, rest) => (c :: text, rest) else none

/-- Skips the blanks and line ends after a backslash that ends a line. -/
def skipContinuation : List Char → List Char
  | '\n' :: rest => skipContinuation rest
  | '\r' :: '\n' :: rest => skipContinuation rest
  | c :: rest => if isBlank c then skipContinuation rest else c :: rest
  | [] => []

/-- Reads the rest of a string of several lines whose quote is `quote`. Three quotes end it,
and one or two more before them belong to it. Escapes are read if `escapes` says so, and
at most `limit` characters are read. -/
def takeBlock (quote : Char) (escapes : Bool) (limit : Nat) (s : List Char) :
    Option (List Char × List Char) :=
  match limit, s with
  | 0, _ => none
  | _, [] => none
  | limit + 1, c :: rest =>
    if c = quote then
      let run := (c :: rest).takeWhile (· == quote)
      let after := (c :: rest).dropWhile (· == quote)
      if run.length < 3 then
        (takeBlock quote escapes limit after).map fun (text, rest) => (run ++ text, rest)
      else if run.length < 6 then some (run.drop 3, after)
      else none
    else if escapes && c == '\\' then
      match takeNewline (skipBlanks rest) with
      | some rest => takeBlock quote escapes limit (skipContinuation rest)
      | none => do
        let (c, rest) ← takeEscape rest
        let (text, rest) ← takeBlock quote escapes limit rest
        some (c :: text, rest)
    else
      match takeNewline (c :: rest) with
      | some rest =>
        (takeBlock quote escapes limit rest).map fun (text, rest) => ('\n' :: text, rest)
      | none =>
        if isPlain c then
          (takeBlock quote escapes limit rest).map fun (text, rest) => (c :: text, rest)
        else none

def takeString (s : List Char) : Option (String × List Char) :=
  let block (quote : Char) (escapes : Bool) (rest : List Char) :=
    takeBlock quote escapes (rest.length + 1) ((takeNewline rest).getD rest)
  let read :=
    match s with
    | '"' :: '"' :: '"' :: rest => block '"' true rest
    | '"' :: rest => takeQuoted (rest.length + 1) rest
    | '\'' :: '\'' :: '\'' :: rest => block '\'' false rest
    | '\'' :: rest => takeLiteral rest
    | _ => none
  read.map fun (text, rest) => (String.ofList text, rest)

/-- The characters of a bare key. -/
def isBareKey (c : Char) : Bool :=
  c.isAlphanum || c == '_' || c == '-'

def takeSimpleKey (s : List Char) : Option (String × List Char) :=
  match s with
  | '"' :: rest => (takeQuoted (rest.length + 1) rest).map fun (t, r) => (String.ofList t, r)
  | '\'' :: rest => (takeLiteral rest).map fun (t, r) => (String.ofList t, r)
  | s =>
    let text := s.takeWhile isBareKey
    if text.isEmpty then none else some (String.ofList text, s.dropWhile isBareKey)

/-- Values may be nested in each other, and the parts of a key lead down, fewer times than
this. -/
def nestingLimit : Nat := 80

/-- Reads the parts of a key, at most `limit` of them, and the blanks after it. -/
def takeKeyParts (limit : Nat) (s : List Char) : Option (List String × List Char) :=
  match limit with
  | 0 => none
  | limit + 1 => do
    let (first, rest) ← takeSimpleKey (skipBlanks s)
    match skipBlanks rest with
    | '.' :: rest =>
      let (more, rest) ← takeKeyParts limit rest
      some (first :: more, rest)
    | rest => some ([first], rest)

/-- Reads a key, its parts separated by dots, with the blanks around it. -/
def takeKey (s : List Char) : Option (List String × List Char) :=
  takeKeyParts (nestingLimit - 1) s

/-- Reads digits, between which single underscores may stand. -/
def takeDigits (isDigit : Char → Bool) (s : List Char) : Option (List Char × List Char) :=
  let part := s.takeWhile fun c => isDigit c || c == '_'
  let rest := s.dropWhile fun c => isDigit c || c == '_'
  let underscoresApart : Bool :=
    part.head? != some '_' && part.getLast? != some '_' &&
      (part.zip part.tail).all fun (a, b) => a != '_' || b != '_'
  if part.isEmpty || !underscoresApart then none
  else some (part.filter (· != '_'), rest)

/-- Reads a sign, if there is one. -/
def takeSign : List Char → List Char × List Char
  | '+' :: rest => (['+'], rest)
  | '-' :: rest => (['-'], rest)
  | rest => ([], rest)

/-- Reads the digits of a decimal number, which has no zeros in front. -/
def takeWhole (s : List Char) : Option (List Char × List Char) := do
  let (digits, rest) ← takeDigits Char.isDigit s
  if digits.length > 1 && digits.head? == some '0' then none else some (digits, rest)

def ofDigits (base : Nat) (digits : List Char) : Nat :=
  digits.foldl (fun n c => base * n + (hexDigit? c).getD 0) 0

def takeExponent : List Char → Option (Int × List Char)
  | [] => none
  | e :: rest =>
    if e == 'e' || e == 'E' then do
      let (sign, rest) := takeSign rest
      let (digits, rest) ← takeDigits Char.isDigit rest
      let size : Int := ofDigits 10 digits
      some (if sign == ['-'] then -size else size, rest)
    else none

/-- The least number that lies nearer to infinity than to a number of sixty-four bits, or as
near. -/
def infinityBound : Nat :=
  Nat.pow 2 1024 - Nat.pow 2 970

/-- How many decimal digits `infinityBound` has. -/
def infinityDigits : Nat := 309

/-- Decides whether digits times a power of ten reach `infinityBound`. A power is only
computed for a number that has as many digits as the bound. -/
def reachesInfinity (digits : List Char) (exponent : Int) : Bool :=
  let digits := digits.dropWhile (· == '0')
  let size := digits.length + exponent
  if digits.isEmpty || size < infinityDigits then false
  else if infinityDigits < size then true
  else
    infinityBound * Nat.pow 10 (-exponent).toNat ≤ ofDigits 10 digits * Nat.pow 10 exponent.toNat

/-- Reads a floating point number and gives it as it is written. A number without a minus
sign must not be so large that it would become infinity. -/
def takeFloat (s : List Char) : Option (List Char × List Char) :=
  let (sign, start) := takeSign s
  match start with
  | 'i' :: 'n' :: 'f' :: rest => some (sign ++ ['i', 'n', 'f'], rest)
  | 'n' :: 'a' :: 'n' :: rest => some (sign ++ ['n', 'a', 'n'], rest)
  | start => do
    let (whole, rest) ← takeWhole start
    let finish (fraction : List Char) (exponent : Int) (rest : List Char) :=
      if sign != ['-'] && reachesInfinity (whole ++ fraction) (exponent - fraction.length) then
        none
      else some (s.take (s.length - rest.length), rest)
    match rest with
    | '.' :: rest =>
      let (fraction, rest) ← takeDigits Char.isDigit rest
      match takeExponent rest with
      | some (exponent, rest) => finish fraction exponent rest
      | none => finish fraction 0 rest
    | rest =>
      let (exponent, rest) ← takeExponent rest
      finish [] exponent rest

/-- An integer has to fit into sixty-four bits. -/
def fitting? (n : Int) : Option Int :=
  if -9223372036854775808 ≤ n ∧ n ≤ 9223372036854775807 then some n else none

def takeInteger (s : List Char) : Option (Int × List Char) :=
  let based (base : Nat) (isDigit : Char → Bool) (rest : List Char) :
      Option (Int × List Char) := do
    let (digits, rest) ← takeDigits isDigit rest
    let n ← fitting? (ofDigits base digits)
    some (n, rest)
  match s with
  | '0' :: 'x' :: rest => based 16 (fun c => (hexDigit? c).isSome) rest
  | '0' :: 'o' :: rest => based 8 (fun c => '0' ≤ c && c ≤ '7') rest
  | '0' :: 'b' :: rest => based 2 (fun c => c == '0' || c == '1') rest
  | s => do
    let (sign, rest) := takeSign s
    let (digits, rest) ← takeWhole rest
    let size : Int := ofDigits 10 digits
    let n ← fitting? (if sign == ['-'] then -size else size)
    some (n, rest)

def takeFixed (count low high : Nat) (s : List Char) : Option (Nat × List Char) :=
  let digits := s.take count
  let n := ofDigits 10 digits
  if digits.length = count ∧ digits.all Char.isDigit ∧ low ≤ n ∧ n ≤ high then
    some (n, s.drop count)
  else none

/-- Reads the character `c`. -/
def takeChar (c : Char) : List Char → Option (List Char)
  | d :: rest => if d = c then some rest else none
  | [] => none

def daysIn (year month : Nat) : Nat :=
  if month = 2 then
    if year % 4 = 0 ∧ (year % 100 ≠ 0 ∨ year % 400 = 0) then 29 else 28
  else if month ∈ [4, 6, 9, 11] then 30
  else 31

def takeDate (s : List Char) : Option (List Char × List Char) := do
  let (year, rest) ← takeFixed 4 0 9999 s
  let rest ← takeChar '-' rest
  let (month, rest) ← takeFixed 2 1 12 rest
  let rest ← takeChar '-' rest
  let (_, rest) ← takeFixed 2 1 (daysIn year month) rest
  some (s.take 10, rest)

/-- The digits of a fraction of a second that count: nine at most, and no zeros at the end. -/
def fraction (digits : List Char) : List Char :=
  match ((digits.take 9).reverse.dropWhile (· == '0')).reverse with
  | [] => []
  | digits => '.' :: digits

def takeTime (s : List Char) : Option (List Char × List Char) := do
  let (_, rest) ← takeFixed 2 0 23 s
  let rest ← takeChar ':' rest
  let (_, rest) ← takeFixed 2 0 59 rest
  let rest ← takeChar ':' rest
  let (_, rest) ← takeFixed 2 0 60 rest
  match rest with
  | '.' :: more =>
    let digits := more.takeWhile Char.isDigit
    if digits.isEmpty then none
    else some (s.take 8 ++ fraction digits, more.dropWhile Char.isDigit)
  | rest => some (s.take 8, rest)

/-- Reads an offset from universal time; none at all has the sign `+`. -/
def takeOffset (s : List Char) : Option (List Char × List Char) :=
  match s with
  | 'Z' :: rest => some (['Z'], rest)
  | 'z' :: rest => some (['Z'], rest)
  | c :: start =>
    if c == '+' || c == '-' then do
      let (hours, rest) ← takeFixed 2 0 23 start
      let rest ← takeChar ':' rest
      let (minutes, rest) ← takeFixed 2 0 59 rest
      some ((if hours = 0 ∧ minutes = 0 then '+' else c) :: start.take 5, rest)
    else none
  | [] => none

/-- Reads a date, a time or both, and gives it in its standard spelling. -/
def takeMoment (s : List Char) : Option (List Char × List Char) :=
  match takeDate s with
  | none => takeTime s
  | some (date, rest) =>
    match rest with
    | c :: more =>
      if c == 'T' || c == 't' || c == ' ' then
        match takeTime more with
        | some (time, rest) =>
          let (offset, rest) := (takeOffset rest).getD ([], rest)
          some (date ++ 'T' :: time ++ offset, rest)
        | none => some (date, c :: more)
      else some (date, c :: more)
    | [] => some (date, [])

end Treewright.Toml
