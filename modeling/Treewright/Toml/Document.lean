import Treewright.Toml.Scan
import Treewright.Toml.Value

/-!
# TOML documents

A document is read line by line. A header names the table that the following lines
belong to, and a line with a key adds a value to that table. A document that breaks
a rule of TOML 1.0 is not read at all.
-/

namespace Treewright.Toml

/-- Reads a number, a date or a time. -/
def takeNumber (s : List Char) : Option (Value × List Char) :=
  match takeMoment s with
  | some (text, rest) => some (.datetime (String.ofList text), rest)
  | none =>
    match takeFloat s with
    | some (text, rest) => some (.float (String.ofList text), rest)
    | none => (takeInteger s).map fun (n, rest) => (.integer n, rest)

mutual

/-- Reads a value. At most `limit` readers call each other, and values are nested at most
`depth` times. -/
def takeValue (limit depth : Nat) (s : List Char) : Option (Value × List Char) :=
  match limit with
  | 0 => none
  | limit + 1 =>
    match s with
    | [] => none
    | '[' :: rest =>
      match depth with
      | 0 => none
      | depth + 1 => (takeItems limit depth rest).map fun (items, rest) => (.array items, rest)
    | '\x7b' :: rest =>
      match depth with
      | 0 => none
      | depth + 1 =>
        let found :=
          match skipBlanks rest with
          | '\x7d' :: rest => some ([], rest)
          | rest => takePairs limit depth [] rest
        found.map fun (entries, rest) => (.table (finishAll entries), rest)
    | 't' :: 'r' :: 'u' :: 'e' :: rest => some (.boolean true, rest)
    | 'f' :: 'a' :: 'l' :: 's' :: 'e' :: rest => some (.boolean false, rest)
    | c :: rest =>
      if c == '"' || c == '\'' then
        (takeString (c :: rest)).map fun (text, rest) => (.string text, rest)
      else takeNumber (c :: rest)

/-- Reads the items of an array up to and including the closing bracket. -/
def takeItems (limit depth : Nat) (s : List Char) : Option (List Value × List Char) :=
  match limit with
  | 0 => none
  | limit + 1 => do
    let s ← skipGap false s
    match s with
    | ']' :: rest => some ([], rest)
    | s =>
      let (item, rest) ← takeValue limit depth s
      let rest ← skipGap false rest
      match rest with
      | ',' :: rest =>
        let (more, rest) ← takeItems limit depth rest
        some (item :: more, rest)
      | ']' :: rest => some ([item], rest)
      | _ => none

/-- Reads the pairs of an inline table up to and including the closing brace, and adds them
to the entries read before. -/
def takePairs (limit depth : Nat) (entries : Entries) (s : List Char) :
    Option (Entries × List Char) :=
  match limit with
  | 0 => none
  | limit + 1 => do
    let (path, rest) ← takeKey s
    let rest ← takeChar '=' rest
    let (v, rest) ← takeValue limit depth (skipBlanks rest)
    let key ← path.getLast?
    let entries ← entries.insert path.dropLast key v
    match skipBlanks rest with
    | ',' :: rest => takePairs limit depth entries rest
    | '\x7d' :: rest => some (entries, rest)
    | _ => none

end

/-- A document while it is read: all entries, and the table that lines belong to. -/
structure Reading where
  entries : Entries := []
  current : List String := []

namespace Reading

/-- Opens the table of a header. -/
def openHeader (r : Reading) (isSeries : Bool) (path : List String) : Option Reading := do
  let key ← path.getLast?
  let open_ := if isSeries then Entries.openNext key else Entries.openTable key
  let entries ← Entries.within path.dropLast open_ r.entries
  some ⟨entries, path⟩

def add (r : Reading) (path : List String) (v : Value) : Option Reading := do
  let key ← path.getLast?
  let entries ← Entries.within r.current (Entries.insert path.dropLast key v) r.entries
  some { r with entries }

/-- Reads a header or a pair at the start of a line; returns the rest of the line too. -/
def takeStatement (r : Reading) (s : List Char) : Option (Reading × List Char) :=
  match s with
  | '[' :: '[' :: rest => do
    let (path, rest) ← takeKey rest
    let rest ← takeChar ']' rest
    let rest ← takeChar ']' rest
    let r ← r.openHeader true path
    some (r, rest)
  | '[' :: rest => do
    let (path, rest) ← takeKey rest
    let rest ← takeChar ']' rest
    let r ← r.openHeader false path
    some (r, rest)
  | s => do
    let (path, rest) ← takeKey s
    let rest ← takeChar '=' rest
    let (v, rest) ← takeValue (2 * rest.length + 1) (nestingLimit - 1) (skipBlanks rest)
    let r ← r.add path v
    some (r, rest)

/-- Reads the blanks, the comment and the line end after a statement. -/
def takeLineEnd (s : List Char) : Option (List Char) := do
  let rest ←
    match skipBlanks s with
    | '#' :: rest => skipComment rest
    | rest => some rest
  if rest.isEmpty then some [] else takeNewline rest

/-- Reads at most `limit` lines to the end of the document. -/
def lines (limit : Nat) (r : Reading) (s : List Char) : Option Reading :=
  match limit with
  | 0 => none
  | limit + 1 => do
    match skipBlanks s with
    | [] => some r
    | start =>
      if start.head? == some '#' || (takeNewline start).isSome then
        let rest ← takeLineEnd start
        lines limit r rest
      else
        let (r, rest) ← r.takeStatement start
        let rest ← takeLineEnd rest
        lines limit r rest

end Reading

/-- Reads a document; a mark of byte order at its front is skipped. -/
def parse? (document : String) : Option (List (String × Value)) :=
  let text :=
    match document.toList with
    | c :: rest => if c.toNat == 0xFEFF then rest else c :: rest
    | [] => []
  ((Reading.lines (text.length + 1) {} text).map fun r => finishAll r.entries)

end Treewright.Toml
