/-!
# Values of TOML documents

A document is a table of values. While a document is read, a table also remembers
how it came about, because that decides whether a later line may extend it.
-/

namespace Treewright.Toml

inductive Value where
  | string (s : String)
  | integer (n : Int)
  /-- A floating point number as it is written. -/
  | float (text : String)
  | boolean (b : Bool)
  /-- A date, a time or both, in its standard spelling. -/
  | datetime (text : String)
  | array (items : List Value)
  | table (entries : List (String × Value))

/-- How a table came about. -/
inductive Origin where
  /-- By a header of its own. -/
  | header
  /-- On the way to the table of a header. -/
  | passage
  /-- By a dotted key. -/
  | dotted
deriving DecidableEq, Repr

/-- What a key stands for while the document is read. -/
inductive Entry where
  /-- A value that nothing can extend. -/
  | closed (v : Value)
  | table (origin : Origin) (entries : List (String × Entry))
  /-- The tables of a repeated header, last one first. -/
  | series (last : List (String × Entry)) (earlier : List (List (String × Entry)))

/-- The entries of a table that is being read, in order. -/
abbrev Entries : Type :=
  List (String × Entry)

namespace Entries

/-- Sets the entry of a key that is there, or adds it at the end. -/
def set (key : String) (e : Entry) : Entries → Entries
  | [] => [(key, e)]
  | (k, old) :: rest => if k = key then (k, e) :: rest else (k, old) :: set key e rest

/-- Adds a value under a dotted key. The tables on the way must have come about by dotted
keys, and the last key must be new. -/
def insert (path : List String) (key : String) (v : Value) (entries : Entries) : Option Entries :=
  match path with
  | [] =>
    match entries.lookup key with
    | none => some (entries ++ [(key, .closed v)])
    | some _ => none
  | k :: rest =>
    match entries.lookup k with
    | none => (insert rest key v []).map fun inner => entries.set k (.table .dotted inner)
    | some (.closed _) => none
    | some (.table .header _) => none
    | some (.table .passage inner) =>
      if rest.isEmpty then none
      else (insert rest key v inner).map fun inner => entries.set k (.table .passage inner)
    | some (.table .dotted inner) =>
      (insert rest key v inner).map fun inner => entries.set k (.table .dotted inner)
    | some (.series last earlier) =>
      if rest.isEmpty then none
      else (insert rest key v last).map fun last => entries.set k (.series last earlier)

/-- Changes the table that a header path leads to. Tables that are missing on the way come
about as passages, and a series leads into its last table. -/
def within (path : List String) (change : Entries → Option Entries) (entries : Entries) :
    Option Entries :=
  match path with
  | [] => change entries
  | k :: rest =>
    match entries.lookup k with
    | none => (within rest change []).map fun inner => entries.set k (.table .passage inner)
    | some (.closed _) => none
    | some (.table origin inner) =>
      (within rest change inner).map fun inner => entries.set k (.table origin inner)
    | some (.series last earlier) =>
      (within rest change last).map fun last => entries.set k (.series last earlier)

/-- Opens the table of a header. Only a table that is new or was a passage can be opened. -/
def openTable (key : String) (entries : Entries) : Option Entries :=
  match entries.lookup key with
  | none => some (entries.set key (.table .header []))
  | some (.table .passage inner) => some (entries.set key (.table .header inner))
  | some _ => none

/-- Opens a further table of a repeated header. -/
def openNext (key : String) (entries : Entries) : Option Entries :=
  match entries.lookup key with
  | none => some (entries.set key (.series [] []))
  | some (.series last earlier) => some (entries.set key (.series [] (last :: earlier)))
  | some _ => none

end Entries

mutual

def Entry.finish : Entry → Value
  | .closed v => v
  | .table _ entries => .table (finishAll entries)
  | .series last earlier => .array (finishSeries earlier [.table (finishAll last)])

def finishAll : List (String × Entry) → List (String × Value)
  | [] => []
  | (key, e) :: rest => (key, e.finish) :: finishAll rest

/-- The finished tables of a series, given last one first, before those already finished. -/
def finishSeries : List (List (String × Entry)) → List Value → List Value
  | [], finished => finished
  | entries :: earlier, finished => finishSeries earlier (.table (finishAll entries) :: finished)

end

end Treewright.Toml
