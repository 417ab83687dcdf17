import Treewright.Descriptor
import Treewright.Toml.Document

/-!
# Descriptors as documents

A descriptor is written as a TOML document. Every key has a fixed kind of value, and
a key that a table does not know is a fault. The ownership lists and the families
may also be given as arrays of their values in a fixed order.
-/

namespace Treewright

open Toml (Value)

namespace Descriptor

def string? : Value → Option String
  | .string s => some s
  | _ => none

def strings? : Value → Option (List String)
  | .array items => items.mapM string?
  | _ => none

def hasOnly (known : List String) (entries : List (String × Value)) : Bool :=
  entries.all fun (key, _) => decide (key ∈ known)

/-- An optional entry: nothing if the key is missing, a failure if its value is of the
wrong kind. -/
def optional? {α : Type} (read : Value → Option α) (key : String)
    (entries : List (String × Value)) : Option (Option α) :=
  match entries.lookup key with
  | none => some none
  | some v => (read v).map some

/-- The ownership lists, by name or in the order borrowed, defaulted. -/
def ownership? : Value → Option Ownership
  | .table entries =>
    if hasOnly ["borrowed", "defaulted"] entries then do
      let standard : Ownership := {}
      let borrowed ← optional? strings? "borrowed" entries
      let defaulted ← optional? strings? "defaulted" entries
      some ⟨borrowed.getD standard.borrowed, defaulted.getD standard.defaulted⟩
    else none
  | .array [] => some {}
  | .array [borrowed] => do
    let borrowed ← strings? borrowed
    some { borrowed }
  | .array (borrowed :: defaulted :: _) => do
    let borrowed ← strings? borrowed
    let defaulted ← strings? defaulted
    some ⟨borrowed, defaulted⟩
  | _ => none

/-- The key under which a moment appears where a table of strings is expected. -/
def momentKey : String := "$__toml_private_datetime"

/-- A table of strings. A moment counts as a table of one entry. -/
def stringTable? : Value → Option (List (String × String))
  | .table entries => entries.mapM fun (key, v) => (string? v).map (key, ·)
  | .datetime text => some [(momentKey, text)]
  | _ => none

def family? : Value → Option FamilyDescriptor
  | .table entries =>
    if hasOnly ["name", "depends_on", "nodes"] entries then do
      let name ← entries.lookup "name" >>= string?
      let dependsOn ← optional? string? "depends_on" entries
      let rows ← entries.lookup "nodes" >>= strings?
      some { name, dependsOn, rows }
    else none
  | .array (name :: dependsOn :: rows :: _) => do
    let name ← string? name
    let dependsOn ← string? dependsOn
    let rows ← strings? rows
    some { name, dependsOn := some dependsOn, rows }
  | _ => none

def families? : Value → Option (List FamilyDescriptor)
  | .array items => items.mapM family?
  | _ => none

def ofTable? (entries : List (String × Value)) : Option Descriptor :=
  if hasOnly
      ["name", "result", "uses", "derives", "heap_containers", "ownership", "types", "family"]
      entries then do
    let name ← entries.lookup "name" >>= string?
    let result ← optional? string? "result" entries
    let uses ← optional? strings? "uses" entries
    let derives ← optional? strings? "derives" entries
    let heapContainers ← optional? strings? "heap_containers" entries
    let ownership ← optional? ownership? "ownership" entries
    let aliases ← optional? stringTable? "types" entries
    let families ← optional? families? "family" entries
    some {
      name
      result
      uses := uses.getD []
      derives
      heapContainers
      ownership := ownership.getD {}
      aliases := aliases.getD []
      families := families.getD [] }
  else none

def parse (document : String) : Except Fault Descriptor :=
  match (Toml.parse? document).bind ofTable? with
  | some d => .ok d
  | none => .error .malformedDescriptor

end Descriptor

namespace Grammar

def ofDocument (document : String) : Except Fault Grammar :=
  match Descriptor.parse document with
  | .error fault => .error fault
  | .ok d => d.load

end Grammar

end Treewright
