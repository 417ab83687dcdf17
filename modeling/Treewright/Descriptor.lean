import Treewright.Grammar.Validation
import Treewright.Row

/-!
# Grammar descriptors

A descriptor is a grammar as its author writes it: node rows are still text, and
options may be left out. Loading reads every row, fills in the defaults and
validates the grammar.
-/

namespace Treewright

structure FamilyDescriptor where
  name : String
  dependsOn : Option String := none
  rows : List String

structure Descriptor where
  name : String
  result : Option String := none
  uses : List String := []
  derives : Option (List String) := none
  heapContainers : Option (List String) := none
  ownership : Ownership := {}
  aliases : List (String × String) := []
  families : List FamilyDescriptor := []

namespace FamilyDescriptor

def toFamily (d : FamilyDescriptor) : Except Fault Family :=
  match Row.parseAll d.rows with
  | .error fault => .error fault
  | .ok nodes => .ok ⟨d.name, nodes, d.dependsOn⟩

end FamilyDescriptor

namespace Descriptor

/-- The options of a descriptor, with defaults for what is left out. -/
def options (d : Descriptor) : Options :=
  let standard : Options := {}
  { result := d.result.getD standard.result
    uses := d.uses
    derives := d.derives.getD standard.derives
    aliases := d.aliases
    heapContainers := d.heapContainers.getD standard.heapContainers }

/-- Reads the families of a descriptor in order; the first fault wins. -/
def readFamilies : List FamilyDescriptor → Except Fault (List Family)
  | [] => .ok []
  | d :: rest =>
    match d.toFamily with
    | .error fault => .error fault
    | .ok family =>
      match readFamilies rest with
      | .error fault => .error fault
      | .ok families => .ok (family :: families)

/-- The grammar of a descriptor. A descriptor that takes the default result type has to
bring the names in it into scope. -/
def toGrammar (d : Descriptor) : Except Fault Grammar :=
  match readFamilies d.families with
  | .error fault => .error fault
  | .ok families =>
    if d.result.isNone && d.uses.isEmpty then .error (.resultNeedsUses d.options.result)
    else .ok { name := d.name, families, ownership := d.ownership, options := d.options }

def load (d : Descriptor) : Except Fault Grammar :=
  match d.toGrammar with
  | .error fault => .error fault
  | .ok g =>
    match g.validate with
    | .error fault => .error fault
    | .ok () => .ok g

end Descriptor

end Treewright
