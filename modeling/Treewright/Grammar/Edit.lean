import Treewright.Row

/-!
# Editing grammars

Small changes to a grammar. A change names families and nodes by their position, and
one that names a position that does not exist is refused. Nodes may be added as rows
or as they are; what they do to the validity of the grammar is for validation to say.
-/

namespace Treewright

inductive Edit where
  | setName (value : String)
  | setResult (value : String)
  | setUses (value : List String)
  | setDerives (value : List String)
  | setHeapContainers (value : List String)
  | setBorrowed (value : List String)
  | setDefaulted (value : List String)
  /-- Sets the alias of a type name, or removes it. -/
  | setAlias (name : String) (value : Option String)
  | addFamily (name : String) (rows : List String) (dependsOn : Option String)
  | removeFamily (family : Nat)
  | renameFamily (family : Nat) (value : String)
  | setDependency (family : Nat) (value : Option String)
  | swapFamilies (first second : Nat)
  | addRow (family : Nat) (row : String)
  | addNode (family : Nat) (node : Node)
  | removeNode (family node : Nat)
  | keep

inductive EditFault where
  | outOfRange
  | fault (fault : Fault)
deriving DecidableEq, Repr

namespace Grammar

/-- Changes the family at a position. -/
def changeFamily (g : Grammar) (family : Nat) (change : Family → Except EditFault Family) :
    Except EditFault Grammar :=
  match g.families[family]? with
  | none => .error .outOfRange
  | some f =>
    match change f with
    | .error fault => .error fault
    | .ok f => .ok { g with families := g.families.set family f }

def apply (g : Grammar) : Edit → Except EditFault Grammar
  | .setName value => .ok { g with name := value }
  | .setResult value => .ok { g with options := { g.options with result := value } }
  | .setUses value => .ok { g with options := { g.options with uses := value } }
  | .setDerives value => .ok { g with options := { g.options with derives := value } }
  | .setHeapContainers value =>
    .ok { g with options := { g.options with heapContainers := value } }
  | .setBorrowed value => .ok { g with ownership := { g.ownership with borrowed := value } }
  | .setDefaulted value => .ok { g with ownership := { g.ownership with defaulted := value } }
  | .setAlias name value =>
    let others := g.options.aliases.filter fun (key, _) => decide (key ≠ name)
    let aliases := others ++ (value.toList.map fun v => (name, v))
    .ok { g with options := { g.options with aliases } }
  | .addFamily name rows dependsOn =>
    match Row.parseAll rows with
    | .error fault => .error (.fault fault)
    | .ok nodes => .ok { g with families := g.families ++ [⟨name, nodes, dependsOn⟩] }
  | .removeFamily family =>
    if family < g.families.length then .ok { g with families := g.families.eraseIdx family }
    else .error .outOfRange
  | .renameFamily family value => g.changeFamily family fun f => .ok { f with name := value }
  | .setDependency family value =>
    g.changeFamily family fun f => .ok { f with dependsOn := value }
  | .swapFamilies first second =>
    match g.families[first]?, g.families[second]? with
    | some a, some b => .ok { g with families := (g.families.set first b).set second a }
    | _, _ => .error .outOfRange
  | .addRow family row =>
    g.changeFamily family fun f =>
      match Row.parse row with
      | .error fault => .error (.fault fault)
      | .ok node => .ok { f with nodes := f.nodes ++ [node] }
  | .addNode family node =>
    g.changeFamily family fun f => .ok { f with nodes := f.nodes ++ [node] }
  | .removeNode family node =>
    g.changeFamily family fun f =>
      if node < f.nodes.length then .ok { f with nodes := f.nodes.eraseIdx node }
      else .error .outOfRange
  | .keep => .ok g

end Grammar

end Treewright
