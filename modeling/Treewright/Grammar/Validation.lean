import Treewright.Grammar

/-!
# Validation of grammars

A grammar is valid when the names written from it cannot clash: module names,
visitor methods and the fields of each node are told apart after conversion to
snake case. Families are checked in declaration order, each against the earlier
ones, and the first fault is reported.
-/

namespace Treewright

/-- The modules that are written for every grammar. -/
def reservedModules : List String :=
  ["mod", "visitor"]

namespace Grammar

/-- Checks the fields of the node type `node` against the slots taken before them. -/
def checkFields (node : String) (taken : List String) : List Field → Except Fault Unit
  | [] => .ok ()
  | f :: rest =>
    if f.slotName ∈ taken then .error (.duplicateField node f.name)
    else checkFields node (f.slotName :: taken) rest

/-- Checks the nodes of a family against the classes of the earlier ones and against all
visitor methods so far, each with the type that has it. Returns the methods extended by
those of the family. -/
def checkNodes (family : Family) (classes : List String) (visits : List (String × String)) :
    List Node → Except Fault (List (String × String))
  | [] => .ok visits
  | n :: rest =>
    if n.className ∈ classes then
      .error (.duplicateClass family.name n.className)
    else
      match visits.lookup (family.visitMethod n) with
      | some first =>
        .error (.visitorCollision first (family.typeName n) (family.visitMethod n))
      | none =>
        match checkFields (family.typeName n) [] n.fields with
        | .error fault => .error fault
        | .ok () =>
          checkNodes family (n.className :: classes)
            ((family.visitMethod n, family.typeName n) :: visits) rest

/-- Checks families against the earlier ones and against all visitor methods so far. -/
def checkFamilies (earlier : List Family) (visits : List (String × String)) :
    List Family → Except Fault Unit
  | [] => .ok ()
  | f :: rest =>
    if !Name.isIdentifier f.name then
      .error (.invalidCode f.name .familyName)
    else if earlier.any (·.name == f.name) then
      .error (.duplicateFamily f.name)
    else if f.moduleName ∈ reservedModules then
      .error (.reservedFamilyName f.name)
    else
      match earlier.find? (·.moduleName == f.moduleName) with
      | some first => .error (.moduleCollision first.name f.name f.moduleName)
      | none =>
        if f.nodes.isEmpty then
          .error (.emptyFamily f.name)
        else
          match checkNodes f [] visits f.nodes with
          | .error fault => .error fault
          | .ok visits => checkFamilies (f :: earlier) visits rest

/-- Checks the ownership lists, then the families. -/
def validate (g : Grammar) : Except Fault Unit :=
  match g.ownership.validate with
  | .error fault => .error fault
  | .ok () => checkFamilies [] [] g.families

end Grammar

end Treewright
