import Treewright.Grammar

/-!
# The order in which families are written

Families are requested in declaration order. A requested family is written after
the family it depends on, so each request follows the chain of dependencies as far
as it has not been written yet and then writes the chain from its far end. A
chain that comes back to one of its own families is a dependency cycle.

The families still to be reached are kept in a list that gets shorter with every
step, so every walk ends, whatever the dependencies are.
-/

namespace Treewright.Linked

def without (name : String) (families : List Family) : List Family :=
  families.filter (·.name != name)

theorem length_without_lt
    {name : String} {families : List Family} {f : Family}
    (h : families.find? (·.name == name) = some f) :
    (without name families).length < families.length := by
  apply List.length_filter_lt_length_iff_exists.mpr
  refine ⟨f, List.mem_of_find?_eq_some h, ?_⟩
  simpa using List.find?_some h

/-- The part of a chain of dependencies that lies on a cycle: from the first family of
the name `name` on, with that name repeated at the end. The chain is given last family
first. -/
def cycleAt (name : String) (chain : List Family) : List String :=
  ((chain.reverse.dropWhile (·.name != name)).map (·.name)) ++ [name]

/-- Follows dependencies from the name `next`. The families not reached yet are `open_`,
and `chain` holds the families of this walk, last one first. Returns the whole chain and
the families that are still open, or the cycle that the walk runs into. -/
def follow (open_ chain : List Family) (next : Option String) :
    Except Fault (List Family × List Family) :=
  match next with
  | none => .ok (chain, open_)
  | some name =>
    match _h : open_.find? (·.name == name) with
    | some f => follow (without name open_) (f :: chain) f.dependsOn
    | none =>
      if chain.any (·.name == name) then .error (.dependencyCycle (cycleAt name chain))
      else .ok (chain, open_)
termination_by open_.length
decreasing_by exact length_without_lt _h

/-- Requests families in order. A family that is no longer open has been written
already; any other one is written at the end of its chain. -/
def orderFrom (open_ : List Family) : List Family → Except Fault (List Family)
  | [] => .ok []
  | f :: rest =>
    match follow open_ [] (some f.name) with
    | .error fault => .error fault
    | .ok (chain, stillOpen) =>
      match orderFrom stillOpen rest with
      | .error fault => .error fault
      | .ok later => .ok (chain ++ later)

/-- The families of a grammar in the order in which they are written. -/
def emissionOrder (g : Grammar) : Except Fault (List Family) :=
  orderFrom g.families g.families

/-- The families reached from the name `next` by following dependencies, farthest
first. A family is listed once. -/
def reachedFrom (open_ : List Family) (next : Option String) : List Family :=
  match next with
  | none => []
  | some name =>
    match _h : open_.find? (·.name == name) with
    | none => []
    | some f => reachedFrom (without name open_) f.dependsOn ++ [f]
termination_by open_.length
decreasing_by exact length_without_lt _h

/-- The families that a family depends on, directly or through others, farthest
first. -/
def dependencies (g : Grammar) (f : Family) : List Family :=
  reachedFrom g.families f.dependsOn

end Treewright.Linked
