import Treewright.Code.Reading

/-!
# Reading imports

Trees of imported names. They need none of the other readers.
-/

namespace Treewright.Code.Reading

def useTree : Nat → Reader UseTree
  | 0 => failure
  | depth + 1 => do
    if ← skipIf (atMark '*') 1 then return .glob
    if atGroup .curly (← get) then
      return .group (← group .curly (separated (useTree depth)))
    let w ← identifierOr ["self", "super", "crate", "try"]
    if ← skipIf (atMarks "::") 2 then return .path w (← useTree depth)
    else if ← skipIf (atWord "as") 1 then return .rename w (← identifierOr ["_"])
    else return .name w

/-- Reads the tree of an item that imports names. A group in it that no path leads to may hold
trees that start at the root; then the tree has no written form. -/
def itemTree? : Nat → Reader (Option UseTree)
  | 0 => failure
  | depth + 1 => do
    if atGroup .curly (← get) then
      let items ← group .curly <| separated do
        if ← skipIf (atMarks "::") 2 then
          let _ ← useTree depth
          return none
        else itemTree? depth
      return (items.mapM id).map .group
    else return some (← useTree (depth + 1))

end Treewright.Code.Reading
