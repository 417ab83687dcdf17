import Treewright.Code.Reading

/-!
# Reading attributes

An attribute is a path in square brackets, alone, with a group after it, or with a
value. Outer attributes stand before what they belong to, inner ones at the front of
what they belong to.
-/

namespace Treewright.Code.Reading

def atAttribute (s : List Token) : Bool :=
  atMark '#' s && atGroup .square s.tail

/-- Decides whether an attribute of what is being read comes next. -/
def atInnerAttribute (s : List Token) : Bool :=
  atMark '#' s && atMark '!' s.tail

/-- Reads what stands between the square brackets of an attribute. A value may be anything
that does not start with an attribute itself. -/
def attributeContent (r : Readers) (inner : Bool) : Reader Attribute := do
  let name ← if ← skipIf (atWord "unsafe") 1 then pure "unsafe" else plainPath
  match ← get with
  | .group bracket content :: rest =>
    set rest
    return .list inner name bracket content
  | .mark '=' _ :: content =>
    guard (!atAttribute content)
    set content
    return .equal inner name (← r.value true)
  | _ => return .plain inner name

def attributes (r : Readers) : Reader (List Attribute) :=
  manyWhile (atMark '#') (do mark '#'; group .square (attributeContent r false))

/-- Reads the attributes of what is being read. -/
def innerAttributes (r : Readers) : Reader (List Attribute) :=
  manyWhile atInnerAttribute (do skip 2; group .square (attributeContent r true))

end Treewright.Code.Reading
