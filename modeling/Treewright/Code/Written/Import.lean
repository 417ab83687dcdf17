import Treewright.Code.Tree
import Treewright.Layout.Doc

/-!
# How imports are laid out

Documents for trees of imported names.
-/

namespace Treewright.Code

open Layout (Doc)
open Layout.Doc (ofText zero space newline comma cbox ibox shiftLast step)

namespace UseTree

/-- Decides whether a tree, behind the words of its path, is a group. -/
def endsInGroup : UseTree → Bool
  | path _ rest => rest.endsInGroup
  | group _ => true
  | _ => false

/-- Decides whether a tree is the enclosing module itself, possibly renamed. -/
def isSelf : UseTree → Bool
  | name w => w.text == "self"
  | rename w _ => w.text == "self"
  | _ => false

/-- The items of a group, each with the information whether it ends in a group. A line
ends after a group and may end after any other item. -/
def itemsDoc : List (Bool × List Doc) → List Doc
  | [] => []
  | [(_, d)] => d
  | (isGroup, d) :: rest =>
    d ++ ofText "," ++ (if isGroup then newline else space) ++ itemsDoc rest

def groupDoc (items : List (Bool × List Doc)) : List Doc :=
  cbox step
    (ofText "\x7b" ++ zero ++ ibox 0 (itemsDoc items) ++ shiftLast (-step) (comma true) ++
      ofText "\x7d")

mutual

/-- The document of a tree. A group of one is written without braces, unless it is the
enclosing module itself. -/
def doc : UseTree → List Doc
  | name w => ofText w.text
  | rename w newName => ofText (w.text ++ " as " ++ newName.text)
  | path w rest => ofText (w.text ++ "::") ++ rest.doc
  | glob => ofText "*"
  | group [] => ofText "\x7b\x7d"
  | group [item] => if item.isSelf then groupDoc (docs [item]) else item.doc
  | group (first :: second :: rest) => groupDoc (docs (first :: second :: rest))

def docs : List UseTree → List (Bool × List Doc)
  | [] => []
  | t :: rest => (t.endsInGroup, t.doc) :: docs rest

end

end UseTree

end Treewright.Code
