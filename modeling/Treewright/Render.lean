import Treewright.Draft.Build
import Treewright.Draft.Written
import Treewright.Files.Path

/-!
# Rendering grammars

A grammar is linked, the code in its options is read, and every draft is laid out.
What is reported on the way is a function of the grammar, too: the events of
linking, then one event for every family file up to the first faulty one.
-/

namespace Treewright

structure SourceFile where
  path : String
  content : String
deriving DecidableEq, Repr

namespace SourceFile

def find? (files : List SourceFile) (path : String) : Option SourceFile :=
  files.find? fun f => Path.same f.path path

end SourceFile

namespace Grammar

def drafts (g : Grammar) : Except Fault (List Draft) := do
  let linked ← g.link
  let dress ← Dress.ofOptions g.options
  Draft.all linked dress

/-- The files of a grammar: the families in writing order, then the visitor trait and the
enclosing module. -/
def render (g : Grammar) : Except Fault (List SourceFile) := do
  let drafts ← g.drafts
  .ok (drafts.map fun d => ⟨d.path, d.write⟩)

/-- Decides whether an outcome is a success. -/
def succeeds {α : Type} : Except Fault α → Bool
  | .ok _ => true
  | .error _ => false

def linkEvents (g : Grammar) : List Event :=
  match g.link with
  | .error _ => []
  | .ok linked => linked.events

def renderEvents (g : Grammar) : List Event :=
  g.linkEvents ++
    match g.link, Dress.ofOptions g.options with
    | .ok linked, .ok dress =>
      (linked.order.takeWhile fun f => succeeds (Draft.ofFamily linked dress f)).map fun f =>
        .rendered (Draft.fileName f) f.nodes.length
    | _, _ => []

end Grammar

end Treewright
