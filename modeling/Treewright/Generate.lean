import Treewright.Descriptor.Document
import Treewright.Embedded
import Treewright.Files.Install

/-!
# Runs

A run loads a grammar, renders it and puts the files in place. Nothing is written
unless the whole grammar has been rendered.
-/

namespace Treewright

inductive Source where
  | embedded
  | file (path : String)
deriving DecidableEq, Repr

namespace Source

/-- The path that an environment value names: a blank value names none. -/
def pathOfSetting (setting : Option String) : Option String :=
  setting.filter fun value => !Text.isAllBlank value

/-- The source that an environment value chooses: the path it names, or the built-in
document. -/
def ofSetting (setting : Option String) : Source :=
  match pathOfSetting setting with
  | none => embedded
  | some path => file path

def event : Source → Event
  | embedded => .usingEmbedded
  | file path => .loading path

def parse (source : Source) (document : String) : Except RunFault Grammar :=
  match Grammar.ofDocument document with
  | .ok g => .ok g
  | .error fault =>
    match source with
    | embedded => .error (.grammar none fault)
    | file path => .error (.grammar (some path) fault)

end Source

structure Report where
  grammar : String
  families : Nat
  nodes : Nat
  files : List String
deriving DecidableEq, Repr

namespace Operations

variable {M : Type → Type} [Monad M] {Home Spot : Type} (ops : Operations M Home Spot)

def load (source : Source) : M (Except RunFault Grammar) := do
  match source with
  | .embedded => return source.parse embeddedDocument
  | .file path =>
    match ← ops.read path with
    | .error cause => return .error (.unreadable path cause)
    | .ok content =>
      match String.fromUTF8? content with
      | none => return .error (.notText path)
      | some document => return source.parse document

/-- Renders a grammar and puts its files into a directory. -/
def generate (g : Grammar) (dir : String) : M (List Event × Except RunFault (List String)) := do
  match g.render with
  | .error fault => return (g.renderEvents, .error (.grammar none fault))
  | .ok files =>
    let (events, outcome) ← ops.install dir files
    return (g.renderEvents ++ events, outcome)

/-- Loads the grammar of a source and puts its files into a directory. -/
def run (source : Source) (dir : String) : M (List Event × Except RunFault Report) := do
  match ← ops.load source with
  | .error fault => return ([source.event], .error fault)
  | .ok g =>
    let (events, outcome) ← ops.generate g dir
    return (source.event :: events,
      outcome.map fun files => ⟨g.name, g.families.length, g.nodeCount, files⟩)

end Operations

/-- Loads the grammar of a source from a disk. -/
def Source.load (source : Source) (m : Mishaps) (d : Disk) : Except RunFault Grammar :=
  (((Disk.operations m).load source).run d).1

/-- Renders a grammar and puts its files into a directory, while things go wrong on the way. -/
def Grammar.generate (g : Grammar) (m : Mishaps) (d : Disk) (dir : String) :
    Attempt (List String) :=
  .of ((Disk.operations m).generate g dir) d

/-- Loads the grammar of a source and puts its files into a directory, while things go wrong on
the way. -/
def run (m : Mishaps) (d : Disk) (source : Source) (dir : String) : Attempt Report :=
  .of ((Disk.operations m).run source dir) d

end Treewright
