import Treewright.Event
import Treewright.Files.RunFault
import Treewright.Render

/-!
# Putting files in place

Files are put into a directory in two phases. First every content is written to a
staging file of its own, under a name that nothing else has; then the staging files
are moved over their targets in order. The first step that fails ends the run, and
the staging files that are left are removed.

The steps are written for any kind of disk. A kind of disk is given by the operations
that work on single files.
-/

namespace Treewright

/-- The operations on single files of a kind of disk, which answer in `M`. A directory that is
found is a `Home`, and a staging file is a `Spot`. -/
structure Operations (M : Type → Type) (Home Spot : Type) where
  read (path : String) : M (Except DiskFault ByteArray)
  /-- The directory that a path leads to, if it leads to one. -/
  find (dir : String) : M (Option Home)
  /-- Creates the staging file with an index, under a name that no path in `targets` has. -/
  create (home : Home) (dir : String) (targets : List String) (i : Nat) : M (Except DiskFault Spot)
  /-- Writes a content to the staging file with an index. -/
  write (i : Nat) (spot : Spot) (content : String) : M (Except DiskFault Unit)
  /-- Gives the staging file with an index the permissions of a regular file. -/
  permit (i : Nat) (spot : Spot) : M (Except DiskFault Unit)
  /-- Moves the staging file with an index over a target. -/
  move (i : Nat) (spot : Spot) (target : String) : M (Except DiskFault Unit)
  remove (spot : Spot) : M Unit

/-- A staging file that waits for its target. -/
structure Staged (Spot : Type) where
  place : Spot
  target : String
deriving DecidableEq, Repr

namespace Operations

variable {M : Type → Type} [Monad M] {Home Spot : Type} (ops : Operations M Home Spot)

/-- Writes a content to a new staging file, which is removed if it cannot be completed. -/
def stageFile (home : Home) (dir : String) (targets : List String) (i : Nat)
    (target content : String) : M (Except RunFault (Staged Spot)) := do
  match ← ops.create home dir targets i with
  | .error cause => return .error (.notStaged target dir cause)
  | .ok spot =>
    match ← ops.write i spot content with
    | .error cause =>
      ops.remove spot
      return .error (.notWritten target cause)
    | .ok () =>
      match ← ops.permit i spot with
      | .error cause =>
        ops.remove spot
        return .error (.notPermitted target cause)
      | .ok () => return .ok ⟨spot, target⟩

/-- Writes every file, from index `i` on, to a staging file. The first failure removes what
was staged. -/
def stage (home : Home) (dir : String) (targets : List String) (i : Nat) :
    List SourceFile → M (Except RunFault (List (Staged Spot)))
  | [] => return .ok []
  | f :: rest => do
    match ← ops.stageFile home dir targets i (Path.join dir f.path) f.content with
    | .error fault => return .error fault
    | .ok s =>
      match ← stage home dir targets (i + 1) rest with
      | .error fault =>
        ops.remove s.place
        return .error fault
      | .ok staged => return .ok (s :: staged)

def discard : List (Staged Spot) → M Unit
  | [] => return ()
  | s :: rest => do
    ops.remove s.place
    discard rest

/-- Moves staging files, from index `i` on, over their targets in order, up to the first
failure. -/
def moveAll (i : Nat) : List (Staged Spot) → M (List Event × Except RunFault (List String))
  | [] => return ([], .ok [])
  | s :: rest => do
    match ← ops.move i s.place s.target with
    | .error cause =>
      ops.discard (s :: rest)
      return ([], .error (.notReplaced s.target cause))
    | .ok () =>
      let (events, outcome) ← moveAll (i + 1) rest
      return (.wrote s.target :: events, outcome.map (s.target :: ·))

/-- Puts files into a directory and returns their targets. -/
def install (dir : String) (files : List SourceFile) :
    M (List Event × Except RunFault (List String)) := do
  match ← ops.find dir with
  | none => return ([], .error (.noDirectory dir))
  | some home =>
    match ← ops.stage home dir (files.map fun f => Path.join dir f.path) 0 files with
    | .error fault => return ([], .error fault)
    | .ok staged => ops.moveAll 0 staged

end Operations

end Treewright
