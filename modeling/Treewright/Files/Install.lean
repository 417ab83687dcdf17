import Treewright.Files.Operations

/-!
# Putting files in place on a disk

The operations on single files are given here for disks. A step can fail because of what
is on the disk, or for a reason that the disk does not show, such as a device that is full.
The reasons of the second kind are given as mishaps.
-/

namespace Treewright

inductive StagingMishap where
  | notCreated (cause : DiskFault)
  /-- Only a part of the content is written. -/
  | notWritten (part : ByteArray) (cause : DiskFault)
  /-- The content is written, but the permissions of the staging file are not set. -/
  | notPermitted (cause : DiskFault)

/-- The fault that a mishap with the staging file for a target comes to. -/
def StagingMishap.fault (target dir : String) : StagingMishap → RunFault
  | notCreated cause => .notStaged target dir cause
  | notWritten _ cause => .notWritten target cause
  | notPermitted cause => .notPermitted target cause

/-- What goes wrong for reasons that the disk does not show: when the document of a grammar is
read, and with the staging and with the move of the file at each index. -/
structure Mishaps where
  reading : Option DiskFault := none
  staging : Nat → Option StagingMishap := fun _ => none
  moving : Nat → Option DiskFault := fun _ => none

/-- What an attempt on a disk leaves behind: the disk, what was reported, and the outcome. -/
structure Attempt (α : Type) where
  disk : Disk
  events : List Event
  outcome : Except RunFault α

/-- The attempt that steps on a disk make. -/
def Attempt.of {α : Type} (steps : StateM Disk (List Event × Except RunFault α)) (d : Disk) :
    Attempt α :=
  match steps.run d with
  | ((events, outcome), disk) => { disk, events, outcome }

namespace Install

def longestName (d : Disk) : Nat :=
  ((d.entries.flatMap fun (place, _) => place).map String.length).foldl max 0

def longestTarget (targets : List String) : Nat :=
  (targets.map String.length).foldl max 0

/-- A name longer than all names on the disk and longer than `length`, which is therefore
new. -/
def freshName (d : Disk) (length : Nat) : String :=
  ".generate_ast" ++ String.ofList (List.replicate (longestName d + length) '0') ++ ".tmp"

/-- The length in bytes of the full path of a staging file. Its name has six random letters,
and relative paths start at the top. -/
def stagingSize (dir : String) : Nat :=
  (Path.join (Path.join "/" dir) ".generate_ast000000.tmp").utf8ByteSize

/-- What keeps the file at an index from being staged in the directory at `home`, which the
path `dir` leads to. -/
def hindrance? (m : Mishaps) (d : Disk) (home : Place) (dir : String) (i : Nat) :
    Option StagingMishap :=
  if Disk.pathLimit < stagingSize dir then some (.notCreated .nameTooLong)
  else if d.locked.contains home then some (.notCreated .permissionDenied)
  else m.staging i

/-- Moves the staging file with index `i` over its target. -/
def moveStaged (m : Mishaps) (i : Nat) (d : Disk) (s : Staged Place) : Except DiskFault Disk :=
  match m.moving i with
  | some cause => .error cause
  | none => d.moveFile s.place s.target

end Install

namespace Disk

open Install

/-- The content of the file at a path, if nothing goes wrong. -/
def readUnder (m : Mishaps) (d : Disk) (path : String) : Except DiskFault ByteArray :=
  match m.reading with
  | some cause => .error cause
  | none => d.read path

/-- The operations on a disk, while things go wrong on the way. -/
def operations (m : Mishaps) : Operations (StateM Disk) Place Place where
  read path d := (d.readUnder m path, d)
  find dir d :=
    match d.locate dir with
    | .error _ => (none, d)
    | .ok home => (if d.holdsDirectory home then some home else none, d)
  create home dir targets i d :=
    match hindrance? m d home dir i with
    | some (.notCreated cause) => (.error cause, d)
    | _ =>
      let place := home ++ [freshName d (longestTarget targets)]
      (.ok place, d.set place (.file .empty))
  write i place content d :=
    match m.staging i with
    | some (.notWritten part cause) => (.error cause, d.set place (.file part))
    | _ => (.ok (), d.set place (.file content.toUTF8))
  permit i _ d :=
    match m.staging i with
    | some (.notPermitted cause) => (.error cause, d)
    | _ => (.ok (), d)
  move i place target d :=
    match moveStaged m i d ⟨place, target⟩ with
    | .error cause => (.error cause, d)
    | .ok moved => (.ok (), moved)
  remove place d := ((), d.erase place)

end Disk

/-- Puts files into a directory and returns their targets, while things go wrong on the way. -/
def installUnder (m : Mishaps) (d : Disk) (dir : String) (files : List SourceFile) :
    Attempt (List String) :=
  .of ((Disk.operations m).install dir files) d

end Treewright
