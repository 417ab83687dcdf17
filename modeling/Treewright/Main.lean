import Treewright.CommandLine

/-!
# The program

The command line on a real disk. The order of steps and what they come to are those of
the library; this file only works on single files, reads the environment, and prints.
-/

namespace Treewright.Program

/-- The cause behind an error of the operating system. -/
def diskFault : IO.Error → DiskFault
  | .permissionDenied .. => .permissionDenied
  | .resourceBusy .. => .busy
  | .alreadyExists .. => .alreadyExists
  | .unsatisfiedConstraints .. => .notEmpty
  | .invalidArgument _ code _ => if code == 36 then .nameTooLong else .invalidArgument
  | .inappropriateType _ code _ => if code == 21 then .isADirectory else .notADirectory
  | _ => .notFound

/-- Makes the error of an action part of its answer. -/
def attempt {α : Type} (action : IO α) : IO (Except DiskFault α) := do
  try
    return .ok (← action)
  catch e =>
    return .error (diskFault e)

def find (dir : String) : IO (Option String) := do
  try
    let path ← IO.FS.realPath dir
    return if ← path.isDir then some dir else none
  catch _ =>
    return none

/-- Reading for everyone and writing for the owner. -/
def regularRights : IO.FileRight :=
  { user := { read := true, write := true }, group := { read := true }, other := { read := true } }

structure OpenFile where
  place : String
  handle : IO.FS.Handle

/-- Creates a file under a new name, with a number that is drawn again while the name is
taken. -/
def create (dir : String) : Nat → IO (Except DiskFault OpenFile)
  | 0 => return .error .alreadyExists
  | tries + 1 => do
    let number ← IO.rand 100000 999999
    let place := Path.join dir s!".generate_ast{number}.tmp"
    match ← attempt (IO.FS.Handle.mk place .writeNew) with
    | .error .alreadyExists => create dir tries
    | .error cause => return .error cause
    | .ok handle => return .ok ⟨place, handle⟩

def operations : Operations IO String OpenFile where
  read path := attempt (IO.FS.readBinFile path)
  find := find
  create home _ _ _ := create home 1000
  write _ file content := attempt (file.handle.putStr content *> file.handle.flush)
  permit _ file := attempt (IO.setAccessRights file.place regularRights)
  move _ file target := attempt (IO.FS.rename file.place target)
  remove file := do
    let _ ← attempt (IO.FS.removeFile file.place)

def finish (e : Ending) : IO UInt32 := do
  IO.print e.output
  for note in e.notes do
    IO.eprintln note
  return e.code.toUInt32

end Treewright.Program

open Treewright in
def main (args : List String) : IO UInt32 := do
  let env : Environment :=
    { grammar := ← IO.getEnv "AST_FORGE_GRAMMAR", level := ← IO.getEnv "RUST_LOG" }
  Program.finish (← CommandLine.answer Program.operations env args)
