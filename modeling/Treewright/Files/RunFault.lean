import Treewright.Fault
import Treewright.Files.Disk

/-!
# Faults of runs

A run that cannot be completed says why with a chain of causes: what it was doing, from the
whole to the part, and last what went wrong. A fault of the grammar is told from any other
one by a look at the chain.
-/

namespace Treewright

/-- A link in the chain of causes. -/
inductive Cause where
  /-- What was being done, or a refusal in words. -/
  | context (text : String)
  | grammar (fault : Fault)
  | disk (fault : DiskFault)
  | notText
deriving DecidableEq, Repr

namespace Cause

def message : Cause → String
  | context text => text
  | grammar fault => fault.message
  | disk fault => fault.message
  | notText => "stream did not contain valid UTF-8"

def grammarFault? : Cause → Option Fault
  | grammar fault => some fault
  | _ => none

end Cause

/-- Why a run cannot be completed: the causes, outermost first. -/
structure RunFault where
  causes : List Cause
deriving DecidableEq, Repr

namespace RunFault

/-- The messages of all causes in one line. -/
def message (fault : RunFault) : String :=
  ": ".intercalate (fault.causes.map Cause.message)

/-- The fault of the grammar among the causes, if there is one. -/
def grammarFault? (fault : RunFault) : Option Fault :=
  fault.causes.findSome? Cause.grammarFault?

/-- Decides whether the program stops at a fault without a report. -/
def isCrash (fault : RunFault) : Bool :=
  fault.grammarFault?.any Fault.isCrash

/-- The grammar of the document at the path, or of no path, is faulty. -/
def grammar (document : Option String) (fault : Fault) : RunFault :=
  ⟨(document.toList.map fun path => .context s!"Invalid grammar {path}") ++ [.grammar fault]⟩

def unreadable (path : String) (cause : DiskFault) : RunFault :=
  ⟨[.context s!"Failed to read grammar {path}", .disk cause]⟩

def notText (path : String) : RunFault :=
  ⟨[.context s!"Failed to read grammar {path}", .notText]⟩

def noDirectory (dir : String) : RunFault :=
  ⟨[.context s!"Output directory {dir} does not exist"]⟩

/-- A step in the staging of the file for a target fails. -/
def staging (target step : String) (cause : DiskFault) : RunFault :=
  ⟨[.context s!"Failed to stage {target}", .context step, .disk cause]⟩

def notStaged (target dir : String) (cause : DiskFault) : RunFault :=
  staging target s!"Failed to create staging file in {dir}" cause

def notWritten (target : String) (cause : DiskFault) : RunFault :=
  staging target "Failed to write staging file" cause

def notPermitted (target : String) (cause : DiskFault) : RunFault :=
  staging target "Failed to set permissions on staging file" cause

def notReplaced (target : String) (cause : DiskFault) : RunFault :=
  ⟨[.context s!"Failed to replace {target}", .disk cause]⟩

end RunFault

end Treewright
