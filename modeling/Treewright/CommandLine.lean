import Treewright.Generate

/-!
# The command line

The program takes one argument, the directory to write into. Arguments are looked at
from left to right, and the first one that asks for help or that is a mistake
decides. The environment may name the grammar document and the least severe level of
events that are shown.
-/

namespace Treewright

inductive Request where
  | help
  | version
  | misuse
  | generate (dir : String)
deriving DecidableEq, Repr

namespace Request

/-- What an option asks for: help or the version, in full or as the first of single
letters, and a mistake otherwise. -/
def ofOption (arg : String) : Request :=
  match arg.toList with
  | '-' :: '-' :: _ =>
    if arg = "--help" then help else if arg = "--version" then version else misuse
  | '-' :: 'h' :: _ => help
  | '-' :: 'V' :: _ => version
  | _ => misuse

/-- Decides whether an argument is an option: it starts with a dash and is longer. -/
def isOption (arg : String) : Bool :=
  match arg.toList with
  | '-' :: _ :: _ => true
  | _ => false

/-- Reads arguments after the directory `dir`, if there was one already. Options end at a
double dash, after which `plain` is set. -/
def ofArgsFrom (plain : Bool) (dir : Option String) : List String → Request
  | [] =>
    match dir with
    | none => misuse
    | some dir => generate dir
  | arg :: rest =>
    if !plain && arg == "--" then ofArgsFrom true dir rest
    else if !plain && isOption arg then ofOption arg
    else if dir.isSome || arg.isEmpty then misuse
    else ofArgsFrom plain (some arg) rest

def ofArgs (args : List String) : Request :=
  ofArgsFrom false none args

end Request

/-- What the program says and how it ends. -/
structure Ending where
  code : Nat
  output : String := ""
  /-- What is printed on the error channel, each note with a line end after it. -/
  notes : List String := []
deriving DecidableEq, Repr

structure Environment where
  grammar : Option String := none
  level : Option String := none
deriving DecidableEq, Repr

namespace CommandLine

def helpLines : List String :=
  ["AST Forge - Build-time generator for syntax tree node families and their visitor interface.",
    "",
    "Usage: generate_ast <OUTPUT_DIR>",
    "",
    "Arguments:",
    "  <OUTPUT_DIR>  Directory the generated modules are written into",
    "",
    "Options:",
    "  -h, --help     Print help",
    "  -V, --version  Print version"]

def helpText : String :=
  "\n".intercalate helpLines ++ "\n"

def versionText : String :=
  "generate_ast 0.1.0\n"

def usageLine : String :=
  "Usage: generate_ast <output directory>"

/-- The code after a completed run. -/
def done : Nat := 0

/-- The code after a misuse. -/
def misused : Nat := 64

/-- The code after a fault of the grammar. -/
def faultyGrammar : Nat := 65

/-- The code after any other fault. -/
def failedDisk : Nat := 74

/-- The code after a run that stopped without a report. -/
def crashed : Nat := 101

def codeOf (fault : RunFault) : Nat :=
  if fault.isCrash then crashed
  else if fault.grammarFault?.isSome then faultyGrammar
  else failedDisk

/-- The ending of a run that got past its arguments. -/
def ending (threshold : Threshold) (dir : String) (events : List Event)
    (outcome : Except RunFault Report) : Ending :=
  match outcome with
  | .ok report =>
    { code := done
      notes := Event.shownLines threshold
        (events ++ [.generated report.nodes report.families report.grammar dir]) }
  | .error fault =>
    { code := codeOf fault
      notes := Event.shownLines threshold events ++
        if fault.isCrash then [] else ["Error: " ++ fault.message] }

/-- Runs the program with its arguments. -/
def answer {M : Type → Type} [Monad M] {Home Spot : Type} (ops : Operations M Home Spot)
    (env : Environment) (args : List String) : M Ending := do
  match Request.ofArgs args with
  | .help => return { code := done, output := helpText }
  | .version => return { code := done, output := versionText }
  | .misuse => return { code := misused, notes := [usageLine] }
  | .generate dir =>
    let (events, outcome) ← ops.run (Source.ofSetting env.grammar) dir
    return ending (Threshold.ofName env.level) dir events outcome

/-- Runs the program with its arguments on a disk, while things go wrong on the way. -/
def run (m : Mishaps) (d : Disk) (env : Environment) (args : List String) : Ending × Disk :=
  (answer (Disk.operations m) env args).run d

end CommandLine

end Treewright
