/-!
# Paths

A path is a string whose parts are separated by slashes. Repeated slashes, a slash at
the end and single dots do not matter to which path it is, except for a dot at the
very front.
-/

namespace Treewright.Path

def splitSlashes : List Char → List (List Char)
  | [] => [[]]
  | c :: rest =>
    if c = '/' then [] :: splitSlashes rest
    else
      match splitSlashes rest with
      | [] => [[c]]
      | part :: parts => (c :: part) :: parts

def rawParts (path : String) : List String :=
  ((splitSlashes path.toList).filter (· ≠ [])).map String.ofList

/-- The parts of a path that lead somewhere: single dots are left out. -/
def parts (path : String) : List String :=
  (rawParts path).filter (· ≠ ".")

def isAbsolute (path : String) : Bool :=
  path.toList.head? == some '/'

def endsWithSlash (path : String) : Bool :=
  path.toList.getLast? == some '/'

def holdsNul (path : String) : Bool :=
  path.toList.any (·.toNat == 0)

/-- The paths above one of these parts, given last part first, nearest first. -/
def aboveReversed : List String → List String
  | [] => []
  | _ :: rest =>
    if rest.isEmpty then [] else "/".intercalate rest.reverse :: aboveReversed rest

/-- The paths above a path, nearest first. -/
def above (path : String) : List String :=
  aboveReversed (parts path).reverse

/-- Decides whether two strings are the same path. -/
def same (a b : String) : Bool :=
  let startsHere (path : String) := !isAbsolute path && (rawParts path).head? == some "."
  isAbsolute a == isAbsolute b && startsHere a == startsHere b && parts a == parts b

/-- The path `file` seen from the directory `dir`. -/
def join (dir file : String) : String :=
  if isAbsolute file || dir.isEmpty then file
  else if endsWithSlash dir then dir ++ file
  else dir ++ "/" ++ file

end Treewright.Path
