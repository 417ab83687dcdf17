import Treewright.Files.Path

/-!
# Disks

A disk is a tree of directories and files, kept as a list of places. The operations
fail with the causes that an operating system gives.
-/

namespace Treewright

inductive DiskFault where
  | notFound
  | permissionDenied
  | busy
  | alreadyExists
  | notADirectory
  | isADirectory
  | invalidArgument
  | nameTooLong
  | notEmpty
  /-- A path holds the character that ends paths where they are handed over. -/
  | cutShort
deriving DecidableEq, Repr

namespace DiskFault

def message : DiskFault → String
  | notFound => "No such file or directory (os error 2)"
  | permissionDenied => "Permission denied (os error 13)"
  | busy => "Device or resource busy (os error 16)"
  | alreadyExists => "File exists (os error 17)"
  | notADirectory => "Not a directory (os error 20)"
  | isADirectory => "Is a directory (os error 21)"
  | invalidArgument => "Invalid argument (os error 22)"
  | nameTooLong => "File name too long (os error 36)"
  | notEmpty => "Directory not empty (os error 39)"
  | cutShort => "file name contained an unexpected NUL byte"

end DiskFault

/-- The names on the way from the top of a disk to a place. -/
abbrev Place : Type :=
  List String

inductive DiskEntry where
  | directory
  | file (content : ByteArray)

/-- A tree of directories and files. -/
structure Disk where
  entries : List (Place × DiskEntry) := []
  /-- The directories in which nothing can be created or replaced. -/
  locked : List Place := []

namespace Disk

/-- Sets what is at a place, at the end of the list if nothing was there. -/
def setEntry (place : Place) (e : DiskEntry) :
    List (Place × DiskEntry) → List (Place × DiskEntry)
  | [] => [(place, e)]
  | (p, old) :: rest => if p = place then (p, e) :: rest else (p, old) :: setEntry place e rest

/-- What is at a place; the top is a directory. -/
def get? (d : Disk) (place : Place) : Option DiskEntry :=
  if place = [] then some .directory else d.entries.lookup place

def holdsDirectory (d : Disk) (place : Place) : Bool :=
  match d.get? place with
  | some .directory => true
  | _ => false

def set (d : Disk) (place : Place) (e : DiskEntry) : Disk :=
  { d with entries := setEntry place e d.entries }

/-- Removes what is at a place, and nothing below it. -/
def erase (d : Disk) (place : Place) : Disk :=
  { d with entries := d.entries.filter fun (p, _) => decide (p ≠ place) }

/-- The most bytes that a name can have. -/
def nameLimit : Nat := 255

/-- The most bytes that a path can have. -/
def pathLimit : Nat := 4095

/-- What is under a name in the directory at a place. -/
def child? (d : Disk) (place : Place) (name : String) : Except DiskFault (Option DiskEntry) :=
  if nameLimit < name.utf8ByteSize then .error .nameTooLong
  else .ok (d.get? (place ++ [name]))

/-- Follows names from a place. All but the last one have to be directories. -/
def walk (d : Disk) (place : Place) : List String → Except DiskFault Place
  | [] => .ok place
  | name :: rest =>
    if name = ".." then d.walk place.dropLast rest
    else
      match d.child? place name with
      | .error fault => .error fault
      | .ok none => .error .notFound
      | .ok (some .directory) => d.walk (place ++ [name]) rest
      | .ok (some (.file _)) =>
        if rest.isEmpty then .ok (place ++ [name]) else .error .notADirectory

/-- Refuses the paths that lead nowhere on any disk. -/
def checkPath (path : String) : Except DiskFault Unit :=
  if Path.holdsNul path then .error .cutShort
  else if path.isEmpty then .error .notFound
  else if pathLimit < path.utf8ByteSize then .error .nameTooLong
  else .ok ()

/-- The place of a path, at which there is something. -/
def locate (d : Disk) (path : String) : Except DiskFault Place := do
  checkPath path
  let place ← d.walk [] (Path.parts path)
  let wantsDirectory := Path.endsWithSlash path || (Path.rawParts path).getLast? == some "."
  if wantsDirectory && !d.holdsDirectory place then .error .notADirectory
  else .ok place

def isDirectory (d : Disk) (path : String) : Bool :=
  match d.locate path with
  | .error _ => false
  | .ok place => d.holdsDirectory place

def read (d : Disk) (path : String) : Except DiskFault ByteArray :=
  match d.locate path with
  | .error fault => .error fault
  | .ok place =>
    match d.get? place with
    | some (.file content) => .ok content
    | some .directory => .error .isADirectory
    | none => .error .notFound

/-- Where a path ends: in the directory `home`, with a last part, after which there may be a
slash. Whether there is something under the last part is left open. -/
structure Destination where
  home : Place
  last : String
  slash : Bool
deriving DecidableEq, Repr

namespace Destination

/-- Decides whether the last part is a dot or two, which are no names of their own. -/
def isDots (t : Destination) : Bool :=
  t.last == "." || t.last == ".."

def place (t : Destination) : Place :=
  t.home ++ [t.last]

end Destination

/-- The destination of a path, the directory of which has to exist. -/
def destination (d : Disk) (path : String) : Except DiskFault Destination := do
  checkPath path
  let home ← d.walk [] ((Path.rawParts path).dropLast.filter (· ≠ "."))
  if !d.holdsDirectory home then .error .notADirectory
  else .ok ⟨home, ((Path.rawParts path).getLast?).getD ".", Path.endsWithSlash path⟩

/-- Writes a file, new or over an old one. A path with a slash at its end stands for a
directory. -/
def writeFile (d : Disk) (path : String) (content : ByteArray) : Except DiskFault Disk := do
  let target ← d.destination path
  if target.isDots || target.slash then .error .isADirectory
  else
    match ← d.child? target.home target.last with
    | some .directory => .error .isADirectory
    | _ => .ok (d.set target.place (.file content))

def removeFile (d : Disk) (path : String) : Except DiskFault Disk := do
  let target ← d.destination path
  if target.isDots then .error .isADirectory
  else
    match ← d.child? target.home target.last with
    | none => .error .notFound
    | some .directory => .error .isADirectory
    | some (.file _) =>
      if target.slash then .error .notADirectory else .ok (d.erase target.place)

def makeDirectory (d : Disk) (path : String) : Except DiskFault Disk := do
  let target ← d.destination path
  if target.isDots then .error .alreadyExists
  else
    match ← d.child? target.home target.last with
    | some _ => .error .alreadyExists
    | none => .ok (d.set target.place .directory)

/-- What an attempt to make the directory at a path comes to: it is no fault that the
directory was there before. -/
def ensured (d : Disk) (path : String) (made : Except DiskFault Disk) :
    Disk × Option DiskFault :=
  match made with
  | .ok d => (d, none)
  | .error fault => (d, if d.isDirectory path then none else some fault)

/-- Makes a directory and the directories above it, whose paths are `above`, nearest first.
What was made before a fault stays. -/
def makeDirectoriesFrom (d : Disk) (path : String) (above : List String) :
    Disk × Option DiskFault :=
  match d.makeDirectory path, above with
  | .error .notFound, parent :: rest =>
    match d.makeDirectoriesFrom parent rest with
    | (d, some fault) => (d, some fault)
    | (d, none) => d.ensured path (d.makeDirectory path)
  | made, _ => d.ensured path made

def makeDirectories (d : Disk) (path : String) : Disk × Option DiskFault :=
  d.makeDirectoriesFrom path (Path.above path)

/-- Moves the file at a place to a path, over the file that is there. -/
def moveFile (d : Disk) (source : Place) (path : String) : Except DiskFault Disk :=
  if Path.holdsNul path then .error .invalidArgument
  else do
    let target ← d.destination path
    if target.isDots then .error .busy
    else
      let there ← d.child? target.home target.last
      if target.slash then .error .notADirectory
      else if target.home ∈ d.locked then .error .permissionDenied
      else if target.place.isPrefixOf source && target.place != source then .error .notEmpty
      else
        match there, d.get? source with
        | some .directory, _ => .error .isADirectory
        | _, some (.file content) => .ok ((d.erase source).set target.place (.file content))
        | _, _ => .error .notFound

/-- All entries by path, in the order of their paths. -/
def listing (d : Disk) : List (String × DiskEntry) :=
  (d.entries.map fun (place, e) => ("/".intercalate place, e)).mergeSort
    fun a b => decide (a.1 ≤ b.1)

end Disk

end Treewright
