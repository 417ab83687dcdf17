import Treewright.Text.Blank
import Treewright.Name
import Treewright.TypeRef

/-!
# Reading type references

A type is an identifier, optionally followed by type arguments between angle
brackets and separated by commas. Blanks may stand before every identifier and
every mark, and at the end. Each reader returns the rest of the input together
with the fact that it is shorter, so the recursion ends on every input.
-/

namespace Treewright.TypeRef

/-- A rest of `s` that is strictly shorter than `s`. -/
abbrev Rest (s : List Char) : Type :=
  { r : List Char // r.length < s.length }

theorem dropWhile_isTail_length_lt
    {s : List Char} (h : Name.isIdentifierText (s.takeWhile Name.isTail) = true) :
    (s.dropWhile Name.isTail).length < s.length := by
  have hsplit := congrArg List.length (List.takeWhile_append_dropWhile (p := Name.isTail) (l := s))
  rw [List.length_append] at hsplit
  have hpos : 0 < (s.takeWhile Name.isTail).length := by
    cases hword : s.takeWhile Name.isTail with
    | nil => simp [hword, Name.isIdentifierText] at h
    | cons c rest => simp
  omega

/-- Reads the identifier that follows the blanks at the front. -/
def takeIdentifier (s : List Char) : Option (String × Rest s) :=
  let start := Text.trimStart s
  if h : Name.isIdentifierText (start.takeWhile Name.isTail) = true then
    some (String.ofList (start.takeWhile Name.isTail),
      ⟨start.dropWhile Name.isTail,
        Nat.lt_of_lt_of_le (dropWhile_isTail_length_lt h) (Text.trimStart_length_le s)⟩)
  else
    none

/-- Reads the mark `c` that follows the blanks at the front. -/
def takeMark (c : Char) (s : List Char) : Option (Rest s) :=
  match h : Text.trimStart s with
  | [] => none
  | d :: rest =>
    if d = c then
      some ⟨rest, by
        have hle := Text.trimStart_length_le s
        rw [h, List.length_cons] at hle
        omega⟩
    else
      none

mutual

/-- Reads one type from the front of the input. -/
def readType (s : List Char) : Option (TypeRef × Rest s) :=
  match takeIdentifier s with
  | none => none
  | some (name, ⟨afterName, hName⟩) =>
    match takeMark '<' afterName with
    | none => some (⟨name, []⟩, ⟨afterName, hName⟩)
    | some ⟨afterOpen, hOpen⟩ =>
      match readType afterOpen with
      | none => none
      | some (first, ⟨afterFirst, hFirst⟩) =>
        match readMoreArgs afterFirst with
        | none => none
        | some (more, ⟨rest, hRest⟩) => some (⟨name, first :: more⟩, ⟨rest, by omega⟩)
termination_by s.length

/-- Reads the arguments after the first one, up to and including the closing bracket. -/
def readMoreArgs (s : List Char) : Option (List TypeRef × Rest s) :=
  match takeMark ',' s with
  | some ⟨afterComma, hComma⟩ =>
    match readType afterComma with
    | none => none
    | some (arg, ⟨afterArg, hArg⟩) =>
      match readMoreArgs afterArg with
      | none => none
      | some (more, ⟨rest, hRest⟩) => some (arg :: more, ⟨rest, by omega⟩)
  | none =>
    match takeMark '>' s with
    | none => none
    | some rest => some ([], rest)
termination_by s.length

end

def parseText? (s : List Char) : Option TypeRef :=
  match readType s with
  | none => none
  | some (type, ⟨rest, _⟩) => if Text.trimStart rest = [] then some type else none

def parse? (s : String) : Option TypeRef :=
  parseText? s.toList

end Treewright.TypeRef
