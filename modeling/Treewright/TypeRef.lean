/-!
# Type references

A field type of the grammar is a name with a possibly empty list of type
arguments, nested to any depth.
-/

namespace Treewright

/-- A type name applied to type arguments, as written in a grammar row. -/
structure TypeRef where
  name : String
  /-- The arguments between angle brackets; empty when there are no brackets. -/
  args : List TypeRef

namespace TypeRef

instance : Inhabited TypeRef := ⟨⟨"", []⟩⟩

mutual

/-- All names of a type, outermost first and depth first. -/
def names : TypeRef → List String
  | ⟨name, args⟩ => name :: namesOf args

/-- All names of a list of types, in order. -/
def namesOf : List TypeRef → List String
  | [] => []
  | t :: rest => names t ++ namesOf rest

end

mutual

/-- The text of a type: `Name`, or `Name<A, B>` when it has arguments. -/
def text : TypeRef → String
  | ⟨name, []⟩ => name
  | ⟨name, t :: rest⟩ => name ++ "<" ++ ", ".intercalate (textsOf (t :: rest)) ++ ">"

/-- The texts of a list of types, in order. -/
def textsOf : List TypeRef → List String
  | [] => []
  | t :: rest => text t :: textsOf rest

end

end TypeRef

end Treewright
