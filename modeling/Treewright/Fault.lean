/-!
# Faults

Everything that can be wrong with a grammar, from a malformed row to generated
code that does not parse. A fault carries what its message needs, and the
wording of all messages is in one function. Two faults are not reported: the program
stops where it meets them.
-/

namespace Treewright

/-- What a piece of target code was expected to be. -/
inductive CodeRole where
  | familyName
  | resultType
  | useTree
  | derivePath
  | typePath
  | identifier
  | familyReference
deriving DecidableEq, Repr

namespace CodeRole

def text : CodeRole → String
  | familyName => "family name"
  | resultType => "result type"
  | useTree => "use tree"
  | derivePath => "derive path"
  | typePath => "type path"
  | identifier => "identifier"
  | familyReference => "family reference (families take no type arguments)"

end CodeRole

/-- A reason why a grammar cannot be loaded, linked or rendered. -/
inductive Fault where
  /-- A row does not hold exactly one colon. -/
  | missingSeparator (line : String)
  | invalidClassName (line name : String)
  /-- A field of a row is not a type followed by a name. -/
  | malformedField (line field : String)
  | malformedType (line type : String)
  /-- A grammar document is not well-formed or does not have the expected keys. -/
  | malformedDescriptor
  /-- A descriptor takes the default result type but brings no names into scope. -/
  | resultNeedsUses (result : String)
  | duplicateFamily (family : String)
  /-- A family would be written over one of the fixed modules. -/
  | reservedFamilyName (family : String)
  | moduleCollision (first second moduleName : String)
  | visitorCollision (first second method : String)
  | emptyFamily (family : String)
  | duplicateClass (family className : String)
  /-- A node has two fields that are spelled alike in snake case. -/
  | duplicateField (node field : String)
  | unknownDependency (family dependency : String)
  /-- Families that depend on each other in a circle, the first one repeated at the end. -/
  | dependencyCycle (cycle : List String)
  /-- A field refers to a family that its own family does not depend on. -/
  | undeclaredReference (family node field target : String)
  /-- A type name is on both ownership lists. -/
  | conflictingOwnership (type : String)
  /-- A piece of text cannot stand for the code it is used as. -/
  | invalidCode (value : String) (role : CodeRole)
  /-- The code assembled for a file is not well-formed. -/
  | unparsable (file : String)
  /-- A name cannot be spelled as an identifier of the target language at all. -/
  | unspellable (name : String)
  /-- The code assembled for a file is well-formed but has no written form. -/
  | unprintable (file : String)
deriving DecidableEq, Repr

namespace Fault

def message : Fault → String
  | missingSeparator line =>
    s!"descriptor `{line}`: expected exactly one `:` between class name and field list"
  | invalidClassName line name => s!"descriptor `{line}`: `{name}` is not a valid class name"
  | malformedField line field =>
    s!"descriptor `{line}`: field `{field}` must be a `<type> <name>` pair"
  | malformedType line type => s!"descriptor `{line}`: cannot parse type `{type}`"
  | malformedDescriptor => "invalid grammar descriptor: <toml>"
  | resultNeedsUses result =>
    s!"invalid grammar descriptor: `result` defaults to `{result}`, which needs `uses` to bring " ++
      "its types into scope; list `uses` or set `result` explicitly"
  | duplicateFamily family => s!"family `{family}` is declared more than once"
  | reservedFamilyName family => s!"family name `{family}` collides with a generated module name"
  | moduleCollision first second moduleName =>
    s!"families `{first}` and `{second}` both generate module `{moduleName}`"
  | visitorCollision first second method =>
    s!"nodes `{first}` and `{second}` both generate visitor method `{method}`"
  | emptyFamily family => s!"family `{family}` declares no nodes"
  | duplicateClass family className =>
    s!"family `{family}` declares `{className}` more than once"
  | duplicateField node field => s!"node `{node}` declares field `{field}` more than once"
  | unknownDependency family dependency =>
    s!"family `{family}` depends on unknown family `{dependency}`"
  | dependencyCycle cycle => "family dependency cycle: " ++ " -> ".intercalate cycle
  | undeclaredReference family node field target =>
    s!"`{node}.{field}` references family `{target}`, which `{family}` does not depend on"
  | conflictingOwnership type => s!"type `{type}` is listed as both borrowed and defaulted"
  | invalidCode value role => s!"`{value}` is not a valid Rust " ++ role.text
  | unparsable file => s!"generated code for `{file}` does not parse: <syn>"
  | unspellable name => s!"`{name}` cannot be spelled as an identifier"
  | unprintable file => s!"generated code for `{file}` cannot be written"

/-- Decides whether nothing reports a fault and the program stops at it. -/
def isCrash : Fault → Bool
  | unspellable _ | unprintable _ => true
  | _ => false

end Fault

end Treewright
