import Treewright.Code.Token

/-!
# Trees of code

The code that a grammar may bring along: the result type, paths for type names and
derives, and trees of imported names. The length of an array is a value, and a value
may hold patterns, statements and types again, so these trees are defined together.
Only what the written form depends on is kept. Code that is read although the language
gives no form to it, such as a function without a body, is `formless`.
-/

namespace Treewright.Code

structure Invocation where
  name : String
  bracket : Bracket
  content : List Token

/-- A tree of imported names. -/
inductive UseTree where
  | name (w : Word)
  | rename (w newName : Word)
  | path (w : Word) (rest : UseTree)
  | glob
  | group (items : List UseTree)

mutual

/-- An attribute, `inner` if it belongs to what it stands in. -/
inductive Attribute where
  | plain (inner : Bool) (name : String)
  | list (inner : Bool) (name : String) (bracket : Bracket) (content : List Token)
  | equal (inner : Bool) (name : String) (value : Value)

inductive Ty where
  | path (p : Path)
  | tuple (items : List Ty)
  | group (inner : Ty)
  | reference (lifetime : Option String) (mutable : Bool) (target : Ty)
  | pointer (mutable : Bool) (target : Ty)
  | slice (item : Ty)
  | array (item : Ty) (length : Value)
  | never
  | inferred
  /-- A function type, under a binder if `binds`; `lead` is what is written before `fn`. -/
  | function (binds : Bool) (binder : List Param) (lead : String) (params : List Param)
    (output : Option Ty)
  | impl (bounds : List Bound)
  /-- A value behind the bounds; `bare` says that the source has no word before them. -/
  | dyn (bare : Bool) (bounds : List Bound)
  | invoked (call : Invocation)
  | formless (inBrace : Bool)

/-- Words joined by double colons, each with arguments. -/
inductive Path where
  /-- A path that starts with a word, or with a double colon if it is rooted. -/
  | mk (rooted : Bool) (segments : List Segment)
  /-- `<subject as view>::rest`, or `<subject>::rest` if the view has no words. -/
  | within (subject : Ty) (rooted : Bool) (view rest : List Segment)

/-- A word of a path with its arguments. -/
inductive Segment where
  | plain (word : Word)
  | angle (word : Word) (items : List Arg)
  /-- A function bound with its arguments and its output. -/
  | call (word : Word) (inputs : List Ty) (output : Option Ty)

inductive Arg where
  | lifetime (name : String)
  | type (t : Ty)
  | value (v : Value)
  | equalType (name : Segment) (t : Ty)
  | equalValue (name : Segment) (v : Value)
  | bounded (name : Segment) (bounds : List Bound)

/-- A parameter of a function, of a function type, or of a binder. -/
inductive Param where
  | typed (attributes : List Attribute) (name : Option Word) (type : Ty)
  /-- The dots of an open parameter list. -/
  | variadic (attributes : List Attribute) (name : Option Word)
  | lifetime (attributes : List Attribute) (name : String) (bounds : List String)
  | type (attributes : List Attribute) (name : Word) (bounds : List Bound) (standard : Option Ty)
  | constant (attributes : List Attribute) (name : Word) (type : Ty) (standard : Option Value)
  /-- A parameter that is matched with a pattern. Without a type it has dots. -/
  | matched (attributes : List Attribute) (item : Pattern) (type : Option Ty)
  /-- The value that a method belongs to; `lead` is what is written before it. -/
  | receiver (attributes : List Attribute) (lead : String) (type : Option Ty)

/-- A condition that an item puts on types or lifetimes. -/
inductive Rule where
  | lifetime (name : String) (bounds : List String)
  /-- A type, under a binder if `binds`, that has to satisfy bounds. -/
  | type (binds : Bool) (binder : List Param) (subject : Ty) (bounds : List Bound)

inductive Bound where
  | lifetime (name : String)
  /-- A trait, possibly in brackets, optional, and under a binder if `binds`. -/
  | trait (grouped optional binds : Bool) (binder : List Param) (path : Path)
  /-- The names that a type may capture, lifetimes first. -/
  | captures (names : List String)
  | formless (inBrace : Bool)

inductive Value where
  | literal (l : Literal)
  /-- A value that is left open. -/
  | inferred
  | path (p : Path)
  | group (inner : Value)
  | tuple (items : List Value)
  | array (items : List Value)
  /-- An array of equal items. -/
  | repeated (item length : Value)
  /-- A structure with its fields, the others from `rest`. -/
  | record (p : Path) (fields : List Entry) (rest : Option Value)
  | call (function : Value) (args : List Value)
  | method (receiver : Value) (name : Segment) (args : List Value)
  | field (base : Value) (member : String)
  | index (base position : Value)
  /-- The value inside, or an early return. -/
  | attempt (base : Value)
  | unary (operator : String) (operand : Value)
  | binary (left : Value) (operator : String) (right : Value)
  | assign (target source : Value)
  | cast (operand : Value) (type : Ty)
  | range (start : Option Value) (dots : String) (stop : Option Value)
  /-- A function without a name, under a binder if `binds`; `lead` is what is written before
  its parameters. -/
  | closure (binds : Bool) (binder : List Param) (lead : String) (params : List Pattern)
    (output : Option Ty) (body : Value)
  /-- A block after the words or the label in `lead`. -/
  | block (lead : String) (body : List Entry)
  | branch (condition : Value) (body : List Entry) (otherwise : Option Value)
  | cases (subject : Value) (arms : List Entry)
  | forever (label : String) (body : List Entry)
  | whilst (label : String) (condition : Value) (body : List Entry)
  | forEach (label : String) (item : Pattern) (source : Value) (body : List Entry)
  | matching (item : Pattern) (subject : Value)
  /-- The end of a loop, a function or a step of it, with its words in `lead`. -/
  | jump (lead : String) (value : Option Value)
  | invoked (call : Invocation)
  | attributed (attributes : List Attribute) (inner : Value)
  | formless (inBrace : Bool)

/-- What stands between braces: a statement, an item, a case or a field. In an item, `lead`
is what is written before its parameters, its type or its body. -/
inductive Entry where
  | attribute (a : Attribute)
  | binding (attributes : List Attribute) (item : Pattern) (value : Option Value)
    (otherwise : Option Value)
  | value (v : Value)
  /-- A value and a semicolon. -/
  | closed (v : Value)
  | invoked (attributes : List Attribute) (call : Invocation) (closed : Bool)
  | empty
  | arm (attributes : List Attribute) (item : Pattern) (guard : Option Value) (body : Value)
  | field (attributes : List Attribute) (member : String) (value : Option Value)
  /-- A named constant, without a value where only its type is declared. -/
  | constant (attributes : List Attribute) (lead : String) (type : Ty) (value : Option Value)
  | imports (attributes : List Attribute) (lead : String) (tree : UseTree)
  /-- An item that consists of words. -/
  | words (attributes : List Attribute) (text : String)
  /-- A function, with a body if `hasBody`. -/
  | function (attributes : List Attribute) (lead : String) (generics params : List Param)
    (output : Option Ty) (rules : List Rule) (hasBody : Bool) (body : List Entry)
  /-- A name for a type, whose conditions come before the type if `rulesFirst`. -/
  | alias (attributes : List Attribute) (lead : String) (generics : List Param)
    (bounds : List Bound) (value : Option Ty) (rulesFirst : Bool) (rules : List Rule)
  /-- A name for bounds on types. -/
  | boundAlias (attributes : List Attribute) (lead : String) (generics : List Param)
    (bounds : List Bound) (rules : List Rule)
  /-- A type that is defined elsewhere. -/
  | typeName (attributes : List Attribute) (lead : String) (generics : List Param)
  /-- An item with items or cases in braces. -/
  | scope (attributes : List Attribute) (lead : String) (generics : List Param)
    (bounds : List Bound) (rules : List Rule) (body : List Entry)
  /-- What a type can do, or how it satisfies a trait. -/
  | implementation (attributes : List Attribute) (lead : String) (generics : List Param)
    (negative : Bool) (view : Option Path) (subject : Ty) (rules : List Rule) (body : List Entry)
  | recordType (attributes : List Attribute) (lead : String) (generics : List Param)
    (rules : List Rule) (fields : List Entry)
  /-- A structure whose fields have no names, or one without fields if `isUnit`. -/
  | tupleType (attributes : List Attribute) (lead : String) (generics : List Param)
    (isUnit : Bool) (fields : List Entry) (rules : List Rule)
  /-- A case of an enumeration; the brackets around its fields are round or curly. -/
  | variant (attributes : List Attribute) (name : String) (bracket : Option Bracket)
    (fields : List Entry) (value : Option Value)
  /-- A field of a structure or a case, with its type. -/
  | member (attributes : List Attribute) (lead : String) (type : Ty)
  /-- The definition of an expansion, or a call of one that is an item. -/
  | expansion (attributes : List Attribute) (name : Option Word) (call : Invocation)
  | formless

inductive Pattern where
  /-- A value to be equal to, a range to lie in, the open pattern or the rest. -/
  | value (v : Value)
  | name (byReference mutable : Bool) (word : Word)
  | named (name inner : Pattern)
  | either (cases : List Pattern)
  | group (inner : Pattern)
  | reference (mutable : Bool) (inner : Pattern)
  | slice (items : List Pattern)
  /-- A tuple, with a comma after its last item if `trailing`. -/
  | tuple (items : List Pattern) (trailing : Bool)
  | variant (p : Path) (items : List Pattern)
  /-- A structure, with dots for the fields that are left out if `isOpen`; `attributes` stand
  before the dots. -/
  | record (p : Path) (fields : List Pattern) (isOpen : Bool) (attributes : List Attribute)
  | field (member : String) (item : Pattern)
  | typed (item : Pattern) (type : Ty)
  | attributed (attributes : List Attribute) (inner : Pattern)
  | formless

end

namespace Segment

def word : Segment → Word
  | plain word => word
  | angle word _ => word
  | call word _ _ => word

def isPlain : Segment → Bool
  | plain _ => true
  | _ => false

/-- Decides whether a segment has no arguments; empty angle brackets are none. -/
def hasNoArgs : Segment → Bool
  | plain _ => true
  | angle _ items => items.isEmpty
  | call .. => false

end Segment

namespace Path

def segments : Path → List Segment
  | mk _ segments => segments
  | within _ _ _ rest => rest

def ofName (name : String) : Path :=
  mk false [.plain ⟨name, false⟩]

/-- The word that a path without arguments consists of. -/
def word? : Path → Option Word
  | mk false [.plain w] => some w
  | _ => none

/-- The name of a path whose words have no arguments. -/
def plainName? : Path → Option String
  | mk rooted segments =>
    if segments.all Segment.isPlain then
      some
        ((if rooted then "::" else "") ++ "::".intercalate (segments.map fun s => s.word.text))
    else none
  | within .. => none

end Path

end Treewright.Code
