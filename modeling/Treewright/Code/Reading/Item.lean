import Treewright.Code.Reading.Import
import Treewright.Code.Reading.Type

/-!
# Reading items

What a block may declare: constants, imports, functions, types, traits and what
implements them, modules, and expansions. Items that the language reads but gives no
meaning to, such as a function without a body where it needs one, have no written form.
-/

namespace Treewright.Code.Reading

/-- Reads who may see an item, and gives what is written for it. -/
def visibility : Reader String := do
  if ← skipIf (atWord "pub") 1 then
    match ← get with
    | .group .round [.word w] :: rest =>
      if !w.raw && decide (w.name ∈ ["crate", "self", "super"]) then
        set rest
        return "pub(" ++ w.name ++ ") "
      else return "pub "
    | .group .round (.word ⟨"in", false⟩ :: content) :: rest =>
      set rest
      let name ← inside plainPath content
      let isShort := decide (name ∈ ["crate", "self", "super"])
      return "pub(" ++ (if isShort then "" else "in ") ++ name ++ ") "
    | _ => return "pub "
  else return ""

def itemParam (r : Readers) : Reader Param := do
  match (attributes r) (← get) with
  | some (attributes, .word ⟨"_", false⟩ :: rest) =>
    set rest
    return .type attributes ⟨"_", false⟩ [] none
  | _ => genericParam r

def generics (r : Readers) : Reader (List Param) := do
  if ← skipIf (atMark '<') 1 then
    let params ← separatedUntil (atMark '>') (itemParam r)
    mark '>'
    return params
  else return []

/-- Decides whether the conditions of an item, or the bounds of one, end. -/
def endsRule (s : List Token) : Bool :=
  s.isEmpty || atGroup .curly s || atMark ',' s || atMark ';' s || atMark '=' s ||
    (atMark ':' s && !atMarks "::" s)

def rule (r : Readers) : Reader Rule := do
  let s ← get
  if atLifetime s && atMark ':' s.tail then
    let name ← lifetime
    mark ':'
    return .lifetime name (← boundsUntil endsRule lifetime)
  else
    let (binds, params) ← binder r
    let subject ← r.type true
    mark ':'
    return .type binds params subject (← boundsUntil endsRule (r.bound false true))

def rules (r : Readers) : Reader (List Rule) := do
  if ← skipIf (atWord "where") 1 then
    guard (!atGenerics (← get))
    let (items, _) ← repeatStep
      (fun (read : List Rule × Bool) => do
        let (items, isDone) := read
        if isDone || endsRule (← get) then return none
        let item ← rule r
        return some (item :: items, !(← skipIf (atMark ',') 1))) ([], false)
    return items.reverse
  else return []

def atReceiver (s : List Token) : Bool :=
  let s := if atMark '&' s then (if atLifetime s.tail then s.drop 2 else s.tail) else s
  let s := if atWord "mut" s then s.tail else s
  atWord "self" s && !atMarks "::" s.tail

/-- Reads the value that a method belongs to. -/
def receiver (r : Readers) (attributes : List Attribute) : Reader Param := do
  let isReference ← skipIf (atMark '&') 1
  let life ← if isReference && atLifetime (← get) then pure ((← lifetime) ++ " ") else pure ""
  let mutable ← optionalWord "mut"
  word "self"
  let lead := (if isReference then "&" else "") ++ life ++ mutable
  if isReference then return .receiver attributes lead none
  else return .receiver attributes lead (← after? ':' (r.type true))

/-- Reads a parameter of a function, and tells whether it has to be the last one. Only the
first parameter may be the value that a method belongs to. -/
def functionParam (r : Readers) (isFirst : Bool) : Reader (Param × Bool) := do
  let attributes ← attributes r
  let s ← get
  if ← skipIf (atMarks "...") 3 then return (.variadic attributes none, true)
  if atReceiver s then
    guard isFirst
    return (← receiver r attributes, false)
  else
    if atIdentifier s && atMark '<' s.tail then
      return (.matched attributes (.value .inferred) (some (← r.type true)), false)
    let item ← r.singlePattern
    mark ':'
    if ← skipIf (atMarks "...") 3 then return (.matched attributes item none, true)
    else return (.matched attributes item (some (← r.type true)), false)

/-- Reads the parameters of a function, up to the end. -/
def functionParams (r : Readers) : Reader (List Param) := do
  let (items, _) ← repeatStep
    (fun (read : List Param × Bool) => do
      let (items, isDone) := read
      if isDone || (← get).isEmpty then return none
      let (item, isLast) ← functionParam r items.isEmpty
      if !(← get).isEmpty then mark ','
      return some (item :: items, isLast)) ([], false)
  return items.reverse

/-- Reads the words before the name of a function, up to `fn`, and tells whether one of them
says that it is safe to call, which only `mayBeSafe` allows. -/
def signatureLead (mayBeSafe : Bool) : Reader (String × Bool) := do
  let constant ← optionalWord "const"
  let async ← optionalWord "async"
  let isSafe ← skipIf (fun s => mayBeSafe && atWord "safe" s) 1
  return (constant ++ async ++ (← if isSafe then foreignLead else functionLead), isSafe)

def atSignature (mayBeSafe : Bool) (s : List Token) : Bool :=
  match signatureLead mayBeSafe s with
  | some (_, rest) => atWord "fn" rest
  | none => false

/-- Where an item stands that belongs to another one. -/
inductive Home where
  | trait
  | implementation
  /-- A block of declarations of another language. -/
  | foreign
deriving DecidableEq, Repr

/-- Decides whether a function has a written form: a foreign one is safe by no word of its own
and has no body, one of a trait may have a body, and any other one has a body. -/
def functionHasForm (home : Option Home) (isSafe hasBody : Bool) : Bool :=
  match home with
  | some .trait => true
  | some .foreign => !isSafe && !hasBody
  | _ => hasBody

def functionItem (r : Readers) (attributes : List Attribute) (seen : String)
    (home : Option Home) : Reader Entry := do
  let (lead, isSafe) ← signatureLead (home = some .foreign)
  word "fn"
  let name ← identifier
  let params ← generics r
  let inputs ← group .round (functionParams r)
  let result ← output r true
  let conditions ← rules r
  let hasBody := !(← skipIf (atMark ';') 1)
  let steps ← if hasBody then body r else pure []
  if functionHasForm home isSafe hasBody then
    return .function attributes (seen ++ lead ++ "fn " ++ name.text) params inputs result
      conditions hasBody steps
  else return .formless

/-- Reads a named constant. It has a written form if it has no parameters and no conditions,
and, unless it belongs to a trait, has a value. -/
def constantItem (r : Readers) (attributes : List Attribute) (seen : String)
    (home : Option Home) : Reader Entry := do
  word "const"
  let name ← identifierOr ["_"]
  let isGeneric := atMark '<' (← get)
  let _ ← generics r
  mark ':'
  let t ← r.type true
  let value ← after? '=' (r.value true)
  let isRuled := atWord "where" (← get)
  let _ ← rules r
  mark ';'
  if isGeneric || isRuled || (value.isNone && home ≠ some .trait) then return .formless
  else return .constant attributes (seen ++ "const " ++ name.text) t value

/-- Decides whether a named place in memory comes next, which may be marked in a foreign
block. -/
def atStatic (foreign : Bool) (s : List Token) : Bool :=
  atWord "static" s || (foreign && atOneOf ["unsafe", "safe"] s && atWord "static" s.tail)

/-- Reads a named place in memory. It has a written form if it has a type, and a value just if
it is not foreign. -/
def staticItem (r : Readers) (attributes : List Attribute) (seen : String) (foreign : Bool) :
    Reader Entry := do
  let isMarked ← skipIf (fun s => foreign && !atWord "static" s) 1
  word "static"
  let mutable ← optionalWord "mut"
  let name ← identifier
  let type ←
    if !foreign && atMark '=' (← get) then pure none
    else
      mark ':'
      pure (some (← r.type true))
  let value ← after? '=' (r.value true)
  mark ';'
  match type with
  | some t =>
    if isMarked || value.isSome = foreign then return .formless
    else return .constant attributes (seen ++ "static " ++ mutable ++ name.text) t value
  | none => return .formless

def importItem (attributes : List Attribute) (seen : String) : Reader Entry := do
  word "use"
  let rooted ← skipIf (atMarks "::") 2
  let depth := (← get).length + Token.sizeAll (← get)
  let tree ← if rooted then pure (some (← useTree depth)) else itemTree? depth
  mark ';'
  match tree with
  | some tree => return .imports attributes (seen ++ "use " ++ (if rooted then "::" else "")) tree
  | none => return .formless

/-- Reads the name of a type. Only one of a trait has a written form with bounds or without a
type, and a foreign one has none with a type; conditions of a foreign one are not kept. -/
def typeItem (r : Readers) (attributes : List Attribute) (seen : String) (home : Option Home) :
    Reader Entry := do
  word "type"
  let name ← identifier
  let params ← generics r
  let stops (s : List Token) : Bool := atWord "where" s || atMark '=' s || atMark ';' s
  let bounds ← after? ':' (boundsUntil stops (r.bound false true))
  let isRuled := atWord "where" (← get)
  let early ← if home.isNone || home = some .foreign then rules r else pure []
  let value ← after? '=' (r.type true)
  let late ← if home.isNone || (home = some .foreign && isRuled) then pure [] else rules r
  mark ';'
  let lead := seen ++ "type " ++ name.text
  match home with
  | some .trait => return .alias attributes lead params (bounds.getD []) value false late
  | some .foreign =>
    if bounds.isSome || value.isSome then return .formless
    else return .typeName attributes lead params
  | _ =>
    if bounds.isSome || value.isNone then return .formless
    else return .alias attributes lead params [] value home.isNone (early ++ late)

/-- Reads a call of an expansion as an item. A semicolon closes it unless it has braces. -/
def expansionItem (attributes : List Attribute) (mayName : Bool) : Reader Entry := do
  let path ← plainPath
  mark '!'
  let name ←
    if mayName && (atIdentifier (← get) || atWord "try" (← get)) then
      pure (some (← identifierOr ["try"]))
    else pure none
  let (bracket, content) ← anyGroup
  if bracket ≠ .curly then mark ';'
  return .expansion attributes name ⟨path, bracket, content⟩

def atPlainPath (s : List Token) : Bool :=
  atIdentifier s || atOneOf ["self", "super", "crate"] s || atMarks "::" s

/-- Reads an item that belongs to another one. One of a trait has no written form if something
stands before it. -/
def ownedItem (r : Readers) (home : Home) : Reader Entry := do
  let attributes ← attributes r
  let shown ← visibility
  let s ← get
  let mayBeStandard := home = .trait || (home = .implementation && !atMark '!' s.tail)
  let seen := shown ++ (← if mayBeStandard then optionalWord "default" else pure "")
  let s ← get
  let entry ←
    if atSignature (home = .foreign) s then functionItem r attributes seen (some home)
    else if home ≠ .foreign && atWord "const" s then constantItem r attributes seen (some home)
    else if home = .foreign && atStatic true s then staticItem r attributes seen true
    else if atWord "type" s then typeItem r attributes seen (some home)
    else
      guard (seen.isEmpty && atPlainPath s)
      expansionItem attributes false
  return if home = .trait && !seen.isEmpty then .formless else entry

/-- Reads the items in braces that belong to another one, with the attributes it starts
with. -/
def ownedItems (r : Readers) (home : Home) : Reader (List Entry) :=
  group .curly do
    let inner ← innerAttributes r
    let items ← manyWhile (!·.isEmpty) (ownedItem r home)
    return inner.map .attribute ++ items

/-- Reads a block of declarations of another language. -/
def foreignItem (r : Readers) (attributes : List Attribute) : Reader Entry := do
  let lead ← functionLead
  return .scope attributes (lead.trimAsciiEnd.toString) [] [] [] (← ownedItems r .foreign)

def moduleItem (r : Readers) (attributes : List Attribute) (seen : String) : Reader Entry := do
  let lead ← optionalWord "unsafe"
  word "mod"
  let name ← identifierOr ["try"]
  let head := seen ++ lead ++ "mod " ++ name.text
  if ← skipIf (atMark ';') 1 then return .words attributes (head ++ ";")
  else
    let items ← group .curly do
      let inner ← innerAttributes r
      return inner.map .attribute ++ (← manyWhile (!·.isEmpty) r.item)
    return .scope attributes head [] [] [] items

/-- Reads a library that is linked. -/
def libraryItem (attributes : List Attribute) (seen : String) : Reader Entry := do
  word "extern"
  word "crate"
  let name ← identifierOr ["self"]
  let alias_ ←
    if ← skipIf (atWord "as") 1 then pure (" as " ++ (← identifierOr ["_"]).text) else pure ""
  mark ';'
  return .words attributes (seen ++ "extern crate " ++ name.text ++ alias_ ++ ";")

/-- Reads a field of a structure, with its name if it has one. Fields in place of the type of a
field without a name have no written form. -/
def fieldItem (r : Readers) ( isNamed : Bool) : Reader Entry := do
  let attributes ← attributes r
  let seen ← visibility
  if isNamed then
    let name ← identifierOr ["_"]
    mark ':'
    let s ← get
    let lead := seen ++ name.text ++ ": "
    if name.name == "_" &&
        (atWord "struct" s || (atWord "union" s && atGroup .curly s.tail)) then
      skip 1
      let _ ← group .curly (separated (r.member true))
      return .member attributes lead (.formless true)
    else return .member attributes lead (← r.type true)
  else return .member attributes seen (← r.type true)

def recordItem (r : Readers) (attributes : List Attribute) (lead : String)
    (params : List Param) (conditions : List Rule) : Reader Entry :=
  return .recordType attributes lead params conditions
    (← group .curly (separated (fieldItem r true)))

def structureItem (r : Readers) (attributes : List Attribute) (seen : String) :
    Reader Entry := do
  word "struct"
  let lead := seen ++ "struct " ++ (← identifier).text
  let params ← generics r
  if atGroup .round (← get) then
    let fields ← group .round (separated (fieldItem r false))
    let conditions ← rules r
    mark ';'
    return .tupleType attributes lead params false fields conditions
  else
    let conditions ← rules r
    if ← skipIf (atMark ';') 1 then return .tupleType attributes lead params true [] conditions
    else recordItem r attributes lead params conditions

/-- Reads a structure whose fields share their place. -/
def unionItem (r : Readers) (attributes : List Attribute) (seen : String) : Reader Entry := do
  word "union"
  let lead := seen ++ "union " ++ (← identifier).text
  let params ← generics r
  recordItem r attributes lead params (← rules r)

def variantItem (r : Readers) : Reader Entry := do
  let attributes ← attributes r
  let _ ← visibility
  let name ← identifier
  let s ← get
  let (bracket, fields) ←
    if atGroup .curly s then
      pure (some Bracket.curly, ← group .curly (separated (fieldItem r true)))
    else if atGroup .round s then
      pure (some Bracket.round, ← group .round (separated (fieldItem r false)))
    else pure (none, [])
  return .variant attributes name.text bracket fields (← after? '=' (r.value true))

def enumerationItem (r : Readers) (attributes : List Attribute) (seen : String) :
    Reader Entry := do
  word "enum"
  let lead := seen ++ "enum " ++ (← identifier).text
  let params ← generics r
  let conditions ← rules r
  return .scope attributes lead params [] conditions (← group .curly (separated (variantItem r)))

/-- Reads a trait, or a name for bounds if nothing stands before the word for it. -/
def traitItem (r : Readers) (attributes : List Attribute) (seen : String) : Reader Entry := do
  let marks := (← optionalWord "unsafe") ++ (← optionalWord "auto")
  word "trait"
  let lead := seen ++ marks ++ "trait " ++ (← identifier).text
  let params ← generics r
  if marks.isEmpty && atMark '=' (← get) then
    skip 1
    let stops (s : List Token) : Bool := atWord "where" s || atMark ';' s
    let bounds ← boundsUntil stops (r.bound false false)
    let conditions ← rules r
    mark ';'
    return .boundAlias attributes lead params bounds conditions
  else
    let stops (s : List Token) : Bool := atWord "where" s || atGroup .curly s
    let bounds ← after? ':' (boundsUntil stops (r.bound false true))
    let conditions ← rules r
    return .scope attributes lead params (bounds.getD []) conditions (← ownedItems r .trait)

/-- Reads what a type can do, or how it satisfies a trait. It has a written form if nothing says
who may see it, if it is not constant, and if what is satisfied is a path. -/
def implementationItem (r : Readers) (attributes : List Attribute) (seen : String) :
    Reader Entry := do
  let lead := (← optionalWord "default") ++ (← optionalWord "unsafe")
  word "impl"
  let params ← if atGenerics (← get) then generics r else pure []
  let _ ← skipIf (fun s => atMark '?' s && atWord "const" s.tail) 1
  let isConst ← skipIf (atWord "const") 1
  let negative ← skipIf (fun s => atMark '!' s && !atGroup .curly s.tail) 1
  let first ← r.type true
  let isView ← skipIf (atWord "for") 1
  guard (isView || !negative)
  let view :=
    match first with
    | .path (.mk rooted segments) => if isView then some (Path.mk rooted segments) else none
    | _ => none
  let subject ← if isView then r.type true else pure first
  let conditions ← rules r
  let items ← ownedItems r .implementation
  if !seen.isEmpty || isConst || (isView && view.isNone) then return .formless
  else return .implementation attributes lead params negative view subject conditions items

/-- Reads the definition of an expansion by the word that has no written form. -/
def definitionItem : Reader Entry := do
  word "macro"
  let _ ← identifier
  let _ ← skipIf (atGroup .round) 1
  expect (atGroup .curly) 1
  return .formless

def itemAfter (r : Readers) (attributes : List Attribute) : Reader Entry := do
  let seen ← visibility
  let s ← get
  let next := s.tail
  let atTrait (s : List Token) : Bool :=
    atWord "trait" s || (atWord "auto" s && atWord "trait" s.tail)
  if atSignature false s then functionItem r attributes seen none
  else if atWord "extern" s && atWord "crate" next then libraryItem attributes seen
  else if atWord "use" s then importItem attributes seen
  else if atStatic false s then staticItem r attributes seen false
  else if atWord "const" s then constantItem r attributes seen none
  else if atWord "mod" s || (atWord "unsafe" s && atWord "mod" next) then
    moduleItem r attributes seen
  else if atWord "type" s then typeItem r attributes seen none
  else if atWord "struct" s then structureItem r attributes seen
  else if atWord "enum" s then enumerationItem r attributes seen
  else if atWord "union" s && atIdentifier next then unionItem r attributes seen
  else if atTrait s || (atWord "unsafe" s && atTrait next) then traitItem r attributes seen
  else if atWord "impl" s || (atWord "unsafe" s && atWord "impl" next) ||
      (atWord "default" s && !atMark '!' next) then
    implementationItem r attributes seen
  else if atWord "macro" s then definitionItem
  else
    guard seen.isEmpty
    if atWord "extern" s || (atWord "unsafe" s && atWord "extern" next) then
      foreignItem r attributes
    else
      guard (atPlainPath s)
      expansionItem attributes true

def item (r : Readers) : Reader Entry := do
  itemAfter r (← attributes r)

end Treewright.Code.Reading
