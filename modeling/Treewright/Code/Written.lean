import Treewright.Code.Brackets
import Treewright.Code.Written.Import
import Treewright.Code.Written.Token

/-!
# How code is laid out

Documents for the trees of types, values and patterns. Boxes are broken from the
outside in, so that most of what is said here is where lines may end and how far the
next line is indented then.
-/

namespace Treewright.Code

open Layout (Doc)
open Layout.Doc (ofText zero space newline newlineIfNonempty comma commaOrBlank cbox ibox cboxAtMost
  listBody shiftLast separated step)

/-- A place where the line always goes on. -/
def goOn : List Doc :=
  [.brk { never := true }]

/-- Documents with a text between each two of them. -/
def joined (between : String) : List (List Doc) → List Doc
  | [] => []
  | [d] => d
  | d :: rest => d ++ ofText between ++ joined between rest

def listed : List (List Doc) → List Doc
  | [] => []
  | [d] => d
  | d :: rest => d ++ ofText "," ++ space ++ listed rest

def Arg.isLifetime : Arg → Bool
  | .lifetime _ => true
  | _ => false

/-- The document of arguments that have documents already: lifetimes come first, and an
empty list is not written at all. -/
def angleDoc (introduction : String) (items : List (Bool × List Doc)) : List Doc :=
  let ordered := items.filter (·.1) ++ items.filter (!·.1)
  if ordered.isEmpty then []
  else
    ofText (introduction ++ "<") ++ cbox step (listBody (ordered.map (·.2))) ++ ofText ">"

/-- The document of bounds after an introduction, with a break before each further one. -/
def limitsDoc (introduction : String) : List (List Doc) → List Doc
  | [] => []
  | [d] => ofText introduction ++ d
  | d :: rest => ofText introduction ++ d ++ space ++ limitsDoc "+ " rest

/-- The document of the cases of a pattern, with a break before each further one. -/
def casesDoc : List (List Doc) → List Doc
  | [] => []
  | [d] => d
  | d :: rest => d ++ space ++ ofText "| " ++ casesDoc rest

/-- The document of a tuple. A single item is followed by a comma if `trailing`. -/
def tupleDoc (trailing : Bool) (items : List (List Doc)) : List Doc :=
  let body :=
    match items with
    | [item] => zero ++ item ++ (if trailing then ofText "," else []) ++ shiftLast (-step) zero
    | items => listBody items
  ofText "(" ++ cbox step body ++ ofText ")"

/-- The document of arguments in round brackets. The brackets of a single argument stand
directly inside them if `isBlock`. -/
def argumentsDoc (isBlock : Bool) (items : List (List Doc)) : List Doc :=
  ofText "(" ++ (if isBlock then items.flatten else cbox step (listBody items)) ++ ofText ")"

/-- The document of a binder, if there is one. -/
def binderDoc (binds : Bool) (params : List (List Doc)) : List Doc :=
  if binds then ofText "for<" ++ joined ", " params ++ ofText "> " else []

/-- The document of the parameters of an item, each with the information whether it is a
lifetime: lifetimes come first, and no parameters are not written at all. -/
def genericsDoc (items : List (Bool × List Doc)) : List Doc :=
  let ordered := items.filter (·.1) ++ items.filter (!·.1)
  if ordered.isEmpty then []
  else ofText "<" ++ cbox 0 (listBody (ordered.map (·.2))) ++ ofText ">"

/-- The document of conditions, each on a line of its own, and of what follows them: a
semicolon if `closed`, otherwise a brace. -/
def rulesDoc (closed : Bool) (rules : List (List Doc)) : List Doc :=
  if rules.isEmpty then ofText (if closed then ";" else " ")
  else
    let lines := rules.map (· ++ ofText "," ++ newline)
    shiftLast (-step) newline ++ ofText "where" ++ newline ++
      (if closed then lines.dropLast.flatten ++ (rules.getLast?).getD [] ++ ofText ";"
        else shiftLast (-step) lines.flatten)

/-- The document of conditions that may stand on one line, closed by a semicolon if
`closed`. -/
def shortRulesDoc (closed : Bool) (rules : List (List Doc)) : List Doc :=
  if rules.isEmpty then ofText (if closed then ";" else " ")
  else
    let items := rules.map (· ++ commaOrBlank false)
    shiftLast (-step) space ++ ofText "where" ++ space ++ items.dropLast.flatten ++
      (rules.getLast?).getD [] ++
      (if closed then ofText ";" else shiftLast (-step) (commaOrBlank true))

/-- The document of a condition: bounds after a colon. -/
def ruleDoc (indent : Int) (bounds : List (List Doc)) : List Doc :=
  ofText ":" ++ ibox indent (limitsDoc " " bounds)

/-- The document of an item with a body in braces, after its head. -/
def braced (head entries : List Doc) : List Doc :=
  cbox step (head ++ ofText "\x7b" ++ shiftLast (-step) (newlineIfNonempty ++ entries)) ++
    ofText "\x7d" ++ newline

/-- The document of a value before a brace. -/
def conditionDoc (breaks : Bool) (value : List Doc) : List Doc :=
  cbox 0 (value ++ if breaks then space else ofText " ")

/-- The document of a body in braces, each entry on a line of its own. -/
def linesDoc (entries : List Doc) : List Doc :=
  cbox step (shiftLast (-step) (newlineIfNonempty ++ entries)) ++ ofText "\x7d"

def smallBlockDoc (isEmpty : Bool) (entries : List Doc) : List Doc :=
  ofText "\x7b" ++ (if isEmpty then [] else shiftLast (-step) (space ++ entries)) ++ ofText "\x7d"

/-- The document of a value that is put in brackets when it starts on a line of its own:
in braces if it can be a statement. `after` is what follows a round bracket, and `unbroken`
what follows the value when the line goes on. -/
def wrappedDoc (v : Value) (after unbroken : String) (value : List Doc) : List Doc :=
  let braces := v.isStatement
  cbox step
    ([.brk { before := if braces then "\x7b" else "(" }] ++ value ++
      [.brk
        { offset := -step
          before := if braces && v.wantsSemicolon then ";" else ""
          after := if braces then "\x7d" else ")" ++ after
          unbroken }])

/-- Decides whether an array may have several items on a line: all of them are bytes,
characters, whole numbers or truth values. -/
def isCompact (items : List Value) : Bool :=
  items.all fun
    | .literal l => decide (l.kind ∈ [.byte, .character, .integer, .truth])
    | .attributed _ (.literal l) => decide (l.kind ∈ [.byte, .character, .integer, .truth])
    | _ => false

def arrayDoc (compact : Bool) (items : List (List Doc)) : List Doc :=
  let body :=
    if compact then zero ++ ibox 0 (listed items) ++ shiftLast (-step) (comma true)
    else listBody items
  ofText "[" ++ (if items.isEmpty then [] else cbox step body) ++ ofText "]"

/-- The widest structure on one line. -/
def widestRecord : Nat := 34

inductive Place where
  | inner
  | start
  /-- Before a point, in a chain of fields and calls that may start the line. -/
  | chain (atStart : Bool)
  | alternative
deriving DecidableEq, Repr

namespace Place

def beforeCall : Place → Place
  | chain _ => chain false
  | _ => inner

def isStart : Place → Bool
  | start => true
  | chain atStart => atStart
  | _ => false

/-- The place of what stands before an index or a question mark. -/
def beforeTrailer : Place → Place
  | chain atStart => chain atStart
  | start => start
  | _ => inner

/-- A document in a chain is moved back to where the chain starts. -/
def settle (place : Place) (d : List Doc) : List Doc :=
  match place with
  | chain _ => cbox (-step) d
  | _ => d

/-- The document of a chain, which is indented as a whole. -/
def link (place : Place) (d : List Doc) : List Doc :=
  match place with
  | chain _ => d
  | _ => cbox step d

end Place

/-- The longest word after which a line does not end before a point. -/
def shortWord : Nat := 4

def Value.endsInPoint : Value → Bool
  | .literal l => l.endsInPoint
  | _ => false

/-- The break before a point, unless a short word starts the line there. -/
def pointBreak (place : Place) (base : Value) : List Doc :=
  if place.isStart && base.isShortWord shortWord then []
  else [.brk { unbroken := if base.endsInPoint then " " else "" }]

/-- A document in round brackets if they are `needed`. -/
def bracketed (needed : Bool) (d : List Doc) : List Doc :=
  if needed then ofText "(" ++ d ++ ofText ")" else d

/-- The surroundings of a value that may be in brackets. -/
def Surroundings.unless (c : Surroundings) ( isBracketed : Bool) : Surroundings :=
  if isBracketed then {} else c

def Param.isLifetime : Param → Bool
  | .lifetime .. => true
  | _ => false

def Pattern.isSimple : Pattern → Bool
  | .value (.literal _) => true
  | .value .inferred => true
  | _ => false

def nameDoc (name : Option Word) : List Doc :=
  ofText ((name.map (·.text ++ ": ")).getD "")

mutual

def Attribute.doc : Attribute → List Doc
  | .plain inner name => ofText (Attribute.opening inner ++ name ++ "]") ++ space
  | .list inner name bracket content => Attribute.listDoc inner name bracket content
  | .equal inner name value =>
    (Attribute.comment? inner name value).getD
      (ofText (Attribute.opening inner ++ name ++ " = ") ++ value.doc .inner {} ++ ofText "]" ++
        space)

def attributesDoc : List Attribute → List Doc
  | [] => []
  | a :: rest => a.doc ++ attributesDoc rest

def Ty.doc : Ty → List Doc
  | .path p => p.doc ""
  | .tuple items => tupleDoc true (typeDocs items)
  | .group inner => ofText "(" ++ inner.doc ++ ofText ")"
  | .reference lifetime mutable target =>
    ofText ("&" ++ (lifetime.map (· ++ " ")).getD "" ++ (if mutable then "mut " else "")) ++
      target.doc
  | .pointer mutable target => ofText (if mutable then "*mut " else "*const ") ++ target.doc
  | .slice item => ofText "[" ++ item.doc ++ ofText "]"
  | .array item length =>
    ofText "[" ++ item.doc ++ ofText "; " ++ length.doc .inner {} ++ ofText "]"
  | .never => ofText "!"
  | .inferred => ofText "_"
  | .function binds binder lead params output =>
    binderDoc binds (paramDocs binder) ++ ofText (lead ++ "fn(") ++
      cbox step (shiftLast (-step) (zero ++ paramsDoc params)) ++ ofText ")" ++
      (match output with
        | none => []
        | some t => ofText " -> " ++ t.doc)
  | .impl bounds => ofText "impl " ++ joined " + " (boundDocs bounds)
  | .dyn _ bounds => ofText "dyn " ++ joined " + " (boundDocs bounds)
  | .invoked call => call.doc false
  | .formless _ => [.formless]

def typeDocs : List Ty → List (List Doc)
  | [] => []
  | t :: rest => t.doc :: typeDocs rest

def Path.doc (introduction : String) : Path → List Doc
  | .mk _ [] => []
  | .mk rooted (first :: rest) =>
    ofText (if rooted then "::" else "") ++ first.doc introduction ++ segmentsDoc introduction rest
  | .within subject _ [] rest =>
    ofText "<" ++ subject.doc ++ ofText ">" ++ segmentsDoc introduction rest
  | .within subject rooted (first :: view) rest =>
    ofText "<" ++ subject.doc ++ ofText (if rooted then " as ::" else " as ") ++ first.doc "" ++
      segmentsDoc "" view ++ ofText ">" ++ segmentsDoc introduction rest

def segmentsDoc (introduction : String) : List Segment → List Doc
  | [] => []
  | s :: rest => ofText "::" ++ s.doc introduction ++ segmentsDoc introduction rest

def Segment.doc (introduction : String) : Segment → List Doc
  | .plain word => ofText word.text
  | .angle word items => ofText word.text ++ angleDoc introduction (argDocs items)
  | .call word inputs output =>
    ofText word.text ++
      cbox step
        (ofText "(" ++ listBody (typeDocs inputs) ++ ofText ")" ++
          (match output with
            | none => []
            | some t => ofText " -> " ++ t.doc))

def argDocs : List Arg → List (Bool × List Doc)
  | [] => []
  | a :: rest => (a.isLifetime, a.doc) :: argDocs rest

def Arg.doc : Arg → List Doc
  | .lifetime name => ofText name
  | .type t => t.doc
  | .value v => v.doc .inner {}
  | .equalType name t => name.doc "" ++ ofText " = " ++ t.doc
  | .equalValue name v => name.doc "" ++ ofText " = " ++ v.doc .inner {}
  | .bounded name bounds => name.doc "" ++ ibox step (limitsDoc ": " (boundDocs bounds))

def Param.doc : Param → List Doc
  | .typed attributes name t => attributesDoc attributes ++ nameDoc name ++ t.doc
  | .variadic attributes name => attributesDoc attributes ++ nameDoc name ++ ofText "..."
  | .lifetime attributes name bounds =>
    attributesDoc attributes ++
      ofText (name ++ (if bounds.isEmpty then "" else ": ") ++ " + ".intercalate bounds)
  | .type attributes name bounds standard =>
    attributesDoc attributes ++ ofText name.text ++
      ibox step
        (limitsDoc ": " (boundDocs bounds) ++
          (match standard with
            | none => []
            | some t => space ++ ofText "= " ++ t.doc))
  | .constant attributes name t standard =>
    attributesDoc attributes ++ ofText ("const " ++ name.text ++ ": ") ++ t.doc ++
      (match standard with
        | none => []
        | some v => ofText " = " ++ v.doc .inner {})
  | .matched attributes item type =>
    attributesDoc attributes ++ item.doc ++ ofText ": " ++
      (match type with
        | none => ofText "..."
        | some t => t.doc)
  | .receiver attributes lead type =>
    attributesDoc attributes ++ ofText (lead ++ "self") ++
      (match type with
        | none => []
        | some t => ofText ": " ++ t.doc)

def paramDocs : List Param → List (List Doc)
  | [] => []
  | p :: rest => p.doc :: paramDocs rest

/-- The documents of the parameters of an item, each with the information whether it is a
lifetime. -/
def genericDocs : List Param → List (Bool × List Doc)
  | [] => []
  | p :: rest => (p.isLifetime, p.doc) :: genericDocs rest

def ruleDocs : List Rule → List (List Doc)
  | [] => []
  | r :: rest => r.doc :: ruleDocs rest

def Rule.doc : Rule → List Doc
  | .lifetime name bounds => ofText name ++ ruleDoc step (bounds.map ofText)
  | .type binds binder subject bounds =>
    binderDoc binds (paramDocs binder) ++ subject.doc ++
      ruleDoc (if bounds.length = 1 then 0 else step) (boundDocs bounds)

/-- The document of the parameters of a function. No comma follows dots. -/
def paramsDoc : List Param → List Doc
  | [] => []
  | [.variadic attributes name] =>
    attributesDoc attributes ++ nameDoc name ++ ofText "..." ++ zero
  | [.matched attributes item none] =>
    attributesDoc attributes ++ item.doc ++ ofText ": ..." ++ zero
  | p :: rest => p.doc ++ comma rest.isEmpty ++ paramsDoc rest

def boundDocs : List Bound → List (List Doc)
  | [] => []
  | b :: rest => b.doc :: boundDocs rest

def Bound.doc : Bound → List Doc
  | .lifetime name => ofText name
  | .trait grouped optional binds binder path =>
    ofText ((if grouped then "(" else "") ++ (if optional then "?" else "")) ++
      binderDoc binds (paramDocs binder) ++ path.doc "" ++ ofText (if grouped then ")" else "")
  | .captures names => ofText ("use<" ++ ", ".intercalate names ++ ">")
  | .formless _ => [.formless]

def Value.doc (place : Place) (around : Surroundings) (v : Value) : List Doc :=
  let isForced := v.isForced around
  let c := around.unless isForced
  bracketed isForced <|
    match v with
    | .literal l => place.settle (ofText l.text)
    | .inferred => place.settle (ofText "_")
    | .path p => place.settle (p.doc "::")
    | .group inner => place.settle (ofText "(" ++ inner.doc .inner {} ++ ofText ")")
    | .tuple items => place.settle (tupleDoc true (valueDocs items))
    | .array items => place.settle (arrayDoc (isCompact items) (valueDocs items))
    | .repeated item length =>
      place.settle
        (ofText "[" ++ item.doc .inner {} ++ ofText "; " ++ length.doc .inner {} ++ ofText "]")
    | .record p fields rest =>
      let others :=
        match rest with
        | none => []
        | some v => ofText ".." ++ v.doc .inner {} ++ space
      place.settle
        (cboxAtMost widestRecord step
            (ibox (-step) (p.doc "::") ++ ofText " \x7b" ++
              shiftLast (-step)
                ([.brk { blanks := 1, ifNonempty := true }] ++
                  separated (fun isLast => commaOrBlank (isLast && rest.isNone))
                    (entryDocs fields) ++
                  others)) ++
          ofText "\x7d")
    | .call function args =>
      let left := c.beforeBracket
      let needed := function.leftStrength left < Strength.closed
      bracketed needed (function.doc place.beforeCall (left.unless needed)) ++
        argumentsDoc (args.length = 1 && args.all Value.isBlocklike) (valueDocs args)
    | .method receiver name args =>
      let left := c.beforePoint
      let needed := receiver.leftStrength left < Strength.closed
      place.link
        (bracketed needed (receiver.doc (.chain place.isStart) (left.unless needed)) ++
          pointBreak place receiver ++ ofText "." ++ name.doc "::" ++
          cbox (if place = .start && receiver.isShortWord shortWord then -step else 0)
            (argumentsDoc (args.length = 1 && args.all Value.isBlocklike) (valueDocs args)))
    | .field base member =>
      let left := c.beforePoint
      let needed := base.leftStrength left < Strength.closed
      place.link
        (bracketed needed (base.doc (.chain place.isStart) (left.unless needed)) ++
          pointBreak place base ++ ofText ("." ++ member))
    | .index base position =>
      let left := c.beforeBracket
      let needed := base.leftStrength left < Strength.closed
      bracketed needed (base.doc place.beforeTrailer (left.unless needed)) ++ ofText "[" ++
        position.doc .inner {} ++ ofText "]"
    | .attempt base =>
      let left := c.beforePoint
      let needed := base.leftStrength left < Strength.closed
      bracketed needed (base.doc place.beforeTrailer (left.unless needed)) ++ ofText "?"
    | .unary operator operand =>
      let right := c.rightOf Strength.leading false false
      let needed := operand.rightStrength right < Strength.leading
      place.settle
        (ofText operator ++ bracketed needed (operand.doc .inner (right.unless needed)))
    | .binary left operator right =>
      let own := Strength.ofOperator operator
      let onLeft := c.leftOfBinary operator
      let onRight := c.rightOf own false false
      let found := left.leftStrength onLeft
      let leftNeeded :=
        if own = Strength.assign then found ≤ Strength.range
        else if own = Strength.compare then found ≤ own
        else found < own
      let rightNeeded := own ≠ Strength.assign ∧ right.rightStrength onRight ≤ own
      place.settle
        (ibox step
          (ibox (-step) (bracketed leftNeeded (left.doc .inner (onLeft.unless leftNeeded))) ++
            space ++ ofText (operator ++ " ") ++
            bracketed rightNeeded (right.doc .inner (onRight.unless rightNeeded))))
    | .assign target source =>
      let left := c.leftOf Strength.assign false false
      let needed := target.leftStrength left ≤ Strength.range
      place.settle
        (ibox 0
          (bracketed needed (target.doc .inner (left.unless needed)) ++ ofText " = " ++ goOn ++
            source.doc .inner (c.rightOf Strength.assign false false)))
    | .cast operand t =>
      let left := c.leftOf Strength.cast false false
      let needed := operand.leftStrength left < Strength.cast
      place.settle
        (ibox step
          (ibox (-step) (bracketed needed (operand.doc .inner (left.unless needed))) ++ space ++
            ofText "as " ++ t.doc))
    | .range start dots stop =>
      let low :=
        match start with
        | none => [.gap]
        | some v =>
          let left := c.leftOf Strength.range true false
          let needed := v.leftStrength left ≤ Strength.range
          bracketed needed (v.doc .inner (left.unless needed))
      let high :=
        match stop with
        | none => []
        | some v =>
          let right := c.rightOf Strength.range false true
          let needed := v.rightStrength right ≤ Strength.range
          bracketed needed (v.doc .inner (right.unless needed))
      place.settle (low ++ ofText dots ++ high)
    | .closure binds binder lead params output body =>
      let items := patternDocs params
      let head := ofText "|" ++ (if items.isEmpty then [] else zero ++ listed items)
      let inside := body.doc .inner (c.rightOf Strength.least false false)
      let function :=
        match output with
        | none =>
          let wraps :=
            match body with
            | .cases .. => false
            | .call .. => false
            | body => !body.isBlocklike
          cbox step (head ++ ofText "|" ++ shiftLast (-step) space) ++ goOn ++
            (if wraps then wrappedDoc body "" "" inside else inside)
        | some t =>
          cbox step
              (head ++ (if items.isEmpty then [] else shiftLast (-step) (comma true)) ++
                ofText "|") ++
            ofText " -> " ++ t.doc ++ ofText " " ++ goOn ++ inside
      place.settle (ibox 0 (binderDoc binds (paramDocs binder) ++ ofText lead ++ function))
    | .block lead body =>
      let block := smallBlockDoc body.isEmpty (bodyDoc body)
      if place = .alternative then block else place.settle (ofText lead ++ cbox step block)
    | .branch condition body none =>
      let head :=
        ofText "if " ++
          cbox (-step) (conditionDoc condition.breaksBeforeBrace (condition.doc .inner .head))
      if place = .alternative then head ++ smallBlockDoc body.isEmpty (bodyDoc body)
      else
        place.settle
          (cbox step
            (head ++ ofText "\x7b" ++
              (if body.isEmpty then [] else shiftLast (-step) (newline ++ entriesDoc body)) ++
              ofText "\x7d"))
    | .branch condition body (some otherwise) =>
      let branches :=
        ofText "if " ++
          cbox (-step) (conditionDoc condition.breaksBeforeBrace (condition.doc .inner .head)) ++
          smallBlockDoc body.isEmpty (bodyDoc body) ++ ofText " else " ++
          otherwise.doc .alternative {}
      if place = .alternative then branches else place.settle (cbox step branches)
    | .cases subject arms =>
      place.settle
        (ibox 0
          (ofText "match " ++
            conditionDoc subject.breaksBeforeBrace (subject.doc .inner .head) ++
            ofText "\x7b" ++ goOn ++ linesDoc (entriesDoc arms)))
    | .forever label body =>
      place.settle (ofText (label ++ "loop \x7b") ++ linesDoc (entriesDoc body))
    | .whilst label condition body =>
      place.settle
        (ofText (label ++ "while ") ++
          conditionDoc condition.breaksBeforeBrace (condition.doc .inner .head) ++
          ofText "\x7b" ++ goOn ++ linesDoc (entriesDoc body))
    | .forEach label item source body =>
      place.settle
        (ibox 0
          (ofText (label ++ "for ") ++ item.doc ++ ofText " in " ++ goOn ++
            conditionDoc source.breaksBeforeBrace (source.doc .inner .head) ++ ofText "\x7b" ++
            goOn ++ linesDoc (entriesDoc body)))
    | .matching item subject =>
      let right := c.rightOf Strength.matching false false
      let needed := subject.rightStrength right < Strength.matching
      place.settle
        (ibox 0
          (ofText "let " ++ item.doc ++ ofText " = " ++ goOn ++
            bracketed needed (subject.doc .inner (right.unless needed))))
    | .jump lead value =>
      let right := c.rightOf Strength.least true ("break".isPrefixOf lead)
      place.settle
        (ofText lead ++
          (match value with
            | none => []
            | some v => ofText " " ++ v.doc .inner right))
    | .invoked call => place.settle (call.doc false)
    | .attributed attributes inner =>
      let value :=
        if inner.isCompound then ofText "(" ++ inner.doc .inner {} ++ ofText ")"
        else
          inner.doc (if place = .start then .start else .inner) { c with startsOption := false }
      place.settle (attributesDoc attributes ++ value)
    | .formless _ => [.formless]

def valueDocs : List Value → List (List Doc)
  | [] => []
  | v :: rest => v.doc .inner {} :: valueDocs rest

def Entry.doc : Entry → List Doc
  | .attribute a => a.doc
  | .binding attributes item none _ =>
    attributesDoc attributes ++ ibox 0 (ofText "let " ++ item.doc) ++ ofText ";" ++ newline
  | .binding attributes item (some v) none =>
    attributesDoc attributes ++
      ibox 0 (ofText "let " ++ item.doc ++ ofText " = " ++ goOn ++ v.doc .inner {}) ++ ofText ";" ++
      newline
  | .binding attributes item (some v) (some otherwise) =>
    attributesDoc attributes ++
      ibox 0
        (ofText "let " ++ item.doc ++ ofText " = " ++ goOn ++ v.doc .inner {} ++ space ++
          ofText "else ") ++
      goOn ++ cbox step (otherwise.doc .alternative {}) ++ ofText ";" ++ newline
  | .value v =>
    ibox 0 (v.doc .start {} ++ (if v.wantsSemicolon then ofText ";" else [])) ++ newline
  | .closed v =>
    ibox 0 (v.doc .start {} ++ (if v.dropsSemicolon then [] else ofText ";")) ++ newline
  | .invoked attributes call closed => attributesDoc attributes ++ call.doc closed ++ newline
  | .empty => []
  | .arm attributes item condition body =>
    let test :=
      match condition with
      | none => []
      | some v => ofText " if " ++ v.doc .inner {}
    let wrapped :=
      goOn ++ wrappedDoc body "," (if body.endsItself then "" else ",") (body.doc .start {})
    let result :=
      match body with
      | .block lead steps =>
        if isUnmarked lead then ofText (lead ++ "\x7b") ++ goOn ++ linesDoc (entriesDoc steps)
        else wrapped
      | _ => wrapped
    attributesDoc attributes ++ ibox 0 (item.doc ++ test ++ ofText " => " ++ result) ++ newline
  | .field attributes member none => attributesDoc attributes ++ ofText member
  | .field attributes member (some v) =>
    attributesDoc attributes ++ ofText (member ++ ": ") ++ ibox 0 (v.doc .inner {})
  | .constant attributes lead t value =>
    attributesDoc attributes ++
      cbox 0
        (ofText (lead ++ ": ") ++ t.doc ++
          (match value with
            | none => []
            | some v => ofText " = " ++ goOn ++ v.doc .inner {}) ++
          ofText ";") ++
      newline
  | .imports attributes lead tree =>
    attributesDoc attributes ++ ofText lead ++ tree.doc ++ ofText ";" ++ newline
  | .words attributes text => attributesDoc attributes ++ ofText text ++ newline
  | .function attributes lead generics params output rules hasBody body =>
    let result :=
      match output with
      | none => []
      | some t => ofText " -> " ++ t.doc
    let head :=
      ofText lead ++ genericsDoc (genericDocs generics) ++ ofText "(" ++ goOn ++
        cbox 0 (shiftLast (-step) (zero ++ paramsDoc params)) ++ ofText ")" ++
        cbox (-step) result ++ rulesDoc (!hasBody) (ruleDocs rules)
    attributesDoc attributes ++
      (if hasBody then braced head (entriesDoc body) else cbox step head ++ newline)
  | .boundAlias attributes lead generics bounds rules =>
    attributesDoc attributes ++
      cbox step
        (ofText lead ++ genericsDoc (genericDocs generics) ++ ofText " = " ++ goOn ++
          limitsDoc "" (boundDocs bounds) ++ rulesDoc true (ruleDocs rules)) ++
      newline
  | .typeName attributes lead generics =>
    attributesDoc attributes ++
      cbox 0 (ofText lead ++ genericsDoc (genericDocs generics) ++ ofText ";") ++ newline
  | .alias attributes lead generics bounds value rulesFirst rules =>
    let head := ofText lead ++ genericsDoc (genericDocs generics)
    let type :=
      match value with
      | none => []
      | some t => ofText "= " ++ goOn ++ ibox (-step) t.doc
    attributesDoc attributes ++
      cbox step
        (if rulesFirst then head ++ shortRulesDoc false (ruleDocs rules) ++ type ++ ofText ";"
          else
            head ++ limitsDoc ": " (boundDocs bounds) ++
              (if type.isEmpty then [] else ofText " ") ++ type ++
              shortRulesDoc true (ruleDocs rules)) ++
      newline
  | .scope attributes lead generics bounds rules body =>
    attributesDoc attributes ++
      braced
        (ofText lead ++ genericsDoc (genericDocs generics) ++
          ofText (if bounds.isEmpty then "" else ": ") ++ joined " + " (boundDocs bounds) ++
          rulesDoc false (ruleDocs rules))
        (entriesDoc body)
  | .implementation attributes lead generics negative view subject rules body =>
    let purpose :=
      match view with
      | none => []
      | some p => ofText (if negative then "!" else "") ++ p.doc "" ++ space ++ ofText "for "
    attributesDoc attributes ++
      braced
        (ofText lead ++
          ibox (-step)
            (cbox step (ofText "impl" ++ genericsDoc (genericDocs generics)) ++ ofText " " ++
              purpose ++ subject.doc) ++
          rulesDoc false (ruleDocs rules))
        (entriesDoc body)
  | .recordType attributes lead generics rules fields =>
    attributesDoc attributes ++
      braced
        (ofText lead ++ genericsDoc (genericDocs generics) ++ rulesDoc false (ruleDocs rules))
        ((entryDocs fields).flatMap (· ++ ofText "," ++ newline))
  | .tupleType attributes lead generics isUnit fields rules =>
    attributesDoc attributes ++
      cbox step
        (ofText lead ++ genericsDoc (genericDocs generics) ++
          (if isUnit then [] else ofText "(" ++ listBody (entryDocs fields) ++ ofText ")") ++
          rulesDoc true (ruleDocs rules)) ++
      newline
  | .variant attributes name bracket fields value =>
    let content :=
      match bracket with
      | none => []
      | some .curly =>
        ofText " \x7b" ++
          cbox step
            (shiftLast (-step) (space ++ separated commaOrBlank (entryDocs fields))) ++
          ofText "\x7d"
      | some _ => cbox step (ofText "(" ++ listBody (entryDocs fields) ++ ofText ")")
    attributesDoc attributes ++ ofText name ++ content ++
      (match value with
        | none => []
        | some v => ofText " = " ++ v.doc .inner {}) ++
      ofText "," ++ newline
  | .member attributes lead t => attributesDoc attributes ++ ofText lead ++ t.doc
  | .expansion attributes name call =>
    attributesDoc attributes ++ call.itemDoc name ++ newline
  | .formless => [.formless]

def entryDocs : List Entry → List (List Doc)
  | [] => []
  | e :: rest => e.doc :: entryDocs rest

def entriesDoc : List Entry → List Doc
  | [] => []
  | e :: rest => e.doc ++ entriesDoc rest

/-- The document of the body of a block that may stand on one line. A lone value does not
have to end its line. -/
def bodyDoc : List Entry → List Doc
  | [] => []
  | [.value v] => ibox 0 (v.doc .start {}) ++ space
  | .attribute a :: rest => a.doc ++ bodyDoc rest
  | e :: rest => e.doc ++ entriesDoc rest

def Pattern.doc : Pattern → List Doc
  | .value v => v.doc .inner {}
  | .name byReference mutable word =>
    ofText
      ((if byReference then "ref " else "") ++ (if mutable then "mut " else "") ++ word.text)
  | .named name inner => name.doc ++ ofText " @ " ++ inner.doc
  | .either cases =>
    if cases.all Pattern.isSimple then ibox 0 (casesDoc (patternDocs cases))
    else cbox 0 (casesDoc (patternDocs cases))
  | .group inner => ofText "(" ++ inner.doc ++ ofText ")"
  | .reference mutable inner => ofText (if mutable then "&mut " else "&") ++ inner.doc
  | .slice items => ofText "[" ++ separated comma (patternDocs items) ++ ofText "]"
  | .tuple items trailing => tupleDoc trailing (patternDocs items)
  | .variant p items => p.doc "::" ++ argumentsDoc false (patternDocs items)
  | .record p fields isOpen attributes =>
    cbox step
        (p.doc "::" ++ ofText " \x7b" ++
          shiftLast (-step)
            ([.brk { blanks := 1, ifNonempty := true }] ++
              separated (fun isLast => commaOrBlank (isLast && !isOpen)) (patternDocs fields) ++
              (if isOpen then attributesDoc attributes ++ ofText ".." ++ space else []))) ++
      ofText "\x7d"
  | .field member item => ofText (member ++ ": ") ++ item.doc
  | .typed item t => item.doc ++ ofText ": " ++ t.doc
  | .attributed attributes inner => attributesDoc attributes ++ inner.doc
  | .formless => [.formless]

def patternDocs : List Pattern → List (List Doc)
  | [] => []
  | p :: rest => p.doc :: patternDocs rest

end

def Ty.printable (t : Ty) : Bool :=
  Doc.allPrintable t.doc

def Path.printable (p : Path) : Bool :=
  Doc.allPrintable (p.doc "")

end Treewright.Code
