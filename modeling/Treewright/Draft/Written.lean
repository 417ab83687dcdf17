import Treewright.Code.Written
import Treewright.Draft.Item

/-!
# How items are laid out

Documents for the items of a file, and the text of a file from its draft.
-/

namespace Treewright

open Layout (Doc)
open Layout.Doc (ofText zero space newline newlineIfNonempty comma commaOrBlank cbox ibox listBody
  shiftLast separated step cboxAtMost)

def Mention.doc (m : Mention) : List Doc :=
  ofText m.name ++ Code.angleDoc "" (m.lifetime.toList.map fun name => (true, ofText name))

namespace FieldType

def appliedDoc (path : Code.Path) (args : List (List Doc)) : List Doc :=
  path.doc "" ++ Code.angleDoc "" (args.map fun d => (false, d))

mutual

def doc : FieldType → List Doc
  | family mention => mention.doc
  | boxed inner => appliedDoc (.ofName "Box") [inner.doc]
  | borrowed inner => ofText ("&" ++ sourceLifetime ++ " ") ++ inner.doc
  | applied path args => appliedDoc path (docs args)

def docs : List FieldType → List (List Doc)
  | [] => []
  | t :: rest => t.doc :: docs rest

end

end FieldType

def paramListDoc (params : List (List Doc)) : List Doc :=
  if params.isEmpty then [] else ofText "<" ++ cbox 0 (listBody params) ++ ofText ">"

/-- The declaration of the source lifetime, if there is one. -/
def lifetimeDoc (declares : Bool) : List Doc :=
  paramListDoc (if declares then [ofText sourceLifetime] else [])

def signatureDoc (name : String) (generics args : List (List Doc)) (result : List Doc) :
    List Doc :=
  ofText ("fn " ++ name) ++ paramListDoc generics ++ ofText "(" ++ [.brk { never := true }] ++
    cbox 0 (listBody args) ++ ofText ")" ++ cbox (-step) (ofText " -> " ++ result)

/-- A braced block after a head, with one part after the other. -/
def blockDoc (head body : List Doc) : List Doc :=
  cbox step (head ++ ofText " \x7b" ++ shiftLast (-step) (newlineIfNonempty ++ body)) ++
    ofText "\x7d" ++ newline

/-- The document of a function whose body is one expression. -/
def functionDoc (head body : List Doc) : List Doc :=
  blockDoc head (ibox 0 body ++ newline)

def callDoc (function argument : String) : List Doc :=
  ofText (function ++ "(") ++ cbox step (listBody [ofText argument]) ++ ofText ")"

/-- The document of a method call. The line may end before the method unless the receiver is
no longer than an indentation. -/
def MethodCall.doc (c : MethodCall) : List Doc :=
  let isShort := c.receiver.utf8ByteSize ≤ 4
  cbox step
    (ofText c.receiver ++ (if isShort then [] else zero) ++ ofText ("." ++ c.method) ++
      cbox (if isShort then -step else 0)
        (ofText "(" ++ cbox step (listBody [ofText c.argument]) ++ ofText ")"))

/-- The document of a dispatch function, whose body has a document already. -/
def acceptDoc (name visitor : String) (result : Code.Ty) (body : List Doc) : List Doc :=
  functionDoc
    (ofText "pub " ++
      signatureDoc name
        [ofText "V" ++ ibox step (ofText ": Visitor" ++ space ++ ofText "+ ?Sized")]
        [ofText "&self", ofText (visitor ++ ": &mut V")] result.doc)
    body

def Arm.doc (a : Arm) : List Doc :=
  ibox 0
    (callDoc ("Self::" ++ a.label.text) a.bound ++ ofText " => " ++ [.brk { never := true }] ++
      cbox step
        ([.brk { before := "\x7b" }] ++ a.call.doc ++
          [.brk { offset := -step, after := "\x7d", unbroken := "," }]))

def matchDoc (arms : List Arm) : List Doc :=
  ibox 0
    (ofText "match " ++ cbox 0 (ofText "self ") ++ ofText "\x7b" ++ [.brk { never := true }] ++
      cbox step
        (shiftLast (-step) (newlineIfNonempty ++ arms.flatMap fun a => a.doc ++ newline)) ++
      ofText "\x7d")

def Initializer.doc (i : Initializer) : List Doc :=
  match i.filling with
  | .parameter => ofText i.name.text
  | .default => ofText (i.name.text ++ ": ") ++ ibox 0 (ofText "Default::default()")

/-- The widest structure literal on one line. -/
def widestLiteral : Nat := 34

def literalDoc (initializers : List Initializer) : List Doc :=
  cboxAtMost widestLiteral step
    (ibox (-step) (ofText "Self") ++ ofText " \x7b" ++
      shiftLast (-step)
        ([.brk { blanks := 1, ifNonempty := true }] ++
          separated commaOrBlank (initializers.map Initializer.doc))) ++
    ofText "\x7d"

def Slot.doc (s : Slot) : List Doc :=
  ofText (s.name.text ++ ": ") ++ s.type.doc

def implDoc (declares : Bool) (view : Option (List Doc)) (target : Mention) : List Doc :=
  ibox (-step)
    (cbox step (ofText "impl" ++ lifetimeDoc declares) ++ ofText " " ++
      (match view with
        | none => []
        | some d => d ++ space ++ ofText "for ") ++
      target.doc)

/-- The derives of a declared type, if there are any. -/
def derivesDoc (derives : List (List Code.Token)) : List Doc :=
  if derives.isEmpty then []
  else
    Code.Attribute.listDoc false "derive" .round ((derives.intersperse [.mark ',' false]).flatten)

/-- The document of the attribute that allows something, of the file or of what comes next. -/
def allowDoc (inner : Bool) (names : List String) : List Doc :=
  Code.Attribute.listDoc inner "allow" .round
    ((names.map fun name => [Code.Token.word ⟨name, false⟩]).intersperse
      [.mark ':' true, .mark ':' false]).flatten

def Constructor.doc (c : Constructor) : List Doc :=
  (if c.allowsMany then
      allowDoc false ["clippy", "too_many_arguments"]
    else []) ++
    functionDoc (ofText "pub " ++ signatureDoc "new" [] (c.params.map Slot.doc) (ofText "Self"))
      (literalDoc c.initializers)

def VisitMethod.doc (m : VisitMethod) : List Doc :=
  Code.Attribute.commentDoc false m.comment ++
    cbox step
      (signatureDoc m.name [] [ofText "&mut self", ofText "value: &" ++ m.value.doc] m.result.doc ++
        ofText ";") ++
    newline

def siblingTree (home : Code.Word) (names : List String) : Code.UseTree :=
  .path ⟨"super", false⟩ (.path home
    (match names with
      | [name] => .name ⟨name, false⟩
      | names => .group (names.map fun name => .name ⟨name, false⟩)))

def Item.doc : Item → List Doc
  | .moduleDecl home => ofText ("pub mod " ++ home.text ++ ";") ++ newline
  | .siblingImport home names =>
    ofText "use " ++ (siblingTree home names).doc ++ ofText ";" ++ newline
  | .reexport home name => ofText ("pub use " ++ home.text ++ "::" ++ name ++ ";") ++ newline
  | .userImport tree => ofText "use " ++ tree.doc ++ ofText ";" ++ newline
  | .enumDecl doc derives name declares variants =>
    Code.Attribute.commentDoc false doc ++ derivesDoc derives ++
      blockDoc (ofText ("pub enum " ++ name) ++ lifetimeDoc declares)
        (variants.flatMap fun v =>
          ofText v.label.text ++
            cbox step (ofText "(" ++ listBody [v.payload.doc] ++ ofText ")") ++ ofText "," ++
            newline)
  | .enumDispatch declares target accept result =>
    blockDoc (implDoc declares none target)
      (acceptDoc accept.name accept.visitor result (matchDoc accept.body))
  | .structDecl doc derives name declares slots =>
    Code.Attribute.commentDoc false doc ++ derivesDoc derives ++
      blockDoc (ofText ("pub struct " ++ name) ++ lifetimeDoc declares)
        (slots.flatMap fun s => ofText "pub " ++ s.doc ++ ofText "," ++ newline)
  | .structImpl declares target constructor accept result =>
    blockDoc (implDoc declares none target)
      (constructor.doc ++ acceptDoc accept.name accept.visitor result accept.body.doc)
  | .conversion declares source target wrapping =>
    blockDoc
      (implDoc declares
        (some (ofText "From" ++ Code.angleDoc "" [(false, source.doc)])) target)
      (functionDoc
        (signatureDoc "from" [] [ofText (wrapping.parameter ++ ": ") ++ source.doc]
          (ofText "Self"))
        (callDoc ("Self::" ++ wrapping.label.text) wrapping.payload))
  | .visitorTrait doc methods =>
    Code.Attribute.commentDoc false doc ++
      blockDoc (ofText "pub trait Visitor") (methods.flatMap VisitMethod.doc)

namespace Draft

def doc (d : Draft) : List Doc :=
  d.docs.flatMap (Code.Attribute.commentDoc true) ++ allowDoc true ["unused_imports"] ++
    d.items.flatMap Item.doc

def write (d : Draft) : String :=
  Layout.Doc.render d.doc

end Draft

end Treewright
