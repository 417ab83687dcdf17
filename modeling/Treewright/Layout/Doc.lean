/-!
# Documents and their layout

A document is a tree of texts, breaks and boxes. A box that does not fit on the rest
of the line is broken: in a consistent box every break then ends the line, in an
inconsistent one only those breaks after which the next piece does not fit. What
has to fit is measured up to the next break at which the line could end, also past
the end of the box. Widths are counted in bytes of UTF-8.
-/

namespace Treewright.Layout

/-- How the breaks of a broken box behave. -/
inductive Style where
  /-- All breaks end the line. -/
  | consistent
  /-- A break ends the line when what follows it does not fit. -/
  | inconsistent
deriving DecidableEq, Repr

structure Break where
  blanks : Nat := 0
  /-- What is added to the indentation of the next line. -/
  offset : Int := 0
  never : Bool := false
  /-- The break is dropped at the end of a box. -/
  ifNonempty : Bool := false
  /-- Written before the end of the line. -/
  before : String := ""
  /-- Written at the start of the next line. -/
  after : String := ""
  /-- Written when the line goes on. -/
  unbroken : String := ""
deriving DecidableEq, Repr

inductive Doc where
  | text (s : String)
  /-- A blank after a text that ends with a point, otherwise nothing. -/
  | gap
  /-- Nothing, but as wide as a line can never be. -/
  | wide
  | brk (b : Break)
  /-- A box whose body is indented when it is broken. -/
  | box (style : Style) (indent : Int) (body : List Doc)
  /-- Something without a written form, at which writing stops. -/
  | formless

/-- A width that no line has room for. -/
def unlimited : Nat := 65535

/-- How many columns a line has. -/
def margin : Int := 89

/-- How many columns a line has at least after its indentation. -/
def leastSpace : Int := 60

namespace Doc

mutual

/-- Decides whether a document can be written to its end. -/
def printable : Doc → Bool
  | formless => false
  | box _ _ body => allPrintable body
  | _ => true

def allPrintable : List Doc → Bool
  | [] => true
  | d :: rest => printable d && allPrintable rest

end

mutual

def width : Doc → Nat
  | text s => s.utf8ByteSize
  | gap => 0
  | wide => unlimited
  | brk b => b.blanks
  | box _ _ body => widthAll body
  | formless => 0

def widthAll : List Doc → Nat
  | [] => 0
  | d :: rest => width d + widthAll rest

end

mutual

/-- A document with its gaps filled in, and whether the last text up to its end ends with a
point, if `pointed` says so of the last text before it. -/
def fill (pointed : Bool) : Doc → Doc × Bool
  | text s => (text s, s.toList.getLast? == some '.')
  | gap => if pointed then (text " ", false) else (gap, false)
  | box style indent body =>
    let (body, pointed) := fillAll pointed body
    (box style indent body, pointed)
  | d => (d, pointed)

/-- Documents with their gaps filled in, and whether the last text ends with a point. -/
def fillAll (pointed : Bool) : List Doc → List Doc × Bool
  | [] => ([], pointed)
  | d :: rest =>
    let (d, pointed) := fill pointed d
    let (rest, pointed) := fillAll pointed rest
    (d :: rest, pointed)

end

/-- The width up to the first break among the documents, or past them all and on by
`beyond`. -/
def reach (beyond : Nat) : List Doc → Nat
  | [] => beyond
  | brk _ :: _ => 0
  | d :: rest => width d + reach beyond rest

end Doc

structure Page where
  written : String := ""
  space : Int := margin
  /-- Blanks that are due before the next text. -/
  due : Nat := 0

namespace Page

def indent (p : Page) : Page :=
  { p with written := p.written ++ String.ofList (List.replicate p.due ' '), due := 0 }

def write (p : Page) (s : String) : Page :=
  let p := p.indent
  { p with written := p.written ++ s, space := p.space - s.utf8ByteSize }

def goOn (p : Page) (b : Break) : Page :=
  { p with
    written := p.written ++ b.unbroken
    space := p.space - b.blanks - b.unbroken.utf8ByteSize
    due := p.due + b.blanks }

/-- Ends the line at a break, where the indentation is `column`. -/
def endLine (p : Page) (b : Break) (column : Int) : Page :=
  let p := if b.before.isEmpty then p else p.write b.before
  let p : Page :=
    { written := p.written ++ "\n"
      space := max (margin - (column + b.offset)) leastSpace
      due := (column + b.offset).toNat }
  if b.after.isEmpty then p else p.write b.after

end Page

/-- What surrounds a document on the page: a box that fits, or a broken one. -/
inductive Frame where
  | fitting
  | broken (style : Style)
deriving DecidableEq, Repr

namespace Frame

/-- Decides whether the line goes on at a break from which `size` columns are needed. -/
def goesOn (frame : Frame) (b : Break) (size : Nat) (space : Int) : Bool :=
  b.never ||
    match frame with
    | fitting => true
    | broken .consistent => false
    | broken .inconsistent => decide ((size : Int) ≤ space)

end Frame

namespace Doc

mutual

/-- Writes a document in a frame at an indentation. Up to the next break after it,
`beyond` columns are needed. -/
def put (frame : Frame) (column : Int) (beyond : Nat) : Doc → Page → Page
  | text s, p => p.write s
  | gap, p => p
  | wide, p => p
  | formless, p => p
  | brk b, p =>
    if frame.goesOn b (b.blanks + beyond) p.space then p.goOn b else p.endLine b column
  | box style indent body, p =>
    if ((widthAll body + beyond : Nat) : Int) > p.space then
      putAll (.broken style) (column + indent) beyond body p
    else
      putAll .fitting column beyond body p

def putAll (frame : Frame) (column : Int) (beyond : Nat) : List Doc → Page → Page
  | [], p => p
  | d :: rest, p => putAll frame column beyond rest (put frame column (reach beyond rest) d p)

end

/-- The text of documents, written one after the other in a broken consistent box. -/
def render (docs : List Doc) : String :=
  (putAll (.broken .consistent) 0 0 (fillAll false docs).1 {}).written

def ofText (s : String) : List Doc :=
  [text s]

def zero : List Doc :=
  [brk {}]

/-- A break that is a blank when the line goes on. -/
def space : List Doc :=
  [brk { blanks := 1 }]

def newline : List Doc :=
  [brk { blanks := unlimited }]

/-- The end of a line, unless the box ends there. -/
def newlineIfNonempty : List Doc :=
  [brk { blanks := unlimited, ifNonempty := true }]

/-- Separates an item from the next one by a comma, and ends the last one with a comma
only if it ends the line. -/
def comma (isLast : Bool) : List Doc :=
  if isLast then [brk { before := "," }] else text "," :: space

/-- Separates like `comma`, and leaves a blank after the last item when the line goes on. -/
def commaOrBlank (isLast : Bool) : List Doc :=
  if isLast then [brk { blanks := 1, before := "," }] else text "," :: space

/-- Moves the last break of a document list to the left or right. -/
def shiftLast (offset : Int) : List Doc → List Doc
  | [] => []
  | [brk b] => [brk { b with offset := b.offset + offset }]
  | d :: rest => d :: shiftLast offset rest

/-- The body of a box as it is kept: a break that is wanted only in a nonempty box is
dropped from its end. -/
def closeBody : List Doc → List Doc
  | [] => []
  | [brk b] => if b.ifNonempty then [] else [brk b]
  | d :: rest => d :: closeBody rest

/-- A box. A box that holds a single break is dropped. -/
def boxed (style : Style) (indent : Int) (body : List Doc) : List Doc :=
  match body with
  | [brk _] => []
  | body => [box style indent (closeBody body)]

def cbox (indent : Int) (body : List Doc) : List Doc :=
  boxed .consistent indent body

def ibox (indent : Int) (body : List Doc) : List Doc :=
  boxed .inconsistent indent body

/-- A consistent box that is broken when its body is wider than `limit`. -/
def cboxAtMost (limit : Nat) (indent : Int) (body : List Doc) : List Doc :=
  if limit < widthAll (fillAll false body).1 then boxed .consistent indent (body ++ [wide])
  else boxed .consistent indent body

def step : Int := 4

/-- Items each followed by a separator that knows whether it is the last one. -/
def separated (separator : Bool → List Doc) : List (List Doc) → List Doc
  | [] => []
  | [item] => item ++ separator true
  | item :: rest => item ++ separator false ++ separated separator rest

/-- The body of a bracketed list: a break, then items separated by commas, where the
last break returns to the indentation outside. -/
def listBody (items : List (List Doc)) : List Doc :=
  shiftLast (-step) (zero ++ separated comma items)

end Doc

end Treewright.Layout
