import Treewright.Linked

/-!
# Events

What a run reports while it works. Every event has a level, and a threshold
chooses the levels that are shown.
-/

namespace Treewright

/-- How severe an event is. -/
inductive Level where
  | error
  | warn
  | info
  | debug
  | trace
deriving DecidableEq, Repr

namespace Level

def text : Level → String
  | error => "ERROR"
  | warn => "WARN"
  | info => "INFO"
  | debug => "DEBUG"
  | trace => "TRACE"

/-- Levels are numbered by decreasing severity, starting from one. -/
def rank : Level → Nat
  | error => 1
  | warn => 2
  | info => 3
  | debug => 4
  | trace => 5

end Level

/-- The least severe level that is shown; nothing is shown without a threshold. -/
abbrev Threshold : Type :=
  Option Level

namespace Threshold

/-- The threshold of a name; any other name, and no name at all, is information. -/
def ofName : Option String → Threshold
  | some "off" => none
  | some "error" => some .error
  | some "warn" => some .warn
  | some "debug" => some .debug
  | some "trace" => some .trace
  | _ => some .info

def shows (t : Threshold) (level : Level) : Bool :=
  t.any (level.rank ≤ ·.rank)

end Threshold

inductive Event where
  /-- A grammar was linked, with its writing order and its borrowing families. -/
  | linked (grammar : String) (order borrowing : List String)
  /-- A type name is declared nowhere. -/
  | unrecognized (type : String)
  | rendered (file : String) (nodes : Nat)
  | usingEmbedded
  | loading (path : String)
  /-- A file was put in place. -/
  | wrote (path : String)
  | generated (nodes families : Nat) (grammar directory : String)
deriving DecidableEq, Repr

namespace Event

def level : Event → Level
  | linked .. => .debug
  | unrecognized .. => .warn
  | rendered .. => .debug
  | usingEmbedded => .debug
  | loading .. => .debug
  | wrote .. => .info
  | generated .. => .info

def quotedNames (names : List String) : String :=
  ", ".intercalate (names.map fun name => "\"" ++ name ++ "\"")

def message : Event → String
  | linked grammar order borrowing =>
    s!"linked grammar `{grammar}` order=[" ++ quotedNames order ++ "] borrowing=\x7b" ++
      quotedNames borrowing ++ "\x7d"
  | unrecognized type =>
    s!"type `{type}` is not a family or a known type; treating it as owned"
  | rendered file nodes => s!"rendered {file} ({nodes} nodes)"
  | usingEmbedded => "using embedded grammar"
  | loading path => s!"loading grammar from {path}"
  | wrote path => s!"wrote {path}"
  | generated nodes families grammar directory =>
    s!"generated {nodes} nodes in {families} families from `{grammar}` into {directory}"

def line (e : Event) : String :=
  e.level.text ++ " " ++ e.message

/-- A character as it is shown. Those on which a terminal acts are spelled out, except for
the ones that divide a text. -/
def shownChar (c : Char) : List Char :=
  let digits := Nat.toDigits 16 c.toNat
  if c == '\x1b' || c == '\x7f' then '\\' :: 'x' :: digits
  else if c == '\x07' || c == '\x08' || c == '\x0c' then '\\' :: 'x' :: '0' :: digits
  else if 0x80 ≤ c.toNat && c.toNat ≤ 0x9F then '\\' :: 'u' :: '\x7b' :: digits ++ ['\x7d']
  else [c]

def shownLine (e : Event) : String :=
  String.ofList (e.line.toList.flatMap shownChar)

def shownLines (t : Threshold) (events : List Event) : List String :=
  (events.filter fun e => t.shows e.level).map shownLine

end Event

namespace Linked

/-- What linking reports: the result, then every type name that nothing declares. -/
def events (l : Linked) : List Event :=
  .linked l.grammar.name (l.order.map (·.name)) (sortedNames l.borrowing)
    :: (unrecognizedTypes l.grammar).map .unrecognized

end Linked

end Treewright
