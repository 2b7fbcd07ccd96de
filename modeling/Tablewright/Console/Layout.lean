import Tablewright.Console.Tone
import Tablewright.Number.Numeral
import Tablewright.Text.Quoted

/-!
# Lines of the console

The lines that notices are written as.

* `Line`: what can be written about a notice.
* `Layout`: texts with fields between them; `Layout.ofText` reads one.
* `Layout.render`: a line in a layout.
* `Writer`: a layout and whether lines are painted.
-/

namespace Tablewright.Console

/-- What can be written about a notice: who speaks, how serious it is, and the message. -/
structure Line where
  speaker : String
  level : Level
  message : String

/-- How a field is written: its flags, its width and precision, and its kind. -/
structure Conversion where
  flags : List Char
  width : Nat
  precision : Option Nat
  kind : Char
  deriving DecidableEq, Repr

/-- A part of a layout. -/
inductive Piece where
  | text (s : String)
  | field (name : String) (conversion : Conversion)
  deriving DecidableEq, Repr

abbrev Layout := List Piece

/-- Why a layout cannot be used. -/
inductive LayoutFault where
  /-- A layout without a field. -/
  | noField (layout : String)
  | unknownField (name : String)
  /-- A field that is written in a way that its value does not have. -/
  | notNumber (kind : Char)
  | unknownKind (kind : Char) (offset : Nat)
  deriving DecidableEq, Repr

def LayoutFault.message : LayoutFault → String
  | noField layout => s!"Invalid format '{layout}' for '%' style"
  | unknownField name => s!"Formatting field not found in record: {Text.quote name}"
  | notNumber kind => s!"%{kind} format: a real number is required, not str"
  | unknownKind kind offset =>
    s!"unsupported format character '{kind}' (0x{String.ofList (Text.hex 1 kind.toNat)}) at index {offset}"

namespace Layout

/-- A field as it is, without a width. -/
def plainField (name : String) : Piece := .field name ⟨[], 0, none, 's'⟩

/-- The usual layout: the level and the message. -/
def standard : Layout := [plainField "levelname", .text ": ", plainField "message"]

def flagChars : List Char := ['#', '0', '+', ' ', '-']

def kinds : List Char := "diouxefgcrsaDIOUXEFGCRSA%".toList

/-- The field whose percent sign came before, and what stands after it. -/
def field? : List Char → Option (Piece × List Char)
  | '(' :: rest =>
    let (name, rest) := rest.span (· != ')')
    let (flags, rest) := (rest.drop 1).span flagChars.contains
    let (width, rest) := rest.span Char.isDigit
    let (precision, rest) := match rest with
      | '.' :: rest =>
        let (digits, rest) := rest.span Char.isDigit
        (some (Number.decimalOf digits), rest)
      | rest => (none, rest)
    match rest with
    | kind :: rest =>
      if name.isEmpty then none
      else some (.field (String.ofList name) ⟨flags, Number.decimalOf width, precision, kind⟩, rest)
    | [] => none
  | _ => none

/-- The pieces of a text. The fuel bounds their number. -/
def pieces : (fuel : Nat) → List Char → Layout
  | 0, _ => []
  | _ + 1, [] => []
  | fuel + 1, '%' :: '%' :: rest => .text "%" :: pieces fuel rest
  | fuel + 1, '%' :: rest =>
    match field? rest with
    | some (piece, rest) => piece :: pieces fuel rest
    | none => .text "%" :: pieces fuel rest
  | fuel + 1, cs =>
    let (run, rest) := cs.span (· != '%')
    .text (String.ofList run) :: pieces fuel rest

/-- Whether a field of a known kind starts somewhere in a text. -/
def hasField : List Char → Bool
  | [] => false
  | c :: rest =>
    (c == '%' && match field? rest with
      | some (.field name conversion, _) => name.toList.all Text.isIdentifierContinue && kinds.contains conversion.kind
      | _ => false)
    || hasField rest

/-- The layout of a text; an empty one stands for the message alone. -/
def ofText (s : String) : Except LayoutFault Layout :=
  if s.isEmpty then .ok [plainField "message"]
  else if hasField s.toList then .ok (pieces (s.length + 1) s.toList)
  else .error (.noField s)

def levelNumber (level : Level) : Nat := 10 * (level.rank + 1)

/-- The value of a field: a text, or a number. -/
def fieldValue? (l : Line) (name : String) : Option (String ⊕ Nat) :=
  if name = "levelname" then some (.inl l.level.word)
  else if name = "levelno" then some (.inr (levelNumber l.level))
  else if name = "name" then some (.inl l.speaker)
  else if name = "message" ∨ name = "msg" then some (.inl l.message)
  else none

/-- A text padded to a width, on the left unless it is flagged. -/
def pad (c : Conversion) (fill : Char) (s : List Char) : List Char :=
  let space := List.replicate (c.width - s.length)
  if c.flags.contains '-' then s ++ space ' ' else space fill ++ s

/-- The text of a value that is written as a text. -/
def textForm (c : Conversion) (s : String) : List Char :=
  pad c ' ' (match c.precision with
    | some n => s.toList.take n
    | none => s.toList)

/-- The text of a number. -/
def numberForm (c : Conversion) (n : Nat) : List Char :=
  let digits := Nat.toDigits 10 n
  let digits := List.replicate (c.precision.getD 0 - digits.length) '0' ++ digits
  let sign := if c.flags.contains '+' then ['+'] else if c.flags.contains ' ' then [' '] else []
  if c.flags.contains '0' && !c.flags.contains '-' then
    sign ++ pad { c with width := c.width - sign.length } '0' digits
  else pad c ' ' (sign ++ digits)

/-- A field of a line. -/
def fieldText (l : Line) (name : String) (c : Conversion) : Except LayoutFault String :=
  match fieldValue? l name with
  | none => .error (.unknownField name)
  | some v =>
    let shown := match v with
      | .inl s => s
      | .inr n => toString n
    if c.kind == 's' then .ok (String.ofList (textForm c shown))
    else if c.kind == 'r' then
      .ok (String.ofList (textForm c (match v with
        | .inl s => Text.quote s
        | .inr n => toString n)))
    else if c.kind == 'd' || c.kind == 'i' || c.kind == 'u' then
      match v with
      | .inl _ => .error (.notNumber c.kind)
      | .inr n => .ok (String.ofList (numberForm c n))
    else .error (.unknownKind c.kind 0)

def pieceText (l : Line) : Piece → Except LayoutFault String
  | .text s => .ok s
  | .field name c => fieldText l name c

def render (layout : Layout) (l : Line) : Except LayoutFault String :=
  (layout.mapM (pieceText l)).map String.join

end Layout

/-- How notices are written: in which layout, and whether lines are painted. -/
structure Writer where
  layout : Layout
  painted : Bool

def Writer.write (w : Writer) (l : Line) : Except LayoutFault String :=
  (w.layout.render l).map fun line => if w.painted then (Tone.of l.level l.message).paint line else line

/-- A notice in the usual layout. -/
def standardLine (painted : Bool) (n : Notice) : String :=
  let line := s!"{n.level.word}: {n.text}"
  if painted then (Tone.of n.level n.text).paint line else line

end Tablewright.Console
