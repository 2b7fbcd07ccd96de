import Tablewright.Yaml.Cursor
import Tablewright.Yaml.Fault

/-!
# Block scalars

Scalars that are written as indented lines: literal ones keep their line breaks, folded ones turn those between
lines of text into spaces.

* `Block.Header`: what the mark of a scalar says about its indentation and its end.
* `Block.scalar`: the text of a scalar and what is left after it.
-/

namespace Tablewright.Yaml.Block

/-- Which of the line breaks at the end of a scalar belong to it. -/
inductive Chomping where
  | clip
  | strip
  | keep
  deriving DecidableEq, Repr

/-- What the mark of a scalar says: which line breaks at its end count, and how far it is indented. -/
structure Header where
  chomping : Chomping
  increment : Option Nat

def sign? (c : Cursor) : Option Chomping :=
  if c.peek == some '+' then some .keep else if c.peek == some '-' then some .strip else none

/-- The digit of a header; it may not be zero. -/
def increment (c : Cursor) : Except Fault (Option Nat × Cursor) :=
  match c.peek with
  | some d =>
    if d == '0' then .error (.refused .tokens)
    else if d.isDigit then .ok (some (d.toNat - '0'.toNat), c.step)
    else .ok (none, c)
  | none => .ok (none, c)

/-- The sign and the digit of a header, in either order. -/
def indicators (c : Cursor) : Except Fault (Header × Cursor) :=
  match sign? c with
  | some chomping => (increment c.step).map fun (n, c) => (⟨chomping, n⟩, c)
  | none => do
    match ← increment c with
    | (none, c) => .ok (⟨.clip, none⟩, c)
    | (n, c) =>
      match sign? c with
      | some chomping => .ok (⟨chomping, n⟩, c.step)
      | none => .ok (⟨.clip, n⟩, c)

/-- What is left after the rest of a line on which only a comment may stand. -/
def finishLine (c : Cursor) : Except Fault Cursor :=
  let c := c.skipBlanks.skipComment
  if endsLine c.peek then .ok c.skipBreak else .error (.refused .tokens)

/-- The header of a scalar, after its mark, and the start of the next line. -/
def header (c : Cursor) : Except Fault (Header × Cursor) := do
  let (h, c) ← indicators c
  if endsHeader c.peek then (finishLine c).map fun c => (h, c) else .error (.refused .tokens)

/-- What is left after at most as many spaces as an indentation has. -/
def skipIndent (indent : Nat) (c : Cursor) : Cursor :=
  c.forward (min (indent - c.column) (c.rest.takeWhile (· == ' ')).length)

/-- The breaks of empty lines. -/
def breaks (indent : Nat) : (fuel : Nat) → Cursor → List Char × Cursor
  | 0, c => ([], c)
  | fuel + 1, c =>
    let c := skipIndent indent c
    match c.takeBreak? with
    | none => ([], c)
    | some (b, c) =>
      let (bs, c) := breaks indent fuel c
      (b :: bs, c)

/-- The breaks of empty lines before the first line of text, and the greatest number of spaces on one of
these lines. -/
def leading : (fuel widest : Nat) → Cursor → List Char × Nat × Cursor
  | 0, widest, c => ([], widest, c)
  | fuel + 1, widest, c =>
    let (blanks, c) := c.span (· == ' ')
    let widest := if blanks.isEmpty then widest else max widest c.column
    match c.takeBreak? with
    | none => ([], widest, c)
    | some (b, c) =>
      let (bs, widest, c) := leading fuel widest c
      (b :: bs, widest, c)

/-- The lines of a scalar: the text, the break after the last line, the breaks of empty lines after that, and
what is left. -/
structure Lines where
  text : List Char
  lastBreak : List Char
  tail : List Char
  after : Cursor

/-- Whether a line of text with the given indentation is here. -/
def atLine (indent : Nat) (c : Cursor) : Bool := c.column == indent && !c.rest.isEmpty

/-- Whether a line starts with white space, so that it is not folded. -/
def isSpaced (c : Cursor) : Bool := c.peek.any isSpace

/-- The text between two lines of a folded scalar or a literal one, less the breaks of empty lines. -/
def between (isFolded spaced : Bool) (lastBreak tail : List Char) : List Char :=
  if isFolded && lastBreak == ['\n'] && !spaced then (if tail.isEmpty then [' '] else []) else lastBreak

/-- The lines of a scalar, where `before` are the breaks of the empty lines before them. -/
def lines (isFolded : Bool) (indent : Nat) : (fuel : Nat) → (before : List Char) → Cursor → Lines
  | 0, before, c => ⟨[], [], before, c⟩
  | fuel + 1, before, c =>
    if atLine indent c then
      let spaced := isSpaced c
      let (line, c) := c.span (!isBreak ·)
      let lastBreak := (c.takeBreak?.map (·.1)).toList
      let c := c.skipBreak
      -- empty lines belong to the text only if another line of it follows
      let (tail, c) := breaks indent (c.rest.length + 1) c
      if atLine indent c then
        let more := lines isFolded indent fuel tail c
        { more with text := before ++ line ++ between isFolded (spaced || isSpaced c) lastBreak tail ++ more.text }
      else ⟨before ++ line, lastBreak, tail, c⟩
    else ⟨[], [], before, c⟩

/-- The line breaks at the end of a scalar that belong to it. -/
def Lines.ending (l : Lines) : Chomping → List Char
  | .strip => []
  | .clip => l.lastBreak
  | .keep => l.lastBreak ++ l.tail

/-- The scalar whose mark is here, inside collections of the given indentation. -/
def scalar (isFolded : Bool) (outer : Int) (c : Cursor) : Except Fault (String × Cursor) := do
  let (h, c) ← header c.step
  let least := max 1 (outer + 1).toNat
  let fuel := c.rest.length + 1
  -- without a digit the first line of text says how far all of them are indented
  let (before, indent, c) := match h.increment with
    | some n =>
      let indent := least + n - 1
      let (bs, c) := breaks indent fuel c
      (bs, indent, c)
    | none =>
      let (bs, widest, c) := leading fuel 0 c
      (bs, max least widest, c)
  let l := lines isFolded indent fuel before c
  .ok (String.ofList (l.text ++ l.ending h.chomping), l.after)

end Tablewright.Yaml.Block
