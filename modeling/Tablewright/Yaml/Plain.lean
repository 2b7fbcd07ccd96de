import Tablewright.Yaml.Quoted

/-!
# Plain scalars

Scalars without quotes. They end at a comment, at the mark of a key or a value, in flow collections at
brackets and commas, and where the indentation goes back.

* `Plain.starts`: whether a plain scalar can start at a place.
* `Plain.run`: the text up to the next white space or end.
* `Plain.scalar`: the text of a scalar and what is left after it.
-/

namespace Tablewright.Yaml.Plain

/-- The characters that no plain scalar starts with, unless a rule of its own allows it. -/
def indicators : List Char := "-?:,[]\x7b\x7d#&*!|>'\"%@\u0060".toList

/-- Whether a plain scalar starts here: a hyphen starts one before a word, and outside of flow collections
question marks and colons do so too. -/
def starts (flow : Bool) (c : Cursor) : Bool :=
  match c.peek with
  | none => false
  | some ch =>
    !(endsWord (some ch) || indicators.contains ch)
      || (!endsWord c.peekNext && (ch == '-' || (!flow && (ch == '?' || ch == ':'))))

/-- Whether a scalar stops before a character, where `next` is the one after it. -/
def stops (flow : Bool) (ch : Char) (next : Option Char) : Bool :=
  endsWord (some ch)
    || (ch == ':' && (endsWord next || (flow && next.any ",[]\x7b\x7d".toList.contains)))
    || (flow && ",?[]\x7b\x7d".toList.contains ch)

/-- The text up to the next white space or end. -/
def run (flow : Bool) : List Char → List Char
  | [] => []
  | ch :: rest => if stops flow ch rest.head? then [] else ch :: run flow rest

/-- The line breaks of empty lines; nothing if a document ends. -/
def emptyLines : (fuel : Nat) → Cursor → Option (List Char) × Cursor
  | 0, c => (some [], c)
  | fuel + 1, c =>
    let c := c.skipBlanks
    match c.takeBreak? with
    | none => (some [], c)
    | some (b, c) =>
      if c.atMarker then (none, c)
      else
        let (bs, c) := emptyLines fuel c
        (bs.map (b :: ·), c)

/-- White space between words. -/
structure Gap where
  /-- What it stands for; nothing if the scalar ends here. -/
  text : List Char
  after : Cursor
  /-- Whether a line ends in it. -/
  broken : Bool

/-- The white space at a place. -/
def gap (c : Cursor) : Gap :=
  let (blanks, c) := c.span (· == ' ')
  match c.takeBreak? with
  | none => ⟨blanks, c, false⟩
  | some (b, c) =>
    if c.atMarker then ⟨[], c, true⟩
    else
      match emptyLines (c.rest.length + 1) c with
      | (none, c) => ⟨[], c, true⟩
      | (some bs, c) => ⟨Quoted.folded b bs, c, true⟩

/-- A plain scalar or the rest of one: its text, what is left after it, and whether it ends with a line. -/
structure Read where
  text : List Char
  after : Cursor
  broken : Bool

/-- The words of a scalar from a place on, where `before` is the gap before them. -/
def words (flow : Bool) (indent : Int) : (fuel : Nat) → (before : Gap) → Read
  | 0, before => ⟨[], before.after, before.broken⟩
  | fuel + 1, before =>
    let c := before.after
    let word := run flow c.rest
    if c.peek == some '#' || word.isEmpty then ⟨[], c, before.broken⟩
    else
      let g := gap (c.forward word.length)
      let here := before.text ++ word
      -- a comment, the end of the line of text or a smaller indentation ends the scalar
      if g.text.isEmpty || g.after.peek == some '#' || (!flow && (g.after.column : Int) < indent) then
        ⟨here, g.after, g.broken⟩
      else
        let more := words flow indent fuel g
        ⟨here ++ more.text, more.after, more.broken⟩

/-- The scalar that starts here; outside of flow collections its lines have at least the given indentation. -/
def scalar (flow : Bool) (indent : Int) (c : Cursor) : Read :=
  words flow indent (c.rest.length + 1) ⟨[], c, false⟩

end Tablewright.Yaml.Plain
