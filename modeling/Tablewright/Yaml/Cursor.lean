/-!
# Places in a text

A text that is read from the front, with the place of its first character.

* `Cursor`: what is left of a text, and where it stands; `Cursor.step` and `Cursor.forward` move on.
* `isBreak`, `endsWord`, `endsLine`, `endsHeader`: the characters that separate words and lines; the end of
  the text does as well.
* `Cursor.takeBreak?`: a line break, in its usual form.
* `Cursor.atMarker`: whether a line starts with the marker of a document's start or end.
-/

namespace Tablewright.Yaml

/-- What is left of a text, with the number of characters before it, and its line and column. -/
structure Cursor where
  rest : List Char
  index : Nat
  line : Nat
  column : Nat
  deriving Repr

def isBreak (c : Char) : Bool :=
  c == '\n' || c == '\r' || c == '\u0085' || c == '\u2028' || c == '\u2029'

def isSpace (c : Char) : Bool := c == ' ' || c == '\t'

def endsLine (c : Option Char) : Bool := c.all isBreak

def endsWord (c : Option Char) : Bool := c.all fun c => isSpace c || isBreak c

/-- Whether a character ends a word in a place where tabs are not allowed. -/
def endsHeader (c : Option Char) : Bool := c.all fun c => c == ' ' || isBreak c

/-- The characters of names: ASCII letters and digits, hyphens and underscores. -/
def isNameChar (c : Char) : Bool := c.isAlphanum || c == '-' || c == '_'

namespace Cursor

def start (text : List Char) : Cursor := ⟨text, 0, 0, 0⟩

def peek (c : Cursor) : Option Char := c.rest.head?

/-- The character after the next one. -/
def peekNext (c : Cursor) : Option Char := c.rest[1]?

/-- One character further. A carriage return before a line feed ends no line, and byte order marks have no
width. -/
def step (c : Cursor) : Cursor :=
  match c.rest with
  | [] => c
  | ch :: rest =>
    if isBreak ch && !(ch == '\r' && rest.head? == some '\n') then ⟨rest, c.index + 1, c.line + 1, 0⟩
    else ⟨rest, c.index + 1, c.line, if ch == '\ufeff' then c.column else c.column + 1⟩

def forward : Nat → Cursor → Cursor
  | 0, c => c
  | n + 1, c => forward n c.step

/-- The longest run of characters of a class, and what is left after it. -/
def span (p : Char → Bool) (c : Cursor) : List Char × Cursor :=
  let run := c.rest.takeWhile p
  (run, c.forward run.length)

/-- What is left after a run of characters of a class. -/
def skip (p : Char → Bool) (c : Cursor) : Cursor := (c.span p).2

/-- What is left after spaces. -/
def skipBlanks (c : Cursor) : Cursor := c.skip (· == ' ')

/-- What is left after a comment, if one starts here. -/
def skipComment (c : Cursor) : Cursor := if c.peek == some '#' then c.skip (!isBreak ·) else c

/-- The line break at the front, in its usual form, and what is left after it. -/
def takeBreak? (c : Cursor) : Option (Char × Cursor) :=
  match c.rest with
  | '\r' :: '\n' :: _ => some ('\n', c.forward 2)
  | ch :: _ =>
    if ch == '\n' || ch == '\r' || ch == '\u0085' then some ('\n', c.step)
    else if isBreak ch then some (ch, c.step)
    else none
  | [] => none

/-- What is left after a line break, if one is here. -/
def skipBreak (c : Cursor) : Cursor := (c.takeBreak?.map (·.2)).getD c

/-- Whether three equal characters that end a word stand here. -/
def atTriple (mark : Char) (c : Cursor) : Bool :=
  match c.rest with
  | x :: y :: z :: rest => x == mark && y == mark && z == mark && endsWord rest.head?
  | _ => false

/-- Whether a marker of a document's start or end stands here. -/
def atMarker (c : Cursor) : Bool := c.atTriple '-' || c.atTriple '.'

end Cursor

end Tablewright.Yaml
