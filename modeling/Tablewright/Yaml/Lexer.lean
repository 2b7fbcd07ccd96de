import Tablewright.Yaml.Block
import Tablewright.Yaml.Plain
import Tablewright.Yaml.Property

/-!
# From text to tokens

The tokens of a text. A key of a block mapping is only known as such at the colon after it, so that a token
with which a key may start is kept back until that is decided, and the mark of the key is inserted before it.

* `Lexer`: the state of reading; `Lexer.next` reads one more token.
* `Tokens`: the tokens of a text, up to the point where it cannot be read further.
* `Tokens.ofText`: the tokens of a whole text; every step takes at least one character, so the length of
  the text bounds their number.
-/

namespace Tablewright.Yaml

/-- The start of a key that may turn out to be one: the number of its first token, whether nothing else can
stand here, and the place. -/
structure PendingKey where
  token : Nat
  required : Bool
  index : Nat
  line : Nat
  column : Nat

/-- The state of reading: the place, how many brackets are open, the indentation of the block collection and
those around it, whether a key may start here, the keys that are pending by the number of open brackets, and
the tokens so far, last one first. -/
structure Lexer where
  cursor : Cursor
  flow : Int
  indent : Int
  outer : List Int
  keyAllowed : Bool
  keys : List (Int × PendingKey)
  reversed : List Token
  finished : Bool

namespace Lexer

/-- The state at the start of a text. A byte order mark at the start does not count. -/
def start (text : List Char) : Lexer :=
  let c := Cursor.start text
  { cursor := if c.peek == some '\ufeff' then c.step else c
    flow := 0, indent := -1, outer := [], keyAllowed := true, keys := [], reversed := [], finished := false }

def inFlow (l : Lexer) : Bool := l.flow != 0

def column (l : Lexer) : Int := l.cursor.column

def push (l : Lexer) (t : Token) : Lexer := { l with reversed := t :: l.reversed }

/-- The state with a token inserted as the one of a given number. -/
def insert (l : Lexer) (number : Nat) (t : Token) : Lexer :=
  let later := l.reversed.length - number
  { l with reversed := l.reversed.take later ++ t :: l.reversed.drop later }

/-- The greatest distance between the start of a key and the colon after it. -/
def maxKey : Nat := 1024

/-- Whether a key cannot end here any more. -/
def isStale (l : Lexer) (k : PendingKey) : Bool :=
  k.line != l.cursor.line || decide (k.index + maxKey < l.cursor.index)

/-- The state without the keys that cannot end any more. -/
def dropStale (l : Lexer) : Except Fault Lexer :=
  if l.keys.any fun k => l.isStale k.2 && k.2.required then .error (.refused .tokens)
  else .ok { l with keys := l.keys.filter fun k => !l.isStale k.2 }

/-- The key that is pending at the current number of open brackets. -/
def key? (l : Lexer) : Option PendingKey := l.keys.lookup l.flow

/-- The state without this key. -/
def forgetKey (l : Lexer) : Lexer := { l with keys := l.keys.filter (·.1 != l.flow) }

def dropKey (l : Lexer) : Except Fault Lexer :=
  match l.key? with
  | some k => if k.required then .error (.refused .tokens) else .ok l.forgetKey
  | none => .ok l

/-- Notes that a key may start here. -/
def noteKey (l : Lexer) : Except Fault Lexer :=
  if l.keyAllowed then do
    let c := l.cursor
    let k : PendingKey := ⟨l.reversed.length, !l.inFlow && l.indent == l.column, c.index, c.line, c.column⟩
    let l ← l.dropKey
    .ok { l with keys := (l.flow, k) :: l.keys }
  else .ok l

/-- Closes the block collections that are indented further than a column. -/
def unwindFrom (column : Int) : (outer : List Int) → Lexer → Lexer
  | [], l => l
  | next :: outer, l =>
    if l.indent > column then unwindFrom column outer { l.push .blockEnd with indent := next, outer := outer } else l

/-- Closes the block collections that are indented further than a column; within brackets indentation does not
count. -/
def unwind (column : Int) (l : Lexer) : Lexer := if l.inFlow then l else unwindFrom column l.outer l

def opens (l : Lexer) (column : Int) : Bool := l.indent < column

def indentTo (l : Lexer) (column : Int) : Lexer := { l with indent := column, outer := l.indent :: l.outer }

/-- Begins a block collection here, if the column begins one. -/
def openBlock (l : Lexer) (t : Token) : Lexer := if l.opens l.column then (l.indentTo l.column).push t else l

/-- Skips white space, comments and line breaks up to the next token. After a line break a key may start. -/
def skipToToken : (fuel : Nat) → Lexer → Lexer
  | 0, l => l
  | fuel + 1, l =>
    let c := l.cursor.skipBlanks.skipComment
    match c.takeBreak? with
    | some (_, c) => skipToToken fuel { l with cursor := c, keyAllowed := l.keyAllowed || !l.inFlow }
    | none => { l with cursor := c }

def take (l : Lexer) (count : Nat) (t : Token) : Lexer := { l with cursor := l.cursor.forward count }.push t

/-- The state at a place after a token. -/
def arrive (l : Lexer) (c : Cursor) (t : Token) : Lexer := { l with cursor := c }.push t

def finish (l : Lexer) : Except Fault Lexer := do
  let l ← (l.unwind (-1)).dropKey
  .ok { l.push .streamEnd with keyAllowed := false, keys := [], finished := true }

def directive (l : Lexer) : Except Fault Lexer := do
  let l ← (l.unwind (-1)).dropKey
  let (t, c) ← Property.directive l.cursor
  .ok ({ l with keyAllowed := false }.arrive c t)

def marker (t : Token) (l : Lexer) : Except Fault Lexer := do
  let l ← (l.unwind (-1)).dropKey
  .ok ({ l with keyAllowed := false }.take 3 t)

def openFlow (t : Token) (l : Lexer) : Except Fault Lexer := do
  let l ← l.noteKey
  .ok ({ l with flow := l.flow + 1, keyAllowed := true }.take 1 t)

def closeFlow (t : Token) (l : Lexer) : Except Fault Lexer := do
  let l ← l.dropKey
  .ok ({ l with flow := l.flow - 1, keyAllowed := false }.take 1 t)

def flowEntry (l : Lexer) : Except Fault Lexer := do
  let l ← l.dropKey
  .ok ({ l with keyAllowed := true }.take 1 .flowEntry)

/-- A mark that begins a block collection of a kind where none is open; outside of brackets it may only stand
where a key may start. -/
def beginBlock (t : Token) (l : Lexer) : Except Fault Lexer :=
  if l.inFlow then .ok l
  else if l.keyAllowed then .ok (l.openBlock t)
  else .error (.refused .tokens)

def blockEntry (l : Lexer) : Except Fault Lexer := do
  let l ← (← l.beginBlock .blockSequenceStart).dropKey
  .ok ({ l with keyAllowed := true }.take 1 .blockEntry)

def explicitKey (l : Lexer) : Except Fault Lexer := do
  let l ← (← l.beginBlock .blockMappingStart).dropKey
  .ok ({ l with keyAllowed := !l.inFlow }.take 1 .key)

/-- The colon of a value. If a key is pending it has become one, and begins a mapping if it is indented
further than the collection around it. -/
def value (l : Lexer) : Except Fault Lexer :=
  match l.key? with
  | some k =>
    let l := l.forgetKey.insert k.token .key
    let l :=
      if !l.inFlow && l.opens k.column then (l.indentTo k.column).insert k.token .blockMappingStart else l
    .ok ({ l with keyAllowed := false }.take 1 .value)
  | none => do
    let l ← (← l.beginBlock .blockMappingStart).dropKey
    .ok ({ l with keyAllowed := !l.inFlow }.take 1 .value)

/-- Something that a key may start with; after it none may start. -/
def word (read : Cursor → Except Fault (Token × Cursor)) (l : Lexer) : Except Fault Lexer := do
  let l ← l.noteKey
  let (t, c) ← read l.cursor
  .ok ({ l with keyAllowed := false }.arrive c t)

def named (t : String → Token) : Lexer → Except Fault Lexer :=
  word fun c => (Property.name c.step).map fun (name, c) => (t name, c)

def quoted (double : Bool) : Lexer → Except Fault Lexer :=
  word fun c => (Quoted.scalar double c).map fun (text, c) => (.scalar text false, c)

def block (isFolded : Bool) (l : Lexer) : Except Fault Lexer := do
  let l ← l.dropKey
  let (text, c) ← Block.scalar isFolded l.indent l.cursor
  .ok ({ l with keyAllowed := true }.arrive c (.scalar text false))

/-- A plain scalar. If a line ends after it, a key may start. -/
def plain (l : Lexer) : Except Fault Lexer := do
  let l ← l.noteKey
  let r := Plain.scalar l.inFlow (l.indent + 1) l.cursor
  .ok ({ l with keyAllowed := r.broken }.arrive r.after (.scalar (String.ofList r.text) true))

/-- The token that starts at the place. -/
def token (l : Lexer) : Except Fault Lexer :=
  let c := l.cursor
  -- inside of brackets a mark needs no white space behind it
  let marked := l.inFlow || endsWord c.peekNext
  match c.peek with
  | none => l.finish
  | some ch =>
    if ch == '%' && c.column == 0 then l.directive
    else if c.column == 0 && c.atTriple '-' then l.marker .documentStart
    else if c.column == 0 && c.atTriple '.' then l.marker .documentEnd
    else if ch == '[' then l.openFlow .flowSequenceStart
    else if ch == '\x7b' then l.openFlow .flowMappingStart
    else if ch == ']' then l.closeFlow .flowSequenceEnd
    else if ch == '\x7d' then l.closeFlow .flowMappingEnd
    else if ch == ',' then l.flowEntry
    else if ch == '-' && endsWord c.peekNext then l.blockEntry
    else if ch == '?' && marked then l.explicitKey
    else if ch == ':' && marked then l.value
    else if ch == '*' then l.named .alias
    else if ch == '&' then l.named .anchor
    else if ch == '!' then l.word Property.tag
    else if ch == '|' && !l.inFlow then l.block false
    else if ch == '>' && !l.inFlow then l.block true
    else if ch == '\'' then l.quoted false
    else if ch == '"' then l.quoted true
    else if Plain.starts l.inFlow c then l.plain
    else .error (.refused .tokens)

/-- Reads one more token, with the ends of the collections that are over before it. -/
def next (l : Lexer) : Except Fault Lexer := do
  let l ← (l.skipToToken (l.cursor.rest.length + 1)).dropStale
  let l ← (l.unwind l.column).token
  l.dropStale

/-- The tokens that are decided: those before every pending key. -/
def decided (l : Lexer) : List Token :=
  l.reversed.reverse.take ((l.keys.map (·.2.token)).foldl min l.reversed.length)

end Lexer

/-- The tokens of a text, and why no more of them can be read; a text that can be read ends with the mark of
its end. -/
structure Tokens where
  tokens : List Token
  fault : Fault

namespace Tokens

/-- The tokens from a state of reading on. -/
def ofLexer : (fuel : Nat) → Lexer → Tokens
  | 0, l => ⟨l.decided, .refused .tokens⟩
  | fuel + 1, l =>
    if l.finished then ⟨l.decided, .refused .tokens⟩
    else
      match l.next with
      | .ok l => ofLexer fuel l
      | .error f => ⟨l.decided, f⟩

def ofText (text : List Char) : Tokens := ofLexer (text.length + 2) (.start text)

end Tokens

end Tablewright.Yaml
