import Tablewright.Number.Numeral
import Tablewright.Yaml.Cursor
import Tablewright.Yaml.Fault

/-!
# Quoted scalars

Scalars in single or double quotes. Line breaks in them are folded: one break becomes a space, and of more
breaks all but the first are kept. Double quotes know escapes.

* `Quoted.breaks`, `Quoted.spaces`: folded white space.
* `Quoted.escape`: what a backslash begins.
* `Quoted.scalar`: the text of a scalar, and what is left after its closing quote.
-/

namespace Tablewright.Yaml.Quoted

/-- The line breaks of empty lines; the marker of a document's start or end may not stand in a scalar. -/
def breaks : (fuel : Nat) → Cursor → Except Fault (List Char × Cursor)
  | 0, c => .ok ([], c)
  | fuel + 1, c =>
    if c.atMarker then .error (.refused .tokens)
    else
      let c := c.skip isSpace
      match c.takeBreak? with
      | none => .ok ([], c)
      | some (b, c) => (breaks fuel c).map fun (bs, c) => (b :: bs, c)

/-- The text of a line break before other ones: a line feed is a space if no other one follows, and is dropped
if one does. -/
def folded (b : Char) (others : List Char) : List Char :=
  if b != '\n' then b :: others else if others.isEmpty then [' '] else others

def spaces (c : Cursor) : Except Fault (List Char × Cursor) :=
  let (blanks, c) := c.span isSpace
  match c.takeBreak? with
  | some (b, c) => (breaks (c.rest.length + 1) c).map fun (bs, c) => (folded b bs, c)
  | none => if c.rest.isEmpty then .error (.refused .tokens) else .ok (blanks, c)

/-- The escapes of one character, with the character each stands for. -/
def nameEscapes : List (Char × Char) :=
  [('0', '\x00'), ('a', '\x07'), ('b', '\x08'), ('t', '\t'), ('\t', '\t'), ('n', '\n'), ('v', '\x0b'),
   ('f', '\x0c'), ('r', '\r'), ('e', '\x1b'), (' ', ' '), ('"', '"'), ('\\', '\\'), ('/', '/'),
   ('N', '\u0085'), ('_', '\u00a0'), ('L', '\u2028'), ('P', '\u2029')]

/-- The escapes of codes, with the number of hexadecimal digits of each. -/
def codeEscapes : List (Char × Nat) := [('x', 2), ('u', 4), ('U', 8)]

/-- The code of some hexadecimal digits at the front of a text. -/
def code? (count : Nat) (cs : List Char) : Option Nat :=
  let ds := cs.take count
  if ds.length = count ∧ ds.all (fun d => (Number.digit? d).isSome) then some (Number.natOf 16 ds) else none

/-- The second half of a surrogate pair, if its escape is at the front of a text. -/
def lowHalf? : List Char → Option Nat
  | '\\' :: 'u' :: rest => (code? 4 rest).filter fun code => 0xDC00 ≤ code && code < 0xE000
  | _ => none

/-- The character of a code, and what is left after it. The escapes of a surrogate pair make one character;
half of a pair on its own is replaced. -/
def coded (code : Nat) (c : Cursor) : Except Fault (Char × Cursor) :=
  if 0x10FFFF < code then .error (.scalar (.noSuchCharacter code))
  else if 0xD800 ≤ code ∧ code < 0xE000 then
    match lowHalf? c.rest with
    | some low =>
      if code < 0xDC00 then .ok (Char.ofNat (0x10000 + (code - 0xD800) * 0x400 + (low - 0xDC00)), c.forward 6)
      else .ok ('\ufffd', c)
    | none => .ok ('\ufffd', c)
  else .ok (Char.ofNat code, c)

/-- What a backslash begins, after the backslash: a character by name or code, or a line break that does not
count. -/
def escape (c : Cursor) : Except Fault (List Char × Cursor) :=
  match c.rest with
  | [] => .error (.refused .tokens)
  | ch :: rest =>
    match nameEscapes.lookup ch, codeEscapes.lookup ch with
    | some named, _ => .ok ([named], c.step)
    | none, some count =>
      match code? count rest with
      | some code => (coded code (c.forward (count + 1))).map fun (x, c) => ([x], c)
      | none => .error (.refused .tokens)
    | none, none =>
      if isBreak ch then breaks (rest.length + 1) c.skipBreak else .error (.refused .tokens)

/-- The text up to the next white space or the closing quote. -/
def solid (double : Bool) : (fuel : Nat) → Cursor → Except Fault (List Char × Cursor)
  | 0, c => .ok ([], c)
  | fuel + 1, c =>
    let go (text : List Char) (c : Cursor) := (solid double fuel c).map fun (more, c) => (text ++ more, c)
    match c.rest with
    | [] => .ok ([], c)
    | ch :: rest =>
      if isSpace ch || isBreak ch then .ok ([], c)
      else if double then
        if ch == '"' then .ok ([], c)
        else if ch == '\\' then
          match escape c.step with
          | .ok (text, c) => go text c
          | .error f => .error f
        else go [ch] c.step
      else if ch == '\'' then
        -- two single quotes stand for one
        if rest.head? == some '\'' then go ['\''] (c.forward 2) else .ok ([], c)
      else go [ch] c.step

/-- The text from inside a scalar to its end. -/
def body (double : Bool) : (fuel : Nat) → Cursor → Except Fault (List Char × Cursor)
  | 0, _ => .error (.refused .tokens)
  | fuel + 1, c => do
    let (text, c) ← solid double (c.rest.length + 1) c
    if c.peek == some (if double then '"' else '\'') then .ok (text, c.step)
    else
      let (blanks, c) ← spaces c
      let (more, c) ← body double fuel c
      .ok (text ++ blanks ++ more, c)

def scalar (double : Bool) (c : Cursor) : Except Fault (String × Cursor) :=
  (body double (c.rest.length + 1) c.step).map fun (cs, c) => (String.ofList cs, c)

end Tablewright.Yaml.Quoted
