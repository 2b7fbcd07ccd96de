import Tablewright.Document.ScalarFault
import Tablewright.Number.Numeral
import Tablewright.Value

/-!
# JSON documents

Reading JSON, with the place and the kind of the first fault.

* `Json.Problem`, `Json.Fault`: what can be wrong, and where.
* `Json.value`: the value at the front of a text; the fuel bounds the number of steps.
* `Json.parse`: the value of a whole document.

A later entry of an object replaces an earlier one of the same name. The words `NaN`, `Infinity` and
`-Infinity` stand for the doubles of these names.
-/

namespace Tablewright.Json

/-- What is wrong at a place of a document. -/
inductive Problem where
  | byteOrderMark
  | expectingValue
  | extraData
  | expectingName
  | expectingColon
  | expectingComma
  | unterminatedText
  | controlCharacter
  | badEscape
  | badCodeEscape
  deriving DecidableEq, Repr

/-- The words for what is wrong. -/
def Problem.words : Problem → String
  | byteOrderMark => "Unexpected UTF-8 BOM (decode using utf-8-sig)"
  | expectingValue => "Expecting value"
  | extraData => "Extra data"
  | expectingName => "Expecting property name enclosed in double quotes"
  | expectingColon => "Expecting ':' delimiter"
  | expectingComma => "Expecting ',' delimiter"
  | unterminatedText => "Unterminated string starting at"
  | controlCharacter => "Invalid control character at"
  | badEscape => "Invalid \\escape"
  | badCodeEscape => "Invalid \\uXXXX escape"

/-- A fault of a document: a problem at an offset, or a numeral with more digits than an integer may have. -/
inductive Fault where
  | problem (what : Problem) (line column offset : Nat)
  | longNumeral (digits : Nat)
  deriving DecidableEq, Repr

def Fault.message : Fault → String
  | problem what line column offset => s!"{what.words}: line {line} column {column} (char {offset})"
  | longNumeral digits => (Document.ScalarFault.longNumeral digits).message

/-- A fault while reading: the place is given by the number of characters that are left. -/
inductive Stop where
  | problem (what : Problem) (left : Nat)
  | longNumeral (digits : Nat)

def isSpace (c : Char) : Bool := c == ' ' || c == '\t' || c == '\n' || c == '\r'

/-- The text after white space. -/
def skip (cs : List Char) : List Char := cs.dropWhile isSpace

/-- The digits at the front of a text, and the rest. -/
def digits (cs : List Char) : List Char × List Char := cs.span Char.isDigit

/-- The number of four hexadecimal digits at the front of a text that goes on after them, and the rest. -/
def fourHex? : List Char → Option (Nat × List Char)
  | a :: b :: c :: d :: e :: rest => do
    let n := (((← Number.digit? a) * 16 + (← Number.digit? b)) * 16 + (← Number.digit? c)) * 16 + (← Number.digit? d)
    some (n, e :: rest)
  | _ => none

/-- The character of a simple escape. -/
def simpleEscape? (c : Char) : Option Char :=
  if c == '"' || c == '\\' || c == '/' then some c
  else if c == 'b' then some '\x08'
  else if c == 'f' then some '\x0c'
  else if c == 'n' then some '\n'
  else if c == 'r' then some '\r'
  else if c == 't' then some '\t'
  else none

/-- The character of a code unit; half of a surrogate pair on its own is replaced. -/
def unitChar (code : Nat) : Char :=
  if 0xD800 ≤ code ∧ code < 0xE000 then '\ufffd' else Char.ofNat code

/-- The second half of a surrogate pair at the front of a text: `none` if there is no escape, an error if
its digits are wrong. -/
def lowHalf? : List Char → Except Stop (Option (Nat × List Char))
  | '\\' :: 'u' :: rest =>
    if rest.length < 5 then .ok none
    else match fourHex? rest with
      | some (code, rest) => .ok (if 0xDC00 ≤ code ∧ code < 0xE000 then some (code, rest) else none)
      | none => .error (.problem .badCodeEscape (rest.length + 1))
  | _ => .ok none

/-- The rest of a text after its opening quote, where `start` is what was left: the characters up to the
closing quote, and what comes after it. -/
def text (start : List Char) : (fuel : Nat) → List Char → Except Stop (List Char × List Char)
  | 0, _ => .error (.problem .unterminatedText (start.length + 1))
  | _ + 1, [] => .error (.problem .unterminatedText (start.length + 1))
  | _ + 1, '"' :: rest => .ok ([], rest)
  | _ + 1, ['\\'] => .error (.problem .unterminatedText (start.length + 1))
  | fuel + 1, '\\' :: 'u' :: rest =>
    match fourHex? rest with
    | none => .error (.problem .badCodeEscape (rest.length + 1))
    | some (code, rest) => do
      -- a high half may be followed by a low one; alone it stands for itself
      let pair ← if 0xD800 ≤ code ∧ code < 0xDC00 then lowHalf? rest else .ok none
      let (c, rest) := match pair with
        | some (low, rest) => (Char.ofNat (0x10000 + (code - 0xD800) * 0x400 + (low - 0xDC00)), rest)
        | none => (unitChar code, rest)
      let (cs, rest) ← text start fuel rest
      .ok (c :: cs, rest)
  | fuel + 1, '\\' :: e :: rest =>
    match simpleEscape? e with
    | none => .error (.problem .badEscape (rest.length + 2))
    | some c => do
      let (cs, rest) ← text start fuel rest
      .ok (c :: cs, rest)
  | fuel + 1, c :: rest =>
    -- control characters have to be escaped
    if c.toNat ≤ 0x1f then .error (.problem .controlCharacter (rest.length + 1))
    else do
      let (cs, rest) ← text start fuel rest
      .ok (c :: cs, rest)

/-- The text of a quoted name or value, after its opening quote. -/
def quoted (fuel : Nat) (rest : List Char) : Except Stop (String × List Char) := do
  let (cs, rest) ← text rest fuel rest
  .ok (String.ofList cs, rest)

/-- The digits of a fraction, if there is one with at least one digit. -/
def fraction? : List Char → Option (List Char × List Char)
  | '.' :: rest => match digits rest with
    | ([], _) => none
    | found => some found
  | _ => none

/-- The exponent after its letter and sign, if it has at least one digit. -/
def exponent? : List Char → Option (Int × List Char)
  | e :: rest =>
    if e == 'e' || e == 'E' then
      let (sign, rest) := match rest with
        | '+' :: rest => ((1 : Int), rest)
        | '-' :: rest => (-1, rest)
        | rest => (1, rest)
      match digits rest with
      | ([], _) => none
      | (ds, rest) => some (sign * (Number.decimalOf ds : Int), rest)
    else none
  | [] => none

/-- A double with its sign. -/
def signed (negative : Bool) (x : Float) : Float := if negative then -x else x

/-- The number that starts with the given whole digits. -/
def numberFrom (negative : Bool) (whole rest : List Char) : Except Stop (Value × List Char) :=
  let (places, rest) := (fraction? rest).getD ([], rest)
  match places, exponent? rest with
  | [], none =>
    if Document.maxDigits < whole.length then .error (.longNumeral whole.length)
    else .ok (.int (if negative then -(Number.decimalOf whole : Int) else Number.decimalOf whole), rest)
  | places, exponent =>
    let (power, rest) := exponent.getD (0, rest)
    .ok (.float (signed negative
      (Number.ofDecimal (Number.decimalOf (whole ++ places)) (power - places.length))), rest)

/-- The number at the front of a text, if there is one. -/
def number? (cs : List Char) : Option (Except Stop (Value × List Char)) :=
  let (negative, rest) := match cs with
    | '-' :: rest => (true, rest)
    | _ => (false, cs)
  match rest with
  | '0' :: rest => some (numberFrom negative ['0'] rest)
  | c :: _ =>
    if c.isDigit then
      let (whole, rest) := digits rest
      some (numberFrom negative whole rest)
    else none
  | [] => none

def wordValues : List (List Char × Value) :=
  [("null".toList, .null), ("true".toList, .bool true), ("false".toList, .bool false),
   ("NaN".toList, .float (0.0 / 0.0)), ("Infinity".toList, .float (1.0 / 0.0)),
   ("-Infinity".toList, .float (-1.0 / 0.0))]

/-- The value of a word at the front of a text. -/
def word? (cs : List Char) : Option (Value × List Char) :=
  (wordValues.find? fun entry => entry.1.isPrefixOf cs).map fun entry =>
    (entry.2, cs.drop entry.1.length)

mutual

/-- The value at the front of a text, and the rest. -/
def value : (fuel : Nat) → List Char → Except Stop (Value × List Char)
  | 0, cs => .error (.problem .expectingValue cs.length)
  | fuel + 1, cs =>
    match cs with
    | '"' :: rest => do
      let (s, rest) ← quoted fuel rest
      .ok (.text s, rest)
    | '\x7b' :: rest =>
      match skip rest with
      | '\x7d' :: rest => .ok (.dict [], rest)
      | rest => do
        let (entries, rest) ← entries fuel [] rest
        .ok (.dict entries, rest)
    | '[' :: rest =>
      match skip rest with
      | ']' :: rest => .ok (.list [], rest)
      | rest => do
        let (items, rest) ← items fuel rest
        .ok (.list items, rest)
    -- words come before numbers, since `NaN` and the infinities are words
    | cs =>
      match word? cs with
      | some found => .ok found
      | none => (number? cs).getD (.error (.problem .expectingValue cs.length))

/-- The entries of an object after those read so far, up to its closing brace. -/
def entries : (fuel : Nat) → List (Value × Value) → List Char →
    Except Stop (List (Value × Value) × List Char)
  | 0, _, cs => .error (.problem .expectingName cs.length)
  | fuel + 1, before, cs =>
    match cs with
    | '"' :: rest => do
      let (name, rest) ← quoted fuel rest
      match skip rest with
      | ':' :: rest => do
        let (v, rest) ← value fuel (skip rest)
        let now := Value.put before (.text name) v
        match skip rest with
        | '\x7d' :: rest => .ok (now, rest)
        | ',' :: rest => entries fuel now (skip rest)
        | rest => .error (.problem .expectingComma rest.length)
      | rest => .error (.problem .expectingColon rest.length)
    | cs => .error (.problem .expectingName cs.length)

/-- The members of an array up to its closing bracket. -/
def items : (fuel : Nat) → List Char → Except Stop (List Value × List Char)
  | 0, cs => .error (.problem .expectingValue cs.length)
  | fuel + 1, cs => do
    let (v, rest) ← value fuel cs
    match skip rest with
    | ']' :: rest => .ok ([v], rest)
    | ',' :: rest => do
      let (more, rest) ← items fuel (skip rest)
      .ok (v :: more, rest)
    | rest => .error (.problem .expectingComma rest.length)

end

def locate (document : List Char) : Stop → Fault
  | .longNumeral digits => .longNumeral digits
  | .problem what left =>
    let offset := document.length - left
    let before := document.take offset
    .problem what (before.count '\n' + 1) ((before.reverse.takeWhile (· != '\n')).length + 1) offset

/-- The value of a document: nothing but white space may stand around it. Every step of reading takes at
least one character, so the length of the document bounds their number. -/
def readAll (document : List Char) : Except Stop Value :=
  match document with
  | '\ufeff' :: _ => .error (.problem .byteOrderMark document.length)
  | _ => do
    let (v, rest) ← value (document.length + 1) (skip document)
    match skip rest with
    | [] => .ok v
    | rest => .error (.problem .extraData rest.length)

def parse (document : String) : Except Fault Value :=
  match readAll document.toList with
  | .ok v => .ok v
  | .error stop => .error (locate document.toList stop)

end Tablewright.Json
