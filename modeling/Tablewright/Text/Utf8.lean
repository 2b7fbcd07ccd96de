import Tablewright.Text.Quoted

/-!
# UTF-8

Reading octets as text.

* `Utf8.Fault`: which octets are no text, and why.
* `Utf8.decode`, `Utf8.decodeInBlocks`: the characters of octets.
* `unifyLines`: line ends of any kind as line feeds.
-/

namespace Tablewright.Text

namespace Utf8

/-- Why octets are no text. -/
inductive Reason where
  | start
  | continuation
  | incomplete
  deriving DecidableEq, Repr

def Reason.words : Reason → String
  | start => "invalid start byte"
  | continuation => "invalid continuation byte"
  | incomplete => "unexpected end of data"

/-- Octets that are no text: the first of them, where they start, their number, and the reason. -/
structure Fault where
  octet : UInt8
  start : Nat
  count : Nat
  reason : Reason
  deriving DecidableEq, Repr

/-- What is wrong with octets. -/
def Fault.message (f : Fault) : String :=
  let place :=
    if f.count = 1 then
      s!"byte 0x{String.ofList (Text.hex 2 f.octet.toNat)} in position {f.start}"
    else s!"bytes in position {f.start}-{f.start + f.count - 1}"
  s!"'utf-8' codec can't decode {place}: {f.reason.words}"

/-- Whether an octet goes on with a character. -/
def isContinuation (b : UInt8) : Bool := 0x80 ≤ b && b ≤ 0xBF

/-- Whether an octet can follow the first octet of a longer character: surrogates, overlong forms and codes
beyond the last plane have no text. -/
def isSecond (first second : UInt8) : Bool :=
  isContinuation second
    && !(first == 0xE0 && second < 0xA0) && !(first == 0xED && 0xA0 ≤ second)
    && !(first == 0xF0 && second < 0x90) && !(first == 0xF4 && 0x90 ≤ second)

/-- The number of octets of a character that starts with an octet. -/
def length? (first : UInt8) : Option Nat :=
  if first < 0x80 then some 1
  else if first < 0xC2 then none
  else if first < 0xE0 then some 2
  else if first < 0xF0 then some 3
  else if first < 0xF5 then some 4
  else none

/-- The bits that an octet adds to a code. -/
def payload (b : UInt8) : Nat := b.toNat % 64

/-- The bits of a code in the first octet of a character of a given number of octets. -/
def leadBits (b : UInt8) : Nat → Nat
  | 2 => b.toNat % 32
  | 3 => b.toNat % 16
  | _ => b.toNat % 8

/-- How many of the octets after the first one belong to a character of `size` octets. -/
def accepted (first : UInt8) (size : Nat) : List UInt8 → Nat
  | [] => 0
  | second :: rest =>
    if isSecond first second then 1 + ((rest.take (size - 2)).takeWhile isContinuation).length else 0

/-- The characters of octets that start at a position. The fuel bounds the number of characters. -/
def decodeFrom : (fuel position : Nat) → List UInt8 → Except Fault (List Char)
  | 0, _, _ => .ok []
  | _ + 1, _, [] => .ok []
  | fuel + 1, position, first :: rest =>
    match length? first with
    | none => .error ⟨first, position, 1, .start⟩
    | some 1 => (decodeFrom fuel (position + 1) rest).map (Char.ofNat first.toNat :: ·)
    | some size =>
      let found := accepted first size rest
      -- all octets of the character are there
      if found + 1 = size then
        let code := (rest.take found).foldl (fun n b => n * 64 + payload b) (leadBits first size)
        (decodeFrom fuel (position + size) (rest.drop found)).map (Char.ofNat code :: ·)
      -- the text ends inside of the character, or goes on with something else
      else if rest.length = found then .error ⟨first, position, found + 1, .incomplete⟩
      else .error ⟨first, position, found + 1, .continuation⟩

/-- The text of octets. -/
def decode (octets : List UInt8) : Except Fault (List Char) := decodeFrom (octets.length + 1) 0 octets

/-- The text of octets that arrive in blocks, after octets of an incomplete character. A fault is placed within
its block, in front of which these octets count. -/
def decodeBlocks (size : Nat) : (fuel : Nat) → (before : List UInt8) → List UInt8 → Except Fault (List Char)
  | 0, before, _ => decode before
  | fuel + 1, before, octets =>
    let block := octets.take size
    let here := before ++ block
    match decode here with
    | .ok cs => if block.isEmpty then .ok cs else (decodeBlocks size fuel [] (octets.drop size)).map (cs ++ ·)
    | .error fault =>
      if fault.reason = .incomplete ∧ ¬ block.isEmpty then do
        let cs ← decode (here.take fault.start)
        (decodeBlocks size fuel (here.drop fault.start) (octets.drop size)).map (cs ++ ·)
      else .error fault

/-- The text of octets that arrive in blocks of a size, with an empty block at the end. -/
def decodeInBlocks (size : Nat) (octets : List UInt8) : Except Fault (List Char) :=
  decodeBlocks size (octets.length + 2) [] octets

end Utf8

/-- A text in which every line end is a line feed: a carriage return counts as one, alone or before a line
feed. -/
def unifyLines : List Char → List Char
  | '\r' :: '\n' :: rest => '\n' :: unifyLines rest
  | '\r' :: rest => '\n' :: unifyLines rest
  | c :: rest => c :: unifyLines rest
  | [] => []

end Tablewright.Text
