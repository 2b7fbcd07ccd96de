import Tablewright.Text.Classes

/-!
# Quoted texts

A text between quotes, with every character that has no printed form written by name or number.

* `hex`: a number in hexadecimal digits, padded to a width.
* `escape`: the escaped form of one character.
* `quote`: the text in single quotes, or in double quotes where that saves escapes.
* `quoteOctets`: the same for octets.
-/

namespace Tablewright.Text

/-- A number in lower-case hexadecimal digits, padded with zeros to a width. -/
def hex (width n : Nat) : List Char :=
  let digits := Nat.toDigits 16 n
  List.replicate (width - digits.length) '0' ++ digits

/-- The escape of a character: by name if it has one, else by its number in two, four or eight digits. -/
def escape (c : Char) : List Char :=
  if c == '\\' then ['\\', '\\']
  else if c == '\n' then ['\\', 'n']
  else if c == '\r' then ['\\', 'r']
  else if c == '\t' then ['\\', 't']
  else if c.toNat < 0x100 then '\\' :: 'x' :: hex 2 c.toNat
  else if c.toNat < 0x10000 then '\\' :: 'u' :: hex 4 c.toNat
  else '\\' :: 'U' :: hex 8 c.toNat

def escapeWithin (mark : Char) (c : Char) : List Char :=
  if c == mark then ['\\', c]
  else if c == '\\' || !isPrintable c then escape c
  else [c]

/-- Double quotes only around a text that holds single quotes and no double ones. -/
def quoteMark (cs : List Char) : Char :=
  if cs.contains '\'' && !cs.contains '"' then '"' else '\''

def quotedBody (cs : List Char) : List Char :=
  cs.flatMap (escapeWithin (quoteMark cs))

def quoteChars (cs : List Char) : List Char :=
  quoteMark cs :: (quotedBody cs ++ [quoteMark cs])

def quote (s : String) : String := String.ofList (quoteChars s.toList)

/-- Octets in quotes, marked as such; octets beyond printable ASCII are escaped. -/
def quoteOctets (octets : List UInt8) : String :=
  let cs := octets.map fun o => Char.ofNat o.toNat
  let mark := quoteMark cs
  let body := cs.flatMap fun c =>
    if c.toNat < 0x7f then escapeWithin mark c else escape c
  String.ofList ('b' :: mark :: (body ++ [mark]))

end Tablewright.Text
