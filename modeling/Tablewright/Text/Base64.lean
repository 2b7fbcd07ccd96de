import Tablewright.Number.Numeral

/-!
# Base 64

Octets written with sixty-four characters, three octets in four characters.

* `Base64.decode?`: the octets of a text. Characters without a meaning are skipped, and padding where it
  completes a group ends the text.
-/

namespace Tablewright.Text.Base64

/-- The six bits that a character stands for. -/
def sextet? (c : Char) : Option Nat :=
  if 'A' ≤ c ∧ c ≤ 'Z' then some (c.toNat - 'A'.toNat)
  else if 'a' ≤ c ∧ c ≤ 'z' then some (c.toNat - 'a'.toNat + 26)
  else if c.isDigit then some (c.toNat - '0'.toNat + 52)
  else if c == '+' then some 62
  else if c == '/' then some 63
  else none

/-- The octets of a text after `count` characters of a group, the last one of which left over the bits
`carry`, and `pads` characters of padding. -/
def decodeFrom (count carry pads : Nat) : List Char → Option (List UInt8)
  | [] => if count = 0 then some [] else none
  | c :: rest =>
    if c == '=' then
      -- enough padding ends the text, whatever comes after it
      if 2 ≤ count ∧ 4 ≤ count + pads + 1 then some []
      else decodeFrom count carry (if 2 ≤ count then pads + 1 else pads) rest
    else
      match sextet? c with
      -- characters of no meaning are skipped
      | none => decodeFrom count carry pads rest
      | some bits =>
        let octet (n : Nat) (more : Option (List UInt8)) := more.map (UInt8.ofNat n :: ·)
        if count = 0 then decodeFrom 1 bits 0 rest
        else if count = 1 then octet (carry * 4 + bits / 16) (decodeFrom 2 (bits % 16) 0 rest)
        else if count = 2 then octet (carry * 16 + bits / 4) (decodeFrom 3 (bits % 4) 0 rest)
        else octet (carry * 64 + bits) (decodeFrom 0 0 0 rest)

/-- The octets of a text, unless its last group is incomplete. -/
def decode? (cs : List Char) : Option (List UInt8) := decodeFrom 0 0 0 cs

end Tablewright.Text.Base64
