import Tablewright.Number.Binary

/-!
# Numerals

Reading numbers from digits.

* `natOf`: the number of a run of digits in a base; `digit?` is the value of one digit.
* `decimal?`: the double of a decimal numeral, or of the name of a special value.
-/

namespace Tablewright.Number

/-- The value of a digit in the bases up to sixteen. -/
def digit? (c : Char) : Option Nat :=
  if c.isDigit then some (c.toNat - '0'.toNat)
  else if 'a' ≤ c ∧ c ≤ 'f' then some (c.toNat - 'a'.toNat + 10)
  else if 'A' ≤ c ∧ c ≤ 'F' then some (c.toNat - 'A'.toNat + 10)
  else none

/-- The number that digits stand for in a base; a character that is no digit counts as zero. -/
def natOf (base : Nat) (digits : List Char) : Nat := digits.foldl (fun n d => base * n + (digit? d).getD 0) 0

def decimalOf (digits : List Char) : Nat := natOf 10 digits

/-- The exponent of a numeral, from its letter on; without a letter it is zero. -/
def exponent? : List Char → Option Int
  | [] => some 0
  | e :: rest =>
    if e == 'e' || e == 'E' then
      let (sign, ds) := match rest with
        | '+' :: ds => ((1 : Int), ds)
        | '-' :: ds => (-1, ds)
        | ds => (1, ds)
      if ds.isEmpty || !ds.all Char.isDigit then none else some (sign * decimalOf ds)
    else none

/-- The double of an unsigned decimal numeral, with digits before or after the point. -/
def unsignedDecimal? (cs : List Char) : Option Float :=
  let (whole, rest) := cs.span Char.isDigit
  let (places, rest) := match rest with
    | '.' :: rest => rest.span Char.isDigit
    | rest => ([], rest)
  if whole.isEmpty && places.isEmpty then none
  else (exponent? rest).map fun power => ofDecimal (decimalOf (whole ++ places)) (power - places.length)

/-- The double of an unsigned numeral or of the name of a special value. -/
def unsignedNumber? (cs : List Char) : Option Float :=
  let word := String.ofList (cs.map Char.toLower)
  if word = "inf" ∨ word = "infinity" then some (1.0 / 0.0)
  else if word = "nan" then some (0.0 / 0.0)
  else unsignedDecimal? cs

/-- The double of a numeral with or without a sign. -/
def decimal? : List Char → Option Float
  | '-' :: rest => (unsignedNumber? rest).map (- ·)
  | '+' :: rest => unsignedNumber? rest
  | cs => unsignedNumber? cs

end Tablewright.Number
