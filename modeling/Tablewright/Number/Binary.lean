/-!
# Binary floating-point numbers as exact values

A finite double is `±m · 2^q` with natural `m` and integer `q`. Everything that has to be exact about
one (its text, whether it is whole, its integer value) is computed on `m` and `q`.

* `Binary.ofFloat?`: the exact value of a finite double.
* `wholeValue?`: the integer a double stands for, if it stands for one.
* `ofDecimal`: the double nearest to a decimal numeral, infinite or zero beyond the range.
-/

namespace Tablewright.Number

/-- The exact value `±mantissa · 2^exponent` of a finite double. -/
structure Binary where
  negative : Bool
  mantissa : Nat
  exponent : Int
  deriving DecidableEq, Repr

namespace Binary

/-- The exponent of subnormal doubles and of the smallest normal ones. -/
def minExponent : Int := -1074

/-- The mantissa of a normal double lies from here up to twice this bound. -/
def hiddenBit : Nat := 0x10000000000000

/-- The exact value of a double; infinities and not-a-number have none. -/
def ofFloat? (x : Float) : Option Binary :=
  let bits := x.toBits.toNat
  let fraction := bits % hiddenBit
  let biased := bits / hiddenBit % 2048
  let negative := bits / 0x8000000000000000 == 1
  if biased == 2047 then none
  else if biased == 0 then some ⟨negative, fraction, minExponent⟩
  else some ⟨negative, fraction + hiddenBit, (biased : Int) - 1075⟩

/-- The integer a value stands for, if it is whole. -/
def toInt? (b : Binary) : Option Int :=
  let magnitude? : Option Nat :=
    if 0 ≤ b.exponent then some (b.mantissa * Nat.pow 2 b.exponent.toNat)
    else
      let scale := Nat.pow 2 (-b.exponent).toNat
      if b.mantissa % scale == 0 then some (b.mantissa / scale) else none
  magnitude?.map fun (m : Nat) => if b.negative then -(m : Int) else (m : Int)

end Binary

/-- The integer that a double stands for; none for fractions, infinities and not-a-number. -/
def wholeValue? (x : Float) : Option Int := (Binary.ofFloat? x).bind Binary.toInt?

/-- The double nearest to `digits · 10^exponent`. Numerals far beyond the range of doubles are infinite
or zero; the bounds leave room for every numeral that is neither. -/
def ofDecimal (digits : Nat) (exponent : Int) : Float :=
  let places : Int := (Nat.toDigits 10 digits).length
  if digits == 0 then 0.0
  else if exponent + places > 400 then 1.0 / 0.0
  else if exponent + places < -400 then 0.0
  else if 0 ≤ exponent then Float.ofScientific (digits * Nat.pow 10 exponent.toNat) false 0
  else Float.ofScientific digits true (-exponent).toNat

/-- The double nearest to an integer; none when it is beyond the range of doubles. -/
def ofInt? (n : Int) : Option Float :=
  let x := ofDecimal n.natAbs 0
  if x.isInf then none else some (if n < 0 then -x else x)

end Tablewright.Number
