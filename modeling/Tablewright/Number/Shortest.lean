import Tablewright.Number.Binary

/-!
# The shortest decimal that reads back

A double is written with the fewest significant digits whose decimal value rounds to it again, and
of those with the digits nearest to it.

* `Shortest.digits`: those digits and the place of the decimal point.
* `FloatFormat`: where positional notation ends and how exponents, infinities and not-a-number look.
* `FloatFormat.render`: the text of a double in a format.
-/

namespace Tablewright.Number

namespace Shortest

/-- A rounding interval: `low ≤ value ≤ high`, all three multiples of `1 / den`; the ends belong to
it iff `closed`. -/
structure Interval where
  low : Nat
  value : Nat
  high : Nat
  den : Nat
  closed : Bool

/-- The reals that round to a positive double. The gap below a power of two is half as wide. -/
def intervalOf (b : Binary) : Interval :=
  let below := if b.mantissa == Binary.hiddenBit && b.exponent > Binary.minExponent then 1 else 2
  let shift := b.exponent - 2
  let scaleUp := Nat.pow 2 shift.toNat
  { low := (4 * b.mantissa - below) * scaleUp
    value := 4 * b.mantissa * scaleUp
    high := (4 * b.mantissa + 2) * scaleUp
    den := Nat.pow 2 (-shift).toNat
    closed := b.mantissa % 2 == 0 }

/-- Whether `n · 10^place` lies in the interval. -/
def Interval.holds (i : Interval) (place : Int) (n : Nat) : Bool :=
  let point := n * Nat.pow 10 place.toNat * i.den
  let scale := Nat.pow 10 (-place).toNat
  if i.closed then i.low * scale ≤ point && point ≤ i.high * scale
  else i.low * scale < point && point < i.high * scale

/-- The grid point nearest to the value among those neighbours that lie in the interval; a tie goes to
the even one. -/
def Interval.nearest? (i : Interval) (place : Int) : Option Nat :=
  let num := i.value * Nat.pow 10 (-place).toNat
  let den := i.den * Nat.pow 10 place.toNat
  let below := num / den
  let above := below + 1
  let gap := 2 * (num % den)
  let preferBelow := gap < den || (gap == den && below % 2 == 0)
  match i.holds place below, i.holds place above with
  | true, true => some (if preferBelow then below else above)
  | true, false => some below
  | false, true => some above
  | false, false => none

/-- A bound on the number of digits before the point, zero or negative for small values, and at most one
too large: the search may start on a grid that is too coarse, never on one that is too fine. -/
def magnitude (i : Interval) : Int :=
  if i.den ≤ i.value then ((Nat.toDigits 10 (i.value / i.den)).length : Int)
  else 2 - ((Nat.toDigits 10 (i.den / i.value)).length : Int)

/-- Tries one digit more until a grid point lies in the interval. -/
def search (i : Interval) (magnitude : Int) : (fuel count : Nat) → Nat × Int
  | 0, count => (i.value * Nat.pow 10 (count : Int).toNat / i.den, -(count : Int))
  | fuel + 1, count =>
    let place := magnitude - (count : Int)
    match i.nearest? place with
    | some n => (n, place)
    | none => search i magnitude fuel (count + 1)

/-- Removes the zeros at the end of a numeral, counting them into the place. -/
def trim : (fuel n : Nat) → Int → Nat × Int
  | 0, n, place => (n, place)
  | fuel + 1, n, place => if n % 10 == 0 && n != 0 then trim fuel (n / 10) (place + 1) else (n, place)

/-- The digits of the shortest decimal that reads back as a positive double, and the number of them that
stand before the decimal point. -/
def digits (b : Binary) : List Char × Int :=
  let i := intervalOf b
  let (n, place) := search i (magnitude i) 18 1
  let (n, place) := trim 20 n place
  let text := Nat.toDigits 10 n
  (text, (text.length : Int) + place)

end Shortest

/-- How a double is written. -/
structure FloatFormat where
  /-- Positional notation is used while the point stands after more than this many digits … -/
  minPoint : Int
  /-- … and after at most this many. -/
  maxPoint : Int
  /-- The least number of digits of an exponent. -/
  exponentDigits : Nat
  infinity : String
  notANumber : String

namespace FloatFormat

/-- Positional from `0.0001` up to sixteen digits before the point; exponents have a sign and two
digits. -/
def standard : FloatFormat :=
  { minPoint := -4, maxPoint := 16, exponentDigits := 2, infinity := "inf", notANumber := "nan" }

/-- The digits with the point after `point` of them; a whole number keeps one zero after it. -/
def positional (digits : List Char) (point : Int) : List Char :=
  if point ≤ 0 then '0' :: '.' :: (List.replicate (-point).toNat '0' ++ digits)
  else
    let before := digits.take point.toNat
    let after := digits.drop point.toNat
    before ++ List.replicate (point.toNat - digits.length) '0' ++ '.' :: (if after.isEmpty then ['0'] else after)

/-- The digits with the point after the first one, and the exponent. -/
def scientific (fmt : FloatFormat) (digits : List Char) (point : Int) : List Char :=
  let exponent := point - 1
  let size := Nat.toDigits 10 exponent.natAbs
  digits.take 1 ++ (if digits.length ≤ 1 then [] else '.' :: digits.drop 1)
    ++ 'e' :: (if exponent < 0 then '-' else '+')
    :: (List.replicate (fmt.exponentDigits - size.length) '0' ++ size)

/-- The text of a double. -/
def render (fmt : FloatFormat) (x : Float) : String :=
  match Binary.ofFloat? x with
  | none => if x.isNaN then fmt.notANumber else if x < 0.0 then "-" ++ fmt.infinity else fmt.infinity
  | some b =>
    let sign := if b.negative then ['-'] else []
    if b.mantissa == 0 then String.ofList (sign ++ ['0', '.', '0'])
    else
      let (digits, point) := Shortest.digits b
      String.ofList (sign ++
        (if fmt.minPoint < point && point ≤ fmt.maxPoint then positional digits point
         else fmt.scientific digits point))

end FloatFormat

end Tablewright.Number
