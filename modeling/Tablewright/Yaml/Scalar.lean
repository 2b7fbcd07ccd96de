import Tablewright.Text.Base64
import Tablewright.Text.Case
import Tablewright.Yaml.Fault
import Tablewright.Yaml.Tag

/-!
# Scalars of YAML

The values of scalars by their tags.

* `integerOf`, `numberOf`, `truthOf`, `timestampOf`, `binaryOf`: the values of the single tags.
* `scalarValue?`: the value of a scalar of any tag that has scalars.
-/

namespace Tablewright.Yaml

open Document (ScalarFault)

/-- A text without white space at either end. -/
def trimmed (cs : List Char) : List Char := Text.dropTrailing Text.isWhiteSpace (cs.dropWhile Text.isWhiteSpace)

/-- The letter that may stand after a zero before the digits of a base. -/
def baseLetter? : Nat → Option Char
  | 2 => some 'b'
  | 8 => some 'o'
  | 16 => some 'x'
  | _ => none

/-- The digits of a numeral without the mark of its base. -/
def withoutBase (base : Nat) : List Char → List Char
  | '0' :: c :: rest => if baseLetter? base == some c.toLower then rest else '0' :: c :: rest
  | cs => cs

def isDigitIn (base : Nat) (c : Char) : Bool := (Number.digit? c).any (· < base)

/-- The integer of a numeral in a base. Only numerals in other bases than powers of two have a greatest
length. -/
def numeralIn (base : Nat) (cs : List Char) : Except ScalarFault Int :=
  let body := trimmed cs
  let digits := withoutBase base (withoutSign body)
  let run := digits.takeWhile (isDigitIn base)
  if base == 10 && Document.maxDigits < run.length then .error (.longNumeral run.length)
  else if digits.isEmpty || run.length < digits.length then .error (.notInteger base (String.ofList cs))
  else .ok (if body.head? == some '-' then -(Number.natOf base digits : Int) else Number.natOf base digits)

/-- A numeral without underscores: whether it starts with a minus sign, and what stands after a sign. -/
def signedPart (cs : List Char) : Except ScalarFault (Bool × List Char) :=
  let plain := cs.filter (· != '_')
  if plain.isEmpty then .error .emptyNumeral
  else .ok (plain.head? == some '-', withoutSign plain)

/-- The integer of a numeral without a sign: binary, hexadecimal, octal, in base sixty, or decimal. -/
def unsignedInteger : List Char → Except ScalarFault Int
  | ['0'] => .ok 0
  | '0' :: 'b' :: rest => numeralIn 2 rest
  | '0' :: 'x' :: rest => numeralIn 16 rest
  | [] => .error .emptyNumeral
  | c :: rest =>
    if c == '0' then numeralIn 8 (c :: rest)
    else if (c :: rest).contains ':' then do
      let parts ← (Text.splitAtChar ':' (c :: rest)).mapM (numeralIn 10)
      .ok (parts.foldl (fun n part => n * 60 + part) 0)
    else numeralIn 10 (c :: rest)

def integerOf (cs : List Char) : Except ScalarFault Value := do
  let (negative, rest) ← signedPart cs
  let n ← unsignedInteger rest
  .ok (.int (if negative then -n else n))

/-- The double of a numeral. -/
def decimalOf (cs : List Char) : Except ScalarFault Float :=
  match Number.decimal? (trimmed cs) with
  | some x => .ok x
  | none => .error (.notNumber (String.ofList cs))

/-- The sum of parts in base sixty, the last part first. -/
def sexagesimalSum : (base : Float) → List Float → Float → Float
  | _, [], sum => sum
  | base, x :: rest, sum => sexagesimalSum (base * 60.0) rest (sum + x * base)

/-- The double of a numeral without a sign or of a word for a special value. -/
def unsignedNumber (cs : List Char) : Except ScalarFault Float :=
  if cs == ".inf".toList then .ok (1.0 / 0.0)
  else if cs == ".nan".toList then .ok (0.0 / 0.0)
  else if cs.contains ':' then do
    let parts ← (Text.splitAtChar ':' cs).mapM decimalOf
    .ok (sexagesimalSum 1.0 parts.reverse 0.0)
  else decimalOf cs

def numberOf (cs : List Char) : Except ScalarFault Value := do
  let (negative, rest) ← signedPart (Text.lower cs)
  let x ← unsignedNumber rest
  .ok (.float (if negative then -x else x))

def truthValues : List (String × Bool) :=
  [("yes", true), ("no", false), ("true", true), ("false", false), ("on", true), ("off", false)]

/-- The truth value of a word, whatever the case of its letters. -/
def truthOf (cs : List Char) : Except ScalarFault Value :=
  let word := String.ofList (Text.lower cs)
  match truthValues.lookup word with
  | some b => .ok (.bool b)
  | none => .error (.notTruth word)

def timestampOf (cs : List Char) : Except ScalarFault Value :=
  match Timestamp.ofChars? cs with
  | some t => t.value
  | none => .error .notTime

/-- The octets of a text. -/
def binaryOf (cs : List Char) : Except Fault Value :=
  match if cs.all (·.toNat < 128) then Text.Base64.decode? cs else none with
  | some octets => .ok (.bytes octets)
  | none => .error (.refused .construction)

/-- A value, or the fault of a scalar. -/
def ofScalar (x : Except ScalarFault Value) : Except Fault Value :=
  match x with
  | .ok v => .ok v
  | .error f => .error (.scalar f)

/-- The value of a scalar, if its tag is one for scalars. -/
def scalarValue? (tag : Tag) (text : String) : Option (Except Fault Value) :=
  match tag with
  | .null => some (.ok .null)
  | .truth => some (ofScalar (truthOf text.toList))
  | .integer => some (ofScalar (integerOf text.toList))
  | .number => some (ofScalar (numberOf text.toList))
  | .binary => some (binaryOf text.toList)
  | .timestamp => some (ofScalar (timestampOf text.toList))
  | .text => some (.ok (.text text))
  | _ => none

end Tablewright.Yaml
