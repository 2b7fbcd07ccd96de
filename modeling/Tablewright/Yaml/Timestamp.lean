import Tablewright.Calendar
import Tablewright.Document.ScalarFault
import Tablewright.Number.Numeral
import Tablewright.Value

/-!
# Days and times in YAML

* `Timestamp`: the parts of a written day or time.
* `Timestamp.ofChars?`: the parts of a text.
* `Timestamp.value`: the day or the moment, if it exists.
-/

namespace Tablewright.Yaml

/-- A written time of day: the digits of the fraction, and the offset from universal time in minutes. -/
structure Timestamp.Time where
  hour : Nat
  minute : Nat
  second : Nat
  fraction : List Char
  offset : Option Int

/-- A written day, with a time or without. -/
structure Timestamp where
  day : Date
  time : Option Timestamp.Time

namespace Timestamp

/-- A number of at least `least` and at most `most` digits, and what stands after it. -/
def digits? (least most : Nat) (cs : List Char) : Option (Nat × List Char) :=
  let run := (cs.take most).takeWhile Char.isDigit
  if run.length < least then none else some (Number.decimalOf run, cs.drop run.length)

/-- What stands after a character. -/
def after? (mark : Char) : List Char → Option (List Char)
  | [] => none
  | c :: rest => if c == mark then some rest else none

/-- A text without spaces and tabs at its start. -/
def skipBlanks (cs : List Char) : List Char := cs.dropWhile fun c => c == ' ' || c == '\t'

/-- The minutes of a signed offset. -/
def signed? (cs : List Char) : Option Int := do
  let (hours, rest) ← digits? 1 2 cs
  let minutes ← match rest with
    | [] => some 0
    | rest => match digits? 2 2 (← after? ':' rest) with
      | some (n, []) => some n
      | _ => none
  some ((hours * 60 + minutes : Nat) : Int)

/-- An offset that ends the text: none, universal time, or hours and minutes with a sign. -/
def offset? (cs : List Char) : Option (Option Int) :=
  match cs with
  | [] => some none
  | cs =>
    match skipBlanks cs with
    | ['Z'] => some (some 0)
    | '+' :: rest => (signed? rest).map some
    | '-' :: rest => (signed? rest).map fun minutes => some (-minutes)
    | _ => none

/-- A time up to the end of the text. -/
def time? (cs : List Char) : Option Time := do
  let (hour, rest) ← digits? 1 2 cs
  let (minute, rest) ← digits? 2 2 (← after? ':' rest)
  let (second, rest) ← digits? 2 2 (← after? ':' rest)
  let (fraction, rest) := match rest with
    | '.' :: rest => rest.span Char.isDigit
    | rest => ([], rest)
  some ⟨hour, minute, second, fraction, ← offset? rest⟩

/-- What stands after the mark or the spaces between a day and a time. -/
def timePart? : List Char → Option (List Char)
  | 'T' :: rest => some rest
  | 't' :: rest => some rest
  | ' ' :: rest => some (skipBlanks rest)
  | '\t' :: rest => some (skipBlanks rest)
  | _ => none

/-- The parts of a written day or time. -/
def ofChars? (cs : List Char) : Option Timestamp := do
  let (year, rest) ← digits? 4 4 cs
  let (month, rest) ← digits? 1 2 (← after? '-' rest)
  let (day, rest) ← digits? 1 2 (← after? '-' rest)
  match rest with
  | [] => some ⟨⟨year, month, day⟩, none⟩
  | rest => some ⟨⟨year, month, day⟩, some (← time? (← timePart? rest))⟩

/-- The millionths of a second that the digits of a fraction stand for; more than six of them are cut off. -/
def microseconds (fraction : List Char) : Nat :=
  Number.decimalOf (fraction.take 6 ++ List.replicate (6 - fraction.length) '0')

/-- The words for an offset of a day or more. -/
def offsetFault (seconds : Int) : String :=
  "offset must be a timedelta strictly between -timedelta(hours=24) and timedelta(hours=24), not "
    ++ s!"{Moment.durationConstruction seconds}."

/-- The day or the moment. -/
def value (t : Timestamp) : Except Document.ScalarFault Value :=
  match t.time with
  | none =>
    match t.day.fault? with
    | some words => .error (.noSuchTime words)
    | none => .ok (.date t.day)
  | some time =>
    let seconds := (time.offset.getD 0) * 60
    let m : Moment :=
      ⟨t.day, time.hour, time.minute, time.second, microseconds time.fraction, time.offset.map (· * 60)⟩
    -- an offset is less than a day
    if 86400 ≤ seconds.natAbs then .error (.noSuchTime (offsetFault seconds))
    else
      match m.fault? with
      | some words => .error (.noSuchTime words)
      | none => .ok (.moment m)

end Timestamp

end Tablewright.Yaml
