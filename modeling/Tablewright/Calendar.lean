/-!
# Days and moments

Calendar days and points in time as they occur in documents, and their written forms.

* `Date`, `Date.fault?`: a day and what is wrong with one that does not exist.
* `Moment`: a day with a time and, possibly, an offset from universal time.
* `Date.iso`, `Moment.iso`: the ISO 8601 forms.
* `Date.construction`, `Moment.construction`: the expressions that build them in generated source.
-/

namespace Tablewright

/-- A number in decimal digits, padded with zeros to a width. -/
def padded (width n : Nat) : String :=
  let digits := Nat.toDigits 10 n
  String.ofList (List.replicate (width - digits.length) '0' ++ digits)

/-- A calendar day. -/
structure Date where
  year : Nat
  month : Nat
  day : Nat
  deriving DecidableEq, Repr

/-- A point in time: a day, a time of that day and possibly an offset in seconds from universal time. -/
structure Moment where
  date : Date
  hour : Nat
  minute : Nat
  second : Nat
  microsecond : Nat
  offset : Option Int
  deriving DecidableEq, Repr

namespace Date

def isLeap (year : Nat) : Bool := year % 4 == 0 && (year % 100 != 0 || year % 400 == 0)

def daysIn (year month : Nat) : Nat :=
  if month == 2 then (if isLeap year then 29 else 28)
  else if [4, 6, 9, 11].contains month then 30
  else 31

/-- What is wrong with a day that does not exist. -/
def fault? (d : Date) : Option String :=
  if d.year < 1 || 9999 < d.year then some s!"year {d.year} is out of range"
  else if d.month < 1 || 12 < d.month then some "month must be in 1..12"
  else if d.day < 1 || daysIn d.year d.month < d.day then some "day is out of range for month"
  else none

/-- The form `2024-01-31`. -/
def iso (d : Date) : String := s!"{padded 4 d.year}-{padded 2 d.month}-{padded 2 d.day}"

def construction (d : Date) : String := s!"datetime.date({d.year}, {d.month}, {d.day})"

end Date

namespace Moment

/-- What is wrong with a moment that does not exist. -/
def fault? (m : Moment) : Option String :=
  match m.date.fault? with
  | some fault => some fault
  | none =>
    if 23 < m.hour then some "hour must be in 0..23"
    else if 59 < m.minute then some "minute must be in 0..59"
    else if 59 < m.second then some "second must be in 0..59"
    else none

/-- An offset as `+hh:mm`, with seconds only where it has some. -/
def offsetText (seconds : Int) : String :=
  let size := seconds.natAbs
  let sign := if seconds < 0 then "-" else "+"
  let rest := if size % 60 == 0 then "" else s!":{padded 2 (size % 60)}"
  s!"{sign}{padded 2 (size / 3600)}:{padded 2 (size / 60 % 60)}{rest}"

/-- The written form, with the given separator between day and time. -/
def written (separator : String) (m : Moment) : String :=
  let fraction := if m.microsecond == 0 then "" else s!".{padded 6 m.microsecond}"
  let offset := (m.offset.map offsetText).getD ""
  s!"{m.date.iso}{separator}{padded 2 m.hour}:{padded 2 m.minute}:{padded 2 m.second}{fraction}{offset}"

/-- The form `2024-01-31T23:59:58.000001+01:00`. -/
def iso (m : Moment) : String := m.written "T"

/-- A duration as the expression that builds it: days are counted so that the seconds are not negative. -/
def durationConstruction (seconds : Int) : String :=
  let days := seconds.fdiv 86400
  let rest := seconds.fmod 86400
  let parts := (if days == 0 then [] else [s!"days={days}"])
    ++ (if rest == 0 then [] else [s!"seconds={rest}"])
  "datetime.timedelta(" ++ ", ".intercalate parts ++ ")"

def offsetConstruction (seconds : Int) : String :=
  if seconds == 0 then "datetime.timezone.utc" else s!"datetime.timezone({durationConstruction seconds})"

/-- The expression that builds the moment; trailing zero seconds are left out. -/
def construction (m : Moment) : String :=
  let tail :=
    if m.microsecond != 0 then s!", {m.second}, {m.microsecond}"
    else if m.second != 0 then s!", {m.second}" else ""
  let zone := (m.offset.map fun o => s!", tzinfo={offsetConstruction o}").getD ""
  s!"datetime.datetime({m.date.year}, {m.date.month}, {m.date.day}, {m.hour}, {m.minute}{tail}{zone})"

end Moment

end Tablewright
