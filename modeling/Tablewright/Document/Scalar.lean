import Tablewright.Document.Checked
import Tablewright.Number.Numeral
import Tablewright.Text.Classes
import Tablewright.Text.Utf8

/-!
# Scalars of documents

Texts, truth values and numbers as documents may spell them: a number may stand in a text, a truth value
may be a word or a number.

* `text`, `nonEmptyText`: texts; octets count as texts if they are UTF-8.
* `truth`: truth values; `truthWord?` reads the words for them.
* `integer`: integers; `integerNumeral?` reads numerals with signs, leading zeros and single underscores.
* `number`: doubles; `numberNumeral?` reads decimal numerals and the names of special values.
-/

namespace Tablewright.Document

/-- The text of a value: a text, or octets that are UTF-8; `unreadable` is the misfit of other octets. -/
def textOf? (unreadable : Misfit) : Value → Option (Except Misfit String)
  | .text s => some (.ok s)
  | .bytes octets => some (match Text.Utf8.decode octets with
    | .ok cs => .ok (String.ofList cs)
    | .error _ => .error unreadable)
  | _ => none

def text : Reader String := fun place v =>
  match textOf? .undecodableText v with
  | some (.ok s) => .good s
  | some (.error m) => misfit place v m
  | none => misfit place v .notText

/-- A text with at least one character. -/
def nonEmptyText : Reader String := fun place v =>
  (text place v).andThen fun s => if s.isEmpty then misfit place v .emptyText else .good s

/-! ## Truth values -/

def trueWords : List String := ["1", "t", "y", "on", "yes", "true"]

def falseWords : List String := ["0", "f", "n", "no", "off", "false"]

/-- The truth value of a word, whatever the case of its letters. -/
def truthWord? (word : String) : Option Bool :=
  let word := word.map Char.toLower
  if trueWords.contains word then some true
  else if falseWords.contains word then some false
  else none

def truthNumber? (n : Int) : Option Bool :=
  if n = 0 then some false else if n = 1 then some true else none

/-! ## Integers -/

/-- A text without the white space around it. -/
def trim (cs : List Char) : List Char := Text.dropTrailing Text.isWhiteSpace (cs.dropWhile Text.isWhiteSpace)

/-- The integer of a plain numeral: a minus sign or none, and digits without leading zeros. -/
def plainInteger? (cs : List Char) : Option Int :=
  let (negative, ds) := match cs with
    | '-' :: rest => (true, rest)
    | cs => (false, cs)
  if ds.isEmpty || !ds.all Char.isDigit || (ds.length ≠ 1 && ds.head? == some '0') then none
  else some (if negative then -(Number.decimalOf ds : Int) else Number.decimalOf ds)

/-- A numeral without leading zeros, where `last` is the character before: single underscores among the zeros
go as well. A numeral of nothing but zeros keeps the last one, and so does one with a point. -/
def dropZeros (last : Char) : List Char → Option (List Char)
  | [] => some [last]
  | c :: rest =>
    if c == '0' then dropZeros c rest
    else if c == '_' then (if last == '_' then none else dropZeros c rest)
    else if c == '.' then some (last :: c :: rest)
    else if c.isDigit then some (c :: rest)
    else none

/-- A numeral that starts with a digit or a minus sign, without leading zeros. -/
def withoutLeadingZeros : List Char → Option (List Char)
  | '0' :: rest => dropZeros '0' rest
  | c :: rest => if c.isDigit || c == '-' then some (c :: rest) else none
  | [] => none

/-- A numeral without a fraction of zeros. -/
def withoutZeroFraction (cs : List Char) : List Char :=
  let fraction := (cs.dropWhile (· != '.')).drop 1
  if !fraction.isEmpty && fraction.all (· == '0') then cs.takeWhile (· != '.') else cs

/-- Whether underscores stand one by one between other characters. -/
def singleUnderscores : List Char → Bool
  | [] => true
  | ['_'] => false
  | '_' :: '_' :: _ => false
  | _ :: rest => singleUnderscores rest

/-- A text without its underscores, if they stand one by one between other characters. -/
def withoutUnderscores? (cs : List Char) : Option (List Char) :=
  if cs.head? != some '_' && singleUnderscores cs && cs.contains '_' then some (cs.filter (· != '_')) else none

/-- A numeral without its plus sign; a second sign is refused. -/
def withoutPlus : List Char → Option (List Char)
  | '+' :: '-' :: _ => none
  | '+' :: rest => some rest
  | cs => some cs

def cleanInteger? (cs : List Char) : Option (List Char) := do
  let cs := withoutZeroFraction (← withoutLeadingZeros (← withoutPlus cs))
  some ((withoutUnderscores? cs).getD cs)

/-- The greatest length of a numeral. -/
def maxNumeral : Nat := 4300

/-- The integer of a numeral. -/
def integerNumeral (s : String) : Except Misfit Int :=
  let cs := trim s.toList
  if maxNumeral < (String.ofList cs).utf8ByteSize then .error .longInteger
  else match plainInteger? cs with
    | some n => .ok n
    | none => match (cleanInteger? cs).bind plainInteger? with
      | some n => .ok n
      | none => .error .unreadInteger

/-- The integers of 64 bits lie below this bound, and not below its opposite. -/
def wordBound : Int := 0x8000000000000000

/-- The integer of a double. -/
def integerOfFloat (x : Float) : Except Misfit Int :=
  if x.isNaN || x.isInf then .error .infiniteInteger
  else match Number.wholeValue? x with
    | none => .error .fractionalInteger
    | some n => if -wordBound < n ∧ n < wordBound then .ok n else .error .longInteger

/-- An integer. -/
def integer : Reader Int := fun place v =>
  match v with
  | .bool b => .good (if b then 1 else 0)
  | .int n => .good n
  -- a double has to be whole
  | .float x =>
    match integerOfFloat x with
    | .ok n => .good n
    | .error m => misfit place v m
  | v =>
    match textOf? .unreadInteger v with
    | some (.ok s) => match integerNumeral s with
      | .ok n => .good n
      | .error m => misfit place v m
    | some (.error m) => misfit place v m
    | none => misfit place v .notInteger

/-- The integers of 64 bits. -/
def isWord (n : Int) : Bool := -wordBound ≤ n && n < wordBound

/-- A truth value. -/
def truth : Reader Bool := fun place v =>
  match v with
  | .bool b => .good b
  | .int n =>
    -- a machine word that is neither 0 nor 1 is unreadable, and a longer number no truth value at all
    if isWord n then
      match truthNumber? n with
      | some b => .good b
      | none => misfit place v .unreadTruth
    else misfit place v .notTruth
  | .float x =>
    match integerOfFloat x with
    | .ok n => match truthNumber? n with
      | some b => .good b
      | none => misfit place v .unreadTruth
    | .error _ => misfit place v .notTruth
  | v =>
    match textOf? .unreadTruth v with
    | some (.ok word) => match truthWord? word with
      | some b => .good b
      | none => misfit place v .unreadTruth
    | some (.error m) => misfit place v m
    | none => misfit place v .notTruth

/-! ## Doubles -/

/-- The double of a text: white space may stand around a numeral, or underscores in it. -/
def numberNumeral? (s : String) : Option Float :=
  match Number.decimal? (trim s.toList) with
  | some x => some x
  | none => (withoutUnderscores? s.toList).bind Number.decimal?

/-- A double. -/
def number : Reader Float := fun place v =>
  match v with
  | .bool b => .good (if b then 1.0 else 0.0)
  | .float x => .good x
  | .int n =>
    match Number.ofInt? n with
    | some x => .good x
    | none => misfit place v .notNumber
  | v =>
    match textOf? .unreadNumber v with
    | some (.ok s) => match numberNumeral? s with
      | some x => .good x
      | none => misfit place v .unreadNumber
    | some (.error m) => misfit place v m
    | none => misfit place v .notNumber

end Tablewright.Document
