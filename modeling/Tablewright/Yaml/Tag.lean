import Tablewright.Number.Numeral
import Tablewright.Text.Pieces
import Tablewright.Yaml.Timestamp

/-!
# Tags of YAML nodes

What a node stands for is said by its tag. A plain scalar without a tag gets the one that its form implies.

* `Tag`: the tags with a meaning, and all others; `Tag.ofName` looks a name up.
* `isTruth`, `isInteger`, `isNumber`, `isTimestamp`: the forms of scalars.
* `Tag.implied`: the tag that the form of a plain scalar implies.
-/

namespace Tablewright.Yaml

/-- What a node stands for. -/
inductive Tag where
  | null
  | truth
  | integer
  | number
  | binary
  | timestamp
  | orderedMapping
  | pairs
  | set
  | text
  | sequence
  | mapping
  /-- A key whose mapping is merged into the one around it. -/
  | merge
  /-- A key for the value of a mapping that stands for a scalar. -/
  | plainValue
  /-- A tag without a meaning. -/
  | other
  deriving DecidableEq, Repr

/-- What the names of the tags with a meaning start with. -/
def tagStem : String := "tag:yaml.org,2002:"

/-- The tags with a meaning by the ends of their names. -/
def tagNames : List (String × Tag) :=
  [("null", .null), ("bool", .truth), ("int", .integer), ("float", .number), ("binary", .binary),
   ("timestamp", .timestamp), ("omap", .orderedMapping), ("pairs", .pairs), ("set", .set), ("str", .text),
   ("seq", .sequence), ("map", .mapping), ("merge", .merge), ("value", .plainValue)]

def Tag.ofName (name : String) : Tag :=
  ((tagNames.find? fun entry => tagStem ++ entry.1 == name).map (·.2)).getD .other

/-! ## Forms of scalars -/

def nullWords : List String := ["", "~", "null", "Null", "NULL"]

def truthWords : List String :=
  ["yes", "Yes", "YES", "no", "No", "NO", "true", "True", "TRUE", "false", "False", "FALSE", "on", "On", "ON",
   "off", "Off", "OFF"]

/-- A text without a sign at its start. -/
def withoutSign : List Char → List Char
  | '+' :: rest => rest
  | '-' :: rest => rest
  | cs => cs

def isSpacedDigit (c : Char) : Bool := c.isDigit || c == '_'

/-- A run of decimal digits and underscores that starts with a digit. -/
def isSpacedNumeral : List Char → Bool
  | [] => false
  | c :: rest => c.isDigit && rest.all isSpacedDigit

/-- A part of a numeral in base sixty, after its first one. -/
def isSixtieth : List Char → Bool
  | [c] => c.isDigit
  | [a, b] => '0' ≤ a && a ≤ '5' && b.isDigit
  | _ => false

/-- Whether a text has parts between colons, of which the first is like `first` and the others are sixtieths. -/
def isSexagesimal (first : List Char → Bool) (cs : List Char) : Bool :=
  match Text.splitAtChar ':' cs with
  | whole :: part :: parts => first whole && (part :: parts).all isSixtieth
  | _ => false

/-- A run of decimal digits and underscores that starts with a digit other than zero. -/
def isWhole (cs : List Char) : Bool := isSpacedNumeral cs && cs.head? != some '0'

/-- An integer without a sign: binary, octal, hexadecimal, decimal or in base sixty. -/
def isUnsignedInteger : List Char → Bool
  | ['0'] => true
  | '0' :: 'b' :: rest => !rest.isEmpty && rest.all fun c => c == '0' || c == '1' || c == '_'
  | '0' :: 'x' :: rest => !rest.isEmpty && rest.all fun c => (Number.digit? c).isSome || c == '_'
  | '0' :: rest => rest.all fun c => ('0' ≤ c && c ≤ '7') || c == '_'
  | cs => isWhole cs || isSexagesimal isWhole cs

def isInteger (cs : List Char) : Bool := isUnsignedInteger (withoutSign cs)

/-- Nothing, or an exponent with its sign. -/
def isExponent : List Char → Bool
  | [] => true
  | e :: s :: d :: rest => (e == 'e' || e == 'E') && (s == '+' || s == '-') && (d :: rest).all Char.isDigit
  | _ => false

/-- The places after a point, with an exponent or without. -/
def isFraction (cs : List Char) : Bool := isExponent (cs.dropWhile isSpacedDigit)

/-- A number with a point: the digits before it, and what stands after it. -/
def pointed? (cs : List Char) : Option (List Char × List Char) :=
  match cs.span (· != '.') with
  | (whole, _ :: rest) => some (whole, rest)
  | (_, []) => none

/-- A number with a point and without a sign. -/
def isPointed (cs : List Char) : Bool :=
  match pointed? cs with
  | some (whole, rest) =>
    (isSpacedNumeral whole && isFraction rest)
      || (isSexagesimal isSpacedNumeral whole && rest.all isSpacedDigit)
  | none => false

def isShortPointed : List Char → Bool
  | '.' :: d :: rest => d.isDigit && isFraction rest
  | _ => false

def isSpecial (cs : List Char) : Bool :=
  [".inf", ".Inf", ".INF"].contains (String.ofList (withoutSign cs))
    || [".nan", ".NaN", ".NAN"].contains (String.ofList cs)

def isNumber (cs : List Char) : Bool := isPointed (withoutSign cs) || isShortPointed cs || isSpecial cs

/-- A day with all its digits, or a day with a time. -/
def isTimestamp (cs : List Char) : Bool :=
  match Timestamp.ofChars? cs with
  | some t => t.time.isSome || cs.length == 10
  | none => false

/-- The tag that the form of a plain scalar implies. -/
def Tag.implied (text : String) : Tag :=
  let cs := text.toList
  if nullWords.contains text then .null
  else if truthWords.contains text then .truth
  else if isNumber cs then .number
  else if isInteger cs then .integer
  else if isTimestamp cs then .timestamp
  else if text = "<<" then .merge
  else if text = "=" then .plainValue
  else .text

end Tablewright.Yaml
