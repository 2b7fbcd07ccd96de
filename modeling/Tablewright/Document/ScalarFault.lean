import Tablewright.Text.Quoted

/-!
# Faulty scalars

Scalars of a document that are written as values of a kind and stand for none.

* `ScalarFault`: the causes, with their message.
-/

namespace Tablewright.Document

/-- Why a scalar stands for no value of its kind. -/
inductive ScalarFault where
  /-- A numeral that is no integer in its base. -/
  | notInteger (base : Nat) (numeral : String)
  | notNumber (numeral : String)
  /-- A numeral with more digits than an integer may have. -/
  | longNumeral (digits : Nat)
  /-- A numeral without a character. -/
  | emptyNumeral
  | notTruth (word : String)
  | notTime
  /-- A day or a time that does not exist, in words. -/
  | noSuchTime (words : String)
  /-- An escape for a code that no character has. -/
  | noSuchCharacter (code : Nat)
  deriving DecidableEq, Repr

/-- The greatest number of digits of an integer. -/
def maxDigits : Nat := 4300

/-- The greatest length of a quoted numeral in a message. -/
def maxQuoted : Nat := 200

/-- The greatest code that is looked up at all. -/
def maxCode : Nat := 0x7FFFFFFF

/-- What is wrong with a scalar. -/
def ScalarFault.message : ScalarFault → String
  | notInteger base numeral =>
    let quoted := String.ofList ((Text.quote numeral).toList.take maxQuoted)
    s!"invalid literal for int() with base {base}: {quoted}"
  | notNumber numeral => s!"could not convert string to float: {Text.quote numeral}"
  | longNumeral digits =>
    s!"Exceeds the limit ({maxDigits} digits) for integer string conversion: value has {digits} digits; "
      ++ "use sys.set_int_max_str_digits() to increase the limit"
  | emptyNumeral => "string index out of range"
  | notTruth word => Text.quote word
  | notTime => "'NoneType' object has no attribute 'groupdict'"
  | noSuchTime words => words
  | noSuchCharacter code =>
    if code ≤ maxCode then "chr() arg not in range(0x110000)" else "Python int too large to convert to C int"

end Tablewright.Document
