import Tablewright.Text.IdentifierTable
import Tablewright.Text.PrintableTable

/-!
# Classes of characters

Membership tests for the classes that names, quoted texts and blank texts are described with. Each is
decided by a table beyond ASCII.

* `isWordChar`: ASCII letters and digits, the only characters that survive in file names.
* `isIdentifierStart`, `isIdentifierContinue`, `isIdentifier`: the shape of an identifier.
* `isPrintable`: has a printed form, so that a quoted text may hold it as it is.
* `isBlank`, `strip`: the white space that trimming removes; `isWhiteSpace` is narrower.
-/

namespace Tablewright.Text

/-- Whether a code point lies in one of the ranges. -/
def inRanges (ranges : List (Nat × Nat)) (code : Nat) : Bool :=
  ranges.any fun range => range.1 ≤ code && code ≤ range.2

def isWordChar (c : Char) : Bool := c.isAlphanum

def isIdentifierStart (c : Char) : Bool :=
  if c.toNat < 0x80 then c.isAlpha || c == '_' else inRanges identifierStarts c.toNat

/-- Characters an identifier may hold after its first one. -/
def isIdentifierContinue (c : Char) : Bool :=
  if c.toNat < 0x80 then c.isAlphanum || c == '_'
  else inRanges identifierStarts c.toNat || inRanges identifierContinues c.toNat

def isIdentifierChars : List Char → Bool
  | [] => false
  | c :: rest => isIdentifierStart c && rest.all isIdentifierContinue

def isIdentifier (s : String) : Bool := isIdentifierChars s.toList

def isPrintable (c : Char) : Bool :=
  if 0x20 ≤ c.toNat && c.toNat < 0x7f then true else !inRanges unprintableRanges c.toNat

/-- White space: the characters that trimming removes and that alone make a blank text. -/
def isBlank (c : Char) : Bool :=
  inRanges [(0x9, 0xd), (0x1c, 0x20), (0x85, 0x85), (0xa0, 0xa0), (0x1680, 0x1680), (0x2000, 0x200a),
    (0x2028, 0x2029), (0x202f, 0x202f), (0x205f, 0x205f), (0x3000, 0x3000)] c.toNat

/-- White space in the narrow sense: without the separators among the control characters. -/
def isWhiteSpace (c : Char) : Bool := isBlank c && !inRanges [(0x1c, 0x1f)] c.toNat

/-- A text without the characters of a class at its end. -/
def dropTrailing (p : Char → Bool) (cs : List Char) : List Char :=
  (cs.reverse.dropWhile p).reverse

/-- A text without white space at either end. -/
def strip (s : String) : String :=
  String.ofList (dropTrailing isBlank (s.toList.dropWhile isBlank))

end Tablewright.Text
