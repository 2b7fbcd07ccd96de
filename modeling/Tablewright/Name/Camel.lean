import Tablewright.Name.Reserved
import Tablewright.Text.Case
import Tablewright.Text.Pieces

/-!
# Camel case

Storage names become identifiers in camel case: hyphens and underscores start a new word, what an
identifier cannot hold is dropped, and a name that would start with a digit or be reserved gets an
underscore.

* `segments`: the parts of a name between hyphens and underscores.
* `camelWords`: the parts joined with a capital at each seam.
* `camelCase`: the identifier of a name.
-/

namespace Tablewright.Name

def isSeparator (c : Char) : Bool := c == '-' || c == '_'

/-- ASCII letters, digits and underscores: what an identifier keeps of a name. -/
def isIdentifierChar (c : Char) : Bool := Text.isWordChar c || c == '_'

/-- The parts of a text between separators, empty parts left out. -/
def segments (cs : List Char) : List (List Char) := Text.pieces isSeparator cs

/-- A text whose first character is in lower case. -/
def uncapitalizeChars : List Char → List Char
  | [] => []
  | c :: rest => Text.lowerChar c ++ rest

/-- The first part of a name: in lower case throughout if it has no lower-case letters, else with a small
first letter. -/
def firstWord (part : List Char) : List Char :=
  if part = Text.upper part then Text.lower part else uncapitalizeChars part

/-- A name without separators, with a capital where a part starts. -/
def camelWords (cs : List Char) : List Char :=
  if 1 < cs.length ∧ cs = Text.upper cs ∧ cs.all (!isSeparator ·) then Text.lower cs
  else match segments cs with
    | [] => []
    | first :: rest => firstWord first ++ rest.flatMap Text.capitalizeChars

/-- A non-empty run of identifier characters as an identifier: a leading digit and a reserved name get an
underscore, at the front and at the end. -/
def guardReserved (cs : List Char) : String :=
  let name := match cs with
    | [] => ['_']
    | c :: _ => if c.isDigit then '_' :: cs else cs
  if isReserved (String.ofList name) then String.ofList (name ++ ['_']) else String.ofList name

/-- The camel-case identifier of a storage name; the empty name stays empty. -/
def camelCase (name : String) : String :=
  if name.isEmpty then name
  else guardReserved ((camelWords name.toList).filter isIdentifierChar)

end Tablewright.Name
