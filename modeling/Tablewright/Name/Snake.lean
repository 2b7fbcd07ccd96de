import Tablewright.Text.Classes

/-!
# Snake case

Names are cut into words of ASCII letters and digits; snake case joins the words in lower case with
underscores, constant case in upper case.

* `words`: the words of a name.
* `snakeCase`, `constantCase`: their joined forms.
-/

namespace Tablewright.Name

/-- Whether a word is cut between two neighbouring letters or digits: before a capital that follows a small
letter or a digit, and before a capital that starts a capitalised word. -/
def startsWord (before here : Char) (after : Option Char) : Bool :=
  here.isUpper && (!before.isUpper || after.any Char.isLower)

/-- The words of `cs`, continuing a word whose characters so far are `current`. -/
def wordsFrom (current : List Char) : List Char → List (List Char)
  | [] => if current.isEmpty then [] else [current]
  | c :: rest =>
    if !Text.isWordChar c then
      if current.isEmpty then wordsFrom [] rest else current :: wordsFrom [] rest
    else match current.getLast? with
      | some before =>
        if startsWord before c rest.head? then current :: wordsFrom [c] rest
        else wordsFrom (current ++ [c]) rest
      | none => wordsFrom [c] rest

def words (cs : List Char) : List (List Char) := wordsFrom [] cs

def joinWords (ws : List (List Char)) : List Char := List.intercalate ['_'] ws

def snakeCase (name : String) : String :=
  String.ofList ((joinWords (words name.toList)).map Char.toLower)

/-- A name in constant case: never empty, and with an underscore before a leading digit. -/
def constantCase (name : String) : String :=
  match (joinWords (words name.toList)).map Char.toUpper with
  | [] => "_"
  | c :: rest => String.ofList (if c.isDigit then '_' :: c :: rest else c :: rest)

end Tablewright.Name
