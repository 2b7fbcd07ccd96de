/-!
# Pieces of a text

A text cut at the characters of a class.

* `pieces`: the non-empty runs between the characters of a class.
* `occursIn`: whether a text holds another one.
* `splitAtChar`: the parts between the occurrences of one character, empty ones included.
-/

namespace Tablewright.Text

/-- The pieces of `cs`, continuing a piece whose characters so far are `current`. -/
def piecesFrom (isBreak : Char → Bool) (current : List Char) : List Char → List (List Char)
  | [] => if current.isEmpty then [] else [current]
  | c :: rest =>
    if isBreak c then
      if current.isEmpty then piecesFrom isBreak [] rest else current :: piecesFrom isBreak [] rest
    else piecesFrom isBreak (current ++ [c]) rest

def pieces (isBreak : Char → Bool) (cs : List Char) : List (List Char) := piecesFrom isBreak [] cs

/-- Whether `cs` holds `part` somewhere. -/
def occursIn (part : List Char) : List Char → Bool
  | [] => part.isEmpty
  | c :: rest => part.isPrefixOf (c :: rest) || occursIn part rest

/-- The parts of a text between the occurrences of a character; there is one more part than there are
occurrences. -/
def splitAtChar (mark : Char) : List Char → List (List Char)
  | [] => [[]]
  | c :: rest =>
    match splitAtChar mark rest with
    | [] => [[]]
    | part :: parts => if c == mark then [] :: part :: parts else (c :: part) :: parts

/-- The parts of a text between the occurrences of a character. -/
def split (mark : Char) (s : String) : List String := (splitAtChar mark s.toList).map String.ofList

end Tablewright.Text
