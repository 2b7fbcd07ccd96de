import Tablewright.Format.Quotes
import Tablewright.Text.Classes
import Tablewright.Text.Pieces

/-!
# Documentation texts

The layout of the literal that documents a module, a class or a function: its lines move to the indentation of
the code around it, and white space at its ends goes.

* `Docstring.reindent`: the lines of a text at a new indentation.
* `Docstring.layOut`: the laid out literal. A text in which a backslash ends a line stays as it is.
-/

namespace Tablewright.Format.Docstring

open Text (isBlank dropTrailing splitAtChar)

/-- A text without white space at either end. -/
def trim (cs : List Char) : List Char := dropTrailing isBlank (cs.dropWhile isBlank)

/-- White space with tabs turned into blanks up to the next multiple of four columns. -/
def expandTabs (column : Nat) : List Char → List Char
  | [] => []
  | '\t' :: rest =>
    let count := 4 - column % 4
    List.replicate count ' ' ++ expandTabs (column + count) rest
  | c :: rest => c :: expandTabs (column + 1) rest

/-- A line with blanks for the tabs in front of its text. A line of white space stays as it is. -/
def expandLeadingTabs (line : List Char) : List Char :=
  let text := line.dropWhile isBlank
  if text.isEmpty then line else expandTabs 0 (line.takeWhile isBlank) ++ text

def leading (line : List Char) : Nat := (line.takeWhile isBlank).length

/-- The least indentation of lines that are not blank. -/
def commonIndent (lines : List (List Char)) : Option Nat :=
  (lines.filter fun line => !line.all isBlank).map leading |>.min?

/-- Lines after the first one at a new indentation. Blank lines become empty, except the last line. -/
def reindentLines (margin : List Char) (indent : Nat) : List (List Char) → List (List Char)
  | [] => []
  | [last] => [margin ++ dropTrailing isBlank (last.drop indent)]
  | line :: rest =>
    let text := dropTrailing isBlank (line.drop indent)
    (if text.isEmpty then [] else margin ++ text) :: reindentLines margin indent rest

/-- A text of several lines at a new indentation. If only the first line holds text the others go. -/
def reindent (margin cs : List Char) : List Char :=
  match (splitAtChar '\n' cs).map expandLeadingTabs with
  | [] => []
  | first :: rest =>
    match commonIndent rest with
    | none => trim first
    | some indent => List.intercalate ['\n'] (trim first :: reindentLines margin indent rest)

/-- Whether a backslash stands before a line feed with at most white space between them. -/
def hasLineEscape : List Char → Bool
  | [] => false
  | '\\' :: rest => (rest.takeWhile isBlank).contains '\n' || hasLineEscape rest
  | _ :: rest => hasLineEscape rest

/-- A text with blanks that keep it apart from the quotes around it, and whether one was added at its end: a
quote at either end is set off, and so is an odd number of backslashes at the end. -/
def setOff (quote : Char) (cs : List Char) : List Char × Bool :=
  let cs := if cs.head? == some quote then ' ' :: cs else cs
  let tail := cs.reverse.takeWhile (· == '\\')
  if cs.getLast? == some quote || tail.length % 2 = 1 then (cs ++ [' '], true) else (cs, false)

/-- The lines of a text. A line feed at its end starts no further line. -/
def textLines (cs : List Char) : List (List Char) :=
  splitAtChar '\n' (if cs.getLast? == some '\n' then cs.dropLast else cs)

/-- Whether the closing quotes get a line of their own: they would make the last of several lines too long, they
fit on a line of their own, and the text does not end with a line feed. -/
def breaksBeforeQuotes (limit : Int) (margin original cs : List Char) (paddedEnd : Bool) : Bool :=
  match textLines cs with
  | _ :: second :: more =>
    let last := (second :: more).getLast?.getD []
    decide ((last.length + 3 : Int) > limit) && decide ((margin.length + 3 : Int) ≤ limit) && !paddedEnd
      && original.getLast? != some '\n'
  | _ => false

/-- The laid out documentation text at an indentation. -/
def layOut (limit : Int) (depth : Nat) (text : String) : String :=
  let original := Literal.ofText text
  let literal := original.preferDouble
  -- an escaped line break would be lost, so such a text stays as it is
  if hasLineEscape text.toList then literal.text
  else
    let margin := List.replicate (4 * depth) ' '
    let cs := literal.body
    let inner := if literal.quotes.length == 3 && cs.contains '\n' then reindent margin cs else trim cs
    let (body, paddedEnd) :=
      if !inner.isEmpty then setOff (literal.quotes.headD '"') inner
      else if cs.isEmpty then ([], false)
      else ([' '], false)
    let body :=
      -- there is no room for the closing quotes, which go on a line of their own
      if literal.quotes.length == 3 && breaksBeforeQuotes limit margin original.body body paddedEnd then
        body ++ '\n' :: margin
      else body
    { literal with body }.text

end Tablewright.Format.Docstring
