import Tablewright.Name.Fresh
import Tablewright.Name.Snake
import Tablewright.Text.Pieces

/-!
# Names of constants

Names in upper case that are derived from values and from index names.

* `memberBase`: the wished constant name of an enum value.
* `memberNames`: distinct constant names for the values of an enum.
* `indexConstant`: the constant of a secondary index.
-/

namespace Tablewright.Name

/-- The runs of ASCII letters and digits of a text. -/
def runs (cs : List Char) : List (List Char) := Text.pieces (!Text.isWordChar ·) cs

/-- The wished constant name of an enum value: its letters and digits in upper case, with one underscore
for whatever stands between them. A name that would be empty or start with a digit starts with
`VALUE` instead. -/
def memberBase (value : String) : String :=
  match (joinWords (runs value.toList)).map Char.toUpper with
  | [] => "VALUE"
  | c :: rest =>
    if c.isDigit then "VALUE_" ++ String.ofList (c :: rest) else String.ofList (c :: rest)

/-- Distinct constant names for enum values, in order; a repeated name is numbered from two on. -/
def memberNames (values : List String) : List String :=
  freshAll (fun base n => s!"{base}_{n}") [] (values.map memberBase)

/-- The constant that holds the name of a secondary index. -/
def indexConstant (indexName : String) : String :=
  "INDEX_" ++ String.ofList ((constantCase indexName).toList.dropWhile (· == '_'))

end Tablewright.Name
