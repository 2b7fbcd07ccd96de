import Tablewright.Value

/-!
# Problems of documents

What can be wrong with the parts of a document that is read as a schema, a table or the settings.

* `Step`: one step on the way from the top of a document to a part of it.
* `Misfit`: why a value does not fit the place it stands at, with its name and its words.
* `Problem`: a misfit with its place and the value.
-/

namespace Tablewright.Document

/-- A step down into a document: to the entry of a key, or to a member of a list. -/
inductive Step where
  | key (name : String)
  | item (index : Nat)
  deriving DecidableEq, Repr

def Step.text : Step → String
  | key name => name
  | item index => toString index

/-- Why a value does not fit the place it stands at. -/
inductive Misfit where
  | missing
  | notText
  | undecodableText
  | emptyText
  | notTruth
  | unreadTruth
  | notInteger
  | unreadInteger
  | longInteger
  | fractionalInteger
  | infiniteInteger
  | notNumber
  | unreadNumber
  | notList
  /-- The value is no mapping, where the parts of a `model` are expected. -/
  | notMapping (model : String)
  /-- The value is none of the given words. -/
  | notAmong (words : List String)
  /-- A rule of its own rejects the value. -/
  | rejected (reason : String)
  deriving DecidableEq, Repr

namespace Misfit

/-- The name of a misfit. -/
def code : Misfit → String
  | missing => "missing"
  | notText => "string_type"
  | undecodableText => "string_unicode"
  | emptyText => "string_too_short"
  | notTruth => "bool_type"
  | unreadTruth => "bool_parsing"
  | notInteger => "int_type"
  | unreadInteger => "int_parsing"
  | longInteger => "int_parsing_size"
  | fractionalInteger => "int_from_float"
  | infiniteInteger => "finite_number"
  | notNumber => "float_type"
  | unreadNumber => "float_parsing"
  | notList => "list_type"
  | notMapping _ => "model_type"
  | notAmong _ => "literal_error"
  | rejected _ => "value_error"

/-- Words in quotes in a row, the last two joined by `or`. -/
def alternatives : List String → String
  | [] => ""
  | [one] => s!"'{one}'"
  | [one, two] => s!"'{one}' or '{two}'"
  | first :: rest => s!"'{first}', {alternatives rest}"

/-- The words for a misfit. -/
def message : Misfit → String
  | missing => "Field required"
  | notText => "Input should be a valid string"
  | undecodableText => "Input should be a valid string, unable to parse raw data as a unicode string"
  | emptyText => "String should have at least 1 character"
  | notTruth => "Input should be a valid boolean"
  | unreadTruth => "Input should be a valid boolean, unable to interpret input"
  | notInteger => "Input should be a valid integer"
  | unreadInteger => "Input should be a valid integer, unable to parse string as an integer"
  | longInteger => "Unable to parse input string as an integer, exceeded maximum size"
  | fractionalInteger => "Input should be a valid integer, got a number with a fractional part"
  | infiniteInteger => "Input should be a finite number"
  | notNumber => "Input should be a valid number"
  | unreadNumber => "Input should be a valid number, unable to parse string as a number"
  | notList => "Input should be a valid list"
  | notMapping model => s!"Input should be a valid dictionary or instance of {model}"
  | notAmong words => s!"Input should be {alternatives words}"
  | rejected reason => s!"Value error, {reason}"

end Misfit

/-- A misfit: where it is, what it is, and the value that does not fit. -/
structure Problem where
  place : List Step
  misfit : Misfit
  input : Value

namespace Problem

/-- The place of a problem; one that concerns a whole document has a name of its own. -/
def placeText (p : Problem) : String :=
  if p.place.isEmpty then "Model Level" else " -> ".intercalate (p.place.map Step.text)

/-- The lines about a problem; with a namespace goes a hint. -/
def lines (p : Problem) : List String :=
  [s!"  - Location: '{p.placeText}'", s!"    Error:    {p.misfit.message}"]
    ++ (if p.place.contains (.key "namespace") then
        [s!"    Hint:     Value '{p.input.display}' must be dotted Python package names, e.g. 'myapp.model'."]
      else [])

end Problem

def listProblems (problems : List Problem) : String :=
  "\n".intercalate
    (["", "--- Configuration Errors ---"] ++ problems.flatMap Problem.lines ++ ["----------------------------"])

end Tablewright.Document
