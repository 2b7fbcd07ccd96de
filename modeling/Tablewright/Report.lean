import Tablewright.Value

/-!
# Reports of failed runs

What a user is told when a run fails: a message, a code to look it up, where it happened, and what to try.

* `Topic`: what a failure is about, with its code, its advice and the entries that say where.
* `Report`: a message with its particulars; `Report.render` lays it out.
-/

namespace Tablewright

/-- What a failure is about. -/
inductive Topic where
  | configuration
  | loading
  | collision
  | generation
  deriving DecidableEq, Repr

namespace Topic

def code : Topic → String
  | configuration => "CONFIG_ERROR"
  | loading => "SCHEMA_LOAD_ERROR"
  | collision => "NAME_COLLISION_ERROR"
  | generation => "CODE_GENERATION_ERROR"

/-- What to try when nothing more is known. -/
def advice : Topic → List String
  | configuration =>
    ["Check the configuration file syntax",
     "Verify the namespace is a dotted Python package path",
     "Check the documentation for configuration examples"]
  | loading =>
    ["Check the file exists and is valid JSON or YAML",
     "Verify entityName, primaryKey and fields are present",
     "Check field entries have both a name and a type"]
  | collision =>
    ["Add nameOverride to one of the conflicting fields in the schema",
     "Rename one of the storage attributes"]
  | generation =>
    ["Check the schema for unsupported patterns",
     "Check for nested type names that clash with each other",
     "Try generating one entity at a time"]

end Topic

/-- A report: the message, the code if there is one, where it happened, and what to try. -/
structure Report where
  message : String
  code : Option String
  context : List (Value × Value)
  suggestions : List String

namespace Report

/-- Entries of a context with one more, unless its text is empty. -/
def addPlace (context : List (Value × Value)) (place : String × String) : List (Value × Value) :=
  if place.2.isEmpty then context else Value.put context (.text place.1) (.text place.2)

/-- The report of a topic. Where no suggestion is given the advice of the topic stands in. -/
def ofTopic (topic : Topic) (message : String) (context : List (Value × Value))
    (places : List (String × String)) (suggestions : List String) : Report :=
  { message
    code := some topic.code
    context := places.foldl addPlace context
    suggestions := if suggestions.isEmpty then topic.advice else suggestions }

/-- The lines of a section, which is left out if it is empty. -/
def sectionLines (title : String) (lines : List String) : List String :=
  if lines.isEmpty then [] else title :: lines

/-- The text of a report: the message, then the code, the context and the suggestions, as far as they are
not empty. -/
def render (r : Report) : String :=
  "\n".intercalate ([r.message]
    ++ (match r.code.filter (· ≠ "") with
      | some code => [s!"Error Code: {code}"]
      | none => [])
    ++ sectionLines "Context:" (r.context.map fun entry => s!"  {entry.1.display}: {entry.2.display}")
    ++ sectionLines "Suggestions:" (r.suggestions.map fun s => s!"  • {s}"))

end Report

end Tablewright
