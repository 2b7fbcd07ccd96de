/-!
# Tokens of YAML

* `Token`: marks, brackets, properties and scalars; the brackets of block collections stand where the
  indentation changes.
* `Tokens`: the tokens of a text up to the point where it cannot be read further.
-/

namespace Tablewright.Yaml

/-- A directive before a document. -/
inductive Directive where
  /-- The version of the language, by its major number. -/
  | version (major : Nat)
  /-- What a handle in tags stands for. -/
  | tag (handle stem : String)
  | other
  deriving DecidableEq, Repr

/-- A token. -/
inductive Token where
  | streamEnd
  | directive (d : Directive)
  | documentStart
  | documentEnd
  | blockSequenceStart
  | blockMappingStart
  | blockEnd
  | flowSequenceStart
  | flowSequenceEnd
  | flowMappingStart
  | flowMappingEnd
  | flowEntry
  | blockEntry
  | key
  | value
  | alias (name : String)
  | anchor (name : String)
  /-- A tag: with a handle that stands for the start of its name, or without. -/
  | tag (handle : Option String) (suffix : String)
  /-- A scalar; those that are not plain are quoted or blocks of lines. -/
  | scalar (text : String) (plain : Bool)
  deriving DecidableEq, Repr

end Tablewright.Yaml
