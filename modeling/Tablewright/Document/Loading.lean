import Tablewright.Document.Json
import Tablewright.Document.SchemaReader
import Tablewright.Document.TableReader
import Tablewright.Trouble
import Tablewright.Yaml.Basic

/-!
# Loading documents

Schemas and tables from files, or from JSON that is given in place of a path.

* `Source`: where a document comes from; a text that starts with a brace is the document itself.
* `Source.read`: the mapping of a document. Files whose names end in `.json` are JSON, all others YAML.
* `loadSchema`, `loadTable`: what a document describes.
-/

namespace Tablewright.Document

/-- Where the text of a document is. -/
inductive Origin where
  | inline (text : String)
  | file (path : Path)
  deriving DecidableEq, Repr

/-- A document that a user names: the name as it was given, and where the text is. -/
structure Source where
  given : String
  origin : Origin
  deriving DecidableEq, Repr

namespace Source

/-- The document of a text: JSON if it starts with a brace, after white space, and otherwise a path. -/
def ofText (given : String) : Source :=
  if (given.toList.dropWhile Text.isBlank).head? == some '\x7b' then ⟨given, .inline given⟩
  else ⟨given, .file (.ofText given)⟩

def ofPath (path : Path) : Source := ⟨path.text, .file path⟩

def label (s : Source) : String :=
  match s.origin with
  | .inline _ => "<inline>"
  | .file path => path.text

def isJson (s : Source) : Bool :=
  match s.origin with
  | .inline _ => true
  | .file path => path.text.endsWith ".json"

/-- The text of octets, with line feeds at the ends of lines. -/
def textOfOctets (octets : ByteArray) : Except Text.Utf8.Fault String :=
  (Text.Utf8.decode octets.toList).map fun cs => String.ofList (Text.unifyLines cs)

/-- The text of a document. -/
def text (t : Tree) (s : Source) : Except Trouble String :=
  match s.origin with
  | .inline text => .ok text
  | .file path =>
    if path.hasNull then .error .nullInPath
    else
      match t.read path with
      | .error fault => .error (.failure (.unreadable path.text (fault.message path.text)))
      | .ok octets =>
        match textOfOctets octets with
        | .ok text => .ok text
        | .error fault => .error (.undecodable fault)

/-- The value of the text of a document. -/
def parse (s : Source) (text : String) : Except Trouble Value :=
  if s.isJson then
    match Json.parse text with
    | .ok v => .ok v
    | .error (.longNumeral digits) => .error (.scalar (.longNumeral digits))
    | .error fault => .error (.failure (.unparsable s.label (.json fault.message)))
  else
    match Yaml.parse text with
    | .ok v => .ok v
    | .error (.scalar fault) => .error (.scalar fault)
    | .error (.refused stage) => .error (.failure (.unparsable s.label (.yaml stage)))

def mapping (t : Tree) (s : Source) : Except Trouble (List (Value × Value)) := do
  match ← s.parse (← s.text t) with
  | .dict entries => .ok entries
  | _ => .error (.failure (.notMapping s.label))

def read (t : Tree) (s : Source) : Run (List (Value × Value)) := do
  let entries ← Run.ofExcept (s.mapping t)
  Run.tell (.documentRead s.label)
  pure entries

end Source

def loadSchema (t : Tree) (s : Source) : Run Schema := do
  match readSchema (.dict (← s.read t)) with
  | .error problems => Run.fail (.invalidSchema problems (some s.given))
  | .ok schema =>
    Run.tell (.schemaLoaded schema.name schema.fields.length)
    pure schema

def loadTable (t : Tree) (s : Source) : Run Table := do
  match readTable (.dict (← s.read t)) with
  | .error problems => Run.fail (.invalidTable problems (some s.given))
  | .ok table =>
    Run.tell (.tableLoaded table.name table.indexes.length)
    pure table

end Tablewright.Document
