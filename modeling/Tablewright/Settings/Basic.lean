import Tablewright.Document.Scalar
import Tablewright.Name.Reserved
import Tablewright.Notice
import Tablewright.Text.Case
import Tablewright.Text.Pieces
import Tablewright.Trouble

/-!
# Settings

What a generation run is told, checked before anything else happens.

* `Settings`: the settings of a run.
* `settingsOf`: the settings of a mapping, or all of its problems.
* `checkSettings`: the same with notices; faulty settings end a run.
-/

namespace Tablewright

/-- The settings of a run. -/
structure Settings where
  namespaceText : String
  outputDir : String
  schemas : List String
  tableMetadata : Option String
  formatCode : Bool
  lineLength : Int
  logLevel : Level
  deriving Repr

namespace Settings

open Document

/-- The names of the settings, in order. -/
def names : List String :=
  ["namespace", "output_dir", "schemas", "table_metadata", "format_code", "line_length", "log_level"]

/-- The settings in one line. -/
def listing (s : Settings) : String :=
  let optionText := match s.tableMetadata with
    | some t => Text.quote t
    | none => Value.literal .null
  " ".intercalate
    [s!"namespace={Text.quote s.namespaceText}", s!"output_dir={Text.quote s.outputDir}",
     s!"schemas={(Value.list (s.schemas.map .text)).literal}", s!"table_metadata={optionText}",
     s!"format_code={Value.boolWord s.formatCode}", s!"line_length={s.lineLength}",
     s!"log_level={Text.quote s.logLevel.word}"]

/-! ## Single settings -/

/-- What is wrong with a namespace, if something is: its first part that is no package name. -/
def namespaceFault? (s : String) : Option Misfit :=
  ((Text.split '.' s).find? fun part => !Name.isPackagePart part).map fun part =>
    .rejected s!"'{s}' is not a valid package namespace: '{part}' is not a valid Python identifier."

/-- A namespace: a text whose parts are package names. -/
def namespaceOf : Reader String := fun place v =>
  (nonEmptyText place v).andThen fun s =>
    match namespaceFault? s with
    | some m => misfit place v m
    | none => .good s

def lineLengthOf : Reader Int := fun place v =>
  (integer place v).andThen fun n =>
    if n ≤ 0 then misfit place v (.rejected s!"line_length must be positive, got {n}") else .good n

def levels : List Level := [.debug, .info, .warning, .error]

/-- A word without white space around it, in capital letters. -/
def levelWord (s : String) : String := String.ofList (Text.upper (Text.strip s).toList)

/-- A level by its word. -/
def levelOf : Reader Level := fun place v =>
  let found := match v with
    | .text s => levels.find? (·.word == levelWord s)
    | _ => none
  match found with
  | some level => .good level
  | none => misfit place v (.notAmong (levels.map Level.word))

/-- The paths of schemas without white space around them, or the index of the first one that is no path. -/
def pathsFrom (index : Nat) : List Value → Except Nat (List String)
  | [] => .ok []
  | .text s :: rest =>
    if (Text.strip s).isEmpty then .error index
    else (pathsFrom (index + 1) rest).map (Text.strip s :: ·)
  | _ :: _ => .error index

/-- The values that stand for paths: a single text counts as a list, and `null` as an empty one. -/
def pathValues? : Value → Option (List Value)
  | .null => some []
  | .text s => some [.text s]
  | .list items => some items
  | _ => none

def schemasOf (place : List Step) (v : Value) (items : List Value) : Checked (List String) :=
  match pathsFrom 0 items with
  | .ok paths => .good paths
  | .error index =>
    misfit place v (.rejected s!"Schema path at index {index} must be a non-empty string.")

/-! ## All settings -/

/-- The settings of the entries of a mapping; those that are not given have their usual values. -/
def ofEntries (entries : List (Value × Value)) (schemas : Checked (List String)) : Checked Settings :=
  Settings.mk
    <$> optional (.single "namespace") namespaceOf "generated.model" [] entries
    <*> optional (.single "output_dir") nonEmptyText "./generated" [] entries
    <*> schemas
    <*> optional (.single "table_metadata") (nullable text) none [] entries
    <*> optional (.single "format_code") truth true [] entries
    <*> optional (.single "line_length") lineLengthOf 120 [] entries
    <*> optional (.single "log_level") levelOf .info [] entries

/-- Settings name at least one schema. -/
def requireSchemas (input : Value) (s : Settings) : Checked Settings :=
  if s.schemas.isEmpty then
    misfit [] input (.rejected "At least one schema file is required (config 'schemas' or --schema).")
  else .good s

/-- The settings of a value. Schemas that are neither a path nor a list of paths are trouble of their own,
whatever else is wrong. -/
def ofValue (v : Value) : Except Trouble (Checked Settings) :=
  match v with
  | .dict entries =>
    match Value.get? "schemas" entries with
    | none => .ok ((ofEntries entries (.good [])).andThen (requireSchemas v))
    | some given =>
      match pathValues? given with
      | none => .error .notPaths
      | some items =>
        .ok ((ofEntries entries (schemasOf [.key "schemas"] given items)).andThen (requireSchemas v))
  | v => .ok (misfit [] v (.notMapping "GeneratorSettings"))

/-- Checks settings. -/
def check (v : Value) : Run Settings := do
  match ← Run.ofExcept (ofValue v) with
  | .good s =>
    if s.tableMetadata.isNone then
      Run.tell .noTableConfigured
    Run.tell .settingsParsed
    pure s
  | .bad problems =>
    Run.tell .settingsRejected
    throw (.settings problems)

end Settings

end Tablewright
