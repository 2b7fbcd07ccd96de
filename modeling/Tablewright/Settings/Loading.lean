import Tablewright.Settings.Basic
import Tablewright.Text.Sorted
import Tablewright.Text.Utf8
import Tablewright.Yaml.Basic

/-!
# Loading settings

Settings from a file, overlaid with those of the command line.

* `Settings.fileEntries`: the settings of a file. One that is missing or holds no settings is ignored.
* `Settings.overlay`: the settings of a file with those that are given otherwise.
* `Settings.load`: the settings of a run, with the output directory seen from the root.
-/

namespace Tablewright.Settings

/-- The number of octets that are read at a time. -/
def blockSize : Nat := 8192

/-- The value of a file; none if it is no YAML. -/
def fileValue (t : Tree) (name : String) : Run (Option Value) := do
  let path := Path.ofText name
  match t.read path with
  | .error fault => throw (.file ⟨fault, path⟩)
  | .ok octets =>
    match Text.Utf8.decodeInBlocks blockSize octets.toList with
    | .error fault => throw (.undecodable fault)
    | .ok cs =>
      match Yaml.parse (String.ofList (Text.unifyLines cs)) with
      | .ok v => pure (some v)
      -- a faulty scalar ends the run, while text that is refused counts as no settings
      | .error (.scalar fault) => throw (.scalar fault)
      | .error (.refused _) =>
        Run.tell (.settingsUnreadable name)
        Run.tell .settingsFallback
        pure none

/-- The entries of a value that may hold settings; an empty value of any kind holds none. -/
def entriesOf (name : String) (v : Value) : Run (List (Value × Value)) :=
  if v.isEmpty then pure []
  else
    match v with
    | .dict entries => do
      Run.tell (.settingsRead name)
      pure entries
    | _ => do
      Run.tell (.settingsNotMapping name)
      pure []

def isFile (t : Tree) (path : Path) : Except Trouble Bool :=
  if path.hasNull then .ok false
  else
    match t.isFile path with
    | .ok b => .ok b
    | .error fault => .error (.file ⟨fault, path⟩)

/-- The entries of a file of settings. -/
def fileEntries (t : Tree) (name : String) : Run (List (Value × Value)) := do
  if ← Run.ofExcept (isFile t (.ofText name)) then
    match ← fileValue t name with
    | some v => entriesOf name v
    | none => pure []
  else
    Run.tell (.settingsMissing name)
    pure []

/-- The settings among some named values that are given: those that are `null` are not. -/
def given (values : List (String × Value)) : List (String × Value) :=
  values.filter fun entry => names.contains entry.1 && !entry.2.isNull

def overlay (entries : List (Value × Value)) (values : List (String × Value)) : List (Value × Value) :=
  values.foldl (fun entries entry => Value.put entries (.text entry.1) entry.2) entries

def resolved (t : Tree) (directory : String) : Except Trouble String :=
  let path := Path.ofText directory
  if path.hasNull then .error .nullInPath else .ok (t.workingDirectory.absolute path).text

/-- Loads the settings of a run from a file, if one is named, and from named values. -/
def load (t : Tree) (file : Option String) (values : List (String × Value)) : Run Settings := do
  let entries ← match file with
    | some name => if name.isEmpty then pure [] else fileEntries t name
    | none => pure []
  let values := given values
  if !values.isEmpty then
    Run.tell (.settingsOverridden (Text.sortNames (values.map (·.1))))
  Run.tell .settingsValidating
  let s ← check (.dict (overlay entries values))
  let outputDir ← Run.ofExcept (resolved t s.outputDir)
  Run.tell .settingsAccepted
  pure { s with outputDir }

end Tablewright.Settings
