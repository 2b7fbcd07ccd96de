import Tablewright.CommandLine.Arguments
import Tablewright.Console.Layout
import Tablewright.Document.Loading
import Tablewright.Plan.Run
import Tablewright.Settings.Loading

/-!
# The command line program

A whole run from arguments to files.

* `configure`: the settings of a run; `produce`: the files.
* `Result`: what a run leaves behind: its exit code, what it has written to the console, and the files.
* `run`: a run over a tree of files.
-/

namespace Tablewright.CommandLine

def say (level : Level) (text : String) : Noted Unit := Noted.tell (.spoken level text)

def saySuccess (text : String) : Noted Unit := say .info s!"✓ {text}"

def sayProgress (text : String) : Noted Unit := say .info s!"→ {text}"

def sayHighlight (text : String) : Noted Unit := say .info s!"• {text}"

def separator : String := String.ofList (List.replicate 60 '=')

def saySection (name : String) : Noted Unit := do
  say .info s!"\n{separator}"
  say .info s!"  {name}"
  say .info separator

def configure (a : Arguments) (t : Tree) : Run Settings := do
  if a.verbose then
    Run.ofNoted (say .debug "Verbose mode enabled. DEBUG level logging activated.")
  Run.ofNoted (sayProgress "Loading configuration...")
  Settings.load t a.config a.settings

/-- Loads everything that the settings name. -/
def loadAll (s : Settings) (t : Tree) : Run (List Schema × Option Table) := do
  Run.ofNoted (saySection "SCHEMA LOADING")
  let schemas ← s.schemas.mapM fun given => Document.loadSchema t (.ofText given)
  let table ← match s.tableMetadata.filter (· ≠ "") with
    | some given => some <$> Document.loadTable t (.ofText given)
    | none => pure none
  Run.ofNoted (saySuccess s!"Loaded {schemas.length} schema(s).")
  pure (schemas, table)

def saySummary (s : Settings) (files schemas : Nat) (hasTable : Bool) : Noted Unit := do
  saySection "COMPLETION"
  saySuccess s!"Generated {files} files for {schemas} entit{Notice.entityEnding schemas}."
  sayHighlight s!"Output: {s.outputDir}"
  if !hasTable then
    say .info "Pass --table-metadata to also generate the client, config and repository modules."

/-- Generates the files of a run. -/
def produce (s : Settings) (t : Tree) : Noted Outcome := do
  say .debug s!"Effective configuration loaded: {s.listing}"
  match ← (loadAll s t).run with
  | .error trouble => pure ⟨t, .error trouble⟩
  | .ok (schemas, table) =>
    saySection "CODE GENERATION"
    sayProgress s!"Generating package '{s.namespaceText}'..."
    let outcome ← generate ⟨s.formatCode, s.lineLength⟩ s.namespaceText s.outputDir schemas table t
    match outcome.written with
    | .error _ => pure ()
    | .ok written => saySummary s written.length schemas.length table.isSome
    pure outcome

/-- What a run leaves behind. A run that comes to its end has no exit code of its own. -/
structure Result where
  exit : Option Nat
  output : String
  errors : String
  tree : Tree

def linesText (lines : List String) : String := String.join (lines.map (· ++ "\n"))

/-- Notices of at least a level, as they are written. -/
def written (painted : Bool) (threshold : Level) (notices : List Notice) : String :=
  linesText ((notices.filter fun n => threshold.rank ≤ n.level.rank).map (Console.standardLine painted))

def troubleText : Trouble → String
  | .failure f => s!"Generation failed:\n{f.report.render}"
  | trouble => s!"An unexpected error occurred during generation: {trouble.message}"

/-- What is written about trouble: faulty settings are listed, everything else is a notice. -/
def troubleLines (painted : Bool) : Trouble → String
  | .settings problems => linesText [Document.listProblems problems]
  | trouble => linesText [Console.standardLine painted (.spoken .error (troubleText trouble))]

/-- The level from which on notices are written before the settings are known. -/
def Arguments.threshold (a : Arguments) : Level := if a.verbose then .debug else .info

/-- The level from which on notices are written. -/
def thresholdOf (a : Arguments) (s : Settings) : Level := if a.verbose then .debug else s.logLevel

/-- A run with arguments that say something to run with. -/
def runWith (a : Arguments) (painted : Bool) (t : Tree) : Result :=
  let settings := (configure a t).run
  let before := written painted a.threshold settings.notices
  match settings.value with
  | .error trouble => ⟨some 1, "", before ++ troubleLines painted trouble, t⟩
  | .ok s =>
    let outcome := produce s t
    let during := written painted (thresholdOf a s) outcome.notices
    let (exit, after) := match outcome.value.written with
      | .ok _ => (none, "")
      | .error trouble => (some 1, troubleLines painted trouble)
    ⟨exit, "", before ++ during ++ after, outcome.value.tree⟩

/-- A run over a tree of files; on a terminal lines are painted. -/
def run (arguments : List String) (terminal : Bool) (t : Tree) : Result :=
  match Arguments.parse arguments with
  | .error .help => ⟨some 0, help, "", t⟩
  | .error (.misuse m) => ⟨some 2, "", m.message, t⟩
  | .ok a => runWith a (terminal && !a.noColor) t

end Tablewright.CommandLine
