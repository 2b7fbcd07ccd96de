import Tablewright.Document.ScalarFault
import Tablewright.Failure
import Tablewright.Files.Tree
import Tablewright.Notice
import Tablewright.Text.Utf8

/-!
# Trouble

Everything that can end a run: the failures that are reported in full, and faults that only have a message.

* `Trouble`: what ends a run; `Trouble.message` is its text.
* `Run`: values with notices, unless trouble comes first.
-/

namespace Tablewright

/-- What ends a run. -/
inductive Trouble where
  | failure (f : Failure)
  | file (e : FileError)
  /-- A path holds a character that no path can hold. -/
  | nullInPath
  | undecodable (f : Text.Utf8.Fault)
  /-- The schemas of the settings are no paths. -/
  | notPaths
  | settings (problems : List Document.Problem)
  | scalar (f : Document.ScalarFault)

/-- The message about what ends a run. -/
def Trouble.message : Trouble → String
  | failure f => f.report.render
  | file e => e.message
  | nullInPath => "embedded null byte"
  | undecodable f => f.message
  | notPaths => "schemas must be a path or a list of paths."
  | settings problems => Document.listProblems problems
  | scalar f => f.message

/-- Steps of a run that give notice of what they do and may end it. -/
abbrev Run := ExceptT Trouble Noted

namespace Run

def tell (n : Notice) : Run Unit := ExceptT.lift (Noted.tell n)

/-- A step that does not end a run. -/
def ofNoted {α : Type} (x : Noted α) : Run α := ExceptT.lift x

/-- A step without notices. -/
def ofExcept {α : Type} (x : Except Trouble α) : Run α := ExceptT.mk (pure x)

def fail {α : Type} (f : Failure) : Run α := throw (.failure f)

end Run

end Tablewright
