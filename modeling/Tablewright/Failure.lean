import Tablewright.Document.Problem
import Tablewright.Report
import Tablewright.Schema.Description
import Tablewright.Yaml.Fault

/-!
# Failures

Why a run ends without a result.

* `Failure`: the causes.
* `Failure.topic`, `Failure.message`, `Failure.report`: what a user is told about them.

Where a document does not fit or does not parse, the message holds a mark such as `<details>` in the place
of the particulars.
-/

namespace Tablewright

/-- What is wrong with a document that cannot be parsed. -/
inductive Unparsable where
  /-- Faulty JSON, with the words for the fault. -/
  | json (words : String)
  /-- Faulty YAML, with the stage of reading that refuses it. -/
  | yaml (stage : Yaml.Stage)
  deriving DecidableEq, Repr

/-- Why a run fails. -/
inductive Failure where
  /-- Parts of a namespace are no package names. -/
  | invalidNamespace (namespaceText : String) (parts : List String)
  /-- Fields of a scope share an identifier. -/
  | nameCollision (collisions : List Collision) (entity : Option String)
  /-- Two types of an entity share a name. -/
  | sharedTypeName (shared : SharedTypeName) (entity : String)
  /-- The module of an entity has the name of a sub-package. -/
  | subPackageName (entity module : String)
  /-- A type has a name that generated modules import. -/
  | importedName (typeName entity : String)
  /-- The module of a type belongs to an entity already. -/
  | takenModule (typeName entity module owner : String)
  /-- Two indexes are turned into the same name. -/
  | indexClash (first second generated : String)
  /-- A file has no text. -/
  | notRendered (path cause category : String) (entity : Option String)
  | unreadable (path cause : String)
  | unparsable (origin : String) (fault : Unparsable)
  | notMapping (origin : String)
  | invalidSchema (problems : List Document.Problem) (source : Option String)
  | invalidTable (problems : List Document.Problem) (source : Option String)

/-- The words for a group of names that share an identifier. -/
def Collision.words (c : Collision) : String :=
  let names := ", ".intercalate (c.names.map fun name => s!"'{name}'")
  s!"fields [{names}] all resolve to identifier '{c.identifier}'"

def collisionMessage (cs : List Collision) : String :=
  "Name collision: " ++ "; ".intercalate (cs.map Collision.words)

def Unparsable.words : Unparsable → String
  | json words => words
  | yaml _ => "<yaml>"

namespace Failure

def topic : Failure → Topic
  | invalidNamespace _ _ => .configuration
  | nameCollision _ _ => .collision
  | sharedTypeName _ _ | subPackageName _ _ | importedName _ _ | takenModule _ _ _ _ | indexClash _ _ _
  | notRendered _ _ _ _ => .generation
  | unreadable _ _ | unparsable _ _ | notMapping _ | invalidSchema _ _ | invalidTable _ _ => .loading

/-- What happened. -/
def message : Failure → String
  | invalidNamespace ns _ => s!"'{ns}' is not a valid package namespace"
  | nameCollision cs _ => collisionMessage cs
  | sharedTypeName s _ =>
    s!"Type name '{s.name}' is produced twice ({s.first.words} and {s.second.words})"
  | subPackageName e m => s!"Entity '{e}' maps to module '{m}', which is a generated sub-package"
  | importedName t e => s!"Type '{t}' of entity '{e}' shadows a name imported by generated modules"
  | takenModule t e m o =>
    s!"Type '{t}' of entity '{e}' maps to module '{m}', already produced for entity '{o}'"
  | indexClash a b g => s!"Indexes '{a}' and '{b}' both map to '{g}'"
  | notRendered p c _ _ => s!"Failed to generate '{p}': {c}"
  | unreadable p c => s!"Could not read {p}: {c}"
  | unparsable o f => s!"Could not parse {o}: {f.words}"
  | notMapping o => s!"Expected a mapping at the top level of {o}"
  | invalidSchema _ _ => "Invalid schema: <details>"
  | invalidTable _ _ => "Invalid table metadata: <details>"

/-- Particulars that are no places. -/
def context : Failure → List (Value × Value)
  | invalidNamespace _ parts => [(.text "invalid_parts", .list (parts.map .text))]
  | indexClash _ second _ => [(.text "index", .text second)]
  | _ => []

/-- Where it happened. -/
def places : Failure → List (String × String)
  | invalidNamespace _ _ => []
  | nameCollision _ entity => [("entity", entity.getD "")]
  | sharedTypeName _ entity => [("component", "type_mapping"), ("entity", entity)]
  | subPackageName entity _ | importedName _ entity | takenModule _ entity _ _ =>
    [("component", "code_generator"), ("entity", entity)]
  | indexClash _ _ _ => [("component", "code_generator")]
  | notRendered _ _ category entity => [("component", category), ("entity", entity.getD "")]
  | unreadable path _ => [("source", path)]
  | unparsable origin _ | notMapping origin => [("source", origin)]
  | invalidSchema _ source | invalidTable _ source => [("source", source.getD "")]

def report (f : Failure) : Report := .ofTopic f.topic f.message f.context f.places []

end Failure

end Tablewright
