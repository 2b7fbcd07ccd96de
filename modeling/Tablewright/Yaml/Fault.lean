import Tablewright.Document.ScalarFault

/-!
# Faults of YAML documents

* `Yaml.Stage`: the step of reading that refuses a document.
* `Yaml.Fault`: why a document has no value.
-/

namespace Tablewright.Yaml

/-- A step of reading a document. -/
inductive Stage where
  | characters
  | tokens
  | grammar
  | composition
  | construction
  deriving DecidableEq, Repr

/-- Why a document has no value: a step refuses it, or a scalar in it is faulty. -/
inductive Fault where
  | refused (stage : Stage)
  | scalar (fault : Document.ScalarFault)
  deriving DecidableEq, Repr

end Tablewright.Yaml
