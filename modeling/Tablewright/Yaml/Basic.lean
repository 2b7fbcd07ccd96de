import Tablewright.Yaml.Construction

/-!
# YAML documents

Reading YAML documents of version 1.1.

* `Yaml.isAllowed`: the characters a document may hold.
* `Yaml.parse`: the value of a document; an empty one is `null`.
-/

namespace Tablewright.Yaml

/-- The characters a document may hold: no control characters apart from tabs and line breaks. -/
def isAllowed (c : Char) : Bool :=
  let code := c.toNat
  c == '\t' || c == '\n' || c == '\r' || (0x20 ≤ code && code ≤ 0x7e) || code == 0x85
    || (0xa0 ≤ code && code ≤ 0xd7ff) || (0xe000 ≤ code && code ≤ 0xfffd) || 0x10000 ≤ code

/-- The value of a document. -/
def parse (document : String) : Except Fault Value :=
  let cs := document.toList
  if cs.all isAllowed then do
    match ← Node.ofTokens? (.ofText cs) with
    | some n => n.build
    | none => .ok .null
  else .error (.refused .characters)

end Tablewright.Yaml
