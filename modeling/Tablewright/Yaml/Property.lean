import Tablewright.Number.Numeral
import Tablewright.Text.Utf8
import Tablewright.Yaml.Block
import Tablewright.Yaml.Token

/-!
# Anchors, tags and directives

The words that say something about a node or a document.

* `Property.name`: the name of an anchor or of an alias.
* `Property.tag`: a tag; `Property.uri` and `Property.handle` are its parts.
* `Property.directive`: a directive up to the end of its line.
-/

namespace Tablewright.Yaml.Property

def refuse {α : Type} : Except Fault α := .error (.refused .tokens)

/-- What may stand after a name, apart from the characters that end words. -/
def afterName : List Char := "?:,]\x7d%@\u0060".toList

/-- The name of an anchor or an alias, after its mark. -/
def name (c : Cursor) : Except Fault (String × Cursor) :=
  let (run, c) := c.span isNameChar
  if run.isEmpty then refuse
  else if endsWord c.peek || c.peek.any afterName.contains then .ok (String.ofList run, c)
  else refuse

/-- The characters of the names of tags, apart from escapes. -/
def isUriChar (c : Char) : Bool := c.isAlphanum || "-;/?:@&=+$,_.!~*'()[]".toList.contains c

/-- The octets of escapes in a row. -/
def octets : (fuel : Nat) → Cursor → Except Fault (List UInt8 × Cursor)
  | 0, c => .ok ([], c)
  | fuel + 1, c =>
    match c.rest with
    | '%' :: a :: b :: _ =>
      match Number.digit? a, Number.digit? b with
      | some x, some y => (octets fuel (c.forward 3)).map fun (more, c) => (UInt8.ofNat (16 * x + y) :: more, c)
      | _, _ => refuse
    | '%' :: _ => refuse
    | _ => .ok ([], c)

/-- The text of a tag's name. -/
def uriText : (fuel : Nat) → Cursor → Except Fault (List Char × Cursor)
  | 0, c => .ok ([], c)
  | fuel + 1, c =>
    let (run, c) := c.span isUriChar
    if c.peek == some '%' then do
      let (bs, c) ← octets (c.rest.length + 1) c
      match Text.Utf8.decode bs with
      | .error _ => refuse
      | .ok cs => (uriText fuel c).map fun (more, c) => (run ++ cs ++ more, c)
    else .ok (run, c)

/-- The name of a tag, or the end of it. -/
def uri (c : Cursor) : Except Fault (String × Cursor) := do
  let (cs, c) ← uriText (c.rest.length + 1) c
  if cs.isEmpty then refuse else .ok (String.ofList cs, c)

/-- The handle of a tag: an exclamation mark, or a name between two of them. -/
def handle (c : Cursor) : Except Fault (String × Cursor) :=
  if c.peek != some '!' then refuse
  else if c.peekNext == some ' ' then .ok ("!", c.step)
  else
    let (run, c) := c.step.span isNameChar
    if c.peek == some '!' then .ok (String.ofList ('!' :: (run ++ ['!'])), c.step) else refuse

/-- Whether the handle of the tag that starts here is more than one exclamation mark. -/
def hasHandle (c : Cursor) : Bool := ((c.rest.drop 1).takeWhile fun ch => !endsHeader (some ch)).contains '!'

/-- The handle of a tag if it has one, and the rest of its name. -/
def tagParts (c : Cursor) : Except Fault ((Option String × String) × Cursor) :=
  if c.peekNext == some '<' then do
    let (suffix, c) ← uri (c.forward 2)
    if c.peek == some '>' then .ok ((none, suffix), c.step) else refuse
  else if endsWord c.peekNext then .ok ((none, "!"), c.step)
  else do
    let (h, c) ← if hasHandle c then handle c else .ok ("!", c.step)
    let (suffix, c) ← uri c
    .ok ((some h, suffix), c)

def tag (c : Cursor) : Except Fault (Token × Cursor) := do
  let ((h, suffix), c) ← tagParts c
  if endsHeader c.peek then .ok (.tag h suffix, c) else refuse

def number (c : Cursor) : Except Fault (Nat × Cursor) :=
  let (run, c) := c.span Char.isDigit
  if run.isEmpty then refuse else .ok (Number.decimalOf run, c)

def version (c : Cursor) : Except Fault (Directive × Cursor) := do
  let (major, c) ← number c.skipBlanks
  if c.peek != some '.' then refuse
  else
    let (_, c) ← number c.step
    if endsHeader c.peek then .ok (.version major, c) else refuse

def tagDirective (c : Cursor) : Except Fault (Directive × Cursor) := do
  let (h, c) ← handle c.skipBlanks
  if c.peek != some ' ' then refuse
  else
    let (stem, c) ← uri c.skipBlanks
    if endsHeader c.peek then .ok (.tag h stem, c) else refuse

/-- The directive that starts here, and the start of the next line. -/
def directive (c : Cursor) : Except Fault (Token × Cursor) := do
  let (name, c) := c.step.span isNameChar
  if name.isEmpty || !endsHeader c.peek then refuse
  else
    let (d, c) ←
      if name == "YAML".toList then version c
      else if name == "TAG".toList then tagDirective c
      else .ok (.other, c.skip (!isBreak ·))
    (Block.finishLine c).map fun c => (.directive d, c)

end Tablewright.Yaml.Property
