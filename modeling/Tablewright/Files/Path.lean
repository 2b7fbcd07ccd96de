import Tablewright.Text.Pieces

/-!
# Paths

Paths of files as sequences of names.

* `Path`: a path from a root or from the working directory; `Path.ofText`, `Path.text` read and write it.
* `Path.suffix`: the extension of the last name.
* `Path.precedes`: paths in the order of their names; `Path.sortBy` sorts by it.
* `Path.absolute`: a path without upward steps, seen from a working directory.
-/

namespace Tablewright

/-- A path: the text of its root, empty if it starts at the working directory, and its names. -/
structure Path where
  root : String
  names : List String
  deriving DecidableEq, Repr, Inhabited

namespace Path

/-- The root of a path and the text after it. Two slashes are a root of their own, three are not. -/
def splitRoot : List Char → String × List Char
  | '/' :: '/' :: '/' :: rest => ("/", rest)
  | '/' :: '/' :: rest => ("//", rest)
  | '/' :: rest => ("/", rest)
  | cs => ("", cs)

/-- Whether a name stands for a step: empty names and dots do not. -/
def isStep (name : String) : Bool := name != "" && name != "."

def ofText (s : String) : Path :=
  let (root, rest) := splitRoot s.toList
  ⟨root, ((Text.splitAtChar '/' rest).map String.ofList).filter isStep⟩

/-- The text of a path; the working directory itself is a dot. -/
def text (p : Path) : String :=
  if p.root.isEmpty && p.names.isEmpty then "." else p.root ++ "/".intercalate p.names

/-- Whether a name holds the character that ends names for the file system. -/
def hasNull (p : Path) : Bool := p.names.any fun name => name.toList.contains '\x00'

def ofNames (names : List String) : Path := ⟨"", names⟩

def child (p : Path) (name : String) : Path := ⟨p.root, p.names ++ [name]⟩

/-- A path below another one; a path with a root of its own stays as it is. -/
def below (base p : Path) : Path := if p.root.isEmpty then ⟨base.root, base.names ++ p.names⟩ else p

/-- The path without its last name. -/
def parent (p : Path) : Path := ⟨p.root, p.names.dropLast⟩

/-- The last name. -/
def name (p : Path) : String := p.names.getLastD ""

/-- The extension of a name with its dot. A dot at the start or at the end begins no extension. -/
def suffixOf (name : List Char) : List Char :=
  let extension := name.reverse.takeWhile (· != '.')
  if extension.length + 1 < name.length ∧ ¬ extension.isEmpty then '.' :: extension.reverse else []

/-- The extension of the last name with its dot. -/
def suffix (p : Path) : String := String.ofList (suffixOf p.name.toList)

/-- Whether one sequence of names comes before another, name by name. -/
def namesPrecede : List String → List String → Bool
  | [], [] => false
  | [], _ :: _ => true
  | _ :: _, [] => false
  | a :: as, b :: bs => decide (a < b) || (a == b && namesPrecede as bs)

/-- The names that paths are ordered by: a root counts as a name. -/
def orderNames (p : Path) : List String := if p.root.isEmpty then p.names else p.root :: p.names

def precedes (p q : Path) : Bool := namesPrecede p.orderNames q.orderNames

/-- Inserts an item before the first one that it precedes. -/
def insertBy {α : Type} (path : α → Path) (item : α) : List α → List α
  | [] => [item]
  | first :: rest =>
    if (path first).precedes (path item) then first :: insertBy path item rest else item :: first :: rest

/-- Items in the order of their paths; items of one path keep their order. -/
def sortBy {α : Type} (path : α → Path) (items : List α) : List α := items.foldr (insertBy path) []

/-- The names that are left when upward steps are taken back; nothing lies above the first name. -/
def collapse (names : List String) : List String :=
  names.foldl (fun acc name => if name = ".." then acc.dropLast else acc ++ [name]) []

/-- A path without upward steps, seen from a working directory. -/
def absolute (workingDirectory p : Path) : Path :=
  let full := workingDirectory.below p
  ⟨full.root, collapse full.names⟩

end Path

end Tablewright
