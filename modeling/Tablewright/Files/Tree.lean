import Tablewright.Files.Path
import Tablewright.Text.Quoted

/-!
# File trees

The files a run reads and writes, as a value.

* `FileFault`: why a file cannot be reached, with its number and its words.
* `Tree`: files and directories by absolute path.
* `Tree.find`: what a path leads to; every name on the way has to be a directory.
* `Tree.read`, `Tree.makeDirectories`, `Tree.write`: the steps of a run.
-/

namespace Tablewright

/-- Why a file cannot be reached. -/
inductive FileFault where
  | missing
  | taken
  | notDirectory
  | isDirectory
  | nameTooLong
  deriving DecidableEq, Repr

namespace FileFault

def number : FileFault → Nat
  | missing => 2
  | taken => 17
  | notDirectory => 20
  | isDirectory => 21
  | nameTooLong => 36

def words : FileFault → String
  | missing => "No such file or directory"
  | taken => "File exists"
  | notDirectory => "Not a directory"
  | isDirectory => "Is a directory"
  | nameTooLong => "File name too long"

def message (f : FileFault) (path : String) : String :=
  s!"[Errno {f.number}] {f.words}: {Text.quote path}"

end FileFault

/-- A fault together with the path it was met at. -/
structure FileError where
  fault : FileFault
  path : Path

def FileError.message (e : FileError) : String := e.fault.message e.path.text

/-- What stands at a path. -/
inductive Node where
  | file (content : ByteArray)
  | directory

/-- Files and directories by absolute path, seen from a working directory. -/
structure Tree where
  workingDirectory : Path
  nodes : List (Path × Node)

namespace Tree

/-- A tree without files: the working directory and those above it. -/
def empty (workingDirectory : Path) : Tree := ⟨workingDirectory, []⟩

/-- The greatest length of a name in octets. -/
def maxName : Nat := 255

/-- What stands at an absolute path. The working directory and those above it are always there. -/
def node? (t : Tree) (p : Path) : Option Node :=
  if p.root = t.workingDirectory.root ∧ p.names.isPrefixOf t.workingDirectory.names then some .directory
  else (t.nodes.find? fun entry => entry.1 == p).map (·.2)

/-- Walks down from a directory. -/
def walk (t : Tree) (at_ : Path) : List String → Except FileFault (Path × Option Node)
  | [] => .ok (at_, t.node? at_)
  | name :: rest =>
    match t.node? at_ with
    | none => .error .missing
    | some (.file _) => .error .notDirectory
    | some .directory =>
      if maxName < name.utf8ByteSize then .error .nameTooLong
      else t.walk (if name = ".." then at_.parent else at_.child name) rest

/-- The absolute path that a path leads to, and what stands there. -/
def find (t : Tree) (p : Path) : Except FileFault (Path × Option Node) :=
  let full := t.workingDirectory.below p
  t.walk ⟨full.root, []⟩ full.names

def isDirectory (t : Tree) (p : Path) : Bool :=
  match t.find p with
  | .ok (_, some .directory) => true
  | _ => false

/-- Whether a path leads to a file; a name that is too long is a fault. -/
def isFile (t : Tree) (p : Path) : Except FileFault Bool :=
  match t.find p with
  | .ok (_, some (.file _)) => .ok true
  | .error .nameTooLong => .error .nameTooLong
  | _ => .ok false

def read (t : Tree) (p : Path) : Except FileFault ByteArray :=
  match t.find p with
  | .ok (_, some (.file content)) => .ok content
  | .ok (_, some .directory) => .error .isDirectory
  | .ok (_, none) => .error .missing
  | .error fault => .error fault

/-- The tree with a node at an absolute path; what stood there is replaced. -/
def put (t : Tree) (p : Path) (n : Node) : Tree :=
  if t.nodes.any (·.1 == p) then
    { t with nodes := t.nodes.map fun entry => if entry.1 == p then (p, n) else entry }
  else { t with nodes := t.nodes ++ [(p, n)] }

/-- Makes one directory; one that is already there is fine. -/
def makeDirectory (t : Tree) (p : Path) : Except FileFault Tree :=
  match t.find p with
  | .error fault => .error fault
  | .ok (_, some .directory) => .ok t
  | .ok (_, some (.file _)) => .error .taken
  | .ok (full, none) => .ok (t.put full .directory)

/-- Makes the directory of the given names, last one first: those above it are made only if it cannot be made
without them. What has been made stays, also where a later step fails. -/
def makeUpward (t : Tree) (root : String) : List String → Tree × Option FileError
  | [] => (t, none)
  | name :: above =>
    let p : Path := ⟨root, (name :: above).reverse⟩
    match t.makeDirectory p with
    | .ok t => (t, none)
    -- the directory above is missing too, so it is made before the second attempt
    | .error .missing =>
      match t.makeUpward root above with
      | (t, some e) => (t, some e)
      | (t, none) =>
        match t.makeDirectory p with
        | .ok t => (t, none)
        | .error fault => (t, some ⟨fault, p⟩)
    | .error fault => (t, some ⟨fault, p⟩)

def makeDirectories (t : Tree) (p : Path) : Tree × Option FileError := t.makeUpward p.root p.names.reverse

def write (t : Tree) (p : Path) (content : ByteArray) : Except FileFault Tree :=
  match t.find p with
  | .ok (_, some .directory) => .error .isDirectory
  | .ok (full, _) => .ok (t.put full (.file content))
  | .error fault => .error fault

/-- The files of a tree in the order of their paths. -/
def files (t : Tree) : List (Path × ByteArray) :=
  Path.sortBy (·.1) (t.nodes.filterMap fun entry =>
    match entry.2 with
    | .file content => some (entry.1, content)
    | .directory => none)

/-- The files below a directory, by their paths from there. -/
def filesBelow (t : Tree) (base : Path) : List (Path × ByteArray) :=
  let full := t.workingDirectory.absolute base
  t.files.filterMap fun entry =>
    if entry.1.root = full.root ∧ full.names.isPrefixOf entry.1.names then
      some (.ofNames (entry.1.names.drop full.names.length), entry.2)
    else none

end Tree

end Tablewright
