import Tablewright.Files.Path
import Tablewright.Name.Reserved

/-!
# Namespaces

The package that generated modules live in.

* `Namespace`: a dotted name all of whose parts are package names.
* `Namespace.ofText`: reads a namespace, refused with the parts that are no package names.
* `Namespace.path`: the directory of the package; `Namespace.packages`: the packages around it.
-/

namespace Tablewright

/-- A dotted package name. -/
structure Namespace where
  parts : List String
  valid : parts.all Name.isPackagePart = true

namespace Namespace

/-- The namespace of a text, or the parts that are no package names. -/
def ofText (s : String) : Except (List String) Namespace :=
  let parts := Text.split '.' s
  if h : parts.all Name.isPackagePart then .ok ⟨parts, h⟩
  else .error (parts.filter fun part => !Name.isPackagePart part)

def path (n : Namespace) : Path := .ofNames n.parts

/-- The packages that a package of the given parts lies in, nearest one first. -/
def enclosing : List String → List Path
  | [] => []
  | first :: rest => (enclosing rest).map (fun p => .ofNames (first :: p.names)) ++
      (if rest.isEmpty then [] else [.ofNames [first]])

/-- The packages that the package lies in, nearest one first. -/
def packages (n : Namespace) : List Path := enclosing n.parts

end Namespace

end Tablewright
