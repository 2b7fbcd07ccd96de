import Tablewright.Failure
import Tablewright.Files.Path
import Tablewright.Format.Basic
import Tablewright.Plan.Emitter
import Tablewright.Text.Classes

/-!
# Rendered files

The text of one generated file.

* `Options`: whether and how source is laid out; `RenderedFile`: a file with its text.
* `Attempt`: values with notices, unless a failure comes first.
* `layOut`: source laid out, or as it is if it cannot be.
* `renderFile`: the file of a kind and a path.
-/

namespace Tablewright

/-- Whether source is laid out, and the length of its lines. -/
structure Options where
  formats : Bool
  lineLength : Int
  deriving DecidableEq, Repr

/-- The usual layout. -/
def Options.standard : Options := ⟨true, 120⟩

/-- A generated file: its path below the output directory, its text and its kind. -/
structure RenderedFile where
  path : Path
  content : String
  category : Category
  deriving DecidableEq, Repr

/-- Values with the notices of their computation, up to the first failure. -/
abbrev Attempt := ExceptT Failure Noted

namespace Attempt

def tell (n : Notice) : Attempt Unit := ExceptT.lift (Noted.tell n)

def ofNoted {α : Type} (x : Noted α) : Attempt α := ExceptT.lift x

/-- A computation without notices. -/
def ofExcept {α : Type} (x : Except Failure α) : Attempt α := ExceptT.mk (pure x)

end Attempt

/-- Source laid out. Blank source stays as it is, and so does source that cannot be laid out, which is
reported. -/
def layOut (lineLength : Int) (path : Path) (code : String) : Noted String :=
  if code.toList.all Text.isBlank then pure code
  else match Format.layOut lineLength code with
    | some laidOut => do
      Noted.tell (.formatted path.text)
      pure laidOut
    | none => do
      Noted.tell .unformattable
      Noted.tell (.leftUnformatted path.text)
      pure code

/-- Source that is not empty ends with a line feed. -/
def endLine (code : String) : String := if code.isEmpty || code.endsWith "\n" then code else code ++ "\n"

/-- The text of a file from its source: modules are laid out where the options ask for it. -/
def finish (o : Options) (path : Path) (code : String) : Noted String :=
  if o.formats && path.suffix == ".py" then layOut o.lineLength path code else pure (endLine code)

/-- The failure to make a file, which is reported. -/
def failFile {α : Type} (path : Path) (categoryName : String) (m : Material) (lack : Lack) : Attempt α := do
  Attempt.tell (.fileFailed path.text lack.message)
  throw (.notRendered path.text lack.message categoryName (m.entities.head?.map (·.name)))

def renderFile (o : Options) (category : Category) (path : Path) (m : Material) : Attempt RenderedFile := do
  match ← Attempt.ofNoted (category.emitter.source m) with
  | .error lack => failFile path category.name m lack
  | .ok code =>
    let content ← Attempt.ofNoted (finish o path code)
    pure ⟨path, content, category⟩

/-- The file of a kind that is given by name. -/
def renderNamed (o : Options) (categoryName : String) (path : Path) (m : Material) : Attempt RenderedFile :=
  match Category.ofName? categoryName with
  | some category => renderFile o category path m
  | none => failFile path categoryName m (.unknownCategory categoryName)

end Tablewright
