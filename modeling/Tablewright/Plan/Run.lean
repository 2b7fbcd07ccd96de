import Tablewright.Files.Tree
import Tablewright.Plan.Batch
import Tablewright.Trouble

/-!
# Generation runs

Writing the files of a batch below an output directory.

* `writeFile`, `writeFiles`: the files with their directories, up to the first one that cannot be written.
* `generate`: a whole run. Nothing is written unless every file of the batch can be made.
-/

namespace Tablewright

/-- Writes one file, with the directories it lies in. -/
def writeFile (outputDir : Path) (t : Tree) (f : RenderedFile) : Tree × Option FileError :=
  let path := outputDir.below f.path
  match t.makeDirectories path.parent with
  | (t, some e) => (t, some e)
  | (t, none) =>
    match t.write path f.content.toUTF8 with
    | .ok t => (t, none)
    | .error fault => (t, some ⟨fault, path⟩)

/-- Writes files in order, up to the first one that cannot be written. -/
def writeFiles (outputDir : Path) : Tree → List RenderedFile → Noted (Tree × Option FileError)
  | t, [] => pure (t, none)
  | t, f :: rest =>
    match writeFile outputDir t f with
    | (t, some e) => pure (t, some e)
    | (t, none) => do
      Noted.tell (.fileWritten (outputDir.below f.path).text)
      writeFiles outputDir t rest

/-- What a run leaves behind: the tree, and the paths that were written or what ended the run. -/
structure Outcome where
  tree : Tree
  written : Except Trouble (List Path)

/-- Writes the files of a batch and reports their number. -/
def writeBatch (outputDir : String) (t : Tree) (files : List RenderedFile) : Noted Outcome := do
  let directory := Path.ofText outputDir
  match ← writeFiles directory t files with
  | (t, some e) => pure ⟨t, .error (.file e)⟩
  | (t, none) => do
    Noted.tell (.filesWritten files.length outputDir)
    pure ⟨t, .ok (files.map fun f => directory.below f.path)⟩

/-- A run: plans the batch, then writes it. -/
def generate (o : Options) (namespaceText outputDir : String) (schemas : List Schema) (table : Option Table)
    (t : Tree) : Noted Outcome :=
  match readNamespace namespaceText with
  | .error f => pure ⟨t, .error (.failure f)⟩
  | .ok n => do
    match ← (plan o n schemas table).run with
    | .error f => pure ⟨t, .error (.failure f)⟩
    | .ok files => writeBatch outputDir t files

end Tablewright
