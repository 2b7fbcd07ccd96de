import Tablewright.Files.Path
import Tablewright.Plan.Batch
import Tablewright.Proofs.Text.Pieces
import Tablewright.Source.Syntax

/-!
# Imports and what they refer to

The imports of a module and how they are looked up.  A relative import starts with dots: one for the
package of the importing file, one more for every package around it.  What follows the dots leads from
there to a package or to a module; of a package and a module with one name, the package is found.

* `Import`, `Stmt.imports`, `Module.imports`: the imports of a module, wherever they stand in it.
* `Stmt.imported`, `Module.imported`: the same with the modules that are imported whole.
* `Import.level`, `Import.parts`: the dots of an import, and the dotted parts after them.
* `Import.target?`: the file that a relative import refers to.
-/

namespace Tablewright.Source

/-! ## Imports of a module -/

/-- An import of names from a module. -/
structure Import where
  module : String
  names : List String
  deriving DecidableEq, Repr

mutual

/-- The imports of a statement and of the statements in it. -/
def Stmt.imports : Stmt → List Import
  | .importFrom module names => [⟨module, names⟩]
  | .ifThen _ body => importsAll body
  | .forIn _ _ body => importsAll body
  | .loop _ body => importsAll body
  | .withBlock _ body => importsAll body
  | .function _ _ body => importsAll body
  | .classDef _ _ _ _ body => importsAll body
  | _ => []

def importsAll : List Stmt → List Import
  | [] => []
  | s :: rest => s.imports ++ importsAll rest

end

def Module.imports (m : Module) : List Import := importsAll m.body

mutual

/-- What a statement and the statements in it import; a module that is imported whole gives no names. -/
def Stmt.imported : Stmt → List Import
  | .importModule module => [⟨module, []⟩]
  | .importFrom module names => [⟨module, names⟩]
  | .ifThen _ body => importedAll body
  | .forIn _ _ body => importedAll body
  | .loop _ body => importedAll body
  | .withBlock _ body => importedAll body
  | .function _ _ body => importedAll body
  | .classDef _ _ _ _ body => importedAll body
  | _ => []

def importedAll : List Stmt → List Import
  | [] => []
  | s :: rest => s.imported ++ importedAll rest

end

def Module.imported (m : Module) : List Import := importedAll m.body

mutual

theorem Stmt.imports_subset : (s : Stmt) → s.imports ⊆ s.imported
  | .importFrom _ _ => List.Subset.refl _
  | .ifThen _ body => importsAll_subset body
  | .forIn _ _ body => importsAll_subset body
  | .loop _ body => importsAll_subset body
  | .withBlock _ body => importsAll_subset body
  | .function _ _ body => importsAll_subset body
  | .classDef _ _ _ _ body => importsAll_subset body
  | .importModule _ => List.nil_subset _
  | .expr _ | .assign _ _ | .annotated _ _ _ | .increase _ _ | .result _ | .raise _ | .pass | .global _ =>
    List.Subset.refl _

theorem importsAll_subset : (body : List Stmt) → importsAll body ⊆ importedAll body
  | [] => List.Subset.refl _
  | s :: rest => by
    rw [importsAll, importedAll]
    exact List.append_subset.mpr ⟨List.subset_append_of_subset_left _ s.imports_subset,
      List.subset_append_of_subset_right _ (importsAll_subset rest)⟩

end

theorem importedAll_eq (body : List Stmt) : importedAll body = body.flatMap Stmt.imported := by
  induction body with
  | nil => rfl
  | cons s rest ih => rw [importedAll, ih, List.flatMap_cons]

theorem importedAll_eq_nil {body : List Stmt} : importedAll body = [] ↔ ∀ s ∈ body, s.imported = [] := by
  rw [importedAll_eq, List.flatMap_eq_nil_iff]

@[simp] theorem importedAll_nil : importedAll [] = [] := rfl

@[simp] theorem importedAll_cons (s : Stmt) (rest : List Stmt) :
    importedAll (s :: rest) = s.imported ++ importedAll rest := rfl

@[simp] theorem importedAll_append (body more : List Stmt) :
    importedAll (body ++ more) = importedAll body ++ importedAll more := by
  simp only [importedAll_eq, List.flatMap_append]

@[simp] theorem imported_importFrom (module : String) (names : List String) :
    (Stmt.importFrom module names).imported = [⟨module, names⟩] := by
  rw [Stmt.imported]

@[simp] theorem imported_importModule (module : String) : (Stmt.importModule module).imported = [⟨module, []⟩] := by
  rw [Stmt.imported]

/-- What a list of import statements imports, one for every item. -/
theorem importedAll_importFrom {α : Type} (module : α → String) (name : α → String) (items : List α) :
    importedAll (items.map fun a => .importFrom (module a) [name a]) = items.map fun a => ⟨module a, [name a]⟩ := by
  induction items with
  | nil => rfl
  | cons a rest ih =>
    rw [List.map_cons, importedAll_cons, ih, imported_importFrom, List.map_cons, List.singleton_append]

/-! ## Look-up -/

namespace Import

def level (i : Import) : Nat := (i.module.toList.takeWhile (· == '.')).length

def rest (i : Import) : String := String.ofList (i.module.toList.dropWhile (· == '.'))

/-- The dotted parts after the dots. -/
def parts (i : Import) : List String := Text.split '.' i.rest

def IsRelative (i : Import) : Prop := 0 < i.level ∧ i.rest ≠ ""

/-- The dots and the text after them, if that does not start with a dot. -/
theorem level_rest {i : Import} {dots : Nat} {rest : String} (start : rest.toList.head? ≠ some '.')
    (module : i.module.toList = List.replicate dots '.' ++ rest.toList) : i.level = dots ∧ i.rest = rest := by
  -- the text after the dots stops the run of dots at once
  have stops : rest.toList.takeWhile (· == '.') = [] ∧ rest.toList.dropWhile (· == '.') = rest.toList := by
    cases chars : rest.toList with
    | nil => simp
    | cons c cs =>
      have different : c ≠ '.' := by simpa [chars] using start
      simp [different]
  have dotted : ∀ c ∈ List.replicate dots '.', (c == '.') = true := by simp
  rw [level, Import.rest, module, List.takeWhile_append_of_pos dotted, List.dropWhile_append_of_pos dotted, stops.1,
    stops.2]
  simp

/-- An import of one part without dots. -/
theorem reads_single {i : Import} {dots : Nat} {stem : String} (undotted : '.' ∉ stem.toList)
    (module : i.module.toList = List.replicate dots '.' ++ stem.toList) :
    i.level = dots ∧ i.rest = stem ∧ i.parts = [stem] := by
  have start : stem.toList.head? ≠ some '.' := fun head => undotted (List.mem_of_head? head)
  obtain ⟨level, rest⟩ := level_rest start module
  exact ⟨level, rest, by rw [parts, rest, Text.split_of_notMem undotted]⟩

/-- An import of two parts without dots, the first of which is not empty. -/
theorem reads_pair {i : Import} {dots : Nat} {dir stem : String} (nonempty : dir ≠ "") (undottedDir : '.' ∉ dir.toList)
    (undotted : '.' ∉ stem.toList)
    (module : i.module.toList = List.replicate dots '.' ++ (dir ++ "." ++ stem).toList) :
    i.level = dots ∧ i.parts = [dir, stem] := by
  have start : (dir ++ "." ++ stem).toList.head? ≠ some '.' := by
    intro head
    obtain ⟨c, cs, chars⟩ := List.exists_cons_of_ne_nil (mt String.toList_eq_nil_iff.mp nonempty)
    simp only [String.toList_append, chars, List.cons_append, List.head?_cons, Option.some.injEq] at head
    exact undottedDir (by rw [chars, head]; exact List.mem_cons_self)
  obtain ⟨level, rest⟩ := level_rest start module
  refine ⟨level, ?_⟩
  rw [parts, rest]
  exact (Text.split_append undottedDir).trans (by rw [Text.split_of_notMem undotted])

/-- The package that the parts of a relative import are looked up in; the first package has none around it. -/
def base? (i : Import) (package : Path) : Option Path :=
  if 0 < i.level ∧ i.level ≤ package.names.length then
    some ⟨package.root, package.names.take (package.names.length + 1 - i.level)⟩
  else none

/-- One dot stands for the package of the file itself. -/
theorem base?_of_level_one {i : Import} {package : Path} (level : i.level = 1) (deep : 0 < package.names.length) :
    i.base? package = some package := by
  rw [base?, level, if_pos ⟨Nat.one_pos, deep⟩, Nat.add_sub_cancel, List.take_length]

/-- Two dots stand for the package around that of the file. -/
theorem base?_of_level_two {i : Import} {package : Path} {sub : String} (level : i.level = 2)
    (deep : 0 < package.names.length) : i.base? (package.child sub) = some package := by
  have length : (package.child sub).names.length = package.names.length + 1 := List.length_append
  rw [base?, level, if_pos ⟨Nat.two_pos, by omega⟩, length]
  show some (Path.mk package.root ((package.names ++ [sub]).take package.names.length)) = some package
  rw [List.take_left]

/-- The file that a relative import of a file refers to, among the files of a plan. -/
def target? (i : Import) (plan : List Path) (file : Path) : Option Path :=
  (i.base? file.parent).bind fun base =>
    let found := base.below (.ofNames i.parts)
    let package := found.child packageFile
    let module := found.parent.child (found.name ++ ".py")
    if package ∈ plan then some package else if module ∈ plan then some module else none

/-- A module of the package around is found from a sub-package, unless a package stands in its way. -/
example :
    let order : Path := .ofNames ["shop", "order.py"]
    let package : Path := .ofNames ["shop", "order", packageFile]
    let validator : Path := .ofNames ["shop", "validators", "order_validator.py"]
    let i : Import := ⟨"..order", ["Order"]⟩
    i.target? [order, validator] validator = some order ∧
      i.target? [order, package, validator] validator = some package := by
  decide

end Import

end Tablewright.Source
