import Tablewright.Proofs.Plan.Imports

/-!
# Modules that can be imported

A module can be imported by name if its file and the directories that lead to it are named by identifiers, none of
which is a keyword.  The modules of a plan are named after its types in snake case, which leaves the letters and digits
of ASCII, in small letters.  So a type needs a letter before its first digit, and must not be spelled like a keyword.

* `Importable`: the names of types that have such a module.
* `Source.Import.WellNamed`: the imports that name such modules.
* `plan_importable`: a plan can be imported if and only if its types have such names.
-/

namespace Tablewright

open Access
open Source (Import)

/-! ## Names of modules -/

/-- The first letter or digit of a name is a letter, and in snake case it is no keyword. -/
def Importable (name : String) : Prop :=
  (name.toList.find? Text.isWordChar).any Char.isAlpha ∧ Name.isKeyword (moduleName name) = false

instance (name : String) : Decidable (Importable name) := inferInstanceAs (Decidable (_ ∧ _))

theorem isPackagePart_moduleName (name : String) : Name.isPackagePart (moduleName name) ↔ Importable name := by
  rw [Name.isPackagePart, Bool.and_eq_true, Bool.not_eq_true', moduleName, Name.isIdentifier_snakeCase]
  rfl

theorem Importable.keys {name : String} (importable : Importable name) : Importable (keysClass name) :=
  (isPackagePart_moduleName _).mp
    (Name.isPackagePart_append capitalised_keys ((isPackagePart_moduleName name).mpr importable))

theorem Importable.validator {name : String} (importable : Importable name) : Importable (validatorClass name) :=
  (isPackagePart_moduleName _).mp
    (Name.isPackagePart_append capitalised_validator ((isPackagePart_moduleName name).mpr importable))

theorem Importable.repository {name : String} (importable : Importable name) : Importable (repositoryClass name) :=
  (isPackagePart_moduleName _).mp
    (Name.isPackagePart_append capitalised_repository ((isPackagePart_moduleName name).mpr importable))

/-! ## Imports -/

/-- Every dotted part of the module of an import is an identifier and no keyword. -/
def Source.Import.WellNamed (i : Import) : Prop := ∀ part ∈ i.parts, Name.isPackagePart part

instance (i : Import) : Decidable i.WellNamed := inferInstanceAs (Decidable (∀ part ∈ i.parts, _))

theorem wellNamed_of_outside {i : Import} (outside : i.module ∈ outsideModules) : i.WellNamed := by
  have all : ∀ module ∈ outsideModules, ∀ part ∈ (Import.mk module []).parts, Name.isPackagePart part := by
    decide
  exact all i.module outside

theorem isPackagePart_of_mem_subPackages : ∀ sub ∈ subPackages, Name.isPackagePart sub := by decide

theorem wellNamed_single {i : Import} {name : String} (dots : Nat) (importable : Importable name)
    (module : i.module.toList = List.replicate dots '.' ++ (moduleName name).toList) : i.WellNamed := by
  obtain ⟨-, -, parts⟩ := Import.reads_single (moduleName_stem name).undotted module
  rw [Import.WellNamed, parts]
  exact List.forall_mem_singleton.mpr ((isPackagePart_moduleName name).mpr importable)

theorem wellNamed_pair {i : Import} {sub name : String} (dots : Nat) (known : sub ∈ subPackages)
    (importable : Importable name)
    (module : i.module.toList = List.replicate dots '.' ++ (sub ++ "." ++ moduleName name).toList) : i.WellNamed := by
  obtain ⟨-, parts⟩ := Import.reads_pair (subPackages_nonempty sub known) (subPackages_undotted known)
    (moduleName_stem name).undotted module
  rw [Import.WellNamed, parts]
  exact List.forall_mem_cons.mpr ⟨isPackagePart_of_mem_subPackages sub known,
    List.forall_mem_singleton.mpr ((isPackagePart_moduleName name).mpr importable)⟩

theorem wellNamed_across {i : Import} {sub name : String} (known : sub ∈ subPackages) (importable : Importable name)
    (module : i.module = ".." ++ sub ++ "." ++ moduleName name) : i.WellNamed := by
  refine wellNamed_pair 2 known importable ?_
  rw [module]
  simp

theorem wellNamed_client : Import.WellNamed ⟨s!"..{clientPackage}.{clientModule}", [clientClass]⟩ := by
  decide

/-! ## Imports of emitted files -/

section

variable {e : Entity} (importable : ∀ name ∈ e.types, Importable name)
include importable

theorem importable_entity : Importable e.name := importable e.name (by simp [Entity.types_eq])

theorem importable_nested {name : String} (nested : name ∈ e.nestedTypes) : Importable name :=
  importable name (by rw [Entity.types_eq]; exact List.mem_cons_of_mem _ nested)

variable {s : Schema} (describes : Describes s e)
include describes

/-- The modules of records import modules of nested types. -/
theorem recordModule_wellNamed {r : Record} (member : r ∈ e.record :: e.nested) {i : Import}
    (imported : i ∈ (recordModule e.enums r).value.imported) : i.WellNamed := by
  rcases recordModule_imported imported with outside | ⟨name, mentioned, rfl⟩
  · exact wellNamed_of_outside outside
  · obtain ⟨f, inRecord, mentions⟩ := (recordUsage_types _ _).mp mentioned
    have nested := (describes.provided member inRecord).mem_nestedTypes mentions
    have named := importable_nested importable nested
    -- an entity names the sub-package, its neighbours in there do not
    cases isEntity : r.isEntity with
    | true =>
      have known : nestedPackage ∈ subPackages := by decide
      refine wellNamed_pair 1 known named ?_
      simp [nestedModule, isEntity, moduleName]
    | false =>
      refine wellNamed_single 1 named ?_
      simp [nestedModule, isEntity, moduleName]

theorem repositoryModule_wellNamed {t : Table} {i : Import} (imported : i ∈ (repositoryModule e t).value.imported) :
    i.WellNamed := by
  have entity := importable_entity importable
  rcases repositoryModule_imported imported with outside | rfl | ⟨type, mentioned, rfl⟩ | rfl | rfl | rfl
  · exact wellNamed_of_outside outside
  · exact wellNamed_across (by decide) entity.keys rfl
  · obtain ⟨k, known, mentions⟩ := (repositoryUsage_types _ _ _).mp mentioned
    have nested := (repositoryKeys_provided describes known).mem_nestedTypes mentions
    exact wellNamed_across (by decide) (importable_nested importable nested) rfl
  · exact wellNamed_single 2 entity (by simp)
  · exact wellNamed_across (by decide) entity.validator rfl
  · exact wellNamed_client

omit describes

theorem validatorModule_wellNamed {i : Import} (imported : i ∈ (validatorModule e).value.imported) : i.WellNamed := by
  rcases validatorModule_imported imported with outside | rfl | rfl
  · exact wellNamed_of_outside outside
  · exact wellNamed_single 2 (importable_entity importable) (by simp)
  · decide

end

section

variable {n : Namespace} {entities : List Entity} {table : Option Table} {s : SourceFile}
  (importable : ∀ e ∈ entities, ∀ name ∈ e.types, Importable name) (emitted : Emitted n entities table s)
include importable emitted

theorem Emitted.wellNamed (described : ∀ e ∈ entities, ∃ s, Describes s e) :
    ∀ tree ∈ s.tree, ∀ i ∈ tree.imported, i.WellNamed := by
  -- relative imports lead to types; all others go outside of the batch
  cases emitted with
  | @entity e member =>
    rintro tree ⟨⟩ i imported
    obtain ⟨s, describes⟩ := described e member
    exact recordModule_wellNamed (importable e member) describes List.mem_cons_self imported
  | @nested e member r nested =>
    rintro tree ⟨⟩ i imported
    obtain ⟨s, describes⟩ := described e member
    exact recordModule_wellNamed (importable e member) describes (List.mem_cons_of_mem _ nested) imported
  | enum member enum =>
    rintro tree ⟨⟩ i imported
    exact wellNamed_of_outside (enumModule_imported i imported)
  | keys member =>
    rintro tree ⟨⟩ i imported
    exact wellNamed_of_outside (keysModule_imported table i imported)
  | @validator e member =>
    rintro tree ⟨⟩ i imported
    exact validatorModule_wellNamed (importable e member) imported
  | @repository t given e member =>
    rintro tree ⟨⟩ i imported
    obtain ⟨s, describes⟩ := described e member
    exact repositoryModule_wellNamed (importable e member) describes imported
  | client given =>
    rintro tree ⟨⟩ i imported
    exact wellNamed_of_outside (clientSource_imported i imported)
  | config given =>
    rintro tree ⟨⟩ i imported
    rcases tableConfigModule_imported imported with outside | rfl | ⟨e, member, rfl⟩
    · exact wellNamed_of_outside outside
    · exact wellNamed_client
    · have entity := importable_entity (importable e member)
      exact wellNamed_across (by decide) entity.repository rfl
  | validationError =>
    rintro tree ⟨⟩ i imported
    exact wellNamed_of_outside (validationErrorSource_imported i imported)
  | package needed =>
    rintro tree ⟨⟩

/-- A file that is emitted is named by an identifier that is no keyword. -/
theorem Emitted.stem : ∃ stem, s.path.name = stem ++ ".py" ∧ Name.isPackagePart stem := by
  have named : ∀ {name : String}, Importable name →
      ∃ stem, moduleFile name = stem ++ ".py" ∧ Name.isPackagePart stem := fun importable =>
    ⟨_, rfl, (isPackagePart_moduleName _).mpr importable⟩
  -- a file is called after a type, or has a name of its own
  cases emitted with
  | @entity e member =>
    rw [Path.name_child]
    exact named (importable_entity (importable e member))
  | @nested e member r nested =>
    rw [Path.name_child]
    exact named (importable_nested (importable e member) (List.mem_append_left _ (List.mem_map_of_mem nested)))
  | @enum e member t enum =>
    rw [Path.name_child]
    exact named (importable_nested (importable e member) (List.mem_append_right _ (List.mem_map_of_mem enum)))
  | @keys e member =>
    rw [Path.name_child]
    exact named (importable_entity (importable e member)).keys
  | @validator e member =>
    rw [Path.name_child]
    exact named (importable_entity (importable e member)).validator
  | @repository t given e member =>
    rw [Path.name_child]
    exact named (importable_entity (importable e member)).repository
  | client given =>
    rw [Path.name_child]
    exact ⟨clientModule, rfl, by decide⟩
  | config given =>
    rw [Path.name_child]
    exact ⟨configModule, rfl, by decide⟩
  | validationError =>
    rw [Path.name_child]
    exact ⟨validationErrorModule, rfl, by decide⟩
  | package needed =>
    rw [Path.name_child]
    exact ⟨packageModule, rfl, by decide⟩

end

/-- Every type of a batch has a file that is named after it. -/
theorem exists_emitted_type {n : Namespace} {entities : List Entity} {table : Option Table} {e : Entity}
    (member : e ∈ entities) {name : String} (type : name ∈ e.types) :
    ∃ s, Emitted n entities table s ∧ s.path.name = moduleName name ++ ".py" := by
  rw [Entity.types_eq] at type
  cases List.mem_cons.mp type with
  | inl same =>
    subst same
    exact ⟨_, .entity member, Path.name_child _ _⟩
  | inr nested =>
    obtain ⟨s, emitted, path, -⟩ := @emitted_nestedType n entities table e member name nested
    exact ⟨s, emitted, by rw [path, Path.module, Path.name_child]⟩

/-! ## Imports of a plan -/

/-- The files of a plan and the modules that they import are named by identifiers that are no keywords, if and only if
the types of the batch have importable names. -/
theorem plan_importable {o : Options} {n : Namespace} {schemas : List Schema} {table : Option Table}
    {files : List RenderedFile} (planned : (plan o n schemas table).result = .ok files) :
    ∃ entities sources, (describeBatch schemas table).result = .ok entities ∧
      (planSources n schemas table).result = .ok sources ∧ List.Forall₂ (SourceFile.Rendering o) sources files ∧
      (((∀ f ∈ files, ∃ stem, f.path.name = stem ++ ".py" ∧ Name.isPackagePart stem) ∧
          ∀ s ∈ sources, ∀ tree ∈ s.tree, ∀ i ∈ tree.imported, i.WellNamed) ↔
        ∀ e ∈ entities, ∀ name ∈ e.types, Importable name) := by
  obtain ⟨entities, described, rendered⟩ := plan_ok planned
  refine ⟨entities, _, describeBatch_ok.mpr described, planSources_ok.mpr ⟨entities, described, rfl⟩, rendered, ?_⟩
  have paths := SourceFile.Rendering.paths rendered
  constructor
  · rintro ⟨stems, -⟩ e member name type
    obtain ⟨s, emitted, path⟩ := @exists_emitted_type n entities table e member name type
    have planned : s.path ∈ files.map (·.path) := paths ▸ List.mem_map_of_mem (mem_sources_iff.mpr emitted)
    obtain ⟨f, inFiles, same⟩ := List.mem_map.mp planned
    obtain ⟨stem, named, part⟩ := stems f inFiles
    rw [same, path, String.append_left_inj] at named
    exact (isPackagePart_moduleName name).mp (named ▸ part)
  · intro importable
    constructor
    · intro f inFiles
      have planned : f.path ∈ (Path.sortBy (·.path) (batchSources n entities table)).map (·.path) :=
        paths ▸ List.mem_map_of_mem inFiles
      obtain ⟨s, member, same⟩ := List.mem_map.mp planned
      rw [← same]
      exact (mem_sources_iff.mp member).stem importable
    · intro s member
      exact (mem_sources_iff.mp member).wellNamed importable fun e => described.describes

theorem shopPlan_importable : ∃ files sources,
    (plan .unformatted shopNamespace [shopOrder] (some shopTable)).result = .ok files ∧
      List.Forall₂ (SourceFile.Rendering .unformatted) sources files ∧
      (∀ f ∈ files, ∃ stem, f.path.name = stem ++ ".py" ∧ Name.isPackagePart stem) ∧
      ∀ s ∈ sources, ∀ tree ∈ s.tree, ∀ i ∈ tree.imported, i.WellNamed := by
  obtain ⟨files, planned⟩ := shopPlan_ok
  obtain ⟨entities, sources, described, -, rendered, importable⟩ := plan_importable planned
  have checked : (describeBatch [shopOrder] (some shopTable)).result.toOption.any (fun entities =>
      decide (∀ e ∈ entities, ∀ name ∈ e.types, Importable name)) = true := by decide +kernel
  rw [described] at checked
  exact ⟨files, sources, planned, rendered, importable.mpr (of_decide_eq_true checked)⟩

/-- An entity whose name is an identifier and no keyword, but is spelled like one. -/
def classSchema : Schema :=
  { entityName := some "Class"
    primaryKey := ⟨"id", none⟩
    fields := [bareField "id" "string"]
    description := none
    schemaVersion := none }

/-- Such an entity is planned in a module that cannot be imported. -/
theorem classPlan_unimportable : ¬ ∀ o n schemas table files, (plan o n schemas table).result = .ok files →
    (∀ s ∈ schemas, Name.isPackagePart s.name) →
    ∀ f ∈ files, ∃ stem, f.path.name = stem ++ ".py" ∧ Name.isPackagePart stem := by
  intro importable
  have checked : (plan .unformatted shopNamespace [classSchema] none).result.toOption.any (fun files =>
      files.any fun f => f.path.name == "class.py") = true := by decide +kernel
  cases outcome : (plan .unformatted shopNamespace [classSchema] none).result with
  | error failure =>
    rw [outcome] at checked
    cases checked
  | ok files =>
    rw [outcome] at checked
    obtain ⟨f, inFiles, named⟩ := List.any_eq_true.mp checked
    obtain ⟨stem, stemmed, part⟩ := importable _ _ _ _ files outcome (by decide +kernel) f inFiles
    have stem : "class" ++ ".py" = stem ++ ".py" := (beq_iff_eq.mp named).symm.trans stemmed
    rw [← (String.append_left_inj _).mp stem] at part
    exact absurd part (by decide)

end Tablewright
