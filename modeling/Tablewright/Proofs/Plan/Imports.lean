import Tablewright.Proofs.Access.Imports
import Tablewright.Proofs.Plan.Layout

/-!
# Imports in planned files

Every relative import of a planned file refers to a planned file that binds the imported names.  The modules
write dots and dotted parts, the planner writes paths; both come down to a directory of the package and the
name of a module in it, and no directory stands in the way of a module.

* `Resolves`: an import refers to a planned file that binds its names.
* `resolves_beside`, `resolves_above`, `resolves_across`, `resolves_below`: how planned files refer to others.
* `plan_importsResolved`: the relative imports of a plan resolve.
-/

namespace Tablewright

open Access
open Source (Import importsAll_subset)

/-- A source whose tree binds some names at its top level. -/
def SourceFile.Binds (s : SourceFile) (names : List String) : Prop :=
  ∃ tree ∈ s.tree, ∀ name ∈ names, name ∈ tree.topLevel

/-- An import of a file refers to one of the sources, and that binds the imported names. -/
def Resolves (sources : List SourceFile) (file : Path) (i : Import) : Prop :=
  ∃ target ∈ sources, i.target? (sources.map (·.path)) file = some target.path ∧ target.Binds i.names

theorem resolves_of_leads {sources : List SourceFile} {target : SourceFile} {file base dir : Path} {stem : String}
    {i : Import} (isBase : i.base? file.parent = some base) (leads : base.below (.ofNames i.parts) = dir.child stem)
    (noPackage : (dir.child stem).child packageFile ∉ sources.map (·.path)) (member : target ∈ sources)
    (path : target.path = dir.module stem) (binds : target.Binds i.names) : Resolves sources file i := by
  have planned : dir.module stem ∈ sources.map (·.path) := path ▸ List.mem_map_of_mem member
  refine ⟨target, member, ?_, binds⟩
  simp only [Import.target?, isBase, Option.bind_some, leads, Path.parent_child, Path.name_child]
  rw [if_neg noPackage]
  exact (if_pos planned).trans (congrArg some path.symm)

/-! ## Files that are referred to -/

section

variable {n : Namespace} {entities : List Entity} {table : Option Table} {e : Entity}

/-- The type of a field or a key mentions types that live beside each other. -/
theorem TypeRef.Provided.mem_nestedTypes {type : TypeRef} (provided : type.Provided e.nested e.enums) {name : String}
    (mentioned : name ∈ type.recordNames ∨ name ∈ type.enumNames) : name ∈ e.nestedTypes := by
  rcases mentioned with record | enum
  · exact List.mem_append_left _ (provided.records name record)
  · exact List.mem_append_right _ (provided.enums name enum)

/-- The module of a nested type defines it. -/
theorem emitted_nestedType (member : e ∈ entities) {name : String} (nested : name ∈ e.nestedTypes) :
    ∃ target, Emitted n entities table target ∧ target.path = (n.path.child nestedPackage).module (moduleName name) ∧
      target.Binds [name] := by
  rcases List.mem_append.mp nested with record | enum
  · obtain ⟨r, inNested, rfl⟩ := List.mem_map.mp record
    have itself := (recordModule_scope e.enums r).itself
    exact ⟨_, .nested member inNested, rfl, _, rfl, List.forall_mem_singleton.mpr itself⟩
  · obtain ⟨t, inEnums, rfl⟩ := List.mem_map.mp enum
    have itself : t.name ∈ (enumModule t).topLevel := List.mem_append_right _ List.mem_cons_self
    exact ⟨_, .enum member inEnums, rfl, _, rfl, List.forall_mem_singleton.mpr itself⟩

theorem binds_entity : SourceFile.Binds ⟨n.path.child (moduleFile e.name), .entity,
    some (recordModule e.enums e.record).value⟩ [e.name] :=
  ⟨_, rfl, List.forall_mem_singleton.mpr (recordModule_scope e.enums e.record).itself⟩

theorem binds_validationError : SourceFile.Binds ⟨(n.path.child validatorsPackage).child (validationErrorModule ++ ".py"),
    .validationError, some validationErrorSource⟩ [violationClass, validationErrorClass] := by
  refine ⟨_, rfl, ?_⟩
  decide

theorem binds_client : SourceFile.Binds ⟨(n.path.child clientPackage).child (clientModule ++ ".py"), .client,
    some clientSource⟩ [clientClass] := by
  refine ⟨_, rfl, ?_⟩
  decide

end

/-! ## Directories of a batch -/

/-- The sources of a batch whose namespace and whose names are accepted. -/
structure AcceptedBatch (n : Namespace) (entities : List Entity) (table : Option Table) (sources : List SourceFile) :
    Prop where
  proper : 0 < n.parts.length
  unclashing : Unclashing entities
  described : ∀ e ∈ entities, ∃ s, Describes s e
  emitted : ∀ {s}, s ∈ sources ↔ Emitted n entities table s
  placed : ∀ p ∈ sources.map (·.path), Placed n p

/-- A text is the namespace of its dotted parts, if these are admissible. -/
theorem readNamespace_ok {text : String} {n : Namespace} :
    readNamespace text = .ok n ↔ Text.split '.' text = n.parts := by
  obtain ⟨parts, valid⟩ := n
  rw [readNamespace, Namespace.ofText]
  by_cases admissible : (Text.split '.' text).all Name.isPackagePart
  · simp only [dif_pos admissible, Except.ok.injEq, Namespace.mk.injEq]
  · simp only [dif_neg admissible, reduceCtorEq, false_iff]
    rintro rfl
    exact admissible valid

theorem Placed.length_le {n : Namespace} {p : Path} (placed : Placed n p) : p.names.length ≤ n.parts.length + 2 := by
  cases placed with
  | around k positive proper =>
    rw [Path.length_names_child, Path.names_ofNames, List.length_take]
    omega
  | inPackage file =>
    rw [Path.length_names_child, Namespace.length_names_path]
    omega
  | inSubPackage sub file known =>
    rw [Path.length_names_child, Path.length_names_child, Namespace.length_names_path]

/-- Every entity of a batch describes one of its schemas. -/
theorem Described.describes {schemas : List Schema} {table : Option Table} {entities : List Entity}
    (described : Described schemas table entities) {e : Entity} (member : e ∈ entities) : ∃ s, Describes s e := by
  obtain ⟨sameLength, pairs⟩ := List.forall₂_iff_get.mp described.described
  obtain ⟨k, short, rfl⟩ := List.mem_iff_getElem.mp member
  exact ⟨_, describe_ok (pairs k (sameLength ▸ short) short)⟩

/-- A directory in the package that a planned file lies in is a sub-package. -/
theorem Placed.known {n : Namespace} {sub file : String} (placed : Placed n ((n.path.child sub).child file)) :
    sub ∈ subPackages := by
  -- the path is no constructor's own, so it is named before the cases are split
  generalize path : (n.path.child sub).child file = p at placed
  have lengths := congrArg (fun p => p.names.length) path
  simp only [Path.length_names_child, Namespace.length_names_path] at lengths
  cases placed with
  | around k positive proper =>
    rw [Path.length_names_child, Path.names_ofNames, List.length_take] at lengths
    omega
  | inPackage file' =>
    rw [Path.length_names_child, Namespace.length_names_path] at lengths
    omega
  | inSubPackage sub' file' known =>
    obtain ⟨dirs, -⟩ := Path.child_inj.mp path
    rwa [(Path.child_inj.mp dirs).2]

theorem ModuleStem.undotted {stem : String} (module : ModuleStem stem) : '.' ∉ stem.toList :=
  fun member => absurd (List.all_eq_true.mp module.chars _ member) (by decide)

theorem subPackages_nonempty : ∀ sub ∈ subPackages, sub ≠ "" := by decide

theorem subPackages_undotted {sub : String} (known : sub ∈ subPackages) : '.' ∉ sub.toList := by
  have undotted : subPackages.all fun sub => !sub.toList.contains '.' := by decide
  simpa using List.all_eq_true.mp undotted sub known

namespace AcceptedBatch

variable {n : Namespace} {entities : List Entity} {table : Option Table} {sources : List SourceFile}
  (batch : AcceptedBatch n entities table sources)
include batch

/-- No directory lies in a sub-package. -/
theorem noPackage_below (sub stem : String) :
    ((n.path.child sub).child stem).child packageFile ∉ sources.map (·.path) := by
  intro member
  have lengths := (batch.placed _ member).length_le
  simp only [Path.length_names_child, Namespace.length_names_path] at lengths
  omega

/-- The package has no directories but its sub-packages. -/
theorem noPackage_beside {stem : String} (notSub : stem ∉ subPackages) :
    (n.path.child stem).child packageFile ∉ sources.map (·.path) :=
  fun member => notSub (batch.placed _ member).known

/-! ## Ways from file to file -/

section

variable {sub dir stem file : String} {i : Import} {target : SourceFile}

/-- One dot leads to a module of the same sub-package. -/
theorem resolves_beside (module : i.module = "." ++ stem) (snake : ModuleStem stem)
    (emitted : Emitted n entities table target) (path : target.path = (n.path.child sub).module stem)
    (binds : target.Binds i.names) : Resolves sources ((n.path.child sub).child file) i := by
  have chars : i.module.toList = List.replicate 1 '.' ++ stem.toList := by
    rw [module, String.toList_append]
    rfl
  obtain ⟨level, -, parts⟩ := Import.reads_single snake.undotted chars
  have isBase : i.base? ((n.path.child sub).child file).parent = some (n.path.child sub) := by
    rw [Path.parent_child]
    exact Import.base?_of_level_one level (by simp)
  refine resolves_of_leads isBase ?_ (batch.noPackage_below sub stem) (batch.emitted.mpr emitted) path binds
  rw [parts]
  rfl

/-- Two dots lead from a sub-package to a module of the package. -/
theorem resolves_above (module : i.module = ".." ++ stem) (snake : ModuleStem stem) (notSub : stem ∉ subPackages)
    (emitted : Emitted n entities table target) (path : target.path = n.path.module stem)
    (binds : target.Binds i.names) : Resolves sources ((n.path.child sub).child file) i := by
  have chars : i.module.toList = List.replicate 2 '.' ++ stem.toList := by
    rw [module, String.toList_append]
    rfl
  obtain ⟨level, -, parts⟩ := Import.reads_single snake.undotted chars
  -- the package around is a package of its own because the namespace has at least one part
  have isBase : i.base? ((n.path.child sub).child file).parent = some n.path := by
    rw [Path.parent_child]
    exact Import.base?_of_level_two level batch.proper
  refine resolves_of_leads isBase ?_ (batch.noPackage_beside notSub) (batch.emitted.mpr emitted) path binds
  rw [parts]
  rfl

/-- Two dots and a sub-package lead from a sub-package to a module of that one. -/
theorem resolves_across (known : dir ∈ subPackages) (module : i.module = ".." ++ dir ++ "." ++ stem)
    (snake : ModuleStem stem) (emitted : Emitted n entities table target)
    (path : target.path = (n.path.child dir).module stem) (binds : target.Binds i.names) :
    Resolves sources ((n.path.child sub).child file) i := by
  have chars : i.module.toList = List.replicate 2 '.' ++ (dir ++ "." ++ stem).toList := by
    rw [module]
    simp
  obtain ⟨level, parts⟩ := Import.reads_pair (subPackages_nonempty dir known) (subPackages_undotted known)
    snake.undotted chars
  have isBase : i.base? ((n.path.child sub).child file).parent = some n.path := by
    rw [Path.parent_child]
    exact Import.base?_of_level_two level batch.proper
  refine resolves_of_leads isBase ?_ (batch.noPackage_below dir stem) (batch.emitted.mpr emitted) path binds
  rw [parts]
  simp [Path.below, Path.ofNames, Path.child]

/-- One dot and a sub-package lead from the package to a module of that one. -/
theorem resolves_below (known : dir ∈ subPackages) (module : i.module = "." ++ dir ++ "." ++ stem)
    (snake : ModuleStem stem) (emitted : Emitted n entities table target)
    (path : target.path = (n.path.child dir).module stem) (binds : target.Binds i.names) :
    Resolves sources (n.path.child file) i := by
  have chars : i.module.toList = List.replicate 1 '.' ++ (dir ++ "." ++ stem).toList := by
    rw [module]
    simp
  obtain ⟨level, parts⟩ := Import.reads_pair (subPackages_nonempty dir known) (subPackages_undotted known)
    snake.undotted chars
  have isBase : i.base? (n.path.child file).parent = some n.path := by
    rw [Path.parent_child]
    exact Import.base?_of_level_one level batch.proper
  refine resolves_of_leads isBase ?_ (batch.noPackage_below dir stem) (batch.emitted.mpr emitted) path binds
  rw [parts]
  simp [Path.below, Path.ofNames, Path.child]

end

/-! ## Imports of every kind of module -/

variable {e : Entity}

/-- An entity module refers to the modules of the nested types that its fields mention. -/
theorem entity_resolves (member : e ∈ entities) {file : String} {i : Import}
    (imported : i ∈ (recordModule e.enums e.record).value.imports) (relative : 0 < i.level) :
    Resolves sources (n.path.child file) i := by
  obtain ⟨s, describes⟩ := batch.described e member
  rcases recordModule_imported (importsAll_subset _ imported) with outside | ⟨name, mentioned, rfl⟩
  · exact absurd (level_of_outside outside) relative.ne'
  · obtain ⟨f, inRecord, mentions⟩ := (recordUsage_types _ _).mp mentioned
    have provided := describes.provided List.mem_cons_self inRecord
    obtain ⟨target, emitted, path, binds⟩ := emitted_nestedType member (provided.mem_nestedTypes mentions)
    have isEntity : e.record.isEntity = true := by rw [Record.isEntity, describes.role]
    refine batch.resolves_below (by decide) ?_ (moduleName_stem name) emitted path binds
    show nestedModule e.record name = _
    rw [nestedModule, if_pos isEntity]
    rfl

/-- The module of a nested record refers to its neighbours. -/
theorem nested_resolves (member : e ∈ entities) {r : Record} (nested : r ∈ e.nested) {file : String} {i : Import}
    (imported : i ∈ (recordModule e.enums r).value.imports) (relative : 0 < i.level) :
    Resolves sources ((n.path.child nestedPackage).child file) i := by
  obtain ⟨s, describes⟩ := batch.described e member
  rcases recordModule_imported (importsAll_subset _ imported) with outside | ⟨name, mentioned, rfl⟩
  · exact absurd (level_of_outside outside) relative.ne'
  · obtain ⟨f, inRecord, mentions⟩ := (recordUsage_types _ _).mp mentioned
    have provided := describes.provided (List.mem_cons_of_mem _ nested) inRecord
    obtain ⟨target, emitted, path, binds⟩ := emitted_nestedType member (provided.mem_nestedTypes mentions)
    have notEntity : ¬ r.isEntity = true := by simp [Record.isEntity, describes.role_nested nested]
    refine batch.resolves_beside ?_ (moduleName_stem name) emitted path binds
    show nestedModule r name = _
    rw [nestedModule, if_neg notEntity]
    rfl

/-- A sub-package refers to an entity beside it. -/
theorem resolves_entity (member : e ∈ entities) {sub file : String} :
    Resolves sources ((n.path.child sub).child file) ⟨".." ++ moduleName e.name, [e.name]⟩ :=
  batch.resolves_above rfl (moduleName_stem e.name) (batch.unclashing.notSubPackage e member) (.entity member) rfl
    binds_entity

/-- A sub-package refers to the connection. -/
theorem resolves_client {t : Table} (given : table = some t) {sub file : String} :
    Resolves sources ((n.path.child sub).child file) ⟨s!"..{clientPackage}.{clientModule}", [clientClass]⟩ :=
  batch.resolves_across (by decide) rfl (by decide) (.client given) rfl binds_client

/-- A validator refers to its entity and to the validation errors. -/
theorem validator_resolves (member : e ∈ entities) {file : String} {i : Import}
    (imported : i ∈ (validatorModule e).value.imports) (relative : 0 < i.level) :
    Resolves sources ((n.path.child validatorsPackage).child file) i := by
  rcases validatorModule_imported (importsAll_subset _ imported) with outside | rfl | rfl
  · exact absurd (level_of_outside outside) relative.ne'
  · exact batch.resolves_entity member
  · exact batch.resolves_beside rfl (by decide) .validationError rfl binds_validationError

/-- A repository refers to the key helper, the entity, the validator, the connection and the nested types of
its key attributes. -/
theorem repository_resolves {t : Table} (given : table = some t) (member : e ∈ entities) {sub file : String}
    {i : Import} (imported : i ∈ (repositoryModule e t).value.imports) (relative : 0 < i.level) :
    Resolves sources ((n.path.child sub).child file) i := by
  obtain ⟨s, describes⟩ := batch.described e member
  rcases repositoryModule_imported (importsAll_subset _ imported) with
    outside | rfl | ⟨type, mentioned, rfl⟩ | rfl | rfl | rfl
  · exact absurd (level_of_outside outside) relative.ne'
  · have itself := (keysModule_scope e table).itself
    exact batch.resolves_across (by decide) rfl (moduleName_stem _) (.keys member) rfl
      ⟨_, rfl, List.forall_mem_singleton.mpr itself⟩
  · obtain ⟨k, known, mentions⟩ := (repositoryUsage_types _ _ _).mp mentioned
    have provided := repositoryKeys_provided describes known
    obtain ⟨target, emitted, path, binds⟩ := emitted_nestedType member (provided.mem_nestedTypes mentions)
    exact batch.resolves_across (by decide) rfl (moduleName_stem type) emitted path binds
  · exact batch.resolves_entity member
  · have itself : validatorClass e.name ∈ (validatorModule e).value.topLevel :=
      (mem_validatorModule_topLevel e _).mpr (by simp)
    exact batch.resolves_across (by decide) rfl (moduleName_stem _) (.validator member) rfl
      ⟨_, rfl, List.forall_mem_singleton.mpr itself⟩
  · exact batch.resolves_client given

/-- The table configuration refers to the connection and to all repositories. -/
theorem config_resolves {t : Table} (given : table = some t) {sub file : String} {i : Import}
    (imported : i ∈ (tableConfigModule t entities).value.imports) (relative : 0 < i.level) :
    Resolves sources ((n.path.child sub).child file) i := by
  rcases tableConfigModule_imported (importsAll_subset _ imported) with outside | rfl | ⟨e, member, rfl⟩
  · exact absurd (level_of_outside outside) relative.ne'
  · exact batch.resolves_client given
  · have itself := repositoryModule_itself e t
    exact batch.resolves_across (by decide) rfl (moduleName_stem _) (.repository given member) rfl
      ⟨_, rfl, List.forall_mem_singleton.mpr itself⟩

/-- The relative imports of every emitted tree resolve. -/
theorem imports_resolve {s : SourceFile} (emitted : Emitted n entities table s) :
    ∀ tree ∈ s.tree, ∀ i ∈ tree.imports, 0 < i.level → Resolves sources s.path i := by
  -- modules that import nothing of the batch have no relative imports
  cases emitted with
  | entity member =>
    rintro tree ⟨⟩ i imported relative
    exact batch.entity_resolves member imported relative
  | nested member nested =>
    rintro tree ⟨⟩ i imported relative
    exact batch.nested_resolves member nested imported relative
  | enum member enum =>
    rintro tree ⟨⟩ i imported relative
    exact absurd (level_of_outside (enumModule_imported i (importsAll_subset _ imported))) relative.ne'
  | keys member =>
    rintro tree ⟨⟩ i imported relative
    exact absurd (level_of_outside (keysModule_imported table i (importsAll_subset _ imported))) relative.ne'
  | validator member =>
    rintro tree ⟨⟩ i imported relative
    exact batch.validator_resolves member imported relative
  | repository given member =>
    rintro tree ⟨⟩ i imported relative
    exact batch.repository_resolves given member imported relative
  | client given =>
    rintro tree ⟨⟩ i imported relative
    exact absurd (level_of_outside (clientSource_imported i (importsAll_subset _ imported))) relative.ne'
  | config given =>
    rintro tree ⟨⟩ i imported relative
    exact batch.config_resolves given imported relative
  | validationError =>
    rintro tree ⟨⟩ i imported relative
    exact absurd (level_of_outside (validationErrorSource_imported i (importsAll_subset _ imported))) relative.ne'
  | package needed =>
    rintro tree ⟨⟩

end AcceptedBatch

/-- Every relative import in a tree of a plan refers to a file of the plan that binds the imported names. -/
theorem plan_importsResolved {o : Options} {text : String} {n : Namespace} {schemas : List Schema}
    {table : Option Table} {files : List RenderedFile} (accepted : readNamespace text = .ok n)
    (planned : (plan o n schemas table).result = .ok files) :
    ∃ sources, (planSources n schemas table).result = .ok sources ∧
      List.Forall₂ (SourceFile.Rendering o) sources files ∧
      ∀ s ∈ sources, ∀ tree ∈ s.tree, ∀ i ∈ tree.imports, i.IsRelative → Resolves sources s.path i := by
  obtain ⟨entities, described, rendered⟩ := plan_ok planned
  have unclashing := checkTypeNames_ok.mp described.typesChecked
  have batch : AcceptedBatch n entities table (Path.sortBy (·.path) (batchSources n entities table)) := by
    have proper : 0 < n.parts.length :=
      readNamespace_ok.mp accepted ▸ List.length_pos_of_ne_nil (Text.split_ne_nil text)
    exact ⟨proper, unclashing, fun e => described.describes, mem_sources_iff,
      (batch_wellLaidOut unclashing).placed⟩
  refine ⟨_, planSources_ok.mpr ⟨entities, described, rfl⟩, rendered, ?_⟩
  intro s member tree inFile i imported relative
  exact batch.imports_resolve (mem_sources_iff.mp member) tree inFile i imported relative.1

theorem shopPlan_importsResolved : ∃ files sources,
    readNamespace "shop.data" = .ok shopNamespace ∧
      (plan .unformatted shopNamespace [shopOrder] (some shopTable)).result = .ok files ∧
      List.Forall₂ (SourceFile.Rendering .unformatted) sources files ∧
      ∀ s ∈ sources, ∀ tree ∈ s.tree, ∀ i ∈ tree.imports, i.IsRelative → Resolves sources s.path i := by
  have accepted : readNamespace "shop.data" = .ok shopNamespace := readNamespace_ok.mpr (by decide +kernel)
  obtain ⟨files, planned⟩ := shopPlan_ok
  obtain ⟨sources, -, rendered, resolved⟩ := plan_importsResolved accepted planned
  exact ⟨files, sources, accepted, planned, rendered, resolved⟩

end Tablewright
