import Tablewright.Proofs.Access.Bindings
import Tablewright.Proofs.Plan.Imports
import Tablewright.Proofs.Schema.Nesting

/-!
# Names that planned modules bind

The check of type names compares types with each other and with a list of imported names.  The list leaves out some
imports, the helper functions and constants of modules, and the classes that are named after an entity, so that a type
can have the name of one of these and replace it in a module that needs both.

* `Entity.Unshadowed`: no type of the entity has such a name.
* `plan_bindsOnce`: all modules of a plan bind their names once if and only if this holds for all entities.
-/

namespace Tablewright

open Access

/-! ## Types of a module -/

theorem Unclashing.types_nodup {entities : List Entity} (unclashing : Unclashing entities) {e : Entity}
    (member : e ∈ entities) : e.types.Nodup :=
  List.Nodup.of_map moduleName ((List.nodup_flatMap.mp unclashing.modules).1 e member)

section

variable {s : Schema} {e : Entity} (describes : Describes s e) (distinct : e.types.Nodup)
include describes distinct

/-- A nested record mentions records before it only, so not itself. -/
theorem Describes.name_notMem_references {r : Record} (nested : r ∈ e.nested) : r.name ∉ r.references := by
  intro mentioned
  obtain ⟨before, after, split⟩ := List.append_of_mem nested
  have ordered : Record.Ordered e.nested := describes.nested ▸ describes.collects.ordered
  have earlier := ordered before r after split mentioned
  rw [Entity.types_eq, split, List.nodup_cons, List.map_append, List.map_cons, List.append_assoc] at distinct
  exact (List.nodup_append'.mp distinct.2).2.2 earlier List.mem_cons_self

/-- The types that the module of a record binds are different. -/
theorem recordTypes_nodup {r : Record} (member : r ∈ e.record :: e.nested) : (recordTypes r).Nodup := by
  refine List.nodup_cons.mpr ⟨fun mentioned => ?_, Text.sortNames_nodup _⟩
  obtain ⟨f, inRecord, mentions⟩ := (recordUsage_types r r.name).mp mentioned
  have types := distinct
  rw [Entity.types_eq, List.nodup_cons, List.nodup_append'] at types
  cases List.mem_cons.mp member with
  | inl same =>
    subst same
    exact types.1 ((describes.provided member inRecord).mem_nestedTypes mentions)
  | inr nested =>
    cases mentions with
    | inl isRecord =>
      exact describes.name_notMem_references distinct nested (List.mem_flatMap.mpr ⟨f, inRecord, isRecord⟩)
    | inr isEnum =>
      have enum := (describes.provided member inRecord).enums r.name isEnum
      exact types.2.2.2 (List.mem_map_of_mem nested) enum

theorem repositoryTypes_nodup (t : Table) : (repositoryTypes e t).Nodup := by
  refine List.nodup_cons.mpr ⟨fun mentioned => ?_, Text.sortNames_nodup _⟩
  obtain ⟨k, known, mentions⟩ := (repositoryUsage_types e t e.name).mp mentioned
  rw [Entity.types_eq, List.nodup_cons] at distinct
  exact distinct.1 ((repositoryKeys_provided describes known).mem_nestedTypes mentions)

omit distinct

theorem recordTypes_subset {r : Record} (member : r ∈ e.record :: e.nested) : recordTypes r ⊆ e.types := by
  rw [Entity.types_eq]
  intro name isType
  cases List.mem_cons.mp isType with
  | inl itself =>
    subst itself
    cases List.mem_cons.mp member with
    | inl same => exact same ▸ List.mem_cons_self
    | inr nested => exact List.mem_cons_of_mem _ (List.mem_append_left _ (List.mem_map_of_mem nested))
  | inr mentioned =>
    obtain ⟨f, inRecord, mentions⟩ := (recordUsage_types r name).mp mentioned
    exact List.mem_cons_of_mem _ ((describes.provided member inRecord).mem_nestedTypes mentions)

theorem repositoryTypes_subset (t : Table) : repositoryTypes e t ⊆ e.types := by
  rw [Entity.types_eq]
  refine List.cons_subset_cons _ fun name mentioned => ?_
  obtain ⟨k, known, mentions⟩ := (repositoryUsage_types e t name).mp mentioned
  exact (repositoryKeys_provided describes known).mem_nestedTypes mentions

end

/-! ## Plans -/

/-- No type of an entity has a name that a module binds beside it and the check of type names does not know. -/
structure Entity.Unshadowed (e : Entity) (table : Option Table) : Prop where
  record : ∀ r ∈ e.record :: e.nested, ∀ name ∈ recordTypes r, name ∉ recordHelpers r
  validator : e.name ∉ validatorHelpers e
  repository : ∀ t ∈ table, ∀ name ∈ repositoryTypes e t, name ∉ repositoryHelpers e t

instance (e : Entity) (table : Option Table) : Decidable (e.Unshadowed table) :=
  decidable_of_iff (_ ∧ _ ∧ ∀ t ∈ table, _) ⟨fun ⟨record, validator, repository⟩ => ⟨record, validator, repository⟩,
    fun ⟨record, validator, repository⟩ => ⟨record, validator, repository⟩⟩

section

variable {n : Namespace} {entities : List Entity} {table : Option Table} {e : Entity} (unclashing : Unclashing entities)
  (described : ∀ e ∈ entities, ∃ s, Describes s e) (member : e ∈ entities)
include unclashing described member

theorem record_bindsOnce {r : Record} (inEntity : r ∈ e.record :: e.nested) :
    (recordModule e.enums r).value.BindsOnce ↔ ∀ name ∈ recordTypes r, name ∉ recordHelpers r := by
  obtain ⟨s, describes⟩ := described e member
  have distinct := recordTypes_nodup describes (unclashing.types_nodup member) inEntity
  refine recordModule_bindsOnce distinct fun name isType => ?_
  exact unclashing.notImported e member name (recordTypes_subset describes inEntity isType)

theorem repository_bindsOnce (t : Table) :
    (repositoryModule e t).value.BindsOnce ↔ ∀ name ∈ repositoryTypes e t, name ∉ repositoryHelpers e t := by
  obtain ⟨s, describes⟩ := described e member
  have distinct := repositoryTypes_nodup describes (unclashing.types_nodup member) t
  refine repositoryModule_bindsOnce distinct fun name isType => ?_
  exact unclashing.notImported e member name (repositoryTypes_subset describes t isType)

omit described

theorem validator_bindsOnce : (validatorModule e).value.BindsOnce ↔ e.name ∉ validatorHelpers e :=
  validatorModule_bindsOnce (unclashing.notImported e member e.name (by simp [Entity.types_eq]))

include described

theorem Entity.Unshadowed.of_bindsOnce (once : ∀ s, Emitted n entities table s → ∀ tree ∈ s.tree, tree.BindsOnce) :
    e.Unshadowed table where
  record r inEntity := by
    refine (record_bindsOnce unclashing described member inEntity).mp ?_
    cases List.mem_cons.mp inEntity with
    | inl same =>
      subst same
      exact once _ (.entity member) _ rfl
    | inr nested => exact once _ (.nested member nested) _ rfl
  validator := (validator_bindsOnce unclashing member).mp (once _ (.validator member) _ rfl)
  repository t given :=
    (repository_bindsOnce unclashing described member t).mp (once _ (.repository given member) _ rfl)

omit member

/-- Only the modules of records, validators and repositories depend on what types are called. -/
theorem Emitted.bindsOnce {s : SourceFile} (emitted : Emitted n entities table s)
    (unshadowed : ∀ e ∈ entities, e.Unshadowed table) : ∀ tree ∈ s.tree, tree.BindsOnce := by
  -- only modules with types in them can bind a name twice
  cases emitted with
  | @entity e member =>
    rintro tree ⟨⟩
    have inEntity : e.record ∈ e.record :: e.nested := List.mem_cons_self
    exact (record_bindsOnce unclashing described member inEntity).mpr ((unshadowed e member).record _ inEntity)
  | @nested e member r nested =>
    rintro tree ⟨⟩
    have inEntity : r ∈ e.record :: e.nested := List.mem_cons_of_mem _ nested
    exact (record_bindsOnce unclashing described member inEntity).mpr ((unshadowed e member).record r inEntity)
  | @enum e member t enum =>
    rintro tree ⟨⟩
    have isType : t.name ∈ e.types := by
      rw [Entity.types_eq]
      exact List.mem_cons_of_mem _ (List.mem_append_right _ (List.mem_map_of_mem enum))
    exact enumModule_bindsOnce (unclashing.notImported e member t.name isType)
  | @keys e member =>
    rintro tree ⟨⟩
    exact keysModule_bindsOnce e table
  | @validator e member =>
    rintro tree ⟨⟩
    exact (validator_bindsOnce unclashing member).mpr (unshadowed e member).validator
  | @repository t given e member =>
    rintro tree ⟨⟩
    exact (repository_bindsOnce unclashing described member t).mpr ((unshadowed e member).repository t given)
  | client given =>
    rintro tree ⟨⟩
    exact clientSource_bindsOnce
  | config given =>
    rintro tree ⟨⟩
    exact tableConfigModule_bindsOnce unclashing.entityModules
  | validationError =>
    rintro tree ⟨⟩
    exact validationErrorSource_bindsOnce
  | package needed =>
    rintro tree ⟨⟩

end

/-- The modules of a plan bind each of their names once, if and only if no type of the batch has the name of something
beside it that the check of type names does not know. -/
theorem plan_bindsOnce {o : Options} {n : Namespace} {schemas : List Schema} {table : Option Table}
    {files : List RenderedFile} (planned : (plan o n schemas table).result = .ok files) :
    ∃ entities sources, (describeBatch schemas table).result = .ok entities ∧
      (planSources n schemas table).result = .ok sources ∧ List.Forall₂ (SourceFile.Rendering o) sources files ∧
      ((∀ s ∈ sources, ∀ tree ∈ s.tree, tree.BindsOnce) ↔ ∀ e ∈ entities, e.Unshadowed table) := by
  obtain ⟨entities, described, rendered⟩ := plan_ok planned
  refine ⟨entities, _, describeBatch_ok.mpr described, planSources_ok.mpr ⟨entities, described, rfl⟩, rendered, ?_⟩
  have unclashing := checkTypeNames_ok.mp described.typesChecked
  have describes : ∀ e ∈ entities, ∃ s, Describes s e := fun e => described.describes
  constructor
  · intro once e member
    refine .of_bindsOnce (n := n) unclashing describes member fun s emitted => ?_
    exact once s (mem_sources_iff.mpr emitted)
  · intro unshadowed s member
    exact (mem_sources_iff.mp member).bindsOnce unclashing describes unshadowed

theorem shopPlan_bindsOnce : ∃ files sources,
    (plan .unformatted shopNamespace [shopOrder] (some shopTable)).result = .ok files ∧
      List.Forall₂ (SourceFile.Rendering .unformatted) sources files ∧
      ∀ s ∈ sources, ∀ tree ∈ s.tree, tree.BindsOnce := by
  obtain ⟨files, planned⟩ := shopPlan_ok
  obtain ⟨entities, sources, described, -, rendered, once⟩ := plan_bindsOnce planned
  have checked : (describeBatch [shopOrder] (some shopTable)).result.toOption.any (fun entities =>
      decide (∀ e ∈ entities, e.Unshadowed (some shopTable))) = true := by decide +kernel
  rw [described] at checked
  exact ⟨files, sources, planned, rendered, once.mpr (of_decide_eq_true checked)⟩

/-- An entity with an enum as its key, whose type has the name of the key helper. -/
def keyedOrder : Schema :=
  { entityName := some "Order"
    primaryKey := ⟨"keys", none⟩
    fields := [{ bareField "keys" "string" with required := true, enumValues := ["own"] }]
    description := none
    schemaVersion := none }

/-- The repository of such an entity is planned with two imports of one name. -/
theorem keyedOrderPlan_rebinds : ¬ ∀ o n schemas table files sources, (plan o n schemas table).result = .ok files →
    (planSources n schemas table).result = .ok sources → ∀ s ∈ sources, ∀ tree ∈ s.tree, tree.BindsOnce := by
  intro once
  have checked : (plan .unformatted shopNamespace [keyedOrder] (some shopTable)).result.isOk = true := by decide +kernel
  have rebound : (planSources shopNamespace [keyedOrder] (some shopTable)).result.toOption.any (fun sources =>
      sources.any fun s => s.tree.toList.any fun tree => !decide tree.BindsOnce) = true := by decide +kernel
  cases outcome : (plan .unformatted shopNamespace [keyedOrder] (some shopTable)).result with
  | error failure =>
    rw [outcome] at checked
    cases checked
  | ok files =>
    cases planned : (planSources shopNamespace [keyedOrder] (some shopTable)).result with
    | error failure =>
      rw [planned] at rebound
      cases rebound
    | ok sources =>
      rw [planned] at rebound
      obtain ⟨s, inPlan, rebinds⟩ := List.any_eq_true.mp rebound
      obtain ⟨tree, inFile, twice⟩ := List.any_eq_true.mp rebinds
      have boundOnce := once _ _ _ _ files sources outcome planned s inPlan tree (Option.mem_toList.mp inFile)
      simp [boundOnce] at twice

end Tablewright
