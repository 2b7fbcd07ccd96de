import Tablewright.Proofs.Access.Items
import Tablewright.Proofs.Plan.Acceptance

/-!
# Parts of batches

Batches compose.  What the checks of a batch accept they accept of every part of it, in any order, because they are
about names that differ; and what is emitted for a part is emitted for the whole, because no module but the table
configuration is made from more than one entity.

* `Emitted.mono`: a larger batch emits what a smaller one does.
* `mem_plan`: the files of a plan are the renderings of what is emitted.
* `plan_composes`: parts of a batch, single entities, and reordered batches.
-/

namespace Tablewright

open Access

variable {o : Options} {n : Namespace} {schemas : List Schema} {table : Option Table} {files : List RenderedFile}

/-! ## What a larger batch emits -/

theorem neededPackages_subset {sub entities : List Entity} (inside : sub ⊆ entities) :
    neededPackages sub table ⊆ neededPackages entities table := by
  intro name needed
  simp only [neededPackages, Text.mem_sortNames, List.mem_append, List.mem_ite_nil_right] at needed ⊢
  refine needed.imp_left fun always => always.imp_right fun nested => ⟨?_, nested.2⟩
  obtain ⟨e, inSub, hasTypes⟩ := List.any_eq_true.mp nested.1
  exact List.any_eq_true.mpr ⟨e, inside inSub, hasTypes⟩

/-- A larger batch emits what a smaller one does, but another table configuration. -/
theorem Emitted.mono {sub entities : List Entity} (inside : sub ⊆ entities) {s : SourceFile}
    (emitted : Emitted n sub table s) (notConfig : s.category ≠ .config) : Emitted n entities table s := by
  cases emitted with
  | entity member => exact .entity (inside member)
  | nested member nested => exact .nested (inside member) nested
  | enum member enum => exact .enum (inside member) enum
  | keys member => exact .keys (inside member)
  | validator member => exact .validator (inside member)
  | repository given member => exact .repository given (inside member)
  | client given => exact .client given
  | config => exact absurd rfl notConfig
  | validationError => exact .validationError
  | package needed =>
    refine .package ?_
    rcases List.mem_append.mp needed with around | below
    · exact List.mem_append_left _ around
    · exact List.mem_append_right _ (List.map_subset _ (neededPackages_subset inside) below)

/-! ## Parts that are accepted -/

theorem Unclashing.subperm {sub entities : List Entity} (part : sub.Subperm entities)
    (unclashing : Unclashing entities) : Unclashing sub := by
  obtain ⟨ordered, same, taken⟩ := part
  have inside : sub ⊆ entities := fun e member => taken.subset (same.mem_iff.mpr member)
  refine ⟨?_, fun e member => unclashing.notImported e (inside member),
    fun e member => unclashing.notSubPackage e (inside member)⟩
  have modules : (typeModules sub).Perm (typeModules ordered) := same.symm.flatMap_right _
  exact modules.nodup_iff.mpr (unclashing.modules.sublist (taken.flatMap _))

/-- What the checks accept of a batch, they accept of its parts. -/
theorem Described.part {sub : List Schema} (part : sub.Subperm schemas)
    (described : Described schemas table (schemas.map Schema.entity)) :
    Described sub table (sub.map Schema.entity) := by
  obtain ⟨-, uncollided, unclashing⟩ := described_iff.mp described
  refine described_iff.mpr ⟨rfl, fun s member => uncollided s (part.subset member), fun clash => unclashing ?_⟩
  cases clash with
  | twice member shared => exact .twice (part.subset member) shared
  | types clashing =>
    obtain ⟨ordered, same, taken⟩ := part
    refine .types fun whole => clashing (whole.subperm ⟨_, same.map _, taken.map _⟩)
  | indexes given clashing => exact .indexes given clashing

/-! ## Files and what they are rendered from -/

theorem SourceFile.Rendering.unique {s : SourceFile} {f f' : RenderedFile} (here : s.Rendering o f)
    (there : s.Rendering o f') : f = f' := by
  obtain ⟨code, printed, content⟩ := here.content
  obtain ⟨code', printed', content'⟩ := there.content
  obtain rfl : code = code' := Except.ok.inj (printed.symm.trans printed')
  have path := here.path.trans there.path.symm
  have category := here.category.trans there.category.symm
  cases f
  cases f'
  simp_all

/-- The entities of a batch that is planned. -/
theorem described_of_plan (planned : (plan o n schemas table).result = .ok files) :
    Described schemas table (schemas.map Schema.entity) := by
  obtain ⟨entities, described, -⟩ := plan_ok planned
  exact (described_iff.mp described).1 ▸ described

theorem emitted_rendering (planned : (plan o n schemas table).result = .ok files) {s : SourceFile}
    (emitted : Emitted n (schemas.map Schema.entity) table s) : ∃ f ∈ files, s.Rendering o f := by
  obtain ⟨entities, described, rendered⟩ := plan_ok planned
  obtain rfl := (described_iff.mp described).1
  exact (forall₂_mem rendered).1 s (mem_sources_iff.mpr emitted)

theorem mem_plan (planned : (plan o n schemas table).result = .ok files) {f : RenderedFile} :
    f ∈ files ↔ ∃ s, Emitted n (schemas.map Schema.entity) table s ∧ s.Rendering o f := by
  constructor
  · intro member
    obtain ⟨entities, described, rendered⟩ := plan_ok planned
    obtain rfl := (described_iff.mp described).1
    obtain ⟨s, inSources, rendering⟩ := (forall₂_mem rendered).2 f member
    exact ⟨s, mem_sources_iff.mp inSources, rendering⟩
  · rintro ⟨s, emitted, rendering⟩
    obtain ⟨f', member, rendering'⟩ := emitted_rendering planned emitted
    exact rendering.unique rendering' ▸ member

/-- A part of a batch that is planned is planned, and its files but the table configuration are files of the batch. -/
theorem plan_part (planned : (plan o n schemas table).result = .ok files) {sub : List Schema}
    (part : sub.Subperm schemas) :
    ∃ some, (plan o n sub table).result = .ok some ∧ ∀ f ∈ some, f.category ≠ .config → f ∈ files := by
  have inside : sub.map Schema.entity ⊆ schemas.map Schema.entity := List.map_subset _ part.subset
  have printed : ∀ s, Emitted n (sub.map Schema.entity) table s → ∃ code, s.code = .ok code := by
    intro s emitted
    by_cases config : s.category = .config
    · cases emitted with
      | config => exact (tableConfigModule_writable _ _).print_ok
      | _ => cases config
    · -- the whole batch has this file too
      obtain ⟨f, -, rendering⟩ := emitted_rendering planned (emitted.mono inside config)
      obtain ⟨code, text, -⟩ := rendering.content
      exact ⟨code, text⟩
  obtain ⟨some, plannedPart⟩ := plan_described ((described_of_plan planned).part part) printed o
  refine ⟨some, plannedPart, fun f member notConfig => ?_⟩
  obtain ⟨s, emitted, rendering⟩ := (mem_plan plannedPart).mp member
  exact (mem_plan planned).mpr ⟨s, emitted.mono inside (rendering.category ▸ notConfig), rendering⟩

/-! ## Single entities -/

def Category.ofOneEntity : List Category := [.entity, .nested, .enum, .keys, .validator, .repository]

/-- What is emitted for an entity is emitted for that entity alone. -/
theorem Emitted.alone {entities : List Entity} {s : SourceFile} (emitted : Emitted n entities table s)
    (own : s.category ∈ Category.ofOneEntity) : ∃ e ∈ entities, Emitted n [e] table s := by
  cases emitted with
  | entity member => exact ⟨_, member, .entity List.mem_cons_self⟩
  | nested member nested => exact ⟨_, member, .nested List.mem_cons_self nested⟩
  | enum member enum => exact ⟨_, member, .enum List.mem_cons_self enum⟩
  | keys member => exact ⟨_, member, .keys List.mem_cons_self⟩
  | validator member => exact ⟨_, member, .validator List.mem_cons_self⟩
  | repository given member => exact ⟨_, member, .repository given List.mem_cons_self⟩
  | _ => simp [Category.ofOneEntity] at own

theorem plan_alone (planned : (plan o n schemas table).result = .ok files) {f : RenderedFile} (member : f ∈ files)
    (own : f.category ∈ Category.ofOneEntity) :
    ∃ s ∈ schemas, ∃ alone, (plan o n [s] table).result = .ok alone ∧ f ∈ alone := by
  obtain ⟨source, emitted, rendering⟩ := (mem_plan planned).mp member
  obtain ⟨e, inEntities, emittedAlone⟩ := emitted.alone (rendering.category ▸ own)
  obtain ⟨s, inBatch, rfl⟩ := List.mem_map.mp inEntities
  obtain ⟨alone, plannedAlone, -⟩ := plan_part planned (List.singleton_subperm_iff.mpr inBatch)
  exact ⟨s, inBatch, alone, plannedAlone, (mem_plan plannedAlone).mpr ⟨source, emittedAlone, rendering⟩⟩

/-! ## Reordered batches -/

/-- Files of a batch and of a reordered one: the same, or table configurations that end with the factories of the
repositories, each in the order of its batch. -/
inductive SameUpToFactories (o : Options) (schemas other : List Schema) : RenderedFile → RenderedFile → Prop
  | same (f : RenderedFile) : SameUpToFactories o schemas other f f
  | reordered {path : Path} {doc : String} {shared : List Source.Stmt} {f f' : RenderedFile}
      (here : SourceFile.Rendering o
        ⟨path, .config, some ⟨doc, shared ++ schemas.map fun s => repositoryFactory s.entity⟩⟩ f)
      (there : SourceFile.Rendering o
        ⟨path, .config, some ⟨doc, shared ++ other.map fun s => repositoryFactory s.entity⟩⟩ f') :
      SameUpToFactories o schemas other f f'

/-- Strictly increasing paths are determined by what they are. -/
theorem WellLaidOut.eq_of_mem_iff {paths others : List Path} (laidOut : WellLaidOut n paths)
    (laidOut' : WellLaidOut n others) (same : ∀ p, p ∈ paths ↔ p ∈ others) : paths = others := by
  have reordered := (List.perm_ext_iff_of_nodup laidOut.distinct laidOut'.distinct).mpr same
  refine reordered.eq_of_pairwise ?_ laidOut.increasing laidOut'.increasing
  intro p q _ _ before after
  exact absurd ((Path.precedes_iff_lt p q).mp before) (lt_asymm ((Path.precedes_iff_lt q p).mp after))

theorem Unclashing.names {entities : List Entity} (unclashing : Unclashing entities) :
    (entities.map (·.name)).Nodup := by
  refine List.pairwise_map.mpr ((List.pairwise_map.mp unclashing.entityModules).imp ?_)
  exact fun different same => different (congrArg moduleName same)

/-- Only the factories follow the order of the entities: the imports are sorted. -/
theorem tableConfigModule_reordered (t : Table) {entities other : List Entity} (reordered : other.Perm entities)
    (distinct : (entities.map (·.name)).Nodup) :
    ∃ doc shared, (tableConfigModule t entities).value = ⟨doc, shared ++ entities.map repositoryFactory⟩ ∧
      (tableConfigModule t other).value = ⟨doc, shared ++ other.map repositoryFactory⟩ := by
  refine ⟨_, _, rfl, ?_⟩
  have imports : repositoryImports other = repositoryImports entities := by
    rw [repositoryImports, sortByName_eq_of_perm reordered distinct, repositoryImports]
  rw [← imports]
  rfl

theorem exists_reordered (planned : (plan o n schemas table).result = .ok files) {other : List Schema}
    {files' : List RenderedFile} (planned' : (plan o n other table).result = .ok files')
    (reordered : other.Perm schemas) {f : RenderedFile} (member : f ∈ files) :
    ∃ f' ∈ files', f'.path = f.path ∧ SameUpToFactories o schemas other f f' := by
  obtain ⟨s, emitted, rendering⟩ := (mem_plan planned).mp member
  by_cases config : s.category = .config
  · cases emitted with
    | @config t given =>
      obtain ⟨f', member', rendering'⟩ := emitted_rendering planned' (.config given)
      refine ⟨f', member', rendering'.path.trans rendering.path.symm, ?_⟩
      have unclashing := checkTypeNames_ok.mp (described_of_plan planned).typesChecked
      obtain ⟨doc, shared, here, there⟩ :=
        tableConfigModule_reordered t (reordered.map Schema.entity) unclashing.names
      rw [here, List.map_map] at rendering
      rw [there, List.map_map] at rendering'
      exact .reordered rendering rendering'
    | _ => cases config
  · have inside := List.map_subset Schema.entity reordered.symm.subset
    exact ⟨f, (mem_plan planned').mpr ⟨s, emitted.mono inside config, rendering⟩, rfl, .same f⟩

theorem plan_reordered (planned : (plan o n schemas table).result = .ok files) {other : List Schema}
    (reordered : other.Perm schemas) :
    ∃ files', (plan o n other table).result = .ok files' ∧
      List.Forall₂ (SameUpToFactories o schemas other) files files' := by
  obtain ⟨files', planned', -⟩ := plan_part planned reordered.subperm
  have laidOut := plan_wellLaidOut planned
  have laidOut' := plan_wellLaidOut planned'
  have samePaths : files.map (·.path) = files'.map (·.path) := by
    refine laidOut.eq_of_mem_iff laidOut' fun p => ?_
    simp only [List.mem_map]
    constructor
    · rintro ⟨f, member, rfl⟩
      obtain ⟨f', member', same, -⟩ := exists_reordered planned planned' reordered member
      exact ⟨f', member', same⟩
    · rintro ⟨f', member', rfl⟩
      obtain ⟨f, member, same, -⟩ := exists_reordered planned' planned reordered.symm member'
      exact ⟨f, member, same⟩
  refine ⟨files', planned', forall₂_of_map_eq samePaths fun f member f' member' same => ?_⟩
  obtain ⟨f'', member'', same', related⟩ := exists_reordered planned planned' reordered member
  exact List.inj_on_of_nodup_map laidOut'.distinct member'' member' (same'.trans same) ▸ related

/-- Batches compose.  Every part of a batch that is planned is planned, and its files but the table configuration are files
of the whole; the files of an entity are those of the batch of its schema alone; and a batch in another order has the same
files in the same order, up to the order of the factories in the table configuration. -/
theorem plan_composes (planned : (plan o n schemas table).result = .ok files) :
    (∀ sub : List Schema, sub.Subperm schemas →
      ∃ some, (plan o n sub table).result = .ok some ∧ ∀ f ∈ some, f.category ≠ .config → f ∈ files) ∧
    (∀ f ∈ files, f.category ∈ Category.ofOneEntity →
      ∃ s ∈ schemas, ∃ alone, (plan o n [s] table).result = .ok alone ∧ f ∈ alone) ∧
    ∀ other : List Schema, other.Perm schemas →
      ∃ files', (plan o n other table).result = .ok files' ∧
        List.Forall₂ (SameUpToFactories o schemas other) files files' :=
  ⟨fun _ => plan_part planned, fun _ => plan_alone planned, fun _ => plan_reordered planned⟩

def shopSchemas : List Schema := [shopOrder, shopArticle]

theorem shopSchemas_planned :
    ∃ files, (plan .unformatted shopNamespace shopSchemas (some shopTable)).result = .ok files :=
  exists_ok_of_isOk (by decide +kernel)

theorem shopSchemas_compose : ∃ files,
    (plan .unformatted shopNamespace shopSchemas (some shopTable)).result = .ok files ∧
      (∃ articles, (plan .unformatted shopNamespace [shopArticle] (some shopTable)).result = .ok articles ∧
        ∀ f ∈ articles, f.category ≠ .config → f ∈ files) ∧
      (∀ f ∈ files, f.category ∈ Category.ofOneEntity →
        ∃ s ∈ shopSchemas, ∃ alone, (plan .unformatted shopNamespace [s] (some shopTable)).result = .ok alone ∧
          f ∈ alone) ∧
      ∃ files', (plan .unformatted shopNamespace [shopArticle, shopOrder] (some shopTable)).result = .ok files' ∧
        List.Forall₂ (SameUpToFactories .unformatted shopSchemas [shopArticle, shopOrder]) files files' := by
  obtain ⟨files, planned⟩ := shopSchemas_planned
  obtain ⟨parts, alone, reordered⟩ := plan_composes planned
  refine ⟨files, planned, parts _ ?_, alone, reordered _ (.swap _ _ _)⟩
  exact List.singleton_subperm_iff.mpr (by simp [shopSchemas])

end Tablewright
