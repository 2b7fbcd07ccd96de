import Tablewright.Proofs.Access.Printing
import Tablewright.Proofs.Lists
import Tablewright.Proofs.Plan.Layout
import Tablewright.Proofs.Plan.Passes

/-!
# Accepted batches

The checks of names cover everything that can go wrong later: once the entities of a batch are described, every file is
made, as long as overrides are identifiers.

* `plan_ok_iff`: the files of a plan, made one by one.
* `Emitted.writable`: no emitted tree is refused.
* `plan_outcome`: which batches are refused, how, and which are planned.
-/

namespace Tablewright

open Access

variable {o : Options} {n : Namespace} {schemas : List Schema} {table : Option Table}

/-! ## Files one by one -/

theorem renderFile_result (o : Options) (category : Category) (path : Path) (m : Material) :
    (renderFile o category path m).result = match (category.emitter.source m).value with
      | .ok code => .ok ⟨path, (finish o path code).value, category⟩
      | .error lack =>
        .error (.notRendered path.text lack.message category.name (m.entities.head?.map (·.name))) := by
  rw [renderFile, Attempt.result_bind, Attempt.result_ofNoted]
  cases (category.emitter.source m).value <;> rfl

/-- Whether there is a table changes what is reported, but not what is planned. -/
theorem plan_result (o : Options) (n : Namespace) (schemas : List Schema) (table : Option Table) :
    (plan o n schemas table).result = (match (describeBatch schemas table).result with
      | .error f => .error f
      | .ok entities => ((batchFiles n entities table).mapM (fun (category, path, material) =>
          renderFile o category path material) >>= fun files => pure (Path.sortBy (·.path) files)
            : Attempt (List RenderedFile)).result) := by
  rw [plan, Attempt.result_bind]
  cases (describeBatch schemas table).result with
  | error f => rfl
  | ok entities => cases table <;> rfl

theorem plan_ok_iff {files : List RenderedFile} : (plan o n schemas table).result = .ok files ↔
    ∃ entities made, Described schemas table entities ∧
      List.Forall₂ (fun file f => (renderFile o file.1 file.2.1 file.2.2).result = .ok f)
        (batchFiles n entities table) made ∧ files = Path.sortBy (·.path) made := by
  rw [plan_result]
  constructor
  · intro planned
    cases described : (describeBatch schemas table).result with
    | error f => simp [described] at planned
    | ok entities =>
      simp only [described] at planned
      obtain ⟨made, rendered, same⟩ := Attempt.result_bind_ok.mp planned
      exact ⟨entities, made, describeBatch_ok.mp described, Attempt.result_mapM_ok.mp rendered,
        (Except.ok.inj same).symm⟩
  · rintro ⟨entities, made, described, rendered, rfl⟩
    rw [describeBatch_ok.mpr described]
    exact Attempt.result_bind_ok.mpr ⟨made, Attempt.result_mapM_ok.mpr rendered, rfl⟩

/-- A batch that is described only fails where a file cannot be made. -/
theorem plan_error {f : Failure} (refused : (plan o n schemas table).result = .error f) :
    (describeBatch schemas table).result = .error f ∨
      (∃ entities, Described schemas table entities) ∧ f.topic = .generation := by
  rw [plan_result] at refused
  cases described : (describeBatch schemas table).result with
  | error g =>
    simp only [described] at refused
    exact .inl (congrArg Except.error (Except.error.inj refused))
  | ok entities =>
    rw [described] at refused
    refine .inr ⟨⟨entities, describeBatch_ok.mp described⟩, ?_⟩
    rcases Attempt.result_bind_error.mp refused with failed | ⟨made, -, failed⟩
    · obtain ⟨file, -, here⟩ := Attempt.result_mapM_error failed
      rw [renderFile_result] at here
      split at here <;> cases here
      rfl
    · cases failed

/-! ## Identifiers -/

/-- All overrides of a schema, however deep, are identifiers. -/
def Schema.OverridesIdentify (s : Schema) : Prop :=
  ∀ scope, Scope s.fields scope → ∀ f ∈ scope, ∀ identifier ∈ given f.nameOverride, Text.isIdentifier identifier

theorem backslash_notMem_of_isIdentifier {name : String} (valid : Text.isIdentifier name) : '\\' ∉ name.toList :=
  Text.notMem_of_isIdentifier valid ⟨by decide, by decide⟩

theorem backslash_notMem_identifier {d : Declaration}
    (overridden : ∀ identifier ∈ given d.nameOverride, Text.isIdentifier identifier) :
    '\\' ∉ d.identifier.toList := by
  cases override : given d.nameOverride with
  | some identifier =>
    rw [Declaration.identifier, override]
    exact backslash_notMem_of_isIdentifier (overridden _ override)
  | none =>
    cases Declaration.identifier_cases override with
    | inl kept =>
      obtain ⟨valid, same⟩ := kept
      rw [Name.isFieldIdentifier, Bool.and_eq_true] at valid
      exact same ▸ backslash_notMem_of_isIdentifier valid.1
    | inr cased =>
      rw [cased]
      intro member
      exact absurd (Name.isIdentifierChar_of_mem_camelCase _ member) (by decide)

theorem Describes.backslash_notMem {s : Schema} {e : Entity} (describes : Describes s e)
    (identify : s.OverridesIdentify) {r : Record} (member : r ∈ e.record :: e.nested) :
    ∀ f ∈ r.fields, '\\' ∉ f.identifier.toList := by
  obtain ⟨scope, is, fields, -⟩ := describes.scope member
  rw [fields, mapFields_fields, List.forall_mem_map]
  exact fun f inScope => backslash_notMem_identifier (identify scope is f inScope)

/-! ## Emitted trees -/

/-- Only package files have no tree, and every tree can be written if no identifier holds a backslash. -/
theorem Emitted.writable {entities : List Entity} {s : SourceFile} (emitted : Emitted n entities table s) :
    s.category = .package ∨ ∃ tree, s.tree = some tree ∧
      ((∀ e ∈ entities, ∀ r ∈ e.record :: e.nested, ∀ f ∈ r.fields, '\\' ∉ f.identifier.toList) → tree.Writable) := by
  cases emitted with
  | entity member => exact .inr ⟨_, rfl, fun clean => recordModule_writable (clean _ member _ List.mem_cons_self)⟩
  | nested member nested =>
    exact .inr ⟨_, rfl, fun clean => recordModule_writable (clean _ member _ (List.mem_cons_of_mem _ nested))⟩
  | enum => exact .inr ⟨_, rfl, fun _ => enumModule_writable _⟩
  | keys => exact .inr ⟨_, rfl, fun _ => keysModule_writable _ _⟩
  | validator => exact .inr ⟨_, rfl, fun _ => validatorModule_writable _⟩
  | repository => exact .inr ⟨_, rfl, fun _ => repositoryModule_writable _ _⟩
  | client => exact .inr ⟨_, rfl, fun _ => clientSource_writable⟩
  | config => exact .inr ⟨_, rfl, fun _ => tableConfigModule_writable _ _⟩
  | validationError => exact .inr ⟨_, rfl, fun _ => validationErrorSource_writable⟩
  | package => exact .inl rfl

/-- A file of a batch lacks nothing, so that it is made if its tree has a text. -/
theorem renderFile_batch {entities : List Entity} (o : Options) {file : Category × Path × Material}
    (inBatch : file ∈ batchFiles n entities table) {code : String} (printed : (SourceFile.of file).code = .ok code) :
    ∃ f, (renderFile o file.1 file.2.1 file.2.2).result = .ok f := by
  obtain ⟨category, path, m⟩ := file
  have source : ∃ code, (category.emitter.source m).value = .ok code := by
    rw [Emitter.source]
    rcases (emitted_of_mem_batchFiles inBatch).writable with package | ⟨tree, some, -⟩
    · obtain rfl : category = .package := package
      exact ⟨_, rfl⟩
    · rw [SourceFile.code, some] at printed
      obtain ⟨made, found, value⟩ := Option.bind_eq_some_iff.mp some
      have ok : made.value = .ok tree := by
        cases outcome : made.value <;> simp_all [Except.toOption]
      have text : tree.print = .ok code := printed
      rw [found]
      simp only [Noted.value_bind, Noted.value_pure, ok, text]
      exact ⟨_, rfl⟩
  obtain ⟨code, made⟩ := source
  rw [renderFile_result, made]
  exact ⟨_, rfl⟩

/-- A batch that is described is planned if all that it emits has a text. -/
theorem plan_described {entities : List Entity} (described : Described schemas table entities)
    (printed : ∀ s, Emitted n entities table s → ∃ code, s.code = .ok code) (o : Options) :
    ∃ files, (plan o n schemas table).result = .ok files := by
  obtain ⟨made, rendered⟩ := exists_forall₂ fun file (inBatch : file ∈ batchFiles n entities table) => by
    obtain ⟨code, text⟩ := printed _ (emitted_of_mem_batchFiles inBatch)
    exact renderFile_batch o inBatch text
  exact ⟨_, plan_ok_iff.mpr ⟨entities, made, described, rendered, rfl⟩⟩

/-! ## Outcomes -/

theorem Described.mem_entity {entities : List Entity} (described : Described schemas table entities) {e : Entity}
    (member : e ∈ entities) : ∃ s ∈ schemas, e = s.entity ∧ Describes s e := by
  obtain ⟨rfl, once⟩ := describedAll_iff.mp described.described
  obtain ⟨s, inBatch, rfl⟩ := List.mem_map.mp member
  exact ⟨s, inBatch, rfl, describe_ok (describe_ok_iff.mpr ⟨rfl, once s inBatch⟩)⟩

theorem Described.writable {entities : List Entity} (described : Described schemas table entities)
    (identify : ∀ s ∈ schemas, s.OverridesIdentify) {s : SourceFile} (emitted : Emitted n entities table s) :
    s.category = .package ∨ ∃ tree, s.tree = some tree ∧ tree.Writable := by
  refine emitted.writable.imp_right fun ⟨tree, isTree, writable⟩ => ⟨tree, isTree, writable ?_⟩
  intro e member r inEntity
  obtain ⟨schema, inBatch, -, describes⟩ := described.mem_entity member
  exact describes.backslash_notMem (identify schema inBatch) inEntity

/-- Package files are empty, and every tree that can be written has a text. -/
theorem Emitted.code_ok {entities : List Entity} {s : SourceFile} (emitted : Emitted n entities table s)
    (writable : s.category = .package ∨ ∃ tree, s.tree = some tree ∧ tree.Writable) : ∃ code, s.code = .ok code := by
  rcases writable with package | ⟨tree, some, writable⟩
  · cases emitted with
    | package => exact ⟨_, rfl⟩
    | _ => cases package
  · rw [SourceFile.code, some]
    exact writable.print_ok

/-- The first schema with fields that collide is what is reported, whatever else is wrong with the batch. -/
theorem plan_collides {before after : List Schema} {s : Schema} (earlier : ∀ b ∈ before, ¬ b.Collides)
    (collides : s.Collides) : (plan o n (before ++ s :: after) table).result =
      .error (.nameCollision (collisions s.fields) (some s.name)) := by
  rw [plan_result, describeBatch_collides table earlier collides]

/-- Fields that collide are the only failure of their topic, and everything else that fails is about generated names. -/
theorem plan_topic {f : Failure} (refused : (plan o n schemas table).result = .error f) :
    f.topic = .collision ∧ (∃ s ∈ schemas, s.Collides) ∨ f.topic = .generation ∧ ∀ s ∈ schemas, ¬ s.Collides := by
  rcases plan_error refused with batch | ⟨⟨entities, described⟩, topic⟩
  · exact describeBatch_error batch
  · exact .inr ⟨topic, (described_iff.mp described).2.1⟩

theorem exists_first_collision (collides : ∃ s ∈ schemas, s.Collides) :
    ∃ before s after, schemas = before ++ s :: after ∧ (∀ b ∈ before, ¬ b.Collides) ∧ s.Collides := by
  classical
  obtain ⟨s, member, collides⟩ := collides
  have found : (schemas.find? fun s => decide s.Collides).isSome :=
    List.find?_isSome.mpr ⟨s, member, decide_eq_true collides⟩
  obtain ⟨s, found⟩ := Option.isSome_iff_exists.mp found
  obtain ⟨here, before, after, split, earlier⟩ := List.find?_eq_some_iff_append.mp found
  exact ⟨before, s, after, split, fun b inside => by simpa using earlier b inside, of_decide_eq_true here⟩

/-- A batch without collisions and clashes is planned if overrides are identifiers, with all parameters in order. -/
theorem plan_accepted (uncollided : ∀ s ∈ schemas, ¬ s.Collides) (unclashing : ¬ NameClash schemas table)
    (identify : ∀ s ∈ schemas, s.OverridesIdentify) (o : Options) (n : Namespace) :
    ∃ files sources, (plan o n schemas table).result = .ok files ∧
      (planSources n schemas table).result = .ok sources ∧ List.Forall₂ (SourceFile.Rendering o) sources files ∧
      ∀ s ∈ sources, ∀ tree ∈ s.tree, ∀ head ∈ tree.signatures, Source.misplaced? head.params = none := by
  have described : Described schemas table (schemas.map Schema.entity) :=
    described_iff.mpr ⟨rfl, uncollided, unclashing⟩
  obtain ⟨files, planned⟩ := plan_described (n := n) described
    (fun s emitted => emitted.code_ok (described.writable identify emitted)) o
  obtain ⟨entities, described, rendered⟩ := plan_ok planned
  refine ⟨files, _, planned, planSources_ok.mpr ⟨entities, described, rfl⟩, rendered, ?_⟩
  intro s member tree isTree head inTree
  rcases described.writable identify (mem_sources_iff.mp member) with package | ⟨written, some, writable⟩
  · cases mem_sources_iff.mp member with
    | package => cases isTree
    | _ => cases package
  · obtain rfl := Option.some.inj (some.symm.trans isTree)
    exact writable.params inTree

def blurredOrder : Schema :=
  { shopOrder with fields := [bareField "order-id" "string", bareField "orderId" "string"]
                   primaryKey := ⟨"order-id", none⟩ }

theorem shopOrder_identifies : shopOrder.OverridesIdentify := by
  intro scope is f inScope identifier overridden
  rw [shopOrder_noOverrides scope is f inScope] at overridden
  cases overridden

end Tablewright
