import Tablewright.Proofs.Access.Spelling
import Tablewright.Proofs.Plan.Imports
import Tablewright.Proofs.Plan.KeyNames

/-!
# Names in a plan

Emitted modules take names from a batch: names of entities, overrides, storage names in camel case or in capitals, and
names of nested types that are put together from these.  What is converted is made an identifier, with a guard against
digits at the front, but the name of an entity and overrides are taken as they are, and so is an empty name.  The snake
case that factories of repositories start with has no such guard.

* `Emitted.namedBy`: what all names of a batch have in common, the names in its modules have.
* `plan_wellNamed`: the modules of a plan are spelled with identifiers that are no keywords, if and only if all entities
  are spelled well.
-/

namespace Tablewright

open Access

section

variable {n : Namespace} {entities : List Entity} {table : Option Table}
  (described : ∀ e ∈ entities, ∃ s, Describes s e)
include described

/-- Where all names that a batch and its modules choose are of some kind, so are those in each of the modules. -/
theorem Emitted.namedBy {P : String → Prop} (fixed : FixedNames P) {s : SourceFile} (emitted : Emitted n entities table s)
    (names : ∀ e ∈ entities, EntityNames P e table) : ∀ tree ∈ s.tree, tree.NamedBy P := by
  cases emitted with
  | @entity e member =>
    rintro tree ⟨⟩
    obtain ⟨s, describes⟩ := described e member
    exact ((names e member).ofRecord describes List.mem_cons_self).recordModule_namedBy
  | @nested e member r nested =>
    rintro tree ⟨⟩
    obtain ⟨s, describes⟩ := described e member
    exact ((names e member).ofRecord describes (List.mem_cons_of_mem _ nested)).recordModule_namedBy
  | @enum e member t enum =>
    rintro tree ⟨⟩
    exact (names e member).ofEnum enum
  | @keys e member =>
    rintro tree ⟨⟩
    exact (names e member).keysModule_namedBy
  | @validator e member =>
    rintro tree ⟨⟩
    exact (names e member).validatorModule_namedBy
  | @repository t given e member =>
    subst given
    rintro tree ⟨⟩
    obtain ⟨s, describes⟩ := described e member
    exact (names e member).repositoryModule_namedBy describes
  -- the rest is the same for all batches, but for the factories of the table configuration
  | client given =>
    rintro tree ⟨⟩
    exact fixed.client
  | config given =>
    subst given
    rintro tree ⟨⟩
    refine tableConfigModule_namedBy fixed.toSharedNames fixed.helperWords fun e member => ?_
    exact ⟨(names e member).repositoryClass, (names e member).factory rfl⟩
  | validationError =>
    rintro tree ⟨⟩
    exact fixed.validationError
  | package needed =>
    rintro tree ⟨⟩

/-- The modules of well-spelled entities are spelled with identifiers. -/
theorem Emitted.spelled {s : SourceFile} (emitted : Emitted n entities table s)
    (spelled : ∀ e ∈ entities, e.Spelled table) : ∀ tree ∈ s.tree, tree.WellNamed := by
  refine emitted.namedBy described fixedNames_spelled fun e member => ?_
  obtain ⟨s, describes⟩ := described e member
  exact (spelled e member).names describes

/-- Whatever is spelled badly in an entity stands in some module. -/
theorem Entity.Spelled.of_wellNamed (wellNamed : ∀ s, Emitted n entities table s → ∀ tree ∈ s.tree, tree.WellNamed)
    {e : Entity} (member : e ∈ entities) : e.Spelled table := by
  obtain ⟨s, describes⟩ := described e member
  have record : (recordModule e.enums e.record).value.WellNamed := wellNamed _ (.entity member) _ rfl
  refine ⟨(record_named record).1, fun r inEntity f inRecord => ?_, fun k known absent empty => ?_, fun given => ?_⟩
  · have module : (recordModule e.enums r).value.WellNamed := by
      rcases List.mem_cons.mp inEntity with rfl | nested
      · exact record
      · exact wellNamed _ (.nested member nested) _ rfl
    have identifier := (record_named module).2 f inRecord
    rw [describes.identifier_eq inEntity inRecord] at identifier
    exact Declaration.isPackagePart_identifier.mp identifier
  · obtain ⟨f, function, listed⟩ := exists_keyFunction known
    obtain ⟨s, emitted, tree, isTree, c, inBody, inSuite⟩ := exists_emitted_keyFunction (n := n) member function
    have cls := Source.Module.namedBy_iff.mp (wellNamed s emitted tree isTree) c inBody
    have identifier := keyFunctions_named function (namedBy_suite cls inSuite) k listed
    -- the camel case of the empty name is empty
    rw [((ofEntity_keyAttributes describes k known).undeclared absent).1, empty] at identifier
    exact absurd identifier (by decide)
  · obtain ⟨t, rfl⟩ := Option.isSome_iff_exists.mp given
    exact isPackagePart_factoryName.mp (factory_named (wellNamed _ (.config rfl) _ rfl) member)

end

/-- Every name in the modules of a plan is an identifier and no keyword, wherever it stands, if and only if the entities
of the batch are spelled well. -/
theorem plan_wellNamed {o : Options} {n : Namespace} {schemas : List Schema} {table : Option Table}
    {files : List RenderedFile} (planned : (plan o n schemas table).result = .ok files) :
    ∃ entities sources, (describeBatch schemas table).result = .ok entities ∧
      (planSources n schemas table).result = .ok sources ∧ List.Forall₂ (SourceFile.Rendering o) sources files ∧
      ((∀ s ∈ sources, ∀ tree ∈ s.tree, tree.WellNamed) ↔ ∀ e ∈ entities, e.Spelled table) := by
  obtain ⟨entities, described, rendered⟩ := plan_ok planned
  refine ⟨entities, _, describeBatch_ok.mpr described, planSources_ok.mpr ⟨entities, described, rfl⟩, rendered, ?_⟩
  have describes : ∀ e ∈ entities, ∃ s, Describes s e := fun e => described.describes
  constructor
  · intro wellNamed e member
    refine .of_wellNamed (n := n) describes (fun s emitted => ?_) member
    exact wellNamed s (mem_sources_iff.mpr emitted)
  · intro spelled s member
    exact (mem_sources_iff.mp member).spelled describes spelled

theorem shopPlan_wellNamed : ∃ files sources,
    (plan .unformatted shopNamespace [shopOrder] (some shopTable)).result = .ok files ∧
      List.Forall₂ (SourceFile.Rendering .unformatted) sources files ∧
      ∀ s ∈ sources, ∀ tree ∈ s.tree, tree.WellNamed := by
  obtain ⟨files, planned⟩ := shopPlan_ok
  obtain ⟨entities, sources, described, -, rendered, wellNamed⟩ := plan_wellNamed planned
  have checked : (describeBatch [shopOrder] (some shopTable)).result.toOption.any (fun entities =>
      decide (∀ e ∈ entities, e.Spelled (some shopTable))) = true := by decide +kernel
  rw [described] at checked
  exact ⟨files, sources, planned, rendered, wellNamed.mpr (of_decide_eq_true checked)⟩

/-- An entity with a name that is an identifier, and starts with a digit in snake case. -/
def digitSchema : Schema :=
  { entityName := some "_1A"
    primaryKey := ⟨"id", none⟩
    fields := [bareField "id" "string"]
    description := none
    schemaVersion := none }

/-- Such an entity is planned with a function whose name starts with the digit. -/
theorem digitPlan_misspelled : ¬ ∀ o n schemas table files sources, (plan o n schemas table).result = .ok files →
    (∀ s ∈ schemas, Name.isPackagePart s.name) → (planSources n schemas table).result = .ok sources →
    ∀ s ∈ sources, ∀ tree ∈ s.tree, tree.WellNamed := by
  intro wellNamed
  have checked : (plan .unformatted shopNamespace [digitSchema] (some shopTable)).result.isOk = true := by decide +kernel
  have misspelled : (planSources shopNamespace [digitSchema] (some shopTable)).result.toOption.any (fun sources =>
      sources.any fun s => s.tree.toList.any fun tree => !decide tree.WellNamed) = true := by decide +kernel
  cases outcome : (plan .unformatted shopNamespace [digitSchema] (some shopTable)).result with
  | error failure =>
    rw [outcome] at checked
    cases checked
  | ok files =>
    cases planned : (planSources shopNamespace [digitSchema] (some shopTable)).result with
    | error failure =>
      rw [planned] at misspelled
      cases misspelled
    | ok sources =>
      rw [planned] at misspelled
      obtain ⟨s, inPlan, misspells⟩ := List.any_eq_true.mp misspelled
      obtain ⟨tree, inFile, badly⟩ := List.any_eq_true.mp misspells
      have named := wellNamed _ _ _ _ files sources outcome (by decide +kernel) planned s inPlan tree
        (Option.mem_toList.mp inFile)
      simp [named] at badly

end Tablewright
