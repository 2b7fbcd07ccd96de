import Tablewright.Proofs.Access.Mangling
import Tablewright.Proofs.Plan.Naming

/-!
# Private names in a plan

The guards around emitted names keep two underscores away from the front of backing attributes and of camel case.  They do
not look at the names that a batch gives as they are to be, nor at the constant of a pattern, which loses everything but
its underscores where a field is called without ASCII letters and digits.

* `plan_unmangled`: no class of a plan has private names in it, if and only if the entities of the batch give none.
-/

namespace Tablewright

open Access
open Source (IsPrivate)

section

variable {n : Namespace} {entities : List Entity} {table : Option Table}
  (described : ∀ e ∈ entities, ∃ s, Describes s e)
include described

/-- The modules of entities that give no private names have none in their classes. -/
theorem Emitted.unmangled {s : SourceFile} (emitted : Emitted n entities table s)
    (unmangled : ∀ e ∈ entities, e.Unmangled) : ∀ tree ∈ s.tree, tree.Unmangled := by
  have names : ∀ e ∈ entities, EntityNames (fun name => ¬ IsPrivate name) e table := fun e member =>
    have ⟨_, describes⟩ := described e member
    (unmangled e member).names describes
  exact fun tree isTree => (emitted.namedBy described fixedNames_public names tree isTree).unmangled

/-- Whatever an entity gives as a private name stands in some class. -/
theorem Entity.Unmangled.of_unmangled (unmangled : ∀ s, Emitted n entities table s → ∀ tree ∈ s.tree, tree.Unmangled)
    {e : Entity} (member : e ∈ entities) : e.Unmangled := by
  obtain ⟨s, describes⟩ := described e member
  have fields : ∀ r ∈ e.record :: e.nested, ∀ f ∈ r.fields,
      ¬ IsPrivate f.identifier ∧ TypeNames (fun name => ¬ IsPrivate name) f.type := by
    intro r inEntity
    rcases List.mem_cons.mp inEntity with rfl | nested
    · exact recordModule_fields (unmangled _ (.entity member) _ rfl)
    · exact recordModule_fields (unmangled _ (.nested member nested) _ rfl)
  refine ⟨?_, ?_, ?_, validatorModule_patterns (unmangled _ (.validator member) _ rfl)⟩
  · exact (isPrivate_class (by simp)).not.mp (keysModule_name (unmangled _ (.keys member) _ rfl))
  · exact describes.types_named fun r inEntity f inRecord => (fields r inEntity f inRecord).2
  · intro r inEntity f inRecord
    have identifier := (fields r inEntity f inRecord).1
    rw [describes.identifier_eq inEntity inRecord] at identifier
    exact Declaration.not_isPrivate_identifier.mp identifier

end

/-- No class of a plan has private names in its body, in whatever place, if and only if no entity of the batch gives a name
with two underscores at the front, or a pattern to a field that is called without letters and digits. -/
theorem plan_unmangled {o : Options} {n : Namespace} {schemas : List Schema} {table : Option Table}
    {files : List RenderedFile} (planned : (plan o n schemas table).result = .ok files) :
    ∃ entities sources, (describeBatch schemas table).result = .ok entities ∧
      (planSources n schemas table).result = .ok sources ∧ List.Forall₂ (SourceFile.Rendering o) sources files ∧
      ((∀ s ∈ sources, ∀ tree ∈ s.tree, tree.Unmangled) ↔ ∀ e ∈ entities, e.Unmangled) := by
  obtain ⟨entities, described, rendered⟩ := plan_ok planned
  refine ⟨entities, _, describeBatch_ok.mpr described, planSources_ok.mpr ⟨entities, described, rfl⟩, rendered, ?_⟩
  have describes : ∀ e ∈ entities, ∃ s, Describes s e := fun e => described.describes
  constructor
  · intro unmangled e member
    exact .of_unmangled (n := n) describes (fun s emitted => unmangled s (mem_sources_iff.mpr emitted)) member
  · intro unmangled s member
    exact (mem_sources_iff.mp member).unmangled describes unmangled

theorem shopPlan_unmangled : ∃ files sources,
    (plan .unformatted shopNamespace [shopOrder] (some shopTable)).result = .ok files ∧
      List.Forall₂ (SourceFile.Rendering .unformatted) sources files ∧
      ∀ s ∈ sources, ∀ tree ∈ s.tree, tree.Unmangled := by
  obtain ⟨files, planned⟩ := shopPlan_ok
  obtain ⟨entities, sources, described, -, rendered, unmangled⟩ := plan_unmangled planned
  have checked : (describeBatch [shopOrder] (some shopTable)).result.toOption.any (fun entities =>
      decide (∀ e ∈ entities, e.Unmangled)) = true := by decide +kernel
  rw [described] at checked
  exact ⟨files, sources, planned, rendered, unmangled.mpr (of_decide_eq_true checked)⟩

/-- An order with a field that is stored under a private name. -/
def codedOrder : Schema :=
  { entityName := some "Order"
    primaryKey := ⟨"id", none⟩
    fields := [bareField "id" "string", bareField "__code" "string"]
    description := none
    schemaVersion := none }

/-- Such an order is planned with classes that have the private name. -/
theorem codedOrderPlan_mangles : ¬ ∀ o n schemas table files sources, (plan o n schemas table).result = .ok files →
    (∀ s ∈ schemas, s.NoOverrides) → (planSources n schemas table).result = .ok sources →
    ∀ s ∈ sources, ∀ tree ∈ s.tree, tree.Unmangled := by
  intro unmangled
  have checked : (plan .unformatted shopNamespace [codedOrder] none).result.isOk = true := by decide +kernel
  have mangles : (planSources shopNamespace [codedOrder] none).result.toOption.any (fun sources =>
      sources.any fun s => s.tree.toList.any fun tree => !decide tree.Unmangled) = true := by decide +kernel
  have noOverrides : codedOrder.NoOverrides := by
    have all : ∀ scope ∈ scopes codedOrder.fields, ∀ f ∈ scope, given f.nameOverride = none := by decide +kernel
    exact fun scope is => all scope is.mem_scopes
  cases outcome : (plan .unformatted shopNamespace [codedOrder] none).result with
  | error failure =>
    rw [outcome] at checked
    cases checked
  | ok files =>
    cases planned : (planSources shopNamespace [codedOrder] none).result with
    | error failure =>
      rw [planned] at mangles
      cases mangles
    | ok sources =>
      rw [planned] at mangles
      obtain ⟨s, inPlan, mangles⟩ := List.any_eq_true.mp mangles
      obtain ⟨tree, inFile, mangles⟩ := List.any_eq_true.mp mangles
      have kept := unmangled _ _ _ _ files sources outcome (List.forall_mem_singleton.mpr noOverrides) planned s inPlan tree
        (Option.mem_toList.mp inFile)
      simp [kept] at mangles

end Tablewright
