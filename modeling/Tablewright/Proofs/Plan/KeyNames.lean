import Tablewright.Proofs.Access.KeyNames
import Tablewright.Proofs.Plan.Acceptance

/-!
# The names of key attributes in a plan

The check of collisions compares the identifiers of declared fields.  The identifiers of key attributes that no field
declares are made later and are not compared with anything, so an accepted batch may look one attribute up under the name
of another one.

* `plan_keepsKeyNames`: the key attributes of a plan have names of their own if and only if they are apart.
-/

namespace Tablewright

open Access

variable {n : Namespace} {entities : List Entity} {table : Option Table} {e : Entity}

/-- The functions that take key attributes are emitted in the classes of key helpers and repositories. -/
theorem exists_emitted_keyFunction (member : e ∈ entities) {f : Source.Stmt × List KeyAttribute}
    (function : f ∈ keyFunctions e table) :
    ∃ s, Emitted n entities table s ∧ ∃ tree ∈ s.tree, ∃ c ∈ tree.body, f.1 ∈ c.suite := by
  rcases List.mem_cons.mp function with rfl | lookup
  · refine ⟨_, .keys member, _, rfl, keysHelper e table, ?_, ?_⟩
    · rw [keysModule_body]
      simp
    · simp [keysHelper, Source.Stmt.suite]
  · cases table with
    | none => cases lookup
    | some t =>
      refine ⟨_, .repository rfl member, _, rfl, (repositoryHelper e t).value, ?_, ?_⟩
      · rw [repositoryModule_body]
        simp
      · simp only [repositoryHelper, Noted.value_bind, Noted.value_pure, Noted.value_each, Source.Stmt.suite,
          List.mem_append]
        left
        rcases List.mem_cons.mp lookup with rfl | lookup
        · left
          simp
        · rcases List.mem_cons.mp lookup with rfl | query
          · left
            simp
          · right
            obtain ⟨i, inTable, rfl⟩ := List.mem_map.mp query
            exact List.mem_map.mpr ⟨i, inTable, rfl⟩

theorem Described.keepsKeyNames_iff {schemas : List Schema} (described : Described schemas table entities)
    (member : e ∈ entities) : KeepsKeyNames e table ↔ KeysApart e table := by
  obtain ⟨s, inBatch, -, describes⟩ := described.mem_entity member
  have uncollided := checkCollisions_ok.mp (described.uncollided s inBatch)
  exact Access.keepsKeyNames_iff describes (describes.identifiers_nodup uncollided List.mem_cons_self)

/-- In every function of a plan that takes key attributes the parameters differ, and no field is called like a key
attribute that it is not, if and only if the undeclared key attributes are apart in camel case and no lookup takes a field
that is called like its receiver. -/
theorem plan_keepsKeyNames {o : Options} {schemas : List Schema} {files : List RenderedFile}
    (planned : (plan o n schemas table).result = .ok files) :
    ∃ entities sources, (describeBatch schemas table).result = .ok entities ∧
      (planSources n schemas table).result = .ok sources ∧ List.Forall₂ (SourceFile.Rendering o) sources files ∧
      (∀ e ∈ entities, ∀ f ∈ keyFunctions e table,
        ∃ s ∈ sources, ∃ tree ∈ s.tree, ∃ c ∈ tree.body, f.1 ∈ c.suite) ∧
      ((∀ e ∈ entities, KeepsKeyNames e table) ↔ ∀ e ∈ entities, KeysApart e table) := by
  obtain ⟨entities, described, rendered⟩ := plan_ok planned
  refine ⟨entities, _, describeBatch_ok.mpr described, planSources_ok.mpr ⟨entities, described, rfl⟩, rendered, ?_, ?_⟩
  · intro e member f function
    obtain ⟨s, emitted, inTree⟩ := exists_emitted_keyFunction (n := n) member function
    exact ⟨s, mem_sources_iff.mpr emitted, inTree⟩
  · exact forall₂_congr fun e member => described.keepsKeyNames_iff member

theorem shopPlan_keepsKeyNames : ∃ files entities,
    (plan .unformatted shopNamespace [shopOrder] (some shopTable)).result = .ok files ∧
      (describeBatch [shopOrder] (some shopTable)).result = .ok entities ∧
      ∀ e ∈ entities, KeepsKeyNames e (some shopTable) := by
  obtain ⟨files, planned⟩ := shopPlan_ok
  obtain ⟨entities, sources, described, -, -, -, keeps⟩ := plan_keepsKeyNames planned
  have checked : (describeBatch [shopOrder] (some shopTable)).result.toOption.any (fun entities =>
      decide (∀ e ∈ entities, KeysApart e (some shopTable))) = true := by decide +kernel
  rw [described] at checked
  exact ⟨files, entities, planned, described, keeps.mpr (of_decide_eq_true checked)⟩

/-- An order whose key consists of two attributes that it does not declare, and which have the camel case of a field that
it does declare. -/
def undeclaredOrder : Schema :=
  { entityName := some "Order"
    primaryKey := ⟨"order-id", some "order_id"⟩
    fields := [bareField "orderId" "string"]
    description := none
    schemaVersion := none }

/-- Such an order is planned with a key that takes two parameters of one name, which is that of the field. -/
theorem undeclaredOrderPlan_confuses : ¬ ∀ o n schemas table files entities,
    (plan o n schemas table).result = .ok files → (describeBatch schemas table).result = .ok entities →
    ∀ e ∈ entities, KeepsKeyNames e table := by
  intro keeps
  have accepted : (plan .unformatted shopNamespace [undeclaredOrder] none).result.isOk = true := by decide +kernel
  have confused : (describeBatch [undeclaredOrder] none).result.toOption.any (fun entities => entities.any fun e =>
      e.record.fields.any fun f => f.identifier == e.partitionKey.identifier
        && f.storageName != e.partitionKey.storageName) = true := by decide +kernel
  cases outcome : (plan .unformatted shopNamespace [undeclaredOrder] none).result with
  | error failure =>
    rw [outcome] at accepted
    cases accepted
  | ok files =>
    cases described : (describeBatch [undeclaredOrder] none).result with
    | error failure =>
      rw [described] at confused
      cases confused
    | ok entities =>
      rw [described] at confused
      obtain ⟨e, member, confused⟩ := List.any_eq_true.mp confused
      obtain ⟨f, inRecord, confused⟩ := List.any_eq_true.mp confused
      rw [Bool.and_eq_true, beq_iff_eq, bne_iff_ne] at confused
      have own := (keeps _ _ _ _ files entities outcome described e member).identifiers e.partitionKey
        List.mem_cons_self f inRecord confused.1
      exact confused.2 own

end Tablewright
