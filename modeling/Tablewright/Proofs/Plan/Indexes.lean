import Tablewright.Proofs.Access.HelperClasses
import Tablewright.Proofs.Plan.Acceptance

/-!
# Secondary indexes in generated source

Every secondary index of a table becomes a constant of each key helper and a query of each repository.  The check of index
names compares both in one table, which comes to comparing the names of the indexes in snake case.

The query reads the constant from the key helper by name.  The check does not know the parameters of the query and the
types that the repository imports, so that this name may stand for one of them.

* `checkIndexNames_iff`: the tables that the check accepts.
* `AsksForIndex`: the query of an index reads the constant of the index.
* `indexes_distinct`: what an accepted table makes sure of, and when the constant is found.
-/

namespace Tablewright

namespace Source

/-- The arguments of a name in the calls that a function gives the result of. -/
def Stmt.resultArguments (name : String) : Stmt → List Expr
  | .function _ _ body => body.flatMap fun
    | .result (.call _ _ keywords) => keywords.filterMap fun
      | .mk (some other) value => if other = name then some value else none
      | .mk none _ => none
    | _ => []
  | _ => []

end Source

open Access
open Source (Expr Stmt bindings)

variable {t : Table} {e : Entity}

/-! ## The check -/

theorem queryName_ne_indexConstant (i j : Index) : queryName i ≠ Name.indexConstant j.name := by
  intro same
  have first := congrArg (fun name : String => name.toList.head?) same
  simp [queryName_toList, Name.toList_indexConstant] at first

/-- The check of index names accepts a table exactly if its indexes differ in snake case. -/
theorem checkIndexNames_iff : checkIndexNames t = .ok () ↔ (t.indexes.map fun i => Name.snakeCase i.name).Nodup := by
  have own : ∀ i, (indexNames i).Nodup := fun i => by
    simpa [indexNames] using queryName_ne_indexConstant i i
  have apart : ∀ i j, (indexNames i).Disjoint (indexNames j) ↔ Name.snakeCase i.name ≠ Name.snakeCase j.name := by
    intro i j
    rw [ne_comm]
    simp [indexNames, queryName_inj, Name.indexConstant_inj, queryName_ne_indexConstant,
      (queryName_ne_indexConstant _ _).symm]
  rw [checkIndexNames_ok, List.nodup_flatMap, List.Nodup, List.pairwise_map]
  refine ⟨fun names => names.2.imp fun disjoint => (apart _ _).mp disjoint,
    fun different => ⟨fun i _ => own i, different.imp fun other => (apart _ _).mpr other⟩⟩

/-! ## Queries and constants -/

/-- The query of an index is the only one of its name, its index name is the constant of the index in the key helper, and
this constant is defined once, as the name of the index. -/
structure AsksForIndex (e : Entity) (t : Table) (i : Index) : Prop where
  query : bindings (queryName i) (repositoryHelper e t).value.suite = [indexQuery e i]
  argument : (indexQuery e i).resultArguments "IndexName" =
    [.attr (.name (keysClass e.name)) (Name.indexConstant i.name)]
  helper : bindings (keysClass e.name) (keysModule e (some t)).value.body = [keysHelper e (some t)]
  constant : bindings (Name.indexConstant i.name) (keysHelper e (some t)).suite =
    [Stmt.bind (Name.indexConstant i.name) (Expr.text i.name)]

theorem indexQuery_argument (e : Entity) (i : Index) : (indexQuery e i).resultArguments "IndexName" =
    [.attr (.name (keysClass e.name)) (Name.indexConstant i.name)] := by
  rw [indexQuery]
  cases (indexKeys e i).value.2 <;> rfl

theorem asksForIndex (different : (t.indexes.map fun i => Name.snakeCase i.name).Nodup) (e : Entity) {i : Index}
    (member : i ∈ t.indexes) : AsksForIndex e t i where
  query := by
    refine Source.bindings_of_nodup (repositoryHelper_members different e).1 ?_ List.mem_cons_self
    rw [repositoryHelper_suite]
    exact List.mem_append_left _ (List.mem_append_right _ (List.mem_map_of_mem member))
  argument := indexQuery_argument e i
  helper := keysHelper_bindings e (some t)
  constant := by
    refine Source.bindings_of_nodup (keysHelper_members different e).1 ?_ List.mem_cons_self
    have constant : Stmt.bind (Name.indexConstant i.name) (Expr.text i.name) ∈ indexConstants (some t) :=
      List.mem_map.mpr ⟨i, member, rfl⟩
    rw [keysHelper, Stmt.suite]
    exact List.mem_append_left _ (List.mem_append_right _ constant)

/-- A table is accepted exactly if its indexes differ in snake case.  Then the members of every key helper and of every
repository are different identifiers, and every query asks for its index by a constant that the key helper defines once.
The query finds that constant if and only if neither one of its parameters nor a type that the repository imports is
called like the key helper. -/
theorem indexes_distinct (t : Table) :
    (checkIndexNames t = .ok () ↔ (t.indexes.map fun i => Name.snakeCase i.name).Nodup) ∧
      (checkIndexNames t = .ok () → ∀ e : Entity,
        DistinctIdentifiers ((keysHelper e (some t)).suite.flatMap Stmt.binds) ∧
        DistinctIdentifiers ((repositoryHelper e t).value.suite.flatMap Stmt.binds) ∧
        ∀ i ∈ t.indexes, AsksForIndex e t i ∧
          ((repositoryModule e t).value.resolve (indexQuery e i) (keysClass e.name) = some (keysImport e) ↔
            keysClass e.name ∉ (indexAttributes e i).map (·.identifier) ∧ keysClass e.name ∉ repositoryTypes e t)) := by
  refine ⟨checkIndexNames_iff, fun accepted e => ?_⟩
  have different := checkIndexNames_iff.mp accepted
  exact ⟨keysHelper_members different e, repositoryHelper_members different e,
    fun i member => ⟨asksForIndex different e member, resolve_keysClass e t i⟩⟩

theorem shopTable_distinct : checkIndexNames shopTable = .ok () ∧ ∃ e, (describe shopOrder).value = .ok e ∧
    ∀ i ∈ shopTable.indexes, AsksForIndex e shopTable i ∧
      (repositoryModule e shopTable).value.resolve (indexQuery e i) (keysClass e.name) = some (keysImport e) := by
  obtain ⟨e, described, free⟩ := exists_described (s := shopOrder) (P := fun e => shopTable.indexes.all fun i =>
    decide (keysClass e.name ∉ (indexAttributes e i).map (·.identifier) ∧ keysClass e.name ∉ repositoryTypes e shopTable))
      (by decide +kernel)
  obtain ⟨accepts, members⟩ := indexes_distinct shopTable
  have accepted := accepts.mpr (by decide +kernel)
  refine ⟨accepted, e, described, fun i member => ?_⟩
  obtain ⟨asks, resolves⟩ := (members accepted e).2.2 i member
  exact ⟨asks, resolves.mpr (of_decide_eq_true (List.all_eq_true.mp free i member))⟩

/-- An order with a field that is called like its key helper. -/
def ownedOrder : Schema :=
  { entityName := some "Order"
    primaryKey := ⟨"id", none⟩
    fields := [bareField "id" "string", bareField "OrderKeys" "string"]
    description := none
    schemaVersion := none }

def ownersTable : Table := ⟨"orders", none, none, [⟨"by-owner", "OrderKeys", none⟩], []⟩

/-- Such orders are planned with a query that reads the name of its index from a parameter. -/
theorem ownersTable_shadowed : ¬ ∀ o n schemas table files entities, (plan o n schemas table).result = .ok files →
    (describeBatch schemas table).result = .ok entities → ∀ e ∈ entities, ∀ t ∈ table, ∀ i ∈ t.indexes,
      (repositoryModule e t).value.resolve (indexQuery e i) (keysClass e.name) = some (keysImport e) := by
  intro resolves
  have accepted : (plan .unformatted shopNamespace [ownedOrder] (some ownersTable)).result.isOk = true := by
    decide +kernel
  have shadowed : (describeBatch [ownedOrder] (some ownersTable)).result.toOption.any (fun entities =>
      entities.any fun e => ownersTable.indexes.any fun i =>
        ((indexAttributes e i).map (·.identifier)).contains (keysClass e.name)) = true := by decide +kernel
  cases outcome : (plan .unformatted shopNamespace [ownedOrder] (some ownersTable)).result with
  | error failure =>
    rw [outcome] at accepted
    cases accepted
  | ok files =>
    cases described : (describeBatch [ownedOrder] (some ownersTable)).result with
    | error failure =>
      rw [described] at shadowed
      cases shadowed
    | ok entities =>
      rw [described] at shadowed
      obtain ⟨e, member, shadowed⟩ := List.any_eq_true.mp shadowed
      obtain ⟨i, index, parameter⟩ := List.any_eq_true.mp shadowed
      have found := resolves _ _ _ _ files entities outcome described e member ownersTable rfl i index
      exact ((resolve_keysClass e ownersTable i).mp found).1 (by simpa using parameter)

end Tablewright
