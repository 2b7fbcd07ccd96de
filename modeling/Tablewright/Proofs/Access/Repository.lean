import Tablewright.Access.Repository
import Tablewright.Proofs.Access.Conversion
import Tablewright.Proofs.Access.Layout
import Tablewright.Proofs.Schema.Description

/-!
# Names in repositories

The module of a repository binds every name that it reads.  The parameters of its methods are the key
attributes of the entity and of the secondary indexes, and the module imports what their hints read.

* `repositoryKeys`: the key attributes of a repository.
* `RepositoryScope`: what the members of a repository need from its module.
* `repositoryModule_namesBound`: the module binds what it reads.
-/

namespace Tablewright.Access

open Source (Expr Stmt Param Signature Module Env Part Keyword Entry builtins noResult)

variable {names : List String} {e : Entity} {t : Table}

def indexAttributes (e : Entity) (i : Index) : List KeyAttribute :=
  (indexKeys e i).value.1 :: (indexKeys e i).value.2.toList

theorem mem_indexAttributes {i : Index} {k : KeyAttribute} (known : k ∈ indexAttributes e i) :
    ∃ storageName, k = (e.keyAttribute storageName).value := by
  rw [indexAttributes, indexKeys] at known
  cases sortKey : i.sortKey? with
  | none =>
    simp only [sortKey, Noted.value_bind, Noted.value_pure, Option.toList_none, List.mem_singleton] at known
    exact ⟨_, known⟩
  | some storageName =>
    simp only [sortKey, Noted.value_bind, Noted.value_pure, Option.toList_some, List.mem_cons, List.not_mem_nil,
      or_false] at known
    rcases known with partition | sort
    · exact ⟨_, partition⟩
    · exact ⟨_, sort⟩

/-- The key attributes of a repository: those of the entity, and those of the indexes. -/
def repositoryKeys (e : Entity) (t : Table) : List KeyAttribute := e.keys ++ t.indexes.flatMap (indexAttributes e)

/-- The types of the key attributes of a repository are described beside the entity. -/
theorem repositoryKeys_provided {s : Schema} (describes : Describes s e) {k : KeyAttribute}
    (known : k ∈ repositoryKeys e t) : k.type.Provided e.nested e.enums := by
  rcases List.mem_append.mp known with own | indexed
  · rcases List.mem_cons.mp own with rfl | sortKey
    · rw [describes.partitionKey]
      exact describes.provided_keyAttribute _ _
    · rw [Option.mem_toList, describes.sortKey] at sortKey
      obtain ⟨storageName, -, rfl⟩ := Option.map_eq_some_iff.mp sortKey
      exact describes.provided_keyAttribute _ _
  · obtain ⟨i, -, inIndex⟩ := List.mem_flatMap.mp indexed
    obtain ⟨storageName, rfl⟩ := mem_indexAttributes inIndex
    exact describes.provided_keyAttribute _ _

/-! ## Members -/

/-- The names that the members of a repository read from its module. -/
structure RepositoryScope (e : Entity) (t : Table) (names : List String) : Prop where
  any : "Any" ∈ names
  optional : "Optional" ∈ names
  list : t.indexes ≠ [] → "List" ∈ names
  entity : e.name ∈ names
  keys : keysClass e.name ∈ names
  validator : validatorClass e.name ∈ names
  hints : ∀ k ∈ repositoryKeys e t, importsOf k.type ⊆ names

theorem keyArgument_bound {k : KeyAttribute} (parameter : k.identifier ∈ names)
    (imports : importsOf k.type ⊆ names) : (keyArgument k).Bound (.all names) := by
  unfold keyArgument
  split
  · exact toStorage_bound imports (.inl parameter)
  · exact toStorage_bound imports (.inl parameter)
  · exact .inl parameter

theorem tableCall_bound {env : Env} (self : "self" ∈ env.here) {method : String} {keywords : List Keyword}
    (bound : ∀ k ∈ keywords, k.value.Bound env) : (tableCall method keywords).Bound env :=
  ⟨.inl self, trivial, Keyword.allBound_iff.mpr bound⟩

theorem repositoryConstructor_bound : repositoryConstructor.Bound (.all names) := by
  refine Stmt.function_bound ⟨by simp, ?_, by simp, Source.noResult_bound⟩ (by simp [Stmt.globals]) ?_
  · exact List.forall_mem_cons.mpr ⟨Param.plain_bound, List.forall_mem_singleton.mpr (Param.required_bound trivial)⟩
  · intro inner inside
    have self : "self" ∈ inner := inside.params _ List.mem_cons_self
    have client : "client" ∈ inner := inside.params _ (List.mem_cons_of_mem _ List.mem_cons_self)
    exact List.forall_mem_singleton.mpr ⟨.inl self, .inl client⟩

namespace RepositoryScope

variable (scope : RepositoryScope e t names)
include scope

theorem fromResource_bound : (fromResource e).Bound (.all names) := by
  refine Stmt.function_bound ⟨?_, ?_, by simp, ?_⟩ (by simp [Stmt.globals, Stmt.bind]) ?_
  · simp [Expr.Bound, builtins]
  · refine List.forall_mem_cons.mpr ⟨Param.plain_bound, List.forall_mem_cons.mpr ⟨Param.required_bound (.inl scope.any),
      List.forall_mem_singleton.mpr (Param.required_bound (.inr (by decide)))⟩⟩
  · simp [Expr.text, Expr.Bound]
  · intro inner inside
    have cls : "cls" ∈ inner := inside.params _ List.mem_cons_self
    have resource : "resource" ∈ inner := inside.params _ (List.mem_cons_of_mem _ List.mem_cons_self)
    have tableName : "table_name" ∈ inner :=
      inside.params _ (List.mem_cons_of_mem _ (List.mem_cons_of_mem _ List.mem_cons_self))
    have repository : "repository" ∈ inner := inside.locals _ List.mem_cons_self List.mem_cons_self
    simp only [List.forall_mem_cons]
    refine ⟨⟨trivial, .inl cls, ⟨.inl cls, trivial⟩, trivial⟩, ⟨.inl repository, ?_⟩, .inl repository, by simp⟩
    exact ⟨.inl resource, ⟨.inl tableName, trivial⟩, trivial⟩

theorem saveMethod_bound : (saveMethod e).Bound (.all names) := by
  refine Stmt.function_bound ⟨by simp, ?_, by simp, Source.noResult_bound⟩ (by simp [Stmt.globals]) ?_
  · exact List.forall_mem_cons.mpr ⟨Param.plain_bound, List.forall_mem_singleton.mpr
      (Param.required_bound (.inl scope.entity))⟩
  · intro inner inside
    have self : "self" ∈ inner := inside.params _ List.mem_cons_self
    have entity : "entity" ∈ inner := inside.params _ (List.mem_cons_of_mem _ List.mem_cons_self)
    have validator : validatorClass e.name ∈ inner := inside.outer scope.validator
    refine List.forall_mem_cons.mpr ⟨⟨.inl validator, ⟨.inl entity, trivial⟩, trivial⟩, ?_⟩
    refine List.forall_mem_singleton.mpr (tableCall_bound self (List.forall_mem_singleton.mpr ?_))
    exact ⟨.inl entity, trivial, trivial⟩

theorem keyHint_bound {env : Env} (seen : names ⊆ env.here) {k : KeyAttribute} (member : k ∈ repositoryKeys e t) :
    (typeHint k.type).Bound env :=
  typeHint_bound (List.Subset.trans (scope.hints k member) seen)

theorem keyParams_bound {keys : List KeyAttribute} (some : keys ⊆ repositoryKeys e t) :
    ∀ p ∈ keyParams keys, p.Bound (.all names) :=
  List.forall_mem_map.mpr fun _ member => Param.required_bound (scope.keyHint_bound (List.Subset.refl _) (some member))

theorem keyCall_bound {inner : List String} (outer : names ⊆ inner) (params : ∀ k ∈ e.keys, k.identifier ∈ inner) :
    (keyCall e).Bound (.all inner) := by
  refine ⟨.inl (outer scope.keys), Expr.allBound_iff.mpr (List.forall_mem_map.mpr fun k member => ?_), trivial⟩
  have imports := scope.hints k (List.mem_append_left _ member)
  exact keyArgument_bound (params k member) (List.Subset.trans imports outer)

theorem findByKey_bound : (findByKey e).Bound (.all names) := by
  refine Stmt.function_bound ⟨by simp, ?_, by simp, ?_⟩ (by simp [Stmt.globals, Stmt.bind]) ?_
  · exact List.forall_mem_cons.mpr ⟨Param.plain_bound, scope.keyParams_bound (List.subset_append_left _ _)⟩
  · have hint : (Expr.generic "Optional" [.name e.name]).Bound (.all names) := ⟨.inl scope.optional, .inl scope.entity⟩
    simpa using hint
  · intro inner inside
    have outer : names ⊆ inner := inside.outer
    have self : "self" ∈ inner := inside.params _ List.mem_cons_self
    have response : "response" ∈ inner := inside.locals _ List.mem_cons_self List.mem_cons_self
    have item : "item" ∈ inner :=
      inside.locals _ (List.mem_cons_of_mem _ List.mem_cons_self) List.mem_cons_self
    have params : ∀ k ∈ e.keys, k.identifier ∈ inner :=
      fun k member => inside.params _ (List.mem_cons_of_mem _ (List.mem_map_of_mem member))
    simp only [List.forall_mem_cons]
    refine ⟨⟨trivial, tableCall_bound self (List.forall_mem_singleton.mpr (scope.keyCall_bound outer params))⟩,
      ⟨trivial, .inl response, ⟨trivial, trivial⟩, trivial⟩, ⟨⟨.inl item, trivial⟩, trivial, trivial⟩, ?_, by simp⟩
    exact ⟨.inl (outer scope.entity), ⟨.inl item, trivial⟩, trivial⟩

theorem deleteByKey_bound : (deleteByKey e).Bound (.all names) := by
  refine Stmt.function_bound ⟨by simp, ?_, by simp, Source.noResult_bound⟩ (by simp [Stmt.globals]) ?_
  · exact List.forall_mem_cons.mpr ⟨Param.plain_bound, scope.keyParams_bound (List.subset_append_left _ _)⟩
  · intro inner inside
    have self : "self" ∈ inner := inside.params _ List.mem_cons_self
    have params : ∀ k ∈ e.keys, k.identifier ∈ inner :=
      fun k member => inside.params _ (List.mem_cons_of_mem _ (List.mem_map_of_mem member))
    refine List.forall_mem_singleton.mpr (tableCall_bound self (List.forall_mem_singleton.mpr ?_))
    exact scope.keyCall_bound inside.outer params

theorem sortCondition_bound {inner : List String} (outer : names ⊆ inner) {k : KeyAttribute}
    (known : k ∈ repositoryKeys e t) (parameter : k.identifier ∈ inner)
    (condition : ["key_condition", "expression_names", "expression_values"] ⊆ inner) :
    (sortCondition k).Bound (.all inner) := by
  have argument : (keyArgument k).Bound (.all inner) :=
    keyArgument_bound parameter (List.Subset.trans (scope.hints k known) outer)
  have attributes : "expression_names" ∈ inner := condition (by decide)
  have values : "expression_values" ∈ inner := condition (by decide)
  exact ⟨⟨.inl parameter, trivial⟩, ⟨condition (by decide), trivial⟩, ⟨⟨.inl attributes, trivial⟩, trivial⟩,
    ⟨⟨.inl values, trivial⟩, argument⟩, trivial⟩

theorem queryMethod_bound {i : Index} (member : i ∈ t.indexes) :
    (queryMethod e i (indexKeys e i).value.1 (indexKeys e i).value.2).Bound (.all names) := by
  have known : ∀ k ∈ indexAttributes e i, k ∈ repositoryKeys e t :=
    fun k inIndex => List.mem_append_right _ (List.mem_flatMap.mpr ⟨i, member, inIndex⟩)
  unfold indexAttributes at known
  generalize (indexKeys e i).value.1 = partitionKey at known ⊢
  generalize (indexKeys e i).value.2 = sortKey at known ⊢
  have list := scope.list (List.ne_nil_of_mem member)
  have partitionKnown := known _ List.mem_cons_self
  have sortKnown : ∀ k ∈ sortKey.toList, k ∈ repositoryKeys e t := fun k given => known k (List.mem_cons_of_mem _ given)
  refine Stmt.function_bound ⟨by simp, ?_, by simp, ?_⟩ ?_ ?_
  · refine List.forall_mem_cons.mpr ⟨Param.plain_bound, List.forall_mem_append.mpr ⟨?_, ?_⟩⟩
    · exact scope.keyParams_bound (by simpa using partitionKnown)
    · refine List.forall_mem_map.mpr fun k given => Param.optional_bound ⟨.inl scope.optional, ?_⟩
      exact scope.keyHint_bound (List.Subset.refl _) (sortKnown k given)
  · have hint : (Expr.generic "List" [.name e.name]).Bound (.all names) := ⟨.inl list, .inl scope.entity⟩
    simpa using hint
  · simp only [List.forall_mem_append, List.forall_mem_cons, List.forall_mem_map]
    exact ⟨⟨⟨rfl, rfl, rfl, by simp⟩, fun k _ => rfl⟩, rfl, by simp⟩
  · intro inner inside
    have outer : names ⊆ inner := inside.outer
    have imports := List.Subset.trans (scope.hints _ partitionKnown) outer
    have self : "self" ∈ inner := inside.params _ List.mem_cons_self
    have partition : partitionKey.identifier ∈ inner :=
      inside.params _ (List.mem_cons_of_mem _ List.mem_cons_self)
    have sort : ∀ k ∈ sortKey.toList, k.identifier ∈ inner := fun k given =>
      inside.params _ (List.mem_cons_of_mem _ (List.mem_cons_of_mem _ (List.mem_map_of_mem given)))
    -- the names that the condition is put together in
    have condition : "key_condition" ∈ inner := inside.locals _ List.mem_cons_self List.mem_cons_self
    have attributes : "expression_names" ∈ inner :=
      inside.locals _ (List.mem_cons_of_mem _ List.mem_cons_self) List.mem_cons_self
    have values : "expression_values" ∈ inner :=
      inside.locals _ (List.mem_cons_of_mem _ (List.mem_cons_of_mem _ List.mem_cons_self)) List.mem_cons_self
    simp only [List.forall_mem_append, List.forall_mem_cons, List.forall_mem_map]
    refine ⟨⟨⟨⟨trivial, trivial⟩, ⟨trivial, trivial, trivial, trivial⟩, ⟨trivial, trivial, ?_, trivial⟩, by simp⟩, ?_⟩, ?_,
      by simp⟩
    · exact keyArgument_bound partition imports
    · intro k given
      exact scope.sortCondition_bound outer (sortKnown k given) (sort k given)
        (by simp [condition, attributes, values])
    · exact ⟨.inl self, trivial, .inl (outer scope.keys), .inl condition, .inl attributes, .inl values, trivial⟩

theorem queryAllMethod_bound (indexed : t.indexes ≠ []) : (queryAllMethod e).Bound (.all names) := by
  have hint : ∀ {inner : List String}, names ⊆ inner → (Expr.generic "List" [.name e.name]).Bound (.all inner) :=
    fun outer => ⟨.inl (outer (scope.list indexed)), .inl (outer scope.entity)⟩
  refine Stmt.function_bound ⟨by simp, by simp [Param.plain_bound], ?_, ?_⟩ ?_ ?_
  · have kwargs : (Param.required "kwargs" (.name "Any")).Bound (.all names) := Param.required_bound (.inl scope.any)
    simpa using kwargs
  · simpa using hint (List.Subset.refl _)
  · simp [Stmt.globals, Stmt.bind, Stmt.put]
  · intro inner inside
    have self : "self" ∈ inner := inside.params _ List.mem_cons_self
    have kwargs : "kwargs" ∈ inner := inside.rest _ rfl
    have results : "results" ∈ inner := inside.locals _ List.mem_cons_self List.mem_cons_self
    have loopLocals := inside.locals _ (List.mem_cons_of_mem _ List.mem_cons_self)
    have response : "response" ∈ inner := loopLocals (by simp [Stmt.locals, Stmt.bind, Source.localsAll])
    have lastKey : "last_key" ∈ inner := loopLocals (by simp [Stmt.locals, Stmt.bind, Source.localsAll])
    have entity : e.name ∈ inner := inside.outer scope.entity
    simp only [List.forall_mem_cons]
    refine ⟨⟨hint inside.outer, by simp [Expr.Bound]⟩, ⟨trivial, ?_⟩, by simp⟩
    simp only [Stmt.allBound_iff, List.forall_mem_cons]
    refine ⟨⟨trivial, tableCall_bound self (List.forall_mem_singleton.mpr (.inl kwargs))⟩, ?_,
      ⟨trivial, .inl response, ⟨trivial, trivial⟩, trivial⟩, ⟨.inl lastKey, .inl results, trivial⟩,
      ⟨⟨.inl kwargs, trivial⟩, .inl lastKey⟩, by simp⟩
    refine ⟨.inl results, ⟨⟨⟨.inl response, ⟨trivial, trivial, trivial⟩, trivial⟩, ?_⟩, trivial⟩, trivial⟩
    exact ⟨.inl (List.mem_cons_of_mem _ entity), ⟨.inl List.mem_cons_self, trivial⟩, trivial⟩

theorem repositoryHelper_bound : (repositoryHelper e t).value.Bound (.all names) := by
  simp only [repositoryHelper, Noted.value_bind, Noted.value_pure, Noted.value_each]
  refine ⟨by simp, by simp, Stmt.classBound_of_forall ?_⟩
  simp only [List.forall_mem_append, List.forall_mem_cons, List.forall_mem_map]
  refine ⟨⟨⟨repositoryConstructor_bound, scope.fromResource_bound, scope.saveMethod_bound, scope.findByKey_bound,
    scope.deleteByKey_bound, by simp⟩, fun i member => scope.queryMethod_bound member⟩, ?_⟩
  split
  · simp
  · rename_i indexed
    exact List.forall_mem_singleton.mpr (scope.queryAllMethod_bound (by simpa using indexed))

end RepositoryScope

/-! ## Module -/

theorem repositoryUsage_value (e : Entity) (t : Table) :
    (repositoryUsage e t).value = (repositoryKeys e t).foldl (fun u k => u.addPlain k.type)
      (Usage.ofTyping (["TYPE_CHECKING", "Any", "Optional"] ++ if t.indexes.isEmpty then [] else ["List"])) := by
  simp only [repositoryUsage, Noted.value_bind, Noted.value_pure, Noted.value_each, repositoryKeys]
  rfl

/-- The module of a repository imports what the hints of its key attributes read. -/
theorem repositoryUsage_names (e : Entity) (t : Table) (name : String) :
    name ∈ (repositoryUsage e t).value.names ↔
      name ∈ ["TYPE_CHECKING", "Any", "Optional"] ∨ (t.indexes ≠ [] ∧ name = "List") ∨
        ∃ k ∈ repositoryKeys e t, name ∈ importsOf k.type := by
  rw [repositoryUsage_value]
  refine (Usage.foldl_gains (name ∈ ·.names) (fun _ k => Usage.mem_names_addPlain k.type) (repositoryKeys e t) _).trans ?_
  rw [← or_assoc]
  refine or_congr_left ?_
  simp [Usage.ofTyping, Usage.mem_names]
  tauto

/-- The generated types that the module of a repository imports are those that its key attributes mention. -/
theorem repositoryUsage_types (e : Entity) (t : Table) (name : String) :
    name ∈ (repositoryUsage e t).value.types ↔
      ∃ k ∈ repositoryKeys e t, name ∈ k.type.recordNames ∨ name ∈ k.type.enumNames := by
  rw [repositoryUsage_value]
  refine (Usage.foldl_gains (name ∈ ·.types) (fun _ k => Usage.mem_types_addPlain k.type) (repositoryKeys e t) _).trans ?_
  simp [Usage.ofTyping]

section

variable (e : Entity) (t : Table)

theorem repositoryModule_body : (repositoryModule e t).value.body =
    (repositoryUsage e t).value.standardImports
      ++ [.importFrom (s!"..{keysPackage}." ++ Name.snakeCase (keysClass e.name)) [keysClass e.name]]
      ++ ((repositoryUsage e t).value.types.map fun type =>
          .importFrom (s!"..{nestedPackage}." ++ Name.snakeCase type) [type])
      ++ [.importFrom (".." ++ Name.snakeCase e.name) [e.name],
          .importFrom (s!"..{validatorsPackage}." ++ Name.snakeCase (validatorClass e.name)) [validatorClass e.name],
          .ifThen (.name "TYPE_CHECKING") [.importFrom s!"..{clientPackage}.{clientModule}" [clientClass]],
          (repositoryHelper e t).value] := rfl

theorem repositoryUsage_subset : (repositoryUsage e t).value.names ⊆ (repositoryModule e t).value.topLevel := by
  intro name member
  rw [Module.topLevel, repositoryModule_body, List.flatMap_append, List.flatMap_append, List.flatMap_append]
  rcases (Usage.binds_imports _ _ _).mp member with standard | type
  · exact List.mem_append_left _ (List.mem_append_left _ (List.mem_append_left _ standard))
  · exact List.mem_append_left _ (List.mem_append_right _ type)

/-- The top level of a repository module binds what its members read. -/
theorem repositoryModule_scope : RepositoryScope e t (repositoryModule e t).value.topLevel := by
  have imported : ∀ {name}, name ∈ (repositoryUsage e t).value.names → name ∈ (repositoryModule e t).value.topLevel :=
    fun member => repositoryUsage_subset e t member
  have given : ∀ {name}, name ∈ ["TYPE_CHECKING", "Any", "Optional"] → name ∈ (repositoryModule e t).value.topLevel :=
    fun member => imported ((repositoryUsage_names e t _).mpr (.inl member))
  have bound : ∀ {s name}, s ∈ (repositoryModule e t).value.body → name ∈ s.binds →
      name ∈ (repositoryModule e t).value.topLevel := fun member binds => Module.mem_topLevel.mpr ⟨_, member, binds⟩
  rw [repositoryModule_body] at bound
  refine ⟨given (by simp), given (by simp), ?_, ?_, ?_, ?_, ?_⟩
  · exact fun indexed => imported ((repositoryUsage_names e t _).mpr (.inr (.inl ⟨indexed, rfl⟩)))
  · exact bound (List.mem_append_right _ List.mem_cons_self) List.mem_cons_self
  · exact bound (List.mem_append_left _ (List.mem_append_left _ (List.mem_append_right _ List.mem_cons_self)))
      List.mem_cons_self
  · exact bound (List.mem_append_right _ (List.mem_cons_of_mem _ List.mem_cons_self)) List.mem_cons_self
  · exact fun k member name needed => imported ((repositoryUsage_names e t _).mpr (.inr (.inr ⟨k, member, needed⟩)))

/-- The module of a repository defines it. -/
theorem repositoryModule_itself : repositoryClass e.name ∈ (repositoryModule e t).value.topLevel := by
  have binds : (repositoryHelper e t).value.binds = [repositoryClass e.name] := by
    simp only [repositoryHelper, Noted.value_bind, Noted.value_pure]
    rfl
  rw [Module.topLevel, repositoryModule_body, List.flatMap_append]
  refine List.mem_append_right _ ?_
  simp [binds]

/-- The module of a repository binds every name that it reads. -/
theorem repositoryModule_namesBound : (repositoryModule e t).value.NamesBound := by
  have scope := repositoryModule_scope e t
  have typeChecking : "TYPE_CHECKING" ∈ (repositoryModule e t).value.topLevel :=
    repositoryUsage_subset e t ((repositoryUsage_names e t _).mpr (.inl List.mem_cons_self))
  rw [Module.namesBound_iff, repositoryModule_body]
  simp only [List.forall_mem_append, List.forall_mem_cons]
  exact ⟨⟨⟨(repositoryUsage e t).value.standardImports_bound, trivial, by simp⟩,
    (repositoryUsage e t).value.typeImports_bound _⟩, trivial, trivial, ⟨.inl typeChecking, trivial, trivial⟩,
    scope.repositoryHelper_bound, by simp⟩

end

end Tablewright.Access
