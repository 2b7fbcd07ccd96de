import Tablewright.Access.TableConfig
import Tablewright.Proofs.Access.Layout

/-!
# Names in the table configuration

The module of the table configuration binds every name that it reads: it imports the repository of every
entity that it has a factory for.
-/

namespace Tablewright.Access

open Source (Expr Stmt Param Signature Module Env builtins noResult)

variable (t : Table) (entities : List Entity)

theorem tableConfigModule_body : (tableConfigModule t entities).value.body =
    [.importModule "os", .importModule "threading", .importFrom "typing" ["Optional"],
     .importFrom s!"..{clientPackage}.{clientModule}" [clientClass]]
    ++ repositoryImports entities
    ++ [Stmt.bind "TABLE_NAME" (Expr.text t.name),
        Stmt.bind "TABLE_ARN" (arnExpr t.arn),
        Stmt.bind "REGION" (.constant ((t.region.map Value.text).getD .null)),
        .annotated "_shared_client" (Expr.generic "Optional" [.name clientClass]) (some Expr.none),
        Stmt.bind "_lock" (Expr.method (.name "threading") "Lock" []),
        getClient, clientBuilderFunction]
    ++ entities.map repositoryFactory := rfl

theorem insertByName_perm (e : Entity) (sorted : List Entity) : (insertByName e sorted).Perm (e :: sorted) := by
  induction sorted with
  | nil => exact List.Perm.refl _
  | cons other rest ih =>
    rw [insertByName]
    split
    · exact List.Perm.refl _
    · exact (ih.cons other).trans (List.Perm.swap e other rest)

theorem sortByName_perm : (sortByName entities).Perm entities := by
  have inserted : ∀ sorted : List Entity,
      (entities.foldl (fun sorted e => insertByName e sorted) sorted).Perm (entities ++ sorted) := by
    induction entities with
    | nil => exact fun sorted => List.Perm.refl _
    | cons e rest ih =>
      intro sorted
      refine (ih _).trans ?_
      exact ((insertByName_perm e sorted).append_left rest).trans List.perm_middle
  simpa [sortByName] using inserted []

theorem insertByName_pairwise (e : Entity) {sorted : List Entity} (increasing : sorted.Pairwise (·.name ≤ ·.name)) :
    (insertByName e sorted).Pairwise (·.name ≤ ·.name) := by
  induction sorted with
  | nil => simp [insertByName]
  | cons other rest ih =>
    obtain ⟨least, increasingRest⟩ := List.pairwise_cons.mp increasing
    rw [insertByName]
    split
    · rename_i before
      refine List.pairwise_cons.mpr ⟨?_, increasing⟩
      intro later member
      rcases List.mem_cons.mp member with rfl | member
      · exact le_of_lt before
      · exact le_trans (le_of_lt before) (least later member)
    · rename_i notBefore
      refine List.pairwise_cons.mpr ⟨?_, ih increasingRest⟩
      intro later member
      rcases List.mem_cons.mp ((insertByName_perm e rest).mem_iff.mp member) with rfl | member
      · exact not_lt.mp notBefore
      · exact least later member

theorem sortByName_pairwise : (sortByName entities).Pairwise (·.name ≤ ·.name) := by
  have inserted : ∀ sorted : List Entity, sorted.Pairwise (·.name ≤ ·.name) →
      (entities.foldl (fun sorted e => insertByName e sorted) sorted).Pairwise (·.name ≤ ·.name) := by
    induction entities with
    | nil => exact fun sorted increasing => increasing
    | cons e rest ih => exact fun sorted increasing => ih _ (insertByName_pairwise e increasing)
  exact inserted [] .nil

/-- Entities with different names are in one order, whatever order they are given in. -/
theorem sortByName_eq_of_perm {entities other : List Entity} (reordered : other.Perm entities)
    (distinct : (entities.map (·.name)).Nodup) : sortByName other = sortByName entities := by
  have sorted := (sortByName_perm other).trans (reordered.trans (sortByName_perm entities).symm)
  refine sorted.eq_of_pairwise ?_ (sortByName_pairwise other) (sortByName_pairwise entities)
  intro a b inOther inSorted before after
  have inEntities := reordered.mem_iff.mp ((sortByName_perm other).mem_iff.mp inOther)
  exact List.inj_on_of_nodup_map distinct inEntities ((sortByName_perm entities).mem_iff.mp inSorted)
    (le_antisymm before after)

/-- The names of a configuration module that its members read. -/
def configNames : List String :=
  ["os", "threading", "Optional", clientClass, "TABLE_NAME", "REGION", "_shared_client", "_lock", "get_client",
   "client_builder"]

theorem configNames_subset : configNames ⊆ (tableConfigModule t entities).value.topLevel := by
  have os : Source.firstPart "os" = "os" := rfl
  have threading : Source.firstPart "threading" = "threading" := rfl
  have fixed : configNames ⊆ (([.importModule "os", .importModule "threading", .importFrom "typing" ["Optional"],
      .importFrom s!"..{clientPackage}.{clientModule}" [clientClass]] : List Stmt).flatMap Stmt.binds
      ++ ["TABLE_NAME", "REGION", "_shared_client", "_lock", "get_client", "client_builder"]) := by
    simp [configNames, Stmt.binds, os, threading]
  intro name member
  rw [Module.topLevel, tableConfigModule_body, List.flatMap_append, List.flatMap_append, List.flatMap_append]
  rcases List.mem_append.mp (fixed member) with imported | assigned
  · exact List.mem_append_left _ (List.mem_append_left _ (List.mem_append_left _ imported))
  · refine List.mem_append_left _ (List.mem_append_right _ ?_)
    simp only [List.mem_cons, List.not_mem_nil, or_false] at assigned
    simp [Stmt.binds, Stmt.bind, getClient, clientBuilderFunction]
    tauto

theorem repositoryClass_mem {entities : List Entity} {e : Entity} (member : e ∈ entities) :
    repositoryClass e.name ∈ (tableConfigModule t entities).value.topLevel := by
  have imported := List.mem_map_of_mem (f := fun e : Entity =>
    Stmt.importFrom (s!"..{repositoryPackage}." ++ Name.snakeCase (repositoryClass e.name)) [repositoryClass e.name])
    ((sortByName_perm entities).mem_iff.mpr member)
  rw [Module.mem_topLevel, tableConfigModule_body]
  refine ⟨_, List.mem_append_left _ (List.mem_append_left _ (List.mem_append_right _ imported)), ?_⟩
  exact List.mem_cons_self

variable {t entities} {names : List String}

section

variable (known : configNames ⊆ names)
include known

theorem clientHint_bound : (Expr.generic "Optional" [.name clientClass]).Bound (.all names) :=
  ⟨.inl (known (by decide)), .inl (known (by decide))⟩

theorem arnExpr_bound (arn : Option String) : (arnExpr arn).Bound (.all names) := by
  unfold arnExpr
  split
  · exact ⟨⟨.inl (known (by decide)), ⟨trivial, trivial⟩, trivial⟩, trivial⟩
  · trivial

theorem getClient_bound : getClient.Bound (.all names) := by
  have client : "_shared_client" ∈ names := known (by decide)
  have lock : "_lock" ∈ names := known (by decide)
  have builder : "client_builder" ∈ names := known (by decide)
  refine Stmt.function_bound_of_outer ⟨by simp, by simp, by simp, ?_⟩ ?_
  · simpa using .inl (known (by decide))
  · simp only [List.forall_mem_cons]
    refine ⟨trivial, ⟨⟨.inl client, trivial⟩, ⟨.inl lock, ⟨⟨.inl client, trivial⟩, ⟨trivial, ?_⟩, trivial⟩, trivial⟩,
      trivial⟩, .inl client, by simp⟩
    exact ⟨⟨.inl builder, trivial, trivial⟩, trivial, trivial⟩

theorem clientBuilderFunction_bound : clientBuilderFunction.Bound (.all names) := by
  have client : clientClass ∈ names := known (by decide)
  have tableName : "TABLE_NAME" ∈ names := known (by decide)
  have region : "REGION" ∈ names := known (by decide)
  refine Stmt.function_bound_of_outer ⟨by simp, by simp, by simp, ?_⟩ ?_
  · simp [Expr.text, Expr.Bound]
  · refine List.forall_mem_singleton.mpr ?_
    exact ⟨⟨⟨.inl client, trivial, trivial⟩, ⟨.inl tableName, trivial⟩, trivial⟩, ⟨.inl region, trivial⟩, trivial⟩

theorem repositoryFactory_bound {e : Entity} (repository : repositoryClass e.name ∈ names) :
    (repositoryFactory e).Bound (.all names) := by
  refine Stmt.function_bound ⟨by simp, ?_, by simp, ?_⟩ (by simp [Stmt.globals]) ?_
  · exact List.forall_mem_singleton.mpr (Param.optional_bound (clientHint_bound known))
  · simpa using .inl repository
  · intro inner inside
    have outer : names ⊆ inner := inside.outer
    have client : "client" ∈ inner := inside.params _ List.mem_cons_self
    have getClient : "get_client" ∈ inner := outer (known (by decide))
    refine List.forall_mem_singleton.mpr ⟨.inl (outer repository), ⟨?_, trivial⟩, trivial⟩
    exact ⟨.inl client, ⟨.inl client, trivial⟩, .inl getClient, trivial, trivial⟩

end

/-- The module of the table configuration binds every name that it reads. -/
theorem tableConfigModule_namesBound (t : Table) (entities : List Entity) :
    (tableConfigModule t entities).value.NamesBound := by
  have known := configNames_subset t entities
  have threading : "threading" ∈ (tableConfigModule t entities).value.topLevel := known (by decide)
  rw [Module.namesBound_iff, tableConfigModule_body]
  simp only [List.forall_mem_append, List.forall_mem_cons]
  refine ⟨⟨⟨⟨trivial, trivial, trivial, trivial, by simp⟩, List.forall_mem_map.mpr fun _ _ => trivial⟩, ?_⟩, ?_⟩
  · exact ⟨⟨trivial, trivial⟩, ⟨trivial, arnExpr_bound known _⟩, ⟨trivial, trivial⟩,
      ⟨clientHint_bound known, by simp [Expr.none, Expr.Bound]⟩, ⟨trivial, .inl threading, trivial, trivial⟩,
      getClient_bound known, clientBuilderFunction_bound known, by simp⟩
  · exact List.forall_mem_map.mpr fun e member => repositoryFactory_bound known (repositoryClass_mem t member)

end Tablewright.Access
