import Mathlib
import Tablewright.Plan.Clashes
import Tablewright.Proofs.Lists

/-!
# Batches without clashes

What the check of type names accepts: every type of the batch has a module of its own, none has a name
that generated modules import, and no entity has the module of a sub-package.
-/

namespace Tablewright

/-- The type names of an entity without their kinds: the entity, its nested records, its enums. -/
def Entity.types (e : Entity) : List String := e.typeNames.map (·.1)

theorem Entity.types_eq (e : Entity) : e.types = e.name :: (e.nested.map (·.name) ++ e.enums.map (·.name)) := by
  simp [Entity.types, Entity.typeNames, Function.comp_def]

def typeModules (entities : List Entity) : List String := entities.flatMap fun e => e.types.map moduleName

/-- Modules are entered one after the other; they are refused unless each is new and no type has the name
of an import. -/
theorem claimModules_ok {entity : String} {owners claimed : Owners} {names : List String}
    (distinct : (owners.map (·.1)).Nodup) :
    claimModules entity owners names = .ok claimed ↔
      claimed = owners ++ names.map (fun name => (moduleName name, entity)) ∧
        (claimed.map (·.1)).Nodup ∧ ∀ name ∈ names, name ∉ Access.importedNames := by
  induction names generalizing owners with
  | nil =>
    simp only [claimModules, Except.ok.injEq, List.map_nil, List.append_nil, List.not_mem_nil,
      false_imp_iff, implies_true, and_true]
    exact ⟨fun same => ⟨same.symm, same ▸ distinct⟩, fun same => same.1.symm⟩
  | cons name rest ih =>
    rw [claimModules]
    by_cases imported : name ∈ Access.importedNames
    · simp [imported]
    · rw [if_neg (by simpa using imported)]
      cases found : owners.lookup (moduleName name) with
      | some owner =>
        -- a module that has an owner would be listed twice
        have taken := mem_of_lookup found
        simp only [reduceCtorEq, false_iff]
        rintro ⟨rfl, nodup, _⟩
        rw [List.map_append, List.nodup_append] at nodup
        exact nodup.2.2 _ taken _ (by simp) rfl
      | none =>
        have extended : ((owners ++ [(moduleName name, entity)]).map (·.1)).Nodup := by
          simpa using distinct.concat (lookup_eq_none_iff.mp found)
        simp only [ih extended, List.append_assoc, List.singleton_append, List.map_cons,
          List.forall_mem_cons, imported, not_false_eq_true, true_and]

theorem claimEntity_ok {owners claimed : Owners} {e : Entity} (distinct : (owners.map (·.1)).Nodup) :
    claimEntity owners e = .ok claimed ↔
      moduleName e.name ∉ Access.subPackages ∧
        claimed = owners ++ e.types.map (fun name => (moduleName name, e.name)) ∧
        (claimed.map (·.1)).Nodup ∧ ∀ name ∈ e.types, name ∉ Access.importedNames := by
  rw [claimEntity]
  by_cases sub : moduleName e.name ∈ Access.subPackages
  · simp [sub]
  · rw [if_neg (by simpa using sub), claimModules_ok distinct, Entity.types]
    simp only [sub, not_false_eq_true, true_and]

/-- A batch whose types have modules of their own and admissible names. -/
structure Unclashing (entities : List Entity) : Prop where
  modules : (typeModules entities).Nodup
  notImported : ∀ e ∈ entities, ∀ name ∈ e.types, name ∉ Access.importedNames
  notSubPackage : ∀ e ∈ entities, moduleName e.name ∉ Access.subPackages

/-- Entities are entered one after the other, so that the check of a batch is that of its modules. -/
theorem foldlM_claimEntity_ok {owners : Owners} {entities : List Entity}
    (distinct : (owners.map (·.1)).Nodup) :
    (∃ claimed, entities.foldlM claimEntity owners = .ok claimed) ↔
      (owners.map (·.1) ++ typeModules entities).Nodup ∧
        (∀ e ∈ entities, ∀ name ∈ e.types, name ∉ Access.importedNames) ∧
        ∀ e ∈ entities, moduleName e.name ∉ Access.subPackages := by
  induction entities generalizing owners with
  | nil => simpa [typeModules, pure, Except.pure] using distinct
  | cons e rest ih =>
    rw [List.foldlM_cons]
    have modules : typeModules (e :: rest) = e.types.map moduleName ++ typeModules rest := rfl
    rw [modules, ← List.append_assoc, List.forall_mem_cons, List.forall_mem_cons]
    cases claim : claimEntity owners e with
    | error f =>
      -- the conditions are those of accepting the first entity, which was refused
      simp only [bind, Except.bind, reduceCtorEq, exists_false, false_iff]
      rintro ⟨nodup, ⟨notImported, _⟩, notSub, _⟩
      have accepted := (claimEntity_ok distinct).mpr ⟨notSub, rfl, ?_, notImported⟩
      · rw [claim] at accepted
        cases accepted
      · simpa [Function.comp_def] using (List.nodup_append.mp nodup).1
    | ok claimed =>
      obtain ⟨notSub, rfl, nodup, notImported⟩ := (claimEntity_ok distinct).mp claim
      simp only [bind, Except.bind]
      rw [ih nodup]
      simp only [List.map_append, List.map_map, Function.comp_def, notSub, not_false_eq_true, true_and]
      tauto

theorem checkTypeNames_ok {entities : List Entity} :
    checkTypeNames entities = .ok () ↔ Unclashing entities := by
  have checked : checkTypeNames entities = .ok () ↔
      ∃ claimed, entities.foldlM claimEntity [] = .ok claimed := by
    rw [checkTypeNames]
    cases entities.foldlM claimEntity [] <;> simp [Except.map]
  have fresh : (([] : Owners).map (·.1)).Nodup := List.nodup_nil
  rw [checked, foldlM_claimEntity_ok fresh]
  exact ⟨fun ⟨modules, notImported, notSub⟩ => ⟨modules, notImported, notSub⟩,
    fun ⟨modules, notImported, notSub⟩ => ⟨modules, notImported, notSub⟩⟩

end Tablewright
