import Tablewright.Access.Client
import Tablewright.Proofs.Access.Keys
import Tablewright.Proofs.Access.Record
import Tablewright.Proofs.Access.Repository
import Tablewright.Proofs.Access.TableConfig
import Tablewright.Proofs.Access.Validator
import Tablewright.Proofs.Source.Imports

/-!
# Imports of emitted modules

The imports of every emitted module.  The members of classes import nothing; what a module imports from
its own package is listed for each kind, and everything else it imports comes from outside.
-/

namespace Tablewright.Access

open Source (Expr Stmt Module Import importedAll importedAll_nil importedAll_cons importedAll_append importedAll_eq_nil
  importedAll_importFrom imported_importFrom imported_importModule)

variable {enums : List EnumType} {r : Record} {e : Entity} {t : Table}

/-! ## Classes and functions -/

theorem property_imported (f : ResolvedField) : ∀ s ∈ property r f, s.imported = [] := by
  simp [property, Stmt.imported, setBacking]

theorem constructor_imported : (constructor enums r).value.imported = [] := by
  rw [constructor_value, Stmt.imported, importedAll_eq_nil]
  unfold constructor.orPass
  split
  · simp [Stmt.imported]
  · simp [Stmt.imported, setBacking]

theorem builderClass_imported : (builderClass r).imported = [] := by
  rw [builderClass, Stmt.imported, importedAll_eq_nil]
  simp only [List.forall_mem_append, List.forall_mem_cons, List.forall_mem_map]
  refine ⟨⟨?_, ?_⟩, ?_, by simp⟩
  · rw [Stmt.imported, importedAll_eq_nil]
    split
    · simp [Stmt.imported]
    · simp [Stmt.imported, setBacking]
  · simp [Stmt.imported, setBacking]
  · simp [Stmt.imported, plainMethod]

theorem toItem_imported : (toItem r).imported = [] := by
  rw [toItem, plainMethod, Stmt.imported, importedAll_eq_nil]
  simp [-List.mem_append, List.forall_mem_append, Stmt.imported, Stmt.put]

theorem fromItem_imported : (fromItem r).imported = [] := by
  rw [fromItem, classMethod, Stmt.imported, importedAll_eq_nil]
  simp [-List.mem_append, List.forall_mem_append, Stmt.imported, Stmt.bind, setBacking]

theorem classConstants_imported : ∀ s ∈ classConstants r, s.imported = [] := by
  unfold classConstants
  refine List.forall_mem_append.mpr ⟨?_, List.forall_mem_singleton.mpr rfl⟩
  split
  · refine List.forall_mem_cons.mpr ⟨rfl, ?_⟩
    intro s member
    obtain ⟨key, -, rfl⟩ := Option.map_eq_some_iff.mp (Option.mem_toList.mp member)
    rfl
  · simp

/-- A record class imports nothing. -/
theorem recordClass_imported : (recordClass enums r).value.imported = [] := by
  simp only [recordClass, Noted.value_bind, Noted.value_pure]
  rw [Stmt.imported, importedAll_eq_nil]
  simp only [List.forall_mem_append, List.forall_mem_cons]
  refine ⟨⟨?_, constructor_imported, ?_⟩, ?_, toItem_imported, fromItem_imported, ?_, ?_, ?_, builderClass_imported,
    by simp⟩
  · exact classConstants_imported
  · intro s member
    obtain ⟨f, -, inProperty⟩ := List.mem_flatMap.mp member
    exact property_imported f s inProperty
  · simp [classMethod, Stmt.imported]
  · simp [equality, Stmt.imported]
  · simp [hash, plainMethod, Stmt.imported]
  · simp [shown, plainMethod, Stmt.imported]

theorem hashableFunction_imported : hashableFunction.imported = [] := by
  simp [hashableFunction, Stmt.imported]

theorem IsCheck.imported {s : Stmt} (check : IsCheck s) : s.imported = [] := by
  induction check with
  | single => rfl
  | several test body _ ih =>
    rw [Stmt.imported, importedAll_eq_nil]
    exact ih

/-- A validator class imports nothing. -/
theorem validatorHelper_imported : (validatorHelper e (checksOf e)).imported = [] := by
  rw [validatorHelper, Stmt.imported, importedAll_eq_nil]
  refine List.forall_mem_cons.mpr ⟨by rfl, List.forall_mem_singleton.mpr ?_⟩
  rw [Stmt.imported, importedAll_eq_nil]
  unfold validateBody
  split
  · simp [Stmt.imported]
  · simp only [List.forall_mem_append, List.forall_mem_cons]
    exact ⟨⟨rfl, fun s member => (allChecks_isCheck s member).imported⟩, rfl, by simp⟩

theorem keysHelper_imported (table : Option Table) : (keysHelper e table).imported = [] := by
  rw [keysHelper, Stmt.imported, importedAll_eq_nil]
  simp only [List.forall_mem_append, List.forall_mem_cons]
  refine ⟨⟨⟨rfl, ?_⟩, ?_⟩, rfl, rfl, by simp⟩
  · intro s member
    obtain ⟨k, -, rfl⟩ := Option.map_eq_some_iff.mp (Option.mem_toList.mp member)
    rfl
  · exact List.forall_mem_map.mpr fun i _ => rfl

/-- A repository class imports nothing. -/
theorem repositoryHelper_imported : (repositoryHelper e t).value.imported = [] := by
  simp only [repositoryHelper, Noted.value_bind, Noted.value_pure, Noted.value_each]
  rw [Stmt.imported, importedAll_eq_nil]
  simp only [List.forall_mem_append, List.forall_mem_cons, List.forall_mem_map]
  refine ⟨⟨⟨rfl, rfl, rfl, rfl, rfl, by simp⟩, ?_⟩, ?_⟩
  · intro i _
    rw [queryMethod, Stmt.imported, importedAll_eq_nil]
    simp only [List.forall_mem_append, List.forall_mem_cons, List.forall_mem_map]
    exact ⟨⟨⟨rfl, rfl, rfl, by simp⟩, fun k _ => rfl⟩, rfl, by simp⟩
  · split
    · simp
    · exact List.forall_mem_singleton.mpr rfl

/-! ## Modules -/

/-- The modules that generated source imports from outside its package. -/
def outsideModules : List String :=
  ["datetime", "decimal", "typing", "enum", "dataclasses", "re", "os", "threading", "boto3"]

theorem level_of_outside {i : Import} (outside : i.module ∈ outsideModules) : i.level = 0 := by
  have undotted : ∀ module ∈ outsideModules, (Import.mk module []).level = 0 := by decide
  exact undotted i.module outside

theorem standardImports_outside (u : Usage) : ∀ i ∈ importedAll u.standardImports, i.module ∈ outsideModules := by
  intro i member
  simp only [Usage.standardImports, importedAll_append, List.mem_append] at member
  rcases member with (datetime | decimal) | typing
  · split at datetime
    · obtain rfl := List.mem_singleton.mp datetime
      decide
    · cases datetime
  · split at decimal
    · obtain rfl := List.mem_singleton.mp decimal
      decide
    · cases decimal
  · split at typing
    · cases typing
    · obtain rfl := List.mem_singleton.mp typing
      simp [outsideModules]

/-- A record module imports the types that its fields mention. -/
theorem recordModule_imported {i : Import} (member : i ∈ (recordModule enums r).value.imported) :
    i.module ∈ outsideModules ∨ ∃ t ∈ (recordUsage r).types, i = ⟨nestedModule r t, [t]⟩ := by
  have helper : importedAll (hashableHelper r) = [] := by
    unfold hashableHelper
    split
    · rw [importedAll_cons, hashableFunction_imported]
      rfl
    · rfl
  rw [Module.imported, recordModule_body, recordImports, importedAll_append, importedAll_append, importedAll_append,
    importedAll_importFrom, helper, importedAll_cons, recordClass_imported] at member
  simp only [importedAll_nil, List.append_nil, List.mem_append, List.mem_map] at member
  rcases member with standard | ⟨t, mentioned, rfl⟩
  · exact .inl (standardImports_outside _ i standard)
  · exact .inr ⟨t, mentioned, rfl⟩

theorem enumModule_imported {e : EnumType} : ∀ i ∈ (enumModule e).imported, i.module ∈ outsideModules := by
  simp only [Module.imported, enumModule, importedAll_cons, importedAll_nil, Stmt.imported, List.append_nil]
  rw [importedAll_eq_nil.mpr (List.forall_mem_map.mpr fun _ _ => rfl)]
  simp [outsideModules]

theorem keysModule_imported (table : Option Table) :
    ∀ i ∈ (keysModule e table).value.imported, i.module ∈ outsideModules := by
  rw [Module.imported, keysModule_body]
  split <;> simp [keysHelper_imported, outsideModules]

theorem validationErrorSource_imported : ∀ i ∈ validationErrorSource.imported, i.module ∈ outsideModules := by
  have violation : violationType.imported = [] := rfl
  have error : validationErrorType.imported = [] := rfl
  simp [Module.imported, validationErrorSource, violation, error, outsideModules]

theorem clientSource_imported : ∀ i ∈ clientSource.imported, i.module ∈ outsideModules := by
  have imported : clientSource.imported =
      [⟨"os", []⟩, ⟨"typing", ["Any", "Dict", "Optional", "Sequence"]⟩, ⟨"boto3", []⟩] := rfl
  simp [imported, outsideModules]

/-- A validator module imports its entity and the class of the errors. -/
theorem validatorModule_imported {i : Import} (member : i ∈ (validatorModule e).value.imported) :
    i.module ∈ outsideModules ∨ i = ⟨".." ++ moduleName e.name, [e.name]⟩ ∨
      i = ⟨"." ++ validationErrorModule, [violationClass, validationErrorClass]⟩ := by
  have patterns : importedAll ((patternsOf e).map CompiledPattern.stmt) = [] :=
    importedAll_eq_nil.mpr (List.forall_mem_map.mpr fun _ _ => rfl)
  rw [Module.imported, validatorModule_body] at member
  simp only [importedAll_append, importedAll_cons, importedAll_nil, imported_importFrom, patterns,
    validatorHelper_imported, List.append_nil, List.mem_append, List.mem_singleton] at member
  rcases member with (((re | decimal) | typing) | entity) | error
  · split at re
    · cases re
    · obtain rfl := List.mem_singleton.mp re
      exact .inl (by decide)
  · split at decimal
    · obtain rfl := List.mem_singleton.mp decimal
      exact .inl (by decide)
    · cases decimal
  · split at typing
    · cases typing
    · obtain rfl := List.mem_singleton.mp typing
      exact .inl (by decide)
  · exact .inr (.inl entity)
  · split at error
    · cases error
    · exact .inr (.inr (List.mem_singleton.mp error))

/-- A repository module imports the key helper, the entity, the validator, the connection, and the types that
its key attributes mention. -/
theorem repositoryModule_imported {i : Import} (member : i ∈ (repositoryModule e t).value.imported) :
    i.module ∈ outsideModules ∨ i = ⟨s!"..{keysPackage}." ++ moduleName (keysClass e.name), [keysClass e.name]⟩ ∨
      (∃ type ∈ (repositoryUsage e t).value.types, i = ⟨s!"..{nestedPackage}." ++ moduleName type, [type]⟩) ∨
      i = ⟨".." ++ moduleName e.name, [e.name]⟩ ∨
      i = ⟨s!"..{validatorsPackage}." ++ moduleName (validatorClass e.name), [validatorClass e.name]⟩ ∨
      i = ⟨s!"..{clientPackage}.{clientModule}", [clientClass]⟩ := by
  have client : (Stmt.ifThen (.name "TYPE_CHECKING")
      [.importFrom s!"..{clientPackage}.{clientModule}" [clientClass]]).imported =
        [⟨s!"..{clientPackage}.{clientModule}", [clientClass]⟩] := rfl
  rw [Module.imported, repositoryModule_body] at member
  simp only [importedAll_append, importedAll_cons, importedAll_nil, imported_importFrom, importedAll_importFrom, client,
    repositoryHelper_imported, List.append_nil, List.mem_append, List.mem_singleton, List.mem_map] at member
  rcases member with ((standard | keys) | ⟨type, mentioned, rfl⟩) | entity | validator | client
  · exact .inl (standardImports_outside _ i standard)
  · exact .inr (.inl keys)
  · exact .inr (.inr (.inl ⟨type, mentioned, rfl⟩))
  · exact .inr (.inr (.inr (.inl entity)))
  · exact .inr (.inr (.inr (.inr (.inl validator))))
  · exact .inr (.inr (.inr (.inr (.inr client))))

/-- The module of the table configuration imports the connection and the repositories of all entities. -/
theorem tableConfigModule_imported {entities : List Entity} {i : Import}
    (member : i ∈ (tableConfigModule t entities).value.imported) :
    i.module ∈ outsideModules ∨ i = ⟨s!"..{clientPackage}.{clientModule}", [clientClass]⟩ ∨
      ∃ e ∈ entities,
        i = ⟨s!"..{repositoryPackage}." ++ moduleName (repositoryClass e.name), [repositoryClass e.name]⟩ := by
  have factories : importedAll (entities.map repositoryFactory) = [] :=
    importedAll_eq_nil.mpr (List.forall_mem_map.mpr fun _ _ => rfl)
  have constants : importedAll [Stmt.bind "TABLE_NAME" (Expr.text t.name), Stmt.bind "TABLE_ARN" (arnExpr t.arn),
      Stmt.bind "REGION" (.constant ((t.region.map Value.text).getD .null)),
      .annotated "_shared_client" (Expr.generic "Optional" [.name clientClass]) (some Expr.none),
      Stmt.bind "_lock" (Expr.method (.name "threading") "Lock" []), getClient, clientBuilderFunction] = [] := rfl
  rw [Module.imported, tableConfigModule_body, importedAll_append, importedAll_append, importedAll_append, factories,
    constants, repositoryImports] at member
  simp only [importedAll_cons, importedAll_nil, imported_importFrom, imported_importModule, importedAll_importFrom,
    List.append_nil, List.mem_append, List.mem_singleton, List.mem_map] at member
  rcases member with (os | threading | typing | client) | ⟨e, known, rfl⟩
  · subst os
    exact .inl (by decide)
  · subst threading
    exact .inl (by decide)
  · subst typing
    exact .inl (by decide)
  · exact .inr (.inl client)
  · exact .inr (.inr ⟨e, (sortByName_perm entities).mem_iff.mp known, rfl⟩)

end Tablewright.Access
