import Tablewright.Proofs.Access.Building
import Tablewright.Proofs.Access.Keys
import Tablewright.Proofs.Access.Repository
import Tablewright.Proofs.Access.TableConfig
import Tablewright.Proofs.Access.Validator
import Tablewright.Proofs.Source.Printing

/-!
# Emitted modules can be written

None of the emitted trees is refused when it is made or printed.  The only formatted texts are the printed form of a
record, which reads the backing attributes of its fields, and the message of the validation error.

* `recordModule_writable`: the modules of records, whose identifiers must be free of backslashes.
* `keysModule_writable` and the like: all other modules, whatever they are made of.
-/

namespace Tablewright.Access

open Source (Expr Stmt Param Part Signature Module misplaced? misplaced?_append misplaced?_required)

variable {enums : List EnumType} {r : Record} {f : ResolvedField} {e : Entity}

/-! ## Types and values -/

@[simp] theorem typeHint_writable (type : TypeRef) : (typeHint type).Writable := by
  induction type with
  | list element ih => simpa [typeHint] using ih
  | _ => simp [typeHint]

@[simp] theorem optionalHint_writable (type : TypeRef) : (optionalHint type).Writable := by
  cases type <;> simp [optionalHint]

@[simp] theorem itemType_writable : itemType.Writable := by simp [itemType]

@[simp] theorem decimalOf_writable {value : Expr} : (decimalOf value).Writable ↔ value.Writable := by simp [decimalOf]

theorem toStorage_writable {type : TypeRef} {depth : Nat} {value : Expr} (writable : value.Writable) :
    (toStorage depth type value).Writable := by
  induction type generalizing depth value with
  | scalar kind => cases kind <;> simpa [toStorage] using writable
  | list element ih =>
    rw [toStorage]
    split
    · exact (Expr.writable_comprehension _ _).mpr ⟨ih (Expr.writable_name _), writable⟩
    · simpa using writable
  | set element =>
    rw [toStorage]
    split <;> simpa using writable
  | _ => simpa [toStorage] using writable

theorem fromStorage_writable {type : TypeRef} {depth : Nat} {value : Expr} (writable : value.Writable) :
    (fromStorage depth type value).Writable := by
  induction type generalizing depth value with
  | scalar kind => cases kind <;> simpa [fromStorage] using writable
  | list element ih =>
    rw [fromStorage]
    split
    · exact (Expr.writable_comprehension _ _).mpr ⟨ih (Expr.writable_name _), writable⟩
    · simpa using writable
  | _ => simpa [fromStorage] using writable

mutual

/-- The expression of a document value holds no formatted text. -/
theorem ofValue_writable : (v : Value) → (Expr.ofValue v).Writable
  | .dict entries => Expr.writable_dict.mpr (ofEntries_writable entries)
  | .list items => Expr.writable_list.mpr (ofValues_writable items)
  | .tuple items => Expr.writable_list.mpr (ofValues_writable items)
  | .null | .bool _ | .int _ | .float _ | .text _ | .set _ | .bytes _ | .date _ | .moment _ =>
    Expr.writable_constant _

theorem ofValues_writable : (items : List Value) → ∀ a ∈ Expr.ofValues items, a.Writable
  | [] => by simp [Expr.ofValues]
  | v :: rest => List.forall_mem_cons.mpr ⟨ofValue_writable v, ofValues_writable rest⟩

theorem ofEntries_writable : (entries : List (Value × Value)) →
    ∀ a ∈ Expr.ofEntries entries, a.key.Writable ∧ a.value.Writable
  | [] => by simp [Expr.ofEntries]
  | (k, v) :: rest => List.forall_mem_cons.mpr ⟨⟨ofValue_writable k, ofValue_writable v⟩, ofEntries_writable rest⟩

end

theorem SpelledOut.writable {type : TypeRef} {v : Value} {default : Expr} (spelled : SpelledOut type v default) :
    default.Writable := by
  cases spelled with
  | untyped | list => exact ofValue_writable _
  | set => simpa using ofValue_writable _
  | _ => simp

theorem default?_writable {default : Expr} (given : default? enums f = some default) : default.Writable := by
  rcases default?_cases given with ⟨t, -, constant, -, -, rfl⟩ | spelled
  · simp
  · exact spelled.writable

@[simp] theorem initialValue_writable (enums : List EnumType) (name : String) (f : ResolvedField) :
    (initialValue enums name f).value.Writable := by
  unfold initialValue
  split
  · split
    · rename_i default found
      simpa using default?_writable found
    · simp
  · simp

/-! ## Records -/

@[simp] theorem backingOf_writable (owner : String) (f : ResolvedField) : (backingOf owner f).Writable := by
  simp [backingOf]

@[simp] theorem setBacking_writable (owner : String) (f : ResolvedField) {value : Expr} :
    (setBacking owner f value).Writable ↔ value.Writable := by
  simp [setBacking]

/-- A formatted text can show the backing attribute of a field unless the identifier holds a backslash. -/
theorem backingOf_shown (noBackslash : '\\' ∉ f.identifier.toList) :
    '\\' ∉ ((backingOf "self" f).print .or).toList := by
  have printed : (backingOf "self" f).print .or = "self" ++ "." ++ backing f.identifier := by
    rw [backingOf, Expr.print, Expr.print]
    simp
  rw [printed, backing]
  split <;> simp [noBackslash]

theorem shownFields_writable {fields : List ResolvedField} (noBackslash : ∀ f ∈ fields, '\\' ∉ f.identifier.toList) :
    ∀ part ∈ shownFields fields, part.Writable := by
  induction fields with
  | nil => simp [shownFields]
  | cons f rest ih =>
    obtain ⟨first, noBackslash⟩ := List.forall_mem_cons.mp noBackslash
    simp only [shownFields, List.forall_mem_cons]
    exact ⟨trivial, ⟨backingOf_shown first, backingOf_writable _ _⟩, ih noBackslash⟩

theorem constructor_writable : (constructor enums r).value.Writable := by
  have params : misplaced? ([Param.plain "self"] ++ r.fields.map fun f =>
      Param.optional f.identifier (optionalHint f.type)) = none :=
    misplaced?_append (by simp) (by simp)
  rw [constructor_value, Stmt.writable_function, Signature.writable_mk]
  refine ⟨⟨by simp, by simp, by simp [Source.noResult], params⟩, ?_⟩
  rw [constructor.orPass]
  split <;> simp

/-- A method that has to be given all of its parameters. -/
theorem method_writable {name : String} {decorators : List Expr} {params : List Param} {returns : Option Expr}
    {doc : Option String} {body : List Stmt} (decorated : ∀ e ∈ decorators, e.Writable)
    (hinted : ∀ p ∈ params, p.Writable ∧ p.default = none) (returned : ∀ e ∈ returns, e.Writable)
    (inside : ∀ s ∈ body, s.Writable) : (Stmt.function ⟨name, decorators, params, none, returns⟩ doc body).Writable := by
  rw [Stmt.writable_function, Signature.writable_mk]
  refine ⟨⟨decorated, ?_, returned, misplaced?_required fun p member => (hinted p member).2⟩, inside⟩
  simpa using fun p member => (hinted p member).1

theorem property_writable (r : Record) (f : ResolvedField) : ∀ s ∈ property r f, s.Writable := by
  refine List.forall_mem_cons.mpr ⟨?_, List.forall_mem_singleton.mpr ?_⟩
  · exact method_writable (by simp) (by simp) (by simp) (by simp)
  · exact method_writable (by simp) (by simp) (by simp [Source.noResult]) (by simp)

theorem classConstants_writable (r : Record) : ∀ s ∈ classConstants r, s.Writable := by
  have attributes : (Stmt.bind "ATTRIBUTE_NAMES" (.dict ((renamedFields r).map fun f =>
      .mk (Expr.text f.identifier) (Expr.text f.storageName)))).Writable := by
    simp [Source.Entry.key, Source.Entry.value]
  rw [classConstants, List.forall_mem_append]
  refine ⟨?_, List.forall_mem_singleton.mpr attributes⟩
  cases r.role <;> simp

theorem toItem_writable (r : Record) : (toItem r).Writable := by
  refine method_writable (by simp) (by simp) (by simp) ?_
  simp only [List.forall_mem_append, List.forall_mem_cons, List.forall_mem_map]
  refine ⟨⟨by simp, fun f _ => Stmt.writable_ifThen.mpr ⟨?_, ?_⟩⟩, by simp⟩
  · rw [storedTest]
    split <;> simp
  · simpa using toStorage_writable (backingOf_writable "self" f)

theorem fromItem_writable (r : Record) : (fromItem r).Writable := by
  refine method_writable (by simp) (by simp) (by simp) ?_
  simp only [List.forall_mem_append, List.forall_mem_cons, List.forall_mem_map]
  refine ⟨⟨by simp, fun f _ => Stmt.writable_ifThen.mpr ⟨by simp, ?_⟩⟩, by simp⟩
  have stored : (Expr.subscript (.name "item") (Expr.text f.storageName)).Writable := by simp
  simpa using fromStorage_writable stored

theorem equality_writable (r : Record) : (equality r).Writable := by
  refine method_writable (by simp) (by simp) (by simp) ?_
  simp only [List.forall_mem_cons, Stmt.writable_result]
  refine ⟨by simp, ?_, by simp⟩
  split <;> simp

theorem hash_writable (r : Record) : (hash r).Writable := by
  refine method_writable (by simp) (by simp) (by simp) ?_
  rw [List.forall_mem_singleton, Stmt.writable_result]
  split
  · simp
  · rw [Expr.writable_apply, List.forall_mem_singleton, Expr.writable_tuple, List.forall_mem_map]
    intro f _
    split <;> simp

theorem shown_writable (noBackslash : ∀ f ∈ r.fields, '\\' ∉ f.identifier.toList) : (shown r).Writable := by
  refine method_writable (by simp) (by simp) (by simp) ?_
  rw [List.forall_mem_singleton, Stmt.writable_result]
  split
  · simp
  · rename_i f rest fields
    rw [fields] at noBackslash
    obtain ⟨first, noBackslash⟩ := List.forall_mem_cons.mp noBackslash
    rw [Expr.writable_formatted]
    simp only [List.forall_mem_cons, List.forall_mem_append]
    exact ⟨trivial, ⟨backingOf_shown first, backingOf_writable _ _⟩, shownFields_writable noBackslash, trivial,
      fun _ member => nomatch member⟩

theorem builderClass_writable (r : Record) : (builderClass r).Writable := by
  have init : (methodOf (builderInit r)).Writable := by
    refine method_writable (by simp) (by simp) (by simp [Source.noResult]) ?_
    rw [builderInit, constructor.orPass]
    split <;> simp
  have gives : ∀ f ∈ r.fields, (methodOf (giveFunction r f)).Writable := fun f _ =>
    method_writable (by simp) (by simp) (by simp [builderName]) (by simp [giveFunction])
  have build : (methodOf (buildFunction r)).Writable :=
    method_writable (by simp) (by simp) (by simp) (by simp [buildFunction, Source.Keyword.value])
  rw [builderClass_body, Stmt.writable_classDef]
  refine ⟨by simp, ?_⟩
  rw [builderBody, List.forall_mem_append, List.forall_mem_cons, List.forall_mem_map, List.forall_mem_singleton]
  exact ⟨⟨init, gives⟩, build⟩

theorem recordClass_writable (noBackslash : ∀ f ∈ r.fields, '\\' ∉ f.identifier.toList) :
    (recordClass enums r).value.Writable := by
  rw [recordClass_body, Stmt.writable_classDef]
  refine ⟨by simp, ?_⟩
  simp only [recordBody, List.forall_mem_append, List.forall_mem_cons, List.forall_mem_flatMap]
  refine ⟨classConstants_writable r, constructor_writable, fun f _ => property_writable r f, ?_, toItem_writable r,
    fromItem_writable r, equality_writable r, hash_writable r, shown_writable noBackslash, builderClass_writable r,
    by simp⟩
  exact method_writable (by simp) (by simp) (by simp [builderName]) (by simp)

theorem hashableFunction_writable : hashableFunction.Writable :=
  method_writable (by simp) (by simp) (by simp) (by simp)

theorem standardImports_writable (u : Usage) : ∀ s ∈ u.standardImports, s.Writable := by
  intro s member
  simp only [Usage.standardImports, List.mem_append, List.mem_ite_nil_right, List.mem_ite_nil_left,
    List.mem_singleton] at member
  obtain (⟨-, rfl⟩ | ⟨-, rfl⟩) | ⟨-, rfl⟩ := member <;> exact Stmt.writable_importFrom _ _

theorem recordModule_writable (noBackslash : ∀ f ∈ r.fields, '\\' ∉ f.identifier.toList) :
    (recordModule enums r).value.Writable := by
  have helper : ∀ s ∈ hashableHelper r, s.Writable := by
    rw [hashableHelper]
    split
    · exact List.forall_mem_singleton.mpr hashableFunction_writable
    · simp
  rw [Module.Writable, recordModule_body, recordImports]
  simp only [List.forall_mem_append, List.forall_mem_map, List.forall_mem_singleton]
  exact ⟨⟨⟨standardImports_writable _, fun t _ => Stmt.writable_importFrom _ _⟩, helper⟩,
    recordClass_writable noBackslash⟩

theorem enumModule_writable (t : EnumType) : (enumModule t).Writable := by
  have members : ∀ member ∈ t.members, (Stmt.bind member.1 (Expr.text member.2)).Writable := by simp
  rw [Module.Writable, enumModule, List.forall_mem_cons, List.forall_mem_singleton, Stmt.writable_classDef,
    List.forall_mem_map]
  exact ⟨by simp, by simp, members⟩

/-! ## Key helpers -/

theorem refusingConstructor_writable (className : String) : (refusingConstructor className).Writable :=
  method_writable (by simp) (by simp) (by simp [Source.noResult]) (by simp)

@[simp] theorem componentHint_writable (k : KeyAttribute) : (componentHint k).Writable := by
  rw [componentHint]
  split <;> simp

theorem keyFunction_writable (e : Entity) : (keyFunction e).Writable := by
  refine method_writable (by simp) (by simp) (by simp) ?_
  rw [List.forall_mem_singleton, Stmt.writable_result, Expr.writable_dict]
  simp [Source.Entry.key, Source.Entry.value]

theorem keysModule_writable (e : Entity) (table : Option Table) : (keysModule e table).value.Writable := by
  have helper : (keysHelper e table).Writable := by
    rw [keysHelper, Stmt.writable_classDef]
    refine ⟨by simp, ?_⟩
    simp only [List.forall_mem_append, List.forall_mem_cons, indexConstants, List.forall_mem_map]
    exact ⟨⟨⟨by simp, by simp⟩, fun i _ => by simp⟩, refusingConstructor_writable _, keyFunction_writable e, by simp⟩
  rw [Module.Writable, keysModule_body, List.forall_mem_append]
  exact ⟨by split <;> simp, by simpa using helper⟩

/-! ## Validators -/

@[simp] theorem violation_writable (f : ResolvedField) (constraint message : String) :
    (violation f constraint message).Writable := by
  simp [violation]

@[simp] theorem validated_writable (f : ResolvedField) : (validated f).Writable := by simp [validated]

theorem requiredCheck_writable (f : ResolvedField) : ∀ s ∈ requiredCheck f, s.Writable := by
  rw [requiredCheck]
  split <;> simp

theorem boundChecks_writable (taken : Option (List String)) (f : ResolvedField) (c : Constraints) :
    ∀ s ∈ (boundChecks taken f c).statements, s.Writable := by
  rw [boundChecks]
  split
  · simp only [List.forall_mem_append, Option.mem_toList, Option.map_eq_some_iff]
    refine ⟨⟨?_, ?_⟩, ?_⟩
    · rintro _ ⟨bound, -, rfl⟩
      simp [minLengthCheck]
    · rintro _ ⟨bound, -, rfl⟩
      simp [maxLengthCheck]
    · rintro _ ⟨_, -, rfl⟩
      simp [patternCheck]
  · simp only [List.forall_mem_append, Option.mem_toList, Option.map_eq_some_iff]
    refine ⟨?_, ?_⟩
    · rintro _ ⟨bound, -, rfl⟩
      simp [minCheck, boundExpr]
    · rintro _ ⟨bound, -, rfl⟩
      simp [maxCheck, boundExpr]

theorem fieldChecks_writable (taken : Option (List String)) (f : ResolvedField) :
    ∀ s ∈ (fieldChecks taken f).statements, s.Writable := by
  rw [fieldChecks]
  split
  · exact requiredCheck_writable f
  · rename_i c _
    refine List.forall_mem_append.mpr ⟨requiredCheck_writable f, ?_⟩
    split
    · simp
    · exact List.forall_mem_singleton.mpr (Stmt.writable_ifThen.mpr ⟨by simp, boundChecks_writable taken f c⟩)

theorem allChecks_writable (taken : List String) (fields : List ResolvedField) :
    ∀ s ∈ (allChecks taken fields).flatMap (·.statements), s.Writable := by
  induction fields generalizing taken with
  | nil => simp [allChecks]
  | cons f rest ih =>
    rw [allChecks, List.flatMap_cons]
    exact List.forall_mem_append.mpr ⟨fieldChecks_writable _ f, ih _⟩

theorem validatorModule_writable (e : Entity) : (validatorModule e).value.Writable := by
  have body : ∀ s ∈ validateBody e.name (checksOf e), s.Writable := by
    rw [validateBody]
    split
    · simp
    · simp only [List.forall_mem_append, List.forall_mem_cons]
      exact ⟨⟨by simp, allChecks_writable _ _⟩, by simp, by simp⟩
  have helper : (validatorHelper e (checksOf e)).Writable := by
    rw [validatorHelper, Stmt.writable_classDef]
    refine ⟨by simp, List.forall_mem_cons.mpr ⟨refusingConstructor_writable _, List.forall_mem_singleton.mpr ?_⟩⟩
    exact method_writable (by simp) (by simp) (by simp [Source.noResult]) body
  rw [Module.Writable, validatorModule_body]
  simp only [List.forall_mem_append, List.forall_mem_map, List.forall_mem_singleton]
  refine ⟨⟨⟨⟨⟨⟨?_, ?_⟩, ?_⟩, ?_⟩, ?_⟩, fun p _ => ?_⟩, helper⟩
  · split <;> simp
  · split <;> simp
  · split <;> simp
  · simp
  · split <;> simp
  · simp [CompiledPattern.stmt]

/-- The message of the validation error shows two locals. -/
theorem validationErrorSource_writable : validationErrorSource.Writable := by
  have shown : ∀ part ∈ [Part.field (.name "entity_name") none, .text " validation failed: ",
      .field (.name "details") none], part.Writable := by
    simp [Part.Writable, Expr.print]
  simp only [Module.Writable, validationErrorSource, List.forall_mem_cons]
  refine ⟨by simp, by simp, by simp [violationType, Source.Keyword.value], ?_, by simp⟩
  rw [validationErrorType, Stmt.writable_classDef]
  refine ⟨by simp, List.forall_mem_singleton.mpr (method_writable (by simp) (by simp) (by simp [Source.noResult]) ?_)⟩
  simp only [List.forall_mem_cons, Stmt.writable_expr, Expr.writable_method, Expr.writable_formatted] at shown ⊢
  exact ⟨by simp, by simp, by simp, ⟨by simp, shown, by simp⟩, by simp⟩

/-! ## Repositories -/

theorem keyArgument_writable (k : KeyAttribute) : (keyArgument k).Writable := by
  rw [keyArgument]
  split
  · exact toStorage_writable (Expr.writable_name _)
  · exact toStorage_writable (Expr.writable_name _)
  · exact Expr.writable_name _

theorem keyCall_writable (e : Entity) : (keyCall e).Writable := by
  simpa [keyCall] using fun k _ => keyArgument_writable k

theorem keyParams_writable (keys : List KeyAttribute) : ∀ p ∈ keyParams keys, p.Writable ∧ p.default = none := by
  simp [keyParams]

theorem queryMethod_writable (e : Entity) (i : Index) (partitionKey : KeyAttribute) (sortKey : Option KeyAttribute) :
    (queryMethod e i partitionKey sortKey).Writable := by
  -- the sort key is the only parameter that may be left out, and it comes last
  have params : misplaced? ((Param.plain "self" :: keyParams [partitionKey]) ++ sortKey.toList.map fun k =>
      Param.optional k.identifier (Expr.generic "Optional" [typeHint k.type])) = none :=
    misplaced?_append (by simp [keyParams]) (by simp)
  have condition : ∀ k, (sortCondition k).Writable := by
    intro k
    simp [sortCondition, keyArgument_writable]
  rw [queryMethod, Stmt.writable_function, Signature.writable_mk]
  refine ⟨⟨by simp, by simp [keyParams], by simp, params⟩, ?_⟩
  simp only [List.forall_mem_append, List.forall_mem_cons, List.forall_mem_map]
  refine ⟨⟨⟨by simp, ?_, ?_, by simp⟩, fun k _ => condition k⟩, by simp [argument, Source.Keyword.value], by simp⟩
  · simp [Source.Entry.key, Source.Entry.value]
  · simpa [Source.Entry.key, Source.Entry.value] using keyArgument_writable partitionKey

theorem queryAllMethod_writable (e : Entity) : (queryAllMethod e).Writable := by
  rw [queryAllMethod, Stmt.writable_function, Signature.writable_mk]
  refine ⟨⟨by simp, by simp, by simp, misplaced?_required (by simp)⟩, ?_⟩
  simp [tableCall, Source.Keyword.value]

theorem repositoryHelper_writable (e : Entity) (t : Table) : (repositoryHelper e t).value.Writable := by
  have init : repositoryConstructor.Writable :=
    method_writable (by simp) (by simp) (by simp [Source.noResult]) (by simp)
  have wrap : (fromResource e).Writable := method_writable (by simp) (by simp) (by simp) (by simp)
  have save : (saveMethod e).Writable :=
    method_writable (by simp) (by simp) (by simp [Source.noResult])
      (by simp [tableCall, argument, Source.Keyword.value])
  have keyed : ∀ p ∈ Param.plain "self" :: keyParams e.keys, p.Writable ∧ p.default = none :=
    List.forall_mem_cons.mpr ⟨by simp, keyParams_writable e.keys⟩
  have find : (findByKey e).Writable :=
    method_writable (by simp) keyed (by simp) (by simp [tableCall, argument, Source.Keyword.value, keyCall_writable])
  have delete : (deleteByKey e).Writable :=
    method_writable (by simp) keyed (by simp [Source.noResult])
      (by simp [tableCall, argument, Source.Keyword.value, keyCall_writable])
  simp only [repositoryHelper, Noted.value_bind, Noted.value_pure, Noted.value_each, Stmt.writable_classDef,
    List.forall_mem_append, List.forall_mem_cons, List.forall_mem_map]
  refine ⟨by simp, ⟨⟨init, wrap, save, find, delete, by simp⟩, fun i _ => queryMethod_writable _ _ _ _⟩, ?_⟩
  split
  · simp
  · exact List.forall_mem_singleton.mpr (queryAllMethod_writable e)

theorem repositoryModule_writable (e : Entity) (t : Table) : (repositoryModule e t).value.Writable := by
  rw [Module.Writable, repositoryModule_body]
  simp only [List.forall_mem_append, List.forall_mem_map, List.forall_mem_cons]
  exact ⟨⟨⟨standardImports_writable _, by simp⟩, fun type _ => Stmt.writable_importFrom _ _⟩, by simp, by simp, by simp,
    repositoryHelper_writable e t, by simp⟩

/-! ## The table -/

@[simp] theorem optionalText_writable : optionalText.Writable := by simp [optionalText]

@[simp] theorem own_writable (member : String) : (own member).Writable := by simp [own]

@[simp] theorem constructClient_writable {resource tableName : Expr} :
    (constructClient resource tableName).Writable ↔ resource.Writable ∧ tableName.Writable := by
  simp [constructClient]

theorem clientBuilder_writable : clientBuilder.Writable := by
  have init : ∀ member ∈ builderAttributes, (Stmt.assign (own member) Expr.none).Writable := by simp
  have setter : ∀ member ∈ builderAttributes, (Stmt.function ⟨member, [], [Param.plain "self", Param.required "value"
      (if member = "existing_resource" then .name "Any" else optionalText)], none,
      some (Expr.text s!"{clientClass}.Builder")⟩ none
      [.assign (own member) (.name "value"), .result (.name "self")]).Writable := by
    intro member _
    refine method_writable (by simp) ?_ (by simp) (by simp)
    split <;> simp
  have build : buildMethod.Writable := by
    refine method_writable (by simp) (by simp) (by simp) ?_
    simp only [List.forall_mem_append, List.forall_mem_cons, List.forall_mem_map]
    exact ⟨⟨by simp, fun setting _ => by simp⟩, by simp [Source.Keyword.value]⟩
  rw [clientBuilder, Stmt.writable_classDef]
  refine ⟨by simp, ?_⟩
  simp only [List.forall_mem_append, List.forall_mem_cons, List.forall_mem_map]
  refine ⟨⟨method_writable (by simp) (by simp) (by simp [Source.noResult]) ?_, setter⟩, build, by simp⟩
  rw [List.forall_mem_map]
  exact init

theorem clientType_writable : clientType.Writable := by
  have property : ∀ {name : String} {returns : Expr} {doc : Option String} {body : List Stmt}, returns.Writable →
      (∀ s ∈ body, s.Writable) → (readOnlyProperty name returns doc body).Writable := fun returned inside =>
    method_writable (by simp) (by simp) (by simpa using returned) inside
  rw [clientType, Stmt.writable_classDef]
  refine ⟨by simp, ?_⟩
  simp only [List.forall_mem_cons]
  refine ⟨method_writable (by simp) (by simp) (by simp [Source.noResult]) (by simp), property (by simp) (by simp),
    property (by simp) (by simp), property (by simp) (by simp), ?_, ?_, clientBuilder_writable, by simp⟩
  · exact method_writable (by simp) (by simp) (by simp) (by simp)
  · exact method_writable (by simp) (by simp) (by simp) (by simp)

theorem clientSource_writable : clientSource.Writable := by
  have lookup : environmentLookup.Writable := method_writable (by simp) (by simp) (by simp) (by simp)
  simp only [Module.Writable, clientSource, List.forall_mem_append, List.forall_mem_cons, List.forall_mem_map]
  exact ⟨⟨by simp, fun setting _ => by simp⟩, by simp, lookup, clientType_writable, by simp⟩

theorem tableConfigModule_writable (t : Table) (entities : List Entity) :
    (tableConfigModule t entities).value.Writable := by
  have arn : (arnExpr t.arn).Writable := by
    rw [arnExpr]
    split <;> simp
  have client : getClient.Writable := method_writable (by simp) (by simp) (by simp) (by simp)
  have builder : clientBuilderFunction.Writable := method_writable (by simp) (by simp) (by simp) (by simp)
  have factory : ∀ e ∈ entities, (repositoryFactory e).Writable := by
    intro e _
    rw [repositoryFactory, Stmt.writable_function, Signature.writable_mk]
    exact ⟨⟨by simp, by simp, by simp, @misplaced?_append [] _ (by simp) (by simp)⟩, by simp⟩
  rw [Module.Writable, tableConfigModule_body, repositoryImports]
  simp only [List.forall_mem_append, List.forall_mem_map, List.forall_mem_cons]
  exact ⟨⟨⟨by simp, fun e _ => Stmt.writable_importFrom _ _⟩, by simp, by simpa using arn, by simp, by simp, by simp,
    client, builder, by simp⟩, factory⟩

end Tablewright.Access
