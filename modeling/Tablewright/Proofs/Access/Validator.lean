import Tablewright.Access.Validator
import Tablewright.Proofs.Access.Layout

/-!
# Names in validators

The module of a validator binds every name that it reads.  A check reads the entity, the list of
violations and their class; the checks of bounds on numbers read `Decimal` and the checks of patterns read
the constants of the patterns, which the module imports and assigns exactly where such checks occur.

* `fieldChecks_bound`: the checks of a field, with what they read.
* `validatorModule_namesBound`, `validationErrorSource_namesBound`: the modules bind what they read.
-/

namespace Tablewright.Access

open Source (Expr Stmt Param Signature Module Env Part Keyword builtins noResult)

variable {names : List String} {f : ResolvedField} {c : Constraints} {taken : Option (List String)}

/-! ## Checks -/

/-- The names that every check reads. -/
structure CheckScope (names : List String) : Prop where
  entity : "entity" ∈ names
  errors : "errors" ∈ names
  violations : violationClass ∈ names

theorem boundExpr_bound {env : Env} (decimal : "Decimal" ∈ env.here) (bound : Value) :
    (boundExpr bound).Bound env := ⟨.inl decimal, ⟨trivial, trivial⟩, trivial⟩

/-- Bounds on numbers are read where the validator says that it compares numbers. -/
theorem comparesNumbers_of_bounds (number : f.type = .scalar .number) (applies : applicable f = some c)
    (bounded : c.boundsNumbers) : comparesNumbers f := by
  simp [comparesNumbers, number, applies, bounded]

theorem applicable_type (applies : applicable f = some c) : f.type = .scalar .string ∨ f.type = .scalar .number := by
  unfold applicable at applies
  split at applies
  · exact .inl ‹_›
  · exact .inr ‹_›
  · cases applies

namespace CheckScope

variable (scope : CheckScope names)
include scope

theorem validated_bound (f : ResolvedField) : (validated f).Bound (.all names) := .inl scope.entity

theorem violation_bound (f : ResolvedField) (constraint message : String) :
    (violation f constraint message).Bound (.all names) :=
  ⟨.inl scope.errors, ⟨⟨.inl scope.violations, ⟨trivial, trivial, trivial, trivial⟩, trivial⟩, trivial⟩, trivial⟩

theorem requiredCheck_bound : ∀ s ∈ requiredCheck f, s.Bound (.all names) := by
  unfold requiredCheck
  split
  · refine List.forall_mem_singleton.mpr ⟨⟨scope.validated_bound f, trivial⟩, ?_, trivial⟩
    exact scope.violation_bound f _ _
  · simp

/-- The checks of a value that is present read what their bounds need. -/
theorem boundChecks_bound (applies : applicable f = some c) (numbers : comparesNumbers f → "Decimal" ∈ names)
    (patterns : ∀ p ∈ (boundChecks taken f c).pattern, p.constant ∈ names) :
    ∀ s ∈ (boundChecks taken f c).statements, s.Bound (.all names) := by
  have violation := scope.violation_bound f
  have validated := scope.validated_bound f
  by_cases isString : f.type = .scalar .string
  · rw [boundChecks, if_pos isString] at patterns ⊢
    intro s member
    simp only [List.mem_append, Option.mem_toList, Option.map_eq_some_iff] at member
    rcases member with (⟨bound, -, rfl⟩ | ⟨bound, -, rfl⟩) | ⟨_, ⟨pattern, given, rfl⟩, rfl⟩
    · exact ⟨⟨⟨.inr (by decide), ⟨validated, trivial⟩, trivial⟩, trivial⟩, violation _ _, trivial⟩
    · exact ⟨⟨⟨.inr (by decide), ⟨validated, trivial⟩, trivial⟩, trivial⟩, violation _ _, trivial⟩
    · have constant := patterns _ (Option.map_eq_some_iff.mpr ⟨pattern, given, rfl⟩)
      exact ⟨⟨.inl constant, ⟨validated, trivial⟩, trivial⟩, violation _ _, trivial⟩
  · rw [boundChecks, if_neg isString]
    have number := (applicable_type applies).resolve_left isString
    intro s member
    simp only [List.mem_append, Option.mem_toList, Option.map_eq_some_iff] at member
    rcases member with ⟨bound, given, rfl⟩ | ⟨bound, given, rfl⟩
    · have decimal := numbers (comparesNumbers_of_bounds number applies (by simp [Constraints.boundsNumbers, given]))
      exact ⟨⟨validated, boundExpr_bound decimal bound⟩, violation _ _, trivial⟩
    · have decimal := numbers (comparesNumbers_of_bounds number applies (by simp [Constraints.boundsNumbers, given]))
      exact ⟨⟨validated, boundExpr_bound decimal bound⟩, violation _ _, trivial⟩

theorem fieldChecks_bound (numbers : comparesNumbers f → "Decimal" ∈ names)
    (patterns : ∀ p ∈ (fieldChecks taken f).pattern, p.constant ∈ names) :
    ∀ s ∈ (fieldChecks taken f).statements, s.Bound (.all names) := by
  unfold fieldChecks at patterns ⊢
  cases applies : applicable f with
  | none => exact scope.requiredCheck_bound
  | some c =>
    simp only [applies] at patterns
    refine List.forall_mem_append.mpr ⟨scope.requiredCheck_bound, ?_⟩
    have bounds := scope.boundChecks_bound applies numbers patterns
    split
    · simp
    · exact List.forall_mem_singleton.mpr ⟨⟨scope.validated_bound f, trivial⟩, Stmt.allBound_iff.mpr bounds⟩

/-- The checks of all fields read what the module supplies for any of them. -/
theorem allChecks_bound {taken : List String} {fields : List ResolvedField}
    (numbers : fields.any comparesNumbers → "Decimal" ∈ names)
    (patterns : ∀ p ∈ (allChecks taken fields).filterMap (·.pattern), p.constant ∈ names) :
    ∀ s ∈ (allChecks taken fields).flatMap (·.statements), s.Bound (.all names) := by
  induction fields generalizing taken with
  | nil => simp [allChecks]
  | cons f rest ih =>
    rw [allChecks, List.flatMap_cons]
    rw [allChecks] at patterns
    refine List.forall_mem_append.mpr ⟨scope.fieldChecks_bound ?_ ?_, ih ?_ ?_⟩
    · intro compares
      exact numbers (by simp [compares])
    · intro p given
      exact patterns p (List.mem_filterMap.mpr ⟨_, List.mem_cons_self, given⟩)
    · intro compares
      exact numbers (by simp [compares])
    · intro p member
      obtain ⟨checks, inRest, given⟩ := List.mem_filterMap.mp member
      exact patterns p (List.mem_filterMap.mpr ⟨checks, List.mem_cons_of_mem _ inRest, given⟩)

end CheckScope

/-- Checks are tests whose bodies record violations. -/
inductive IsCheck : Stmt → Prop
  | single (test : Expr) (f : ResolvedField) (constraint message : String) :
      IsCheck (.ifThen test [violation f constraint message])
  | several (test : Expr) (body : List Stmt) (checks : ∀ s ∈ body, IsCheck s) : IsCheck (.ifThen test body)

theorem boundChecks_isCheck : ∀ s ∈ (boundChecks taken f c).statements, IsCheck s := by
  intro s member
  unfold boundChecks at member
  split at member
  · simp only [List.mem_append, Option.mem_toList, Option.map_eq_some_iff] at member
    rcases member with (⟨bound, -, rfl⟩ | ⟨bound, -, rfl⟩) | ⟨_, -, rfl⟩ <;> exact .single _ _ _ _
  · simp only [List.mem_append, Option.mem_toList, Option.map_eq_some_iff] at member
    rcases member with ⟨bound, -, rfl⟩ | ⟨bound, -, rfl⟩ <;> exact .single _ _ _ _

theorem requiredCheck_isCheck : ∀ s ∈ requiredCheck f, IsCheck s := by
  unfold requiredCheck
  split
  · exact List.forall_mem_singleton.mpr (.single _ _ _ _)
  · simp

theorem fieldChecks_isCheck : ∀ s ∈ (fieldChecks taken f).statements, IsCheck s := by
  unfold fieldChecks
  split
  · exact requiredCheck_isCheck
  · refine List.forall_mem_append.mpr ⟨requiredCheck_isCheck, ?_⟩
    split
    · simp
    · exact List.forall_mem_singleton.mpr (.several _ _ boundChecks_isCheck)

theorem allChecks_isCheck {taken : List String} {fields : List ResolvedField} :
    ∀ s ∈ (allChecks taken fields).flatMap (·.statements), IsCheck s := by
  induction fields generalizing taken with
  | nil => simp [allChecks]
  | cons f rest ih =>
    rw [allChecks, List.flatMap_cons]
    exact List.forall_mem_append.mpr ⟨fieldChecks_isCheck, ih⟩

theorem IsCheck.globals {s : Stmt} (check : IsCheck s) : s.globals = [] := by
  induction check with
  | single => rfl
  | several test body _ ih =>
    rw [Stmt.globals]
    exact Source.globalsAll_eq_nil.mpr ih

/-! ## Modules -/

def patternsOf (e : Entity) : List CompiledPattern := (allChecks [] e.record.fields).filterMap (·.pattern)

def checksOf (e : Entity) : List Stmt := (allChecks [] e.record.fields).flatMap (·.statements)

/-- What the module of a validator supplies to its checks: everything that they read, the class of the error,
and the module that compiles patterns. -/
structure ValidatorSupplied (e : Entity) (m : Module) : Prop where
  checks : ∀ s ∈ checksOf e, s.Bound (.all ("entity" :: "errors" :: m.topLevel))
  error : checksOf e ≠ [] → validationErrorClass ∈ m.topLevel
  list : checksOf e ≠ [] → "List" ∈ m.topLevel
  compiled : patternsOf e ≠ [] → "re" ∈ m.topLevel
  entity : e.name ∈ m.topLevel

section

variable (e : Entity)

/-- The statements of a validator module: those before its class and the class. -/
theorem validatorModule_body : (validatorModule e).value.body =
    (if (patternsOf e).isEmpty then [] else [.importModule "re"])
      ++ (if e.record.fields.any comparesNumbers then [.importFrom "decimal" ["Decimal"]] else [])
      ++ (if (checksOf e).isEmpty then [] else [.importFrom "typing" ["List"]])
      ++ [.importFrom (".." ++ Name.snakeCase e.name) [e.name]]
      ++ (if (checksOf e).isEmpty then []
        else [.importFrom ("." ++ validationErrorModule) [violationClass, validationErrorClass]])
      ++ (patternsOf e).map CompiledPattern.stmt
      ++ [validatorHelper e (checksOf e)] := rfl

theorem mem_validatorModule_topLevel (name : String) : name ∈ (validatorModule e).value.topLevel ↔
    patternsOf e ≠ [] ∧ name = "re" ∨ e.record.fields.any comparesNumbers ∧ name = "Decimal" ∨
      checksOf e ≠ [] ∧ name = "List" ∨ name = e.name ∨
      checksOf e ≠ [] ∧ (name = violationClass ∨ name = validationErrorClass) ∨
      (∃ p ∈ patternsOf e, name = p.constant) ∨ name = validatorClass e.name := by
  have re : Stmt.binds (.importModule "re") = ["re"] := by decide
  have patterns : ∀ p : CompiledPattern, p.stmt.binds = [p.constant] := fun _ => rfl
  rw [Module.topLevel, validatorModule_body]
  simp only [List.flatMap_append, List.mem_append, or_assoc, List.flatMap_map, patterns, List.mem_flatMap,
    List.mem_singleton]
  refine or_congr ?_ (or_congr ?_ (or_congr ?_ (or_congr ?_ (or_congr ?_ (or_congr Iff.rfl ?_)))))
  · split <;> simp_all
  · split <;> simp_all [Stmt.binds]
  · split <;> simp_all [Stmt.binds]
  · simp [Stmt.binds]
  · split <;> simp_all [Stmt.binds]
  · simp [validatorHelper, Stmt.binds]

/-- The checks of a validator read the entity, the violations and what the module supplies. -/
theorem checksOf_bound {names : List String} (outer : (validatorModule e).value.topLevel ⊆ names)
    (entity : "entity" ∈ names) (errors : "errors" ∈ names) : ∀ s ∈ checksOf e, s.Bound (.all names) := by
  have supplied : ∀ {name}, _ → name ∈ names := fun bound => outer ((mem_validatorModule_topLevel e _).mpr bound)
  intro s member
  have some : checksOf e ≠ [] := List.ne_nil_of_mem member
  have scope : CheckScope names :=
    ⟨entity, errors, supplied (.inr (.inr (.inr (.inr (.inl ⟨some, .inl rfl⟩)))))⟩
  refine scope.allChecks_bound ?_ ?_ s member
  · exact fun compares => supplied (.inr (.inl ⟨compares, rfl⟩))
  · exact fun p given => supplied (.inr (.inr (.inr (.inr (.inr (.inl ⟨p, given, rfl⟩))))))

theorem validatorModule_supplied : ValidatorSupplied e (validatorModule e).value := by
  have supplied := fun name => (mem_validatorModule_topLevel e name).mpr
  refine ⟨?_, ?_, ?_, ?_, ?_⟩
  · refine checksOf_bound e ?_ List.mem_cons_self (List.mem_cons_of_mem _ List.mem_cons_self)
    exact List.subset_cons_of_subset _ (List.subset_cons_self _ _)
  · exact fun some => supplied _ (.inr (.inr (.inr (.inr (.inl ⟨some, .inr rfl⟩)))))
  · exact fun some => supplied _ (.inr (.inr (.inl ⟨some, rfl⟩)))
  · exact fun some => supplied _ (.inl ⟨some, rfl⟩)
  · exact supplied _ (.inr (.inr (.inr (.inl rfl))))

theorem validateBody_bound {names : List String}
    (outer : (validatorModule e).value.topLevel ⊆ names) (entity : "entity" ∈ names)
    (errors : ∀ s ∈ validateBody e.name (checksOf e), s.locals ⊆ names) :
    ∀ s ∈ validateBody e.name (checksOf e), s.Bound (.all names) := by
  have supplied := validatorModule_supplied e
  by_cases none : checksOf e = []
  · simp [validateBody, none, Stmt.Bound]
  · rw [validateBody, if_neg (by simpa using none)] at errors ⊢
    have list : "List" ∈ names := outer (supplied.list none)
    have violation : violationClass ∈ names :=
      outer ((mem_validatorModule_topLevel e _).mpr (.inr (.inr (.inr (.inr (.inl ⟨none, .inl rfl⟩))))))
    have error : validationErrorClass ∈ names := outer (supplied.error none)
    have errors : "errors" ∈ names := errors _ List.mem_cons_self List.mem_cons_self
    simp only [List.forall_mem_append, List.forall_mem_cons]
    refine ⟨⟨⟨⟨.inl list, .inl violation⟩, by simp [Expr.Bound]⟩, checksOf_bound e outer entity errors⟩, ?_, by simp⟩
    exact ⟨.inl errors, ⟨.inl error, ⟨trivial, .inl errors, trivial⟩, trivial⟩, trivial⟩

theorem validateBody_globals : ∀ s ∈ validateBody e.name (checksOf e), s.globals = [] := by
  unfold validateBody
  split
  · simp [Stmt.globals]
  · simp only [List.forall_mem_append, List.forall_mem_cons]
    exact ⟨⟨rfl, fun s member => (allChecks_isCheck s member).globals⟩, rfl, by simp⟩

/-- The module of a validator binds every name that it reads. -/
theorem validatorModule_namesBound : (validatorModule e).value.NamesBound := by
  have supplied := validatorModule_supplied e
  rw [Module.namesBound_iff, validatorModule_body]
  simp only [List.forall_mem_append]
  refine ⟨⟨⟨⟨⟨⟨?_, ?_⟩, ?_⟩, by simp [Stmt.Bound]⟩, ?_⟩, ?_⟩, List.forall_mem_singleton.mpr ?_⟩
  · split <;> simp [Stmt.Bound]
  · split <;> simp [Stmt.Bound]
  · split <;> simp [Stmt.Bound]
  · split <;> simp [Stmt.Bound]
  · refine List.forall_mem_map.mpr fun p member => ?_
    have re := supplied.compiled (List.ne_nil_of_mem member)
    exact ⟨trivial, .inl re, ⟨trivial, trivial⟩, trivial⟩
  · refine ⟨by simp, by simp, Stmt.classBound_of_forall (List.forall_mem_cons.mpr
      ⟨refusingConstructor_bound _ _, List.forall_mem_singleton.mpr ?_⟩)⟩
    refine Stmt.function_bound ⟨?_, ?_, by simp, Source.noResult_bound⟩ (validateBody_globals e) ?_
    · simp [Expr.Bound, builtins]
    · exact List.forall_mem_singleton.mpr (Param.required_bound (.inl supplied.entity))
    · exact fun inner inside => validateBody_bound e inside.outer (inside.params _ List.mem_cons_self) inside.locals

end

/-- The module of the validation errors binds every name that it reads. -/
theorem validationErrorSource_namesBound : validationErrorSource.NamesBound := by
  have list : Expr.path "List" = .name "List" := rfl
  simp [Module.namesBound_iff, validationErrorSource, violationType, validationErrorType, violationClass,
    validationErrorClass, Stmt.Bound, Stmt.ClassBound, Signature.bound_iff, Param.Bound, Expr.Bound,
    Expr.TargetBound, Part.Bound, Keyword.value, Expr.generic, Expr.apply, Expr.method, Expr.text, Expr.bool,
    Expr.none, Stmt.bind, Param.plain, Param.required, noResult, Env.function, Env.all, Env.classBody,
    Env.comprehension, Source.localsAll, Stmt.locals, Source.globalsAll, Stmt.globals, builtins, Module.topLevel,
    Stmt.binds, list]

end Tablewright.Access
