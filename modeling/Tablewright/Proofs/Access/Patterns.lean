import Tablewright.Proofs.Access.Mangling
import Tablewright.Proofs.Source.Calls

/-!
# Patterns and the constants that hold them

A validator compiles the pattern of a field once, at the top level of its module, and checks the value of the field
against the constant.

* `Stmt.compiled?`: the pattern that a statement compiles.
* `patternPairs`: the fields with a pattern, each with what is compiled for it.
* `fullmatch_validatorModule`: each field is checked against its own constant.
* `inClass`: what a name stands for in the body of a class, where private names are others.
* `patterns_paired`: all of this for every description.
-/

namespace Tablewright.Access

open Source (Expr Stmt Module IsPrivate bindings)
open Name (IsFirstFree isConstantChar)

variable {f : ResolvedField} {taken : List String} {fields : List ResolvedField} {e : Entity}

/-! ## Names in classes -/

/-- What a name stands for in the body of a class: a private one is the name of the class, without the underscores at its
front, and then the name itself. -/
def inClass (className name : String) : String :=
  if IsPrivate name then "_" ++ String.ofList (className.toList.dropWhile (· == '_')) ++ name else name

theorem inClass_eq_self {className name : String} : inClass className name = name ↔ ¬ IsPrivate name := by
  rw [inClass]
  split
  · rename_i isPrivate
    refine iff_of_false (fun same => ?_) (not_not_intro isPrivate)
    have lengths := congrArg String.length same
    simp only [String.length_append] at lengths
    have one : "_".length = 1 := rfl
    omega
  · rename_i plain
    exact iff_of_true rfl plain

/-! ## Constants -/

theorem isConstantChar_of_mem_patternName {c : Char} (taken : List String) (identifier : String)
    (member : c ∈ (patternName (some taken) identifier).toList) : isConstantChar c := by
  have chosen : patternName (some taken) identifier = Name.fresh taken s!"_{patternBase identifier}_PATTERN"
    fun n => s!"_{patternBase identifier}_{n}_PATTERN" := rfl
  have plain : ∀ s : String, toString s = s := fun _ => rfl
  have base : ∀ c ∈ (patternBase identifier).toList, isConstantChar c := by
    rw [toList_patternBase]
    exact List.forall_mem_map.mpr fun c inside => Name.isConstantChar_toUpper (Name.isModuleChar_of_mem_snakeChars inside)
  have front : ∀ c ∈ "_".toList, isConstantChar c := List.all_eq_true.mp (by decide)
  have ending : ∀ c ∈ "_PATTERN".toList, isConstantChar c := List.all_eq_true.mp (by decide)
  have digits : ∀ n : Nat, ∀ c ∈ (toString n).toList, isConstantChar c := by
    intro n c inside
    rw [Nat.toString_eq_repr, Nat.toList_repr] at inside
    have digit : c.isDigit := Nat.isDigit_of_mem_toDigits (by omega) (by omega) inside
    simp [isConstantChar, digit]
  rw [chosen] at member
  -- the wished name, or a numbered one with one more part
  rcases Name.fresh_cases taken s!"_{patternBase identifier}_PATTERN"
    (fun n => s!"_{patternBase identifier}_{n}_PATTERN") with same | ⟨n, same⟩
  · rw [same] at member
    simp only [plain, String.toList_append, List.mem_append] at member
    rcases member with (inside | inside) | inside
    · exact front c inside
    · exact base c inside
    · exact ending c inside
  · rw [same] at member
    simp only [plain, String.toList_append, List.mem_append] at member
    rcases member with (((inside | inside) | inside) | inside) | inside
    · exact front c inside
    · exact base c inside
    · exact front c inside
    · exact digits n c inside
    · exact ending c inside

/-- The class of a validator has small letters in its name, and a constant of a pattern has none. -/
theorem inClass_ne_patternName {entityName name : String} (isPrivate : IsPrivate name) (taken : List String)
    (identifier : String) : inClass (validatorClass entityName) name ≠ patternName (some taken) identifier := by
  intro same
  have letter : 'a' ∈ (validatorClass entityName).toList.dropWhile (· == '_') := by
    rw [validatorClass, String.toList_append, List.dropWhile_append]
    split <;> simp
  have inside : 'a' ∈ (inClass (validatorClass entityName) name).toList := by
    rw [inClass, if_pos isPrivate]
    simp [String.toList_append, letter]
  rw [same] at inside
  exact absurd (isConstantChar_of_mem_patternName taken identifier inside) (by decide)

theorem patternName_isFirstFree (taken : List String) (identifier : String) :
    IsFirstFree taken s!"_{patternBase identifier}_PATTERN" (fun n => s!"_{patternBase identifier}_{n}_PATTERN")
      (patternName (some taken) identifier) := by
  refine Name.fresh_isFirstFree fun m n same => ?_
  have plain : ∀ s : String, toString s = s := fun _ => rfl
  simp only [plain, String.append_left_inj, String.append_right_inj] at same
  exact Nat.repr_injective same

/-! ## Fields and their constants -/

/-- The fields with a pattern, each with the pattern that is compiled for it, given the names that are taken before. -/
def patternPairs (taken : List String) : List ResolvedField → List (ResolvedField × CompiledPattern)
  | [] => []
  | f :: rest =>
    let checks := fieldChecks (some taken) f
    checks.pattern.toList.map (f, ·) ++ patternPairs (checks.taken taken) rest

theorem patternPairs_snd (taken : List String) (fields : List ResolvedField) :
    (patternPairs taken fields).map (·.2) = patternsIn taken fields := by
  induction fields generalizing taken with
  | nil => rfl
  | cons f rest ih =>
    rw [patternPairs, patternsIn_cons, List.map_append, ih, List.map_map]
    exact congrArg (· ++ _) (List.map_id _)

theorem isSome_pattern (taken : List String) (f : ResolvedField) :
    (fieldChecks (some taken) f).pattern.isSome = f.matchesPattern := by
  rw [Bool.eq_iff_iff, matchesPattern_iff taken, Option.isSome_iff_exists]
  constructor
  · rintro ⟨q, given⟩
    obtain ⟨c, applies, -, constant⟩ := fieldChecks_pattern given
    refine ⟨c, q.pattern, applies, ?_⟩
    rw [fieldChecks, applies] at given
    rw [← constant]
    exact given
  · rintro ⟨c, p, applies, given⟩
    exact ⟨_, by rw [fieldChecks, applies]; exact given⟩

/-- Every field with a pattern has one constant, in the order of the fields. -/
theorem patternPairs_fst (taken : List String) (fields : List ResolvedField) :
    (patternPairs taken fields).map (·.1) = fields.filter (·.matchesPattern) := by
  induction fields generalizing taken with
  | nil => rfl
  | cons f rest ih =>
    rw [patternPairs, List.map_append, ih, List.filter_cons, ← isSome_pattern taken]
    cases (fieldChecks (some taken) f).pattern <;> rfl

/-- What is compiled for a field is its own pattern, under the first name that no constant before it has. -/
theorem patternPairs_split {before after : List (ResolvedField × CompiledPattern)} {q : CompiledPattern}
    (split : patternPairs taken fields = before ++ (f, q) :: after) :
    f.field.constraints.bind (·.pattern) = some q.pattern ∧ ∃ names, q.constant = patternName (some names) f.identifier ∧
      ∀ name, name ∈ names ↔ name ∈ before.map (·.2.constant) ∨ name ∈ taken := by
  induction fields generalizing taken before with
  | nil => simp [patternPairs] at split
  | cons g rest ih =>
    rw [patternPairs] at split
    cases given : (fieldChecks (some taken) g).pattern with
    | none =>
      simp only [given, Option.toList_none, List.map_nil, List.nil_append] at split
      simpa [Checks.taken, given] using ih split
    | some r =>
      simp only [given, Option.toList_some, List.map_singleton, List.singleton_append] at split
      cases before with
      | nil =>
        obtain ⟨same, -⟩ := List.cons.inj split
        obtain ⟨rfl, rfl⟩ := Prod.mk.inj same
        obtain ⟨c, applies, pattern, constant⟩ := fieldChecks_pattern given
        exact ⟨by rw [Checking.applicable_constraints applies]; exact pattern, taken, constant, by simp⟩
      | cons first before =>
        rw [List.cons_append] at split
        obtain ⟨rfl, later⟩ := List.cons.inj split
        obtain ⟨pattern, names, constant, known⟩ := ih later
        refine ⟨pattern, names, constant, fun name => ?_⟩
        rw [known]
        simp [Checks.taken, given, or_left_comm, or_assoc]

/-! ## Checks -/

/-- Recording a violation matches nothing. -/
theorem fullmatch_violation (f : ResolvedField) (constraint message : String) :
    (violation f constraint message).sends "fullmatch" = [] := by
  simp [violation, Expr.method, Expr.apply, Expr.text]

theorem fullmatch_validated (f : ResolvedField) : (validated f).sends "fullmatch" = [] := rfl

theorem fullmatch_requiredCheck (f : ResolvedField) : Stmt.sendsAll "fullmatch" (requiredCheck f) = [] := by
  unfold requiredCheck
  split
  · simp [Expr.isNone, Expr.none, fullmatch_validated, fullmatch_violation]
  · rfl

/-- The checks of a value match it against the constant of its pattern, and against no other. -/
theorem fullmatch_boundChecks (taken : Option (List String)) (f : ResolvedField) (c : Constraints) :
    Stmt.sendsAll "fullmatch" (boundChecks taken f c).statements =
      (boundChecks taken f c).pattern.toList.map fun q => (.name q.constant, [validated f]) := by
  have minLength (bound : Value) : (minLengthCheck f bound).sends "fullmatch" = [] := by
    simp [minLengthCheck, Expr.apply, fullmatch_validated, fullmatch_violation]
  have maxLength (bound : Value) : (maxLengthCheck f bound).sends "fullmatch" = [] := by
    simp [maxLengthCheck, Expr.apply, fullmatch_validated, fullmatch_violation]
  have min (bound : Value) : (minCheck f bound).sends "fullmatch" = [] := by
    simp [minCheck, boundExpr, Expr.apply, Expr.text, fullmatch_validated, fullmatch_violation]
  have max (bound : Value) : (maxCheck f bound).sends "fullmatch" = [] := by
    simp [maxCheck, boundExpr, Expr.apply, Expr.text, fullmatch_validated, fullmatch_violation]
  have pattern (constant : String) (p : Value) :
      (patternCheck f constant p).sends "fullmatch" = [(.name constant, [validated f])] := by
    simp [patternCheck, Expr.method, fullmatch_validated, fullmatch_violation]
  unfold boundChecks
  split
  · rw [Stmt.sendsAll_append, Stmt.sendsAll_append, Stmt.sendsAll_eq_nil (by simp [minLength]),
      Stmt.sendsAll_eq_nil (by simp [maxLength]), List.nil_append, List.nil_append]
    cases c.pattern with
    | none => rfl
    | some p => simp [pattern]
  · rw [Stmt.sendsAll_append, Stmt.sendsAll_eq_nil (by simp [min]), Stmt.sendsAll_eq_nil (by simp [max])]
    rfl

theorem fullmatch_fieldChecks (taken : Option (List String)) (f : ResolvedField) :
    Stmt.sendsAll "fullmatch" (fieldChecks taken f).statements =
      (fieldChecks taken f).pattern.toList.map fun q => (.name q.constant, [validated f]) := by
  unfold fieldChecks
  cases applicable f with
  | none => exact fullmatch_requiredCheck f
  | some c =>
    dsimp only
    rw [Stmt.sendsAll_append, fullmatch_requiredCheck, List.nil_append, ← fullmatch_boundChecks]
    split
    · rename_i empty
      rw [List.isEmpty_iff.mp empty]
    · simp [Expr.isNotNone, Expr.none, fullmatch_validated]

theorem fullmatch_allChecks (taken : List String) (fields : List ResolvedField) :
    Stmt.sendsAll "fullmatch" ((allChecks taken fields).flatMap (·.statements)) =
      (patternPairs taken fields).map fun pair => (.name pair.2.constant, [validated pair.1]) := by
  induction fields generalizing taken with
  | nil => rfl
  | cons f rest ih =>
    rw [allChecks, List.flatMap_cons, Stmt.sendsAll_append, ih, fullmatch_fieldChecks, patternPairs, List.map_append,
      List.map_map]
    rfl

/-! ## Modules -/

/-- The pattern that a statement compiles, with the constant that it is assigned to. -/
def compiled? : Stmt → Option CompiledPattern
  | .assign (.name constant) (.call (.attr (.name module) method) [.constant pattern] []) =>
    if module = "re" ∧ method = "compile" then some ⟨constant, pattern⟩ else none
  | _ => none

theorem filterMap_compiled_patterns (patterns : List CompiledPattern) :
    (patterns.map CompiledPattern.stmt).filterMap compiled? = patterns := by
  rw [List.filterMap_map]
  exact List.filterMap_some

/-- Imports stand before the constants, and the class after them. -/
theorem validatorModule_imports (e : Entity) : ∃ imports : List Stmt,
    (validatorModule e).value.body =
      imports ++ (patternsOf e).map CompiledPattern.stmt ++ [validatorHelper e (checksOf e)] ∧
    ∀ s ∈ imports, (∃ module, s = .importModule module) ∨ ∃ module names, s = .importFrom module names := by
  refine ⟨_, validatorModule_body e, ?_⟩
  simp only [List.forall_mem_append]
  refine ⟨⟨⟨⟨?_, ?_⟩, ?_⟩, ?_⟩, ?_⟩
  · split <;> simp
  · split <;> simp
  · split <;> simp
  · simp
  · split <;> simp

/-- The top level of a validator module compiles the patterns of the fields, and nothing else. -/
theorem filterMap_compiled_validatorModule (e : Entity) :
    (validatorModule e).value.body.filterMap compiled? = patternsOf e := by
  obtain ⟨imports, body, areImports⟩ := validatorModule_imports e
  have none : imports.filterMap compiled? = [] := by
    refine List.filterMap_eq_nil_iff.mpr fun s member => ?_
    rcases areImports s member with ⟨module, rfl⟩ | ⟨module, names, rfl⟩ <;> rfl
  rw [body, List.filterMap_append, List.filterMap_append, none, filterMap_compiled_patterns]
  exact List.append_nil _

theorem fullmatch_validateBody (entityName : String) (checks : List Stmt) :
    Stmt.sendsAll "fullmatch" (validateBody entityName checks) = Stmt.sendsAll "fullmatch" checks := by
  have list : Expr.path "List" = .name "List" := rfl
  unfold validateBody
  split
  · rename_i empty
    rw [List.isEmpty_iff.mp empty]
    rfl
  · rw [List.cons_append, Stmt.sendsAll, Stmt.sendsAll_append]
    simp [Expr.generic, list, Expr.apply, Expr.text]

/-- The only matches of a validator module are the checks of the fields with a pattern, each with its own constant. -/
theorem fullmatch_validatorModule (e : Entity) : Stmt.sendsAll "fullmatch" (validatorModule e).value.body =
    (patternPairs [] e.record.fields).map fun pair => (.name pair.2.constant, [validated pair.1]) := by
  obtain ⟨imports, body, areImports⟩ := validatorModule_imports e
  have none : Stmt.sendsAll "fullmatch" imports = [] := by
    refine Stmt.sendsAll_eq_nil fun s member => ?_
    rcases areImports s member with ⟨module, rfl⟩ | ⟨module, names, rfl⟩ <;> rfl
  have compiles : Stmt.sendsAll "fullmatch" ((patternsOf e).map CompiledPattern.stmt) = [] := by
    refine Stmt.sendsAll_eq_nil (List.forall_mem_map.mpr fun q _ => ?_)
    simp [CompiledPattern.stmt, Stmt.bind, Expr.method]
  have helper : Stmt.sendsAll "fullmatch" [validatorHelper e (checksOf e)] = Stmt.sendsAll "fullmatch" (checksOf e) := by
    refine Eq.trans ?_ (fullmatch_validateBody e.name (checksOf e))
    simp [validatorHelper, refusingConstructor, Source.Param.plain, Source.Param.required, Source.noResult, Expr.none, Expr.apply, Expr.text]
  rw [body, Stmt.sendsAll_append, Stmt.sendsAll_append, none, compiles, helper, checksOf, fullmatch_allChecks]
  rfl

/-! ## Fields and patterns -/

/-- The module `re` is imported where a pattern is compiled; an entity of that name takes its place. -/
theorem bindings_re (e : Entity) : (bindings "re" (validatorModule e).value.body).getLast? = some (.importModule "re") ↔
    patternsOf e ≠ [] ∧ e.name ≠ "re" := by
  have decimal (condition : Bool) : bindings "re" (if condition then [.importFrom "decimal" ["Decimal"]] else []) = [] := by
    cases condition <;> decide
  have list (condition : Bool) : bindings "re" (if condition then [] else [.importFrom "typing" ["List"]]) = [] := by
    cases condition <;> decide
  have errors (condition : Bool) : bindings "re" (if condition then []
      else [.importFrom ("." ++ validationErrorModule) [violationClass, validationErrorClass]]) = [] := by
    cases condition <;> decide
  rw [bindings_validatorModule (by simp), decimal, list, errors, List.append_nil, List.append_nil, List.append_nil]
  by_cases called : e.name = "re"
  · simp [called]
  · rw [if_neg (Ne.symm called), List.append_nil]
    by_cases empty : patternsOf e = []
    · simp [empty, bindings]
    · simp [empty, called, bindings, Stmt.binds, firstPart_re]

theorem importModule_re_mem (e : Entity) :
    Stmt.importModule "re" ∈ (validatorModule e).value.body ↔ patternsOf e ≠ [] := by
  have patterns : Stmt.importModule "re" ∉ (patternsOf e).map CompiledPattern.stmt := by
    simp [CompiledPattern.stmt, Stmt.bind]
  rw [validatorModule_body]
  by_cases empty : patternsOf e = []
  all_goals split <;> split <;> simp_all [validatorHelper]

/-- For every field of plain text with a pattern, in their order, a validator compiles that pattern once, under names that
all differ, and checks the field against it.  The search for a name ends at the first one that no constant before it has.
In its class a check reads the constant itself, unless the identifier of the field has no ASCII letter or digit: the
name is private then, and stands for no constant.  `re` is imported where there is a pattern, and stands for the module
unless the entity is called so. -/
theorem patterns_paired (e : Entity) : ∃ pairs : List (ResolvedField × CompiledPattern),
    pairs.map (·.1) = e.record.fields.filter (·.matchesPattern) ∧
    (∀ pair ∈ pairs, pair.1.field.constraints.bind (·.pattern) = some pair.2.pattern) ∧
    (validatorModule e).value.body.filterMap compiled? = pairs.map (·.2) ∧
    (pairs.map (·.2.constant)).Nodup ∧
    Stmt.sendsAll "fullmatch" (validatorModule e).value.body =
      pairs.map (fun pair => (.name pair.2.constant, [validated pair.1])) ∧
    (∀ pair ∈ pairs, ∀ other ∈ pairs, inClass (validatorClass e.name) pair.2.constant = other.2.constant ↔
      pair.2.constant = other.2.constant ∧ pair.1.identifier.toList.any Text.isWordChar) ∧
    (∀ before pair after, pairs = before ++ pair :: after →
      IsFirstFree (before.map (·.2.constant)) s!"_{patternBase pair.1.identifier}_PATTERN"
        (fun n => s!"_{patternBase pair.1.identifier}_{n}_PATTERN") pair.2.constant) ∧
    (.importModule "re" ∈ (validatorModule e).value.body ↔ pairs ≠ []) ∧
    ((bindings "re" (validatorModule e).value.body).getLast? = some (.importModule "re") ↔
      pairs ≠ [] ∧ e.name ≠ "re") := by
  have compiled : (patternPairs [] e.record.fields).map (·.2) = patternsOf e := patternPairs_snd [] e.record.fields
  have empty : patternPairs [] e.record.fields = [] ↔ patternsOf e = [] := by rw [← compiled, List.map_eq_nil_iff]
  have constants : (patternPairs [] e.record.fields).map (·.2.constant) = (patternsOf e).map (·.constant) := by
    rw [← compiled, List.map_map]
    rfl
  have own : ∀ pair ∈ patternPairs [] e.record.fields, pair.1.field.constraints.bind (·.pattern) = some pair.2.pattern ∧
      ∃ names, pair.2.constant = patternName (some names) pair.1.identifier := by
    intro pair member
    obtain ⟨before, after, split⟩ := List.append_of_mem member
    obtain ⟨pattern, names, constant, -⟩ := patternPairs_split split
    exact ⟨pattern, names, constant⟩
  refine ⟨patternPairs [] e.record.fields, patternPairs_fst [] _, fun pair member => (own pair member).1,
    (filterMap_compiled_validatorModule e).trans compiled.symm, ?_, fullmatch_validatorModule e,
    fun pair member other inPairs => ?_, fun before pair after split => ?_, ?_, ?_⟩
  · rw [constants]
    exact (patternsIn_constants [] e.record.fields).1
  · obtain ⟨-, names, constant⟩ := own pair member
    obtain ⟨-, others, otherConstant⟩ := own other inPairs
    -- without a letter or digit the constant starts with two underscores, and the class changes it
    cases letters : pair.1.identifier.toList.any Text.isWordChar with
    | false =>
      have isPrivate : IsPrivate pair.2.constant := by rw [constant, isPrivate_patternName, letters]
      refine iff_of_false ?_ (by simp)
      rw [otherConstant]
      exact inClass_ne_patternName isPrivate others other.1.identifier
    | true =>
      have plain : ¬ IsPrivate pair.2.constant := by simp [constant, isPrivate_patternName, letters]
      rw [inClass_eq_self.mpr plain]
      simp
  · obtain ⟨-, names, constant, known⟩ := patternPairs_split split
    rw [constant]
    exact (patternName_isFirstFree names pair.1.identifier).congr fun name => by simp [known]
  · exact (importModule_re_mem e).trans empty.not.symm
  · exact (bindings_re e).trans (and_congr_left' empty.not.symm)

/-! ## A field without ASCII letters -/

/-- A field whose name has no ASCII letter, with a pattern. -/
def accentedField : Field :=
  { bareField "é" "string" with constraints := some ⟨none, none, some (.text "[a-z]+"), none, none⟩ }

def accentedOrder : Schema :=
  { entityName := some "Order"
    primaryKey := ⟨"id", none⟩
    fields := [bareField "id" "string", accentedField]
    description := none
    schemaVersion := none }

theorem patternPairs_accentedOrder : patternPairs [] (mapFields "Order" accentedOrder.fields).1 =
    [(⟨accentedField, "é", .scalar .string⟩, ⟨"__PATTERN", .text "[a-z]+"⟩)] := by
  have name : patternName (some []) "é" = "__PATTERN" := by decide +kernel
  have fields : (mapFields "Order" accentedOrder.fields).1 =
      [⟨bareField "id" "string", "id", .scalar .string⟩, ⟨accentedField, "é", .scalar .string⟩] := rfl
  rw [fields]
  simp [patternPairs, fieldChecks, applicable, boundChecks, Checks.taken, bareField, accentedField, name]

/-- In the class of its validator the name of the constant stands for one that nothing binds. -/
theorem accentedOrder_unmatched : ∃ e, (describe accentedOrder).value = .ok e ∧
    (validatorModule e).value.body.filterMap compiled? = [⟨"__PATTERN", .text "[a-z]+"⟩] ∧
    Stmt.sendsAll "fullmatch" (validatorModule e).value.body = [(.name "__PATTERN", [.attr (.name "entity") "é"])] ∧
    inClass (validatorClass e.name) "__PATTERN" = "_OrderValidator__PATTERN" ∧
    "_OrderValidator__PATTERN" ∉ (validatorModule e).value.topLevel ++ Source.builtins := by
  have accepted : (describe accentedOrder).value.isOk := by decide +kernel
  cases outcome : (describe accentedOrder).value with
  | error shared => simp [outcome, Except.isOk, Except.toBool] at accepted
  | ok e =>
    have describes := describe_ok outcome
    have name : e.name = "Order" := describes.name
    have pairs : patternPairs [] e.record.fields =
        [(⟨accentedField, "é", .scalar .string⟩, ⟨"__PATTERN", .text "[a-z]+"⟩)] := by
      rw [describes.fields]
      exact patternPairs_accentedOrder
    have patterns : patternsOf e = [⟨"__PATTERN", .text "[a-z]+"⟩] := by
      rw [patternsOf, ← patternsIn, ← patternPairs_snd, pairs]
      rfl
    refine ⟨e, rfl, ?_, ?_, ?_, ?_⟩
    · rw [filterMap_compiled_validatorModule, patterns]
    · rw [fullmatch_validatorModule, pairs]
      rfl
    · rw [name]
      decide
    · rw [List.mem_append, mem_validatorModule_topLevel, patterns, name]
      simp [Source.builtins, violationClass, validationErrorClass, validatorClass]

end Tablewright.Access
