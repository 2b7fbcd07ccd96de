import Tablewright.Proofs.Access.RecordClass
import Tablewright.Proofs.Access.Validator
import Tablewright.Proofs.Name.Fresh
import Tablewright.Proofs.Plan.Layout
import Tablewright.Proofs.Schema.Identifiers

/-!
# What validators report

The body of a validator, run on an entity, against a description of what it has to report.

* `violations`: what has to be reported about some fields, given their values.
* `Collects`: statements that append what is expected to the violations that were found before.
* `validatorModule_names`: the names that the body reads mean what they are written for if and only if the entity has
  none of them.
* `validateBody_reports`: the whole body; it raises an error with exactly these violations, if there are any.
-/

namespace Tablewright.Access

open Source (Expr Stmt Program Frame Flow Datum Library Outcome ClassDef eval evalAll readName getAttribute call run runAll bindings)

variable {L : Library} {p : Program} {σ : Frame L}

/-! ## What has to be reported -/

/-- A violation: the storage name of a field, the constraint that it breaks, and what is said about it. -/
structure Violation where
  field : String
  constraint : String
  message : String
  deriving DecidableEq, Repr

def Violation.datum (v : Violation) : Datum L :=
  .object [violationClass] [("field", .text v.field), ("constraint", .text v.constraint), ("message", .text v.message)]

def validationError (entityName : String) (found : List Violation) : Datum L :=
  let messages := "; ".intercalate (found.map (·.message))
  .object [validationErrorClass]
    [("entity_name", .text entityName), ("errors", .list (found.map Violation.datum)),
     ("args", .tuple [.text s!"{entityName} validation failed: {messages}"])]

/-- The number that a bound of a field stands for. -/
def bound? (L : Library) : Value → Option L.Decimal
  | .int n => some (L.ofInt n)
  | .float x =>
    match Number.wholeValue? x with
    | some n => some (L.ofInt n)
    | none => L.decimal? (Value.floatText x)
  | _ => none

def matchesPattern (L : Library) (pattern s : String) : Bool := (L.pattern? pattern).any (L.fullMatch · s)

/-- What a required field without value breaks. -/
def missing (f : ResolvedField) (v : Datum L) : List Violation :=
  if f.required && v.isNone then [⟨f.storageName, "required", s!"{f.storageName} is required"⟩] else []

/-- What a text breaks. -/
def textViolations (L : Library) (f : ResolvedField) (c : Constraints) (s : String) : List Violation :=
  (match c.minLength with
    | some (.int n) =>
      if s.length < n then
        [⟨f.storageName, "minLength", s!"{f.storageName} must be at least {n} characters"⟩]
      else []
    | _ => [])
  ++ (match c.maxLength with
    | some (.int n) =>
      if n < s.length then
        [⟨f.storageName, "maxLength", s!"{f.storageName} must be at most {n} characters"⟩]
      else []
    | _ => [])
  ++ (match c.pattern with
    | some (.text pattern) =>
      if ¬ matchesPattern L pattern s then
        [⟨f.storageName, "pattern", s!"{f.storageName} must match pattern {pattern}"⟩]
      else []
    | _ => [])

/-- What a number breaks that must not be on one side of a bound. Where it cannot be compared with the bound,
the comparison raises its exception. -/
def boundViolations (f : ResolvedField) (constraint : String) (message : String → String) (side : Ordering)
    (d : L.Decimal) : Option Value → Outcome L (List Violation)
  | none => pure []
  | some bound => do
    let m ← .orRaise "InvalidOperation" (bound? L bound)
    let place ← .orRaise "InvalidOperation" (L.order? d m)
    pure (if place = side then [⟨f.storageName, constraint, message (boundText bound)⟩] else [])

def numberViolations (f : ResolvedField) (c : Constraints) (d : L.Decimal) : Outcome L (List Violation) := do
  let below ← boundViolations f "min" (fun bound => s!"{f.storageName} must be >= {bound}") .lt d c.min
  let above ← boundViolations f "max" (fun bound => s!"{f.storageName} must be <= {bound}") .gt d c.max
  pure (below ++ above)

/-- What a value that is present breaks: only texts and numbers have bounds. -/
def valueViolations (f : ResolvedField) (v : Datum L) : Outcome L (List Violation) :=
  match f.type, f.field.constraints, v with
  | .scalar .string, some c, .text s => pure (textViolations L f c s)
  | .scalar .number, some c, .decimal d => numberViolations f c d
  | _, _, _ => pure []

def fieldViolations (f : ResolvedField) (v : Datum L) : Outcome L (List Violation) := do
  let broken ← valueViolations f v
  pure (missing f v ++ broken)

/-- What has to be reported about some fields, in their order. -/
def violations (values : ResolvedField → Datum L) : List ResolvedField → Outcome L (List Violation)
  | [] => pure []
  | f :: rest => do
    let first ← fieldViolations f (values f)
    let others ← violations values rest
    pure (first ++ others)

/-- Bounds of the declared types: whole numbers for lengths, a text for a pattern, numbers for numbers. -/
structure Declared (c : Constraints) : Prop where
  minLength : ∀ v ∈ c.minLength, ∃ n, v = .int n
  maxLength : ∀ v ∈ c.maxLength, ∃ n, v = .int n
  pattern : ∀ v ∈ c.pattern, ∃ s, v = .text s
  min : ∀ v ∈ c.min, (∃ n, v = .int n) ∨ ∃ x, v = .float x
  max : ∀ v ∈ c.max, (∃ n, v = .int n) ∨ ∃ x, v = .float x

/-! ## The classes of errors -/

/-- The shared error types are part of a program. -/
structure HasErrors (p : Program) : Prop where
  violation : p.module? violationClass = some validationErrorSource
  error : p.module? validationErrorClass = some validationErrorSource

def violationCls : ClassDef :=
  ⟨validationErrorSource.body, [.call (.name "dataclass") [] [.mk (some "frozen") (Expr.bool true)]], [],
    [.annotated "field" (.name "str") none, .annotated "constraint" (.name "str") none,
     .annotated "message" (.name "str") none]⟩

/-- The constructor of errors. -/
def validationErrorInit : Source.Function :=
  ⟨⟨"__init__", [],
      [Source.Param.plain "self", Source.Param.required "entity_name" (.name "str"),
       Source.Param.required "errors" (Expr.generic "List" [.name violationClass])], none, Source.noResult⟩,
    [.assign (.attr (.name "self") "entity_name") (.name "entity_name"),
     .assign (.attr (.name "self") "errors") (Expr.apply "list" [.name "errors"]),
     Stmt.bind "details" (Expr.method (Expr.text "; ") "join"
       [.comprehension .generator (.attr (.name "violation") "message") "violation"
         (.attr (.name "self") "errors")]),
     .expr (Expr.method (Expr.apply "super" []) "__init__"
       [.formatted [.field (.name "entity_name") none, .text " validation failed: ",
         .field (.name "details") none]])]⟩

def validationErrorCls : ClassDef :=
  ⟨validationErrorSource.body, [], [.name "Exception"],
    [.function validationErrorInit.signature none validationErrorInit.body]⟩

namespace HasErrors

variable (errors : HasErrors p)
include errors

theorem violation_class : p.class? [violationClass] = some violationCls := by
  simp only [Program.class?, errors.violation, Option.bind_eq_bind, Option.bind_some, List.foldlM_nil]
  rfl

theorem call_violation (v : Violation) :
    call p (.cls [violationClass]) [.text v.field, .text v.constraint, .text v.message] [] =
      (pure v.datum : Outcome L (Datum L)) := by
  rw [call, errors.violation_class]
  rfl

theorem error_class : p.class? [validationErrorClass] = some validationErrorCls := by
  simp only [Program.class?, errors.error, Option.bind_eq_bind, Option.bind_some, List.foldlM_nil]
  rfl

theorem getAttribute_message (v : Violation) :
    getAttribute p (v.datum : Datum L) "message" = pure (.text v.message) := by
  refine Source.getAttribute_plain rfl fun c cls getter setter => ?_
  obtain rfl : violationCls = c := Option.some.inj (errors.violation_class.symm.trans cls)
  exact fun property => nomatch property

omit errors in
theorem error_member {name : String} (other : name ≠ "__init__") : validationErrorCls.member? name = none := by
  refine ClassDef.member?_eq_none (List.forall_mem_singleton.mpr ?_)
  simpa [Stmt.binds, validationErrorInit] using other

omit errors in
theorem error_init : validationErrorCls.member? "__init__" = some (.method validationErrorInit) := rfl

theorem setAttribute_error {name : String} (other : name ≠ "__init__") (attributes : List (String × Datum L))
    (value : Datum L) : Source.setAttribute p (.object [validationErrorClass] attributes) name value =
      pure (.object [validationErrorClass] (Datum.putAttribute attributes name value)) :=
  Source.setAttribute_plain errors.error_class rfl (by simp [error_member other]) attributes value

theorem getAttribute_error {name : String} (other : name ≠ "__init__") {attributes : List (String × Datum L)}
    {value : Datum L} (has : attributes.lookup name = some value) :
    getAttribute p (.object [validationErrorClass] attributes) name = pure value := by
  refine Source.getAttribute_plain has fun c cls => ?_
  obtain rfl : validationErrorCls = c := Option.some.inj (errors.error_class.symm.trans cls)
  simp [error_member other]

omit errors in
theorem join_messages (found : List Violation) :
    Source.callMethod (.text "; ") "join" [.generator (found.map fun v => .text v.message)] =
      (pure (.text ("; ".intercalate (found.map (·.message)))) : Outcome L (Datum L)) := by
  have texts : (found.map fun v => (.text v.message : Datum L)).mapM Datum.text? = some (found.map (·.message)) := by
    induction found with
    | nil => rfl
    | cons v rest ih =>
      rw [List.map_cons, List.mapM_cons, ih]
      rfl
  simp [Source.callMethod, Source.membersOf, Datum.members?, texts]

/-- The error lists the violations and joins their messages. -/
theorem call_error (entityName : String) (found : List Violation) :
    call p (.cls [validationErrorClass]) [.text entityName, .list (found.map Violation.datum)] [] =
      (pure (validationError entityName found) : Outcome L (Datum L)) := by
  rw [Source.call_class errors.error_class rfl rfl error_init,
    Source.update_given _ rfl rfl rfl]
  let self : List (String × Datum L) → Datum L := .object [validationErrorClass]
  let named : List (String × Datum L) := [("entity_name", .text entityName)]
  let listed := named ++ [("errors", .list (found.map Violation.datum))]
  let details : Datum L := .text ("; ".intercalate (found.map (·.message)))
  let σ : Frame L := ⟨validationErrorSource.body, fun id => ([("self", self []), ("entity_name", .text entityName),
    ("errors", .list (found.map Violation.datum))] : List (String × Datum L)).lookup id⟩
  have fresh : σ.locals "self" = some (self []) := rfl
  have own : ∀ attributes, (σ.put "self" (self attributes)).locals "self" = some (self attributes) := fun _ => rfl
  -- the four statements, one after the other
  have first : run p σ (.assign (.attr (.name "self") "entity_name") (.name "entity_name")) =
      pure (.next (σ.put "self" (self named))) := by
    have given : readName p σ "entity_name" = pure (.text entityName) := Source.readName_local rfl
    rw [Source.run_assign, Source.eval_name, given, pure_bind, Source.assign_attr fresh, errors.setAttribute_error (by decide), pure_bind]
    rfl
  have second : run p (σ.put "self" (self named))
      (.assign (.attr (.name "self") "errors") (Expr.apply "list" [.name "errors"])) =
      pure (.next (σ.put "self" (self listed))) := by
    have list : readName p (σ.put "self" (self named)) "list" = pure (.builtin "list") := by
      rw [readName]
      rfl
    have given : eval p (σ.put "self" (self named)) (.name "errors") = pure (.list (found.map Violation.datum)) := by
      rw [Source.eval_name, Source.readName_local rfl]
    rw [Source.run_assign, Source.eval_apply list given, Source.call_builtin]
    change (pure _ >>= _) = _
    rw [pure_bind, Source.assign_attr (own named), errors.setAttribute_error (by decide), pure_bind,
      Frame.put_put]
    rfl
  have third : run p (σ.put "self" (self listed)) (Stmt.bind "details" (Expr.method (Expr.text "; ") "join"
      [.comprehension .generator (.attr (.name "violation") "message") "violation"
        (.attr (.name "self") "errors")])) = pure (.next ((σ.put "self" (self listed)).put "details" details)) := by
    have source : eval p (σ.put "self" (self listed)) (.attr (.name "self") "errors") =
        pure (.list (found.map Violation.datum)) := by
      rw [Source.eval_attr, Source.eval_name, Source.readName_local (own listed), pure_bind,
        errors.getAttribute_error (by decide) rfl]
    have texts : eval p (σ.put "self" (self listed)) (.comprehension .generator
        (.attr (.name "violation") "message") "violation" (.attr (.name "self") "errors")) =
        pure (.generator (found.map fun v => .text v.message)) := by
      refine Source.eval_comprehension_of source rfl ?_
      rw [List.forall₂_map_left_iff, List.forall₂_map_right_iff]
      refine List.forall₂_same.mpr fun v _ => ?_
      rw [Source.eval_attr, Source.eval_name, Source.readName_put, if_pos rfl, pure_bind,
        errors.getAttribute_message v]
    rw [Source.run_bind, Source.eval_method_one (Source.eval_text _) texts,
      Source.send_method (by simp [Datum.methods]), join_messages, pure_bind]
  have fourth : run p ((σ.put "self" (self listed)).put "details" details)
      (.expr (Expr.method (Expr.apply "super" []) "__init__" [.formatted [.field (.name "entity_name") none,
        .text " validation failed: ", .field (.name "details") none]])) =
      pure (.next (((σ.put "self" (self listed)).put "details" details).put "self"
        (validationError entityName found))) := by
    have name : readName p ((σ.put "self" (self listed)).put "details" details) "entity_name" =
        pure (.text entityName) := Source.readName_local rfl
    have last : readName p ((σ.put "self" (self listed)).put "details" details) "details" = pure details :=
      Source.readName_local rfl
    have known : ((σ.put "self" (self listed)).put "details" details).locals "self" = some (self listed) := rfl
    rw [Source.run_inherited known errors.error_class rfl]
    simp [name, last, Datum.shown?, details, String.join]
    rfl
  have body : runAll p σ validationErrorInit.body = pure (.next (((σ.put "self" (self listed)).put "details"
      details).put "self" (validationError entityName found))) := by
    rw [validationErrorInit, Source.runAll_next first, Source.runAll_next second, Source.runAll_next third,
      Source.runAll_next fourth, Source.runAll_nil]
  exact (congrArg (· >>= _) body).trans rfl

end HasErrors

/-! ## Checks append violations -/

/-- Statements that append what is expected to the violations that were found before. -/
def Collects (p : Program) (σ : Frame L) (statements : List Stmt) (expected : Outcome L (List Violation)) : Prop :=
  ∀ found : List (Datum L), runAll p (σ.put "errors" (.list found)) statements = (do
    let more ← expected
    pure (.next (σ.put "errors" (.list (found ++ more.map Violation.datum)))))

def measuresText (f : ResolvedField) : Bool :=
  f.type == .scalar .string && (applicable f).any fun c => c.minLength.isSome || c.maxLength.isSome

/-- What the checks of an entity read: its fields have the given values, and names mean what they are written
for. -/
structure Checking (p : Program) (σ : Frame L) (values : ResolvedField → Datum L) (fields : List ResolvedField) :
    Prop where
  errors : HasErrors p
  entity : ∃ x, readName p σ "entity" = pure x ∧
    ∀ f ∈ fields, getAttribute p x f.identifier = pure (values f)
  len : fields.any measuresText → readName p σ "len" = pure (.builtin "len")
  decimal : fields.any comparesNumbers → readName p σ "Decimal" = pure (.imported "Decimal")
  violation : readName p σ violationClass = pure (.cls [violationClass])

namespace Collects

theorem nil : Collects p σ [] (pure []) := by
  intro found
  simp

theorem append {first second : List Stmt} {a b : Outcome L (List Violation)} (left : Collects p σ first a)
    (right : Collects p σ second b) : Collects p σ (first ++ second) (do
      let x ← a
      let y ← b
      pure (x ++ y)) := by
  intro found
  rw [Source.runAll_append, left found]
  simp only [bind_assoc, pure_bind]
  refine bind_congr fun x => ?_
  rw [right (found ++ x.map Violation.datum)]
  simp

theorem append_pure {first second : List Stmt} {a b : List Violation} (left : Collects p σ first (pure a))
    (right : Collects p σ second (pure b)) : Collects p σ (first ++ second) (pure (a ++ b)) := by
  simpa using left.append right

/-- Nothing is expected of no statements. -/
theorem of_nil {expected : Outcome L (List Violation)} (collects : Collects p σ [] expected) : expected = pure [] := by
  have same := collects []
  rw [Source.runAll_nil] at same
  obtain ⟨more, gives, ends⟩ := Outcome.bind_eq_pure same.symm
  have locals := congrArg (fun σ : Frame L => σ.locals "errors") (Flow.next.inj (Outcome.pure_inj ends))
  have empty : more = [] := by simpa using locals
  rw [gives, empty]

end Collects

namespace Checking

variable {values : ResolvedField → Datum L} {fields : List ResolvedField}

theorem readName_errors {name : String} (other : name ≠ "errors") (found : Datum L) :
    readName p (σ.put "errors" found) name = readName p σ name := by
  rw [Source.readName_put, if_neg other]

variable (checking : Checking p σ values fields)
include checking

/-- A check records its violation where its test holds. -/
theorem single {f : ResolvedField} {constraint message : String} {test : Expr} {holds : Outcome L Bool}
    (evaluates : ∀ found, eval p (σ.put "errors" found) test = (do let b ← holds; pure (.bool b))) :
    Collects p σ [.ifThen test [Access.violation f constraint message]] (do
      let b ← holds
      pure (if b then [⟨f.storageName, constraint, message⟩] else [])) := by
  intro found
  rw [Source.runAll_single, Source.run_ifThen, evaluates]
  simp only [bind_assoc, pure_bind]
  refine bind_congr fun b => ?_
  cases b with
  | false => simp [Datum.truth]
  | true =>
    have cls : readName p (σ.put "errors" (.list found)) violationClass = pure (.cls [violationClass]) := by
      rw [readName_errors (by decide), checking.violation]
    have recorded : eval p (σ.put "errors" (.list found)) (Expr.apply violationClass
        [Expr.text f.storageName, Expr.text constraint, Expr.text message]) =
        pure (Violation.datum ⟨f.storageName, constraint, message⟩) := by
      simp [Expr.apply, cls, checking.errors.call_violation ⟨f.storageName, constraint, message⟩]
    simp only [Datum.truth, if_true]
    rw [Source.runAll_single, Access.violation, Source.run_append rfl, recorded, pure_bind, Frame.put_put]
    rfl

theorem decided {f : ResolvedField} {constraint message : String} {test : Expr} {holds : Prop} [Decidable holds]
    (evaluates : ∀ found, eval p (σ.put "errors" found) test = pure (.bool (decide holds))) :
    Collects p σ [.ifThen test [Access.violation f constraint message]]
      (pure (if holds then [⟨f.storageName, constraint, message⟩] else [])) := by
  have collects : Collects p σ [.ifThen test [Access.violation f constraint message]] (do
      let b ← pure (decide holds)
      pure (if b then [⟨f.storageName, constraint, message⟩] else [])) :=
    checking.single fun found => by rw [evaluates, pure_bind]
  simpa only [pure_bind, decide_eq_true_eq] using collects

theorem eval_validated {f : ResolvedField} (member : f ∈ fields) (found : Datum L) :
    eval p (σ.put "errors" found) (validated f) = pure (values f) := by
  obtain ⟨x, entity, reads⟩ := checking.entity
  rw [validated, Source.eval_attr, Source.eval_name, readName_errors (by decide), entity, pure_bind, reads f member]

theorem required {f : ResolvedField} (member : f ∈ fields) :
    Collects p σ (requiredCheck f) (pure (missing f (values f))) := by
  unfold requiredCheck missing
  by_cases required : f.required
  · simp only [required, if_true, Bool.true_and]
    refine checking.decided fun found => ?_
    simp [checking.eval_validated member]
  · simpa [required] using Collects.nil

/-! ### Bounds on texts -/

section

variable {f : ResolvedField} {s : String} (member : f ∈ fields) (text : values f = .text s)
include member text

section

variable (len : readName p σ "len" = pure (.builtin "len"))
include len

theorem eval_length (found : Datum L) :
    eval p (σ.put "errors" found) (Expr.apply "len" [validated f]) = pure (.int s.length) := by
  have len : readName p (σ.put "errors" found) "len" = pure (.builtin "len") := by
    rw [readName_errors (by decide), len]
  rw [Source.eval_apply len (checking.eval_validated member found), text, Source.call_builtin, Source.callBuiltin]

theorem minLength (n : Int) : Collects p σ [minLengthCheck f (.int n)] (pure (if s.length < n then
    [⟨f.storageName, "minLength", s!"{f.storageName} must be at least {n} characters"⟩] else [])) := by
  refine checking.decided fun found => ?_
  simp [checking.eval_length member text len, Datum.ofValue?]

theorem maxLength (n : Int) : Collects p σ [maxLengthCheck f (.int n)] (pure (if n < s.length then
    [⟨f.storageName, "maxLength", s!"{f.storageName} must be at most {n} characters"⟩] else [])) := by
  refine checking.decided fun found => ?_
  simp [checking.eval_length member text len, Datum.ofValue?]

end

/-- The check of a pattern asks the constant that it is compiled to. -/
theorem pattern {constant pattern : String} {compiled : L.Pattern} (compiles : L.pattern? pattern = some compiled)
    (other : constant ≠ "errors") (known : readName p σ constant = pure (.pattern compiled)) :
    Collects p σ [patternCheck f constant (.text pattern)] (pure (if ¬ matchesPattern L pattern s then
      [⟨f.storageName, "pattern", s!"{f.storageName} must match pattern {pattern}"⟩] else [])) := by
  refine checking.decided fun found => ?_
  have receiver : eval p (σ.put "errors" found) (.name constant) = pure (.pattern compiled) := by
    rw [Source.eval_name, readName_errors other, known]
  have tested : eval p (σ.put "errors" found) (Expr.method (.name constant) "fullmatch" [validated f]) =
      pure (if L.fullMatch compiled s then .matched else .none) := by
    rw [Source.eval_method_one receiver (checking.eval_validated member found), text,
      Source.send_method (by simp [Datum.methods]), Source.callMethod]
  rw [Source.eval_not, tested, pure_bind, matchesPattern, compiles, Option.any_some]
  split <;> simp_all [Datum.truth]

end

/-! ### Bounds on numbers -/

omit checking in
/-- The text of a bound spells the number that the bound stands for. -/
theorem decimal?_boundText (integers : ∀ n : Int, L.decimal? (toString n) = some (L.ofInt n)) {bound : Value}
    (declared : (∃ n, bound = .int n) ∨ ∃ x, bound = .float x) : L.decimal? (boundText bound) = bound? L bound := by
  rcases declared with ⟨n, rfl⟩ | ⟨x, rfl⟩
  · exact integers n
  · rw [boundText, bound?]
    cases Number.wholeValue? x with
    | some n => exact integers n
    | none => rfl

theorem bound (integers : ∀ n : Int, L.decimal? (toString n) = some (L.ofInt n)) {f : ResolvedField} {d : L.Decimal}
    (member : f ∈ fields) (number : values f = .decimal d) (decimal : readName p σ "Decimal" = pure (.imported "Decimal"))
    {bound : Value} (declared : (∃ n, bound = .int n) ∨ ∃ x, bound = .float x) (comparison : Source.Comparison)
    (side : Ordering) (compares : ∀ a b : Datum L, comparison.holds a b = (do pure ((← Source.order a b) == side)))
    (constraint : String) (message : String → String) :
    Collects p σ [.ifThen (.compare (validated f) comparison (boundExpr bound))
        [Access.violation f constraint (message (boundText bound))]]
      (boundViolations f constraint message side d (some bound)) := by
  have evaluates : ∀ found, eval p (σ.put "errors" found) (.compare (validated f) comparison (boundExpr bound)) = (do
      let b ← (do
        let m ← .orRaise "InvalidOperation" (bound? L bound)
        let place ← .orRaise "InvalidOperation" (L.order? d m)
        pure (place == side))
      pure (.bool b)) := by
    intro found
    have cls : readName p (σ.put "errors" found) "Decimal" = pure (.imported "Decimal") := by
      rw [readName_errors (by decide), decimal]
    have bounded : eval p (σ.put "errors" found) (boundExpr bound) = (do
        let m ← .orRaise "InvalidOperation" (bound? L bound)
        pure (.decimal m)) := by
      rw [boundExpr, Source.eval_apply cls (Source.eval_text _), Source.call_imported, Source.callImported,
        decimal?_boundText integers declared]
    rw [Source.eval_compare, checking.eval_validated member, pure_bind, bounded, number]
    simp only [bind_assoc, pure_bind, compares]
    refine bind_congr fun m => ?_
    simp [Source.order, Datum.int?, Datum.number?]
  simpa [boundViolations] using checking.single evaluates

/-! ### Fields -/

/-- The checks of a present value are guarded by the test that it is present. -/
theorem guarded {f : ResolvedField} (member : f ∈ fields) {checks : List Stmt} {expected : Outcome L (List Violation)}
    (present : values f ≠ .none → Collects p σ checks expected) (absent : values f = .none → expected = pure []) :
    Collects p σ (if checks.isEmpty then [] else [.ifThen (Expr.isNotNone (validated f)) checks]) expected := by
  by_cases value : values f = .none
  · rw [absent value]
    split
    · exact .nil
    · intro found
      rw [Source.runAll_single, Source.run_ifThen, Source.eval_isNotNone, checking.eval_validated member, value]
      simp [Datum.truth, Datum.isNone]
  · have collects := present value
    cases checks with
    | nil => simpa using collects
    | cons check checks =>
      intro found
      have notNone : (values f).isNone = false := Datum.isNone_eq_false_iff.mpr value
      rw [List.isEmpty_cons, if_neg Bool.false_ne_true, Source.runAll_single, Source.run_ifThen,
        Source.eval_isNotNone, checking.eval_validated member]
      simpa [Datum.truth, notNone] using collects found

end Checking

/-- The constant of a pattern stands for what the pattern compiles to. -/
def Known (p : Program) (σ : Frame L) (q : CompiledPattern) : Prop :=
  q.constant ≠ "errors" ∧ ∃ pattern compiled, q.pattern = .text pattern ∧ L.pattern? pattern = some compiled ∧
    readName p σ q.constant = pure (.pattern compiled)

namespace Checking

variable {values : ResolvedField → Datum L} {fields : List ResolvedField} (checking : Checking p σ values fields)
  {f : ResolvedField} {c : Constraints} {taken : Option (List String)}
include checking

/-- The checks of a text record what it breaks. -/
theorem textBounds (member : f ∈ fields) (isText : f.type = .scalar .string) (applies : applicable f = some c)
    {s : String} (text : values f = .text s) (declared : Declared c)
    (known : ∀ q ∈ (boundChecks taken f c).pattern, Known p σ q) :
    Collects p σ (boundChecks taken f c).statements (pure (textViolations L f c s)) := by
  have len : c.minLength.isSome || c.maxLength.isSome → readName p σ "len" = pure (.builtin "len") := fun bounded =>
    checking.len (List.any_eq_true.mpr ⟨f, member, by simpa [measuresText, isText, applies] using bounded⟩)
  rw [boundChecks, if_pos isText] at known ⊢
  refine .append_pure (.append_pure ?_ ?_) ?_
  · cases given : c.minLength with
    | none => exact .nil
    | some v =>
      obtain ⟨n, rfl⟩ := declared.minLength v given
      exact checking.minLength member text (len (by simp [given])) n
  · cases given : c.maxLength with
    | none => exact .nil
    | some v =>
      obtain ⟨n, rfl⟩ := declared.maxLength v given
      exact checking.maxLength member text (len (by simp [given])) n
  · cases given : c.pattern with
    | none => exact .nil
    | some v =>
      obtain ⟨other, pattern, compiled, rfl, compiles, read⟩ := known _ (by rw [given]; rfl)
      exact checking.pattern member text compiles other read

/-- The checks of a number record what it breaks. -/
theorem numberBounds (integers : ∀ n : Int, L.decimal? (toString n) = some (L.ofInt n)) (member : f ∈ fields)
    (isNumber : f.type = .scalar .number) (applies : applicable f = some c) {d : L.Decimal}
    (number : values f = .decimal d) (declared : Declared c) :
    Collects p σ (boundChecks taken f c).statements (numberViolations f c d) := by
  have decimal : c.boundsNumbers → readName p σ "Decimal" = pure (.imported "Decimal") := fun bounded =>
    checking.decimal (List.any_eq_true.mpr ⟨f, member, comparesNumbers_of_bounds isNumber applies bounded⟩)
  rw [boundChecks, if_neg (by simp [isNumber]), numberViolations]
  refine Collects.append ?_ ?_
  · cases given : c.min with
    | none => exact .nil
    | some v =>
      exact checking.bound integers member number (decimal (by simp [Constraints.boundsNumbers, given]))
        (declared.min v given) .lt .lt (fun _ _ => rfl) "min" _
  · cases given : c.max with
    | none => exact .nil
    | some v =>
      exact checking.bound integers member number (decimal (by simp [Constraints.boundsNumbers, given]))
        (declared.max v given) .gt .gt (fun _ _ => rfl) "max" _

/-- The values that fields of plain texts and of numbers may have. -/
structure Suitable (values : ResolvedField → Datum L) (fields : List ResolvedField) : Prop where
  texts : ∀ f ∈ fields, f.type = .scalar .string → values f = .none ∨ ∃ s, values f = .text s
  numbers : ∀ f ∈ fields, f.type = .scalar .number → values f = .none ∨ ∃ d, values f = .decimal d

omit checking in
theorem applicable_constraints (applies : applicable f = some c) : f.field.constraints = some c := by
  unfold applicable at applies
  split at applies
  · exact applies
  · exact applies
  · cases applies

omit checking in
/-- Where no bounds apply, a value breaks none. -/
theorem valueViolations_nil (noBounds : applicable f = none) (v : Datum L) : valueViolations f v = pure [] := by
  unfold applicable at noBounds
  unfold valueViolations
  cases known : f.type <;> simp_all
  rename_i kind
  cases kind <;> simp_all

omit checking in
/-- A value that is absent breaks no bounds. -/
theorem valueViolations_none : valueViolations f (.none : Datum L) = pure [] := by
  unfold valueViolations
  split <;> simp_all

omit checking in
theorem valueViolations_text (isText : f.type = .scalar .string) (constraints : f.field.constraints = some c)
    (s : String) : valueViolations f (.text s : Datum L) = pure (textViolations L f c s) := by
  simp [valueViolations, isText, constraints]

omit checking in
theorem valueViolations_number (isNumber : f.type = .scalar .number) (constraints : f.field.constraints = some c)
    (d : L.Decimal) : valueViolations f (.decimal d : Datum L) = numberViolations f c d := by
  simp [valueViolations, isNumber, constraints]

/-- The checks of a field record what its value breaks. -/
theorem field (integers : ∀ n : Int, L.decimal? (toString n) = some (L.ofInt n)) (suitable : Suitable values fields)
    (member : f ∈ fields) (declared : ∀ c ∈ f.field.constraints, Declared c)
    (known : ∀ q ∈ (fieldChecks taken f).pattern, Known p σ q) :
    Collects p σ (fieldChecks taken f).statements (fieldViolations f (values f)) := by
  have missing : ∀ {checks : List Stmt} {broken : Outcome L (List Violation)}, Collects p σ checks broken →
      Collects p σ (requiredCheck f ++ checks) (do let broken ← broken; pure (missing f (values f) ++ broken)) := by
    intro checks broken collects
    simpa using (checking.required member).append collects
  rw [fieldChecks] at known ⊢
  rw [fieldViolations]
  cases applies : applicable f with
  | none =>
    rw [valueViolations_nil applies]
    simpa using missing .nil
  | some c =>
    rw [applies] at known
    have constraints := applicable_constraints applies
    have declared := declared c constraints
    refine missing (checking.guarded member (fun present => ?_) fun absent => by rw [absent, valueViolations_none])
    rcases applicable_type applies with isText | isNumber
    · obtain ⟨s, text⟩ := (suitable.texts f member isText).resolve_left present
      rw [text, valueViolations_text isText constraints]
      exact checking.textBounds member isText applies text declared known
    · obtain ⟨d, number⟩ := (suitable.numbers f member isNumber).resolve_left present
      rw [number, valueViolations_number isNumber constraints]
      exact checking.numberBounds integers member isNumber applies number declared

/-- The checks of all fields record, in their order, what their values break. -/
theorem all (integers : ∀ n : Int, L.decimal? (toString n) = some (L.ofInt n)) (suitable : Suitable values fields)
    (declared : ∀ f ∈ fields, ∀ c ∈ f.field.constraints, Declared c) {some : List ResolvedField} (inside : some ⊆ fields)
    {taken : List String} (known : ∀ q ∈ (allChecks taken some).filterMap (·.pattern), Known p σ q) :
    Collects p σ ((allChecks taken some).flatMap (·.statements)) (violations values some) := by
  induction some generalizing taken with
  | nil => exact .nil
  | cons f rest ih =>
    obtain ⟨member, inside⟩ := List.cons_subset.mp inside
    rw [allChecks] at known ⊢
    rw [List.flatMap_cons]
    refine .append (checking.field integers suitable member (declared f member) fun q given => ?_) (ih inside ?_)
    · exact known q (List.mem_filterMap.mpr ⟨_, List.mem_cons_self, given⟩)
    · intro q later
      obtain ⟨checks, inRest, given⟩ := List.mem_filterMap.mp later
      exact known q (List.mem_filterMap.mpr ⟨checks, List.mem_cons_of_mem _ inRest, given⟩)

end Checking

/-! ## Constants of patterns -/

theorem patternName_head (taken : List String) (identifier : String) :
    (patternName (some taken) identifier).toList.head? = some '_' := by
  have head : ∀ rest : String, ("_" ++ rest).toList.head? = some '_' := fun rest => by simp
  have chosen : patternName (some taken) identifier = Name.fresh taken s!"_{patternBase identifier}_PATTERN"
    fun n => s!"_{patternBase identifier}_{n}_PATTERN" := rfl
  rw [chosen]
  rcases Name.fresh_cases taken s!"_{patternBase identifier}_PATTERN"
    (fun n => s!"_{patternBase identifier}_{n}_PATTERN") with same | ⟨k, same⟩
  · rw [same, String.append_assoc]
    exact head _
  · rw [same, String.append_assoc, String.append_assoc, String.append_assoc]
    exact head _

theorem patternName_notMem (taken : List String) (identifier : String) :
    patternName (some taken) identifier ∉ taken := by
  refine Name.fresh_notMem fun m n same => ?_
  have plain : ∀ s : String, toString s = s := fun _ => rfl
  simp only [plain, String.append_left_inj, String.append_right_inj] at same
  exact Nat.repr_injective same

/-- The pattern of a field is the one that its constraints give, under a free name. -/
theorem fieldChecks_pattern {taken : List String} {f : ResolvedField} {q : CompiledPattern}
    (given : (fieldChecks (some taken) f).pattern = some q) :
    ∃ c, applicable f = some c ∧ c.pattern = some q.pattern ∧ q.constant = patternName (some taken) f.identifier := by
  unfold fieldChecks at given
  cases applies : applicable f with
  | none => simp [applies] at given
  | some c =>
    simp only [applies, boundChecks] at given
    split at given
    · obtain ⟨pattern, some, rfl⟩ := Option.map_eq_some_iff.mp given
      exact ⟨c, rfl, some, rfl⟩
    · cases given

def patternsIn (taken : List String) (fields : List ResolvedField) : List CompiledPattern :=
  (allChecks taken fields).filterMap (·.pattern)

theorem patternsIn_cons (taken : List String) (f : ResolvedField) (rest : List ResolvedField) :
    patternsIn taken (f :: rest) = (fieldChecks (some taken) f).pattern.toList ++
      patternsIn ((fieldChecks (some taken) f).taken taken) rest := by
  rw [patternsIn, allChecks, List.filterMap_cons]
  cases (fieldChecks (some taken) f).pattern <;> rfl

/-- Different patterns have different constants, none of which is taken before. -/
theorem patternsIn_constants (taken : List String) (fields : List ResolvedField) :
    ((patternsIn taken fields).map (·.constant)).Nodup ∧
      ∀ q ∈ patternsIn taken fields, q.constant ∉ taken ∧ q.constant.toList.head? = some '_' := by
  induction fields generalizing taken with
  | nil => simp [patternsIn, allChecks]
  | cons f rest ih =>
    rw [patternsIn_cons]
    obtain ⟨nodup, fresh⟩ := ih ((fieldChecks (some taken) f).taken taken)
    cases given : (fieldChecks (some taken) f).pattern with
    | none =>
      rw [Checks.taken, given] at nodup fresh ⊢
      exact ⟨nodup, fresh⟩
    | some q =>
      obtain ⟨c, -, -, constant⟩ := fieldChecks_pattern given
      rw [Checks.taken, given] at nodup fresh ⊢
      refine ⟨List.nodup_cons.mpr ⟨fun again => ?_, nodup⟩, List.forall_mem_cons.mpr ⟨?_, fun r member => ?_⟩⟩
      · obtain ⟨r, member, same⟩ := List.mem_map.mp again
        exact (fresh r member).1 (by simp [same])
      · rw [constant]
        exact ⟨patternName_notMem taken f.identifier, patternName_head taken f.identifier⟩
      · exact ⟨fun old => (fresh r member).1 (List.mem_append_right _ old), (fresh r member).2⟩

theorem run_pattern {q : CompiledPattern} {s : String} (text : q.pattern = .text s)
    (re : readName p σ "re" = pure (.imported "re")) : run p σ q.stmt = (do
      let compiled ← .orRaise "error" (L.pattern? s)
      pure (.next (σ.put q.constant (.pattern compiled)))) := by
  have receiver : eval p σ (.name "re") = pure (.imported "re") := by
    rw [Source.eval_name, re]
  have argument : eval p σ (.constant q.pattern) = pure (.text s) := by
    rw [text, Source.eval_constant, Datum.ofValue?, Outcome.given_some]
  rw [CompiledPattern.stmt, Source.run_bind, Source.eval_method_one receiver argument,
    Source.send_method (by simp [Datum.methods])]
  simp [Source.callMethod]

/-- Patterns that a module compiles stand in their constants afterwards, and other names keep their meaning. -/
theorem run_patterns {qs : List CompiledPattern} (nodup : (qs.map (·.constant)).Nodup)
    (heads : ∀ q ∈ qs, q.constant.toList.head? = some '_')
    (compile : ∀ q ∈ qs, ∃ s compiled, q.pattern = .text s ∧ L.pattern? s = some compiled)
    (re : qs ≠ [] → readName p σ "re" = pure (.imported "re")) :
    ∃ σ', runAll p σ (qs.map CompiledPattern.stmt) = pure (.next σ') ∧
      (∀ q ∈ qs, ∃ s compiled, q.pattern = .text s ∧ L.pattern? s = some compiled ∧
        σ'.locals q.constant = some (.pattern compiled)) ∧
      ∀ name, name ∉ qs.map (·.constant) → readName p σ' name = readName p σ name ∧
        σ'.locals name = σ.locals name := by
  induction qs generalizing σ with
  | nil => exact ⟨σ, by simp⟩
  | cons q rest ih =>
    obtain ⟨fresh, nodup⟩ := List.nodup_cons.mp nodup
    obtain ⟨s, compiled, text, compiles⟩ := compile q List.mem_cons_self
    -- a constant starts with an underscore, so `re` stays what it is
    have re' : readName p (σ.put q.constant (.pattern compiled)) "re" = pure (.imported "re") := by
      have other : "re" ≠ q.constant := by
        intro same
        have underscore := heads q List.mem_cons_self
        rw [← same] at underscore
        exact absurd underscore (by decide)
      rw [Source.readName_put, if_neg other, re (by simp)]
    obtain ⟨σ', loaded, compiledRest, kept⟩ := ih nodup (fun r member => heads r (List.mem_cons_of_mem _ member))
      (fun r member => compile r (List.mem_cons_of_mem _ member)) (fun _ => re')
    refine ⟨σ', ?_, List.forall_mem_cons.mpr ⟨⟨s, compiled, text, compiles, ?_⟩, compiledRest⟩, fun name other => ?_⟩
    · rw [List.map_cons, Source.runAll_cons, run_pattern text (re (by simp)), compiles]
      simp only [Outcome.orRaise_some, pure_bind]
      exact loaded
    · rw [(kept q.constant fresh).2]
      simp
    · rw [List.map_cons, List.mem_cons, not_or] at other
      obtain ⟨notFirst, notRest⟩ := other
      obtain ⟨reads, locals⟩ := kept name notRest
      exact ⟨by rw [reads, Source.readName_put, if_neg notFirst], by rw [locals]; simp [notFirst]⟩

/-! ## Validators -/

/-- The names that a validator reads mean what they are written for, where it reads them. -/
structure ValidatorNames (p : Program) (σ : Frame L) (e : Entity) : Prop where
  len : e.record.fields.any measuresText → readName p σ "len" = pure (.builtin "len")
  re : patternsOf e ≠ [] → readName p σ "re" = pure (.imported "re")
  decimal : e.record.fields.any comparesNumbers → readName p σ "Decimal" = pure (.imported "Decimal")
  violation : checksOf e ≠ [] → readName p σ violationClass = pure (.cls [violationClass])
  error : checksOf e ≠ [] → readName p σ validationErrorClass = pure (.cls [validationErrorClass])

/-- The names that a validator reads and that its entity, which is imported after them, can take. -/
def validatorReads (e : Entity) : List String :=
  (if e.record.fields.any measuresText then ["len"] else []) ++ (if (patternsOf e).isEmpty then [] else ["re"])
    ++ (if e.record.fields.any comparesNumbers then ["Decimal"] else [])

theorem mem_validatorReads {e : Entity} {name : String} : name ∈ validatorReads e ↔
    e.record.fields.any measuresText ∧ name = "len" ∨ patternsOf e ≠ [] ∧ name = "re" ∨
      e.record.fields.any comparesNumbers ∧ name = "Decimal" := by
  rw [validatorReads, List.mem_append, List.mem_append, or_assoc]
  refine or_congr ?_ (or_congr ?_ ?_) <;> split <;> simp_all

theorem ne_validatorClass {name : String} (other : ¬ "Validator".toList <:+ name.toList) (entityName : String) :
    name ≠ validatorClass entityName := by
  rintro rfl
  refine other ?_
  rw [validatorClass, String.toList_append]
  exact List.suffix_append _ _

section

variable {e : Entity} {name : String}

/-- The imports of a validator module bind the names that the body reads; its patterns and its class do not. -/
theorem bindings_validatorModule (read : name ∈ ["len", "re", "Decimal", violationClass, validationErrorClass]) :
    bindings name (validatorModule e).value.body =
      bindings name (if (patternsOf e).isEmpty then [] else [.importModule "re"])
      ++ bindings name (if e.record.fields.any comparesNumbers then [.importFrom "decimal" ["Decimal"]] else [])
      ++ bindings name (if (checksOf e).isEmpty then [] else [.importFrom "typing" ["List"]])
      ++ (if name = e.name then [.importFrom (".." ++ Name.snakeCase e.name) [e.name]] else [])
      ++ bindings name (if (checksOf e).isEmpty then []
        else [.importFrom ("." ++ validationErrorModule) [violationClass, validationErrorClass]]) := by
  have facts : ∀ name ∈ ["len", "re", "Decimal", violationClass, validationErrorClass],
      name.toList.head? ≠ some '_' ∧ ¬ "Validator".toList <:+ name.toList := by decide
  obtain ⟨head, tail⟩ := facts name read
  have patterns : bindings name ((patternsOf e).map CompiledPattern.stmt) = [] := by
    refine Source.bindings_eq_nil (List.forall_mem_map.mpr fun q member taken => ?_)
    obtain rfl := List.mem_singleton.mp taken
    exact head ((patternsIn_constants [] e.record.fields).2 q member).2
  have helper : bindings name [validatorHelper e (checksOf e)] = [] :=
    Source.bindings_eq_nil (by simpa [Stmt.binds, validatorHelper] using ne_validatorClass tail e.name)
  have entity : bindings name [.importFrom (".." ++ Name.snakeCase e.name) [e.name]] =
      if name = e.name then [.importFrom (".." ++ Name.snakeCase e.name) [e.name]] else [] := by
    by_cases same : name = e.name
    · simp [bindings, Stmt.binds, same]
    · simp [bindings, Stmt.binds, same]
  rw [validatorModule_body]
  simp only [Source.bindings_append, entity, patterns, helper, List.append_nil]

theorem firstPart_re : Source.firstPart "re" = "re" := by decide

/-- A name that the entity takes stands for the entity, which is imported last. -/
theorem readName_captured (read : e.name ∈ ["len", "re", "Decimal"]) :
    readName p (.top (validatorModule e).value.body : Frame L) e.name = pure (.cls [e.name]) := by
  have others : ∀ name ∈ ["len", "re", "Decimal"], name ∉ [violationClass, validationErrorClass] := by decide
  have last : (bindings e.name (validatorModule e).value.body).getLast? =
      some (.importFrom (".." ++ Name.snakeCase e.name) [e.name]) := by
    rw [bindings_validatorModule (List.mem_append_left [violationClass, validationErrorClass] read), if_pos rfl]
    have violations : bindings e.name (if (checksOf e).isEmpty then []
        else [.importFrom ("." ++ validationErrorModule) [violationClass, validationErrorClass]]) = [] := by
      split
      · rfl
      · exact Source.bindings_eq_nil (List.forall_mem_singleton.mpr (others _ read))
    rw [violations, List.append_nil, List.getLast?_concat]
  rw [readName]
  simp [Frame.top, last]

end

/-- At the top level of its module, a validator finds what it reads if and only if the entity has no name of that. -/
theorem validatorModule_names (e : Entity) : ValidatorNames p (.top (validatorModule e).value.body : Frame L) e ↔
    e.name ∉ validatorReads e := by
  constructor
  · intro names taken
    -- the entity is a class, and what the body means is none
    have entity {name : String} (same : e.name = name) (read : name ∈ ["len", "re", "Decimal"]) :
        readName p (.top (validatorModule e).value.body : Frame L) name = pure (.cls [name]) := by
      subst same
      exact readName_captured read
    rcases mem_validatorReads.mp taken with ⟨some, same⟩ | ⟨some, same⟩ | ⟨some, same⟩
    · exact nomatch Outcome.pure_inj ((names.len some).symm.trans (entity same (by decide)))
    · exact nomatch Outcome.pure_inj ((names.re some).symm.trans (entity same (by decide)))
    · exact nomatch Outcome.pure_inj ((names.decimal some).symm.trans (entity same (by decide)))
  · intro free
    have other {name : String} (read : name ∈ validatorReads e) : name ≠ e.name := fun same => free (same ▸ read)
    refine ⟨fun some => ?_, fun some => ?_, fun some => ?_, fun some => ?_, fun some => ?_⟩
    · have found : bindings "len" (validatorModule e).value.body = [] := by
        rw [bindings_validatorModule (by simp), if_neg (other (mem_validatorReads.mpr (.inl ⟨some, rfl⟩)))]
        split <;> split <;> split <;>
          simp [bindings, firstPart_re, Stmt.binds, violationClass, validationErrorClass]
      rw [readName]
      simp [Frame.top, found, Source.builtins]
    · have found : (bindings "re" (validatorModule e).value.body).getLast? = .some (.importModule "re") := by
        rw [bindings_validatorModule (by simp), if_neg (other (mem_validatorReads.mpr (.inr (.inl ⟨some, rfl⟩)))),
          if_neg (by simpa using some)]
        split <;> split <;> simp [bindings, firstPart_re, Stmt.binds, violationClass, validationErrorClass]
      rw [readName]
      simp [Frame.top, found]
    · have found : (bindings "Decimal" (validatorModule e).value.body).getLast? =
          .some (.importFrom "decimal" ["Decimal"]) := by
        rw [bindings_validatorModule (by simp), if_neg (other (mem_validatorReads.mpr (.inr (.inr ⟨some, rfl⟩)))),
          if_pos some]
        split <;> split <;> simp [bindings, firstPart_re, Stmt.binds, violationClass, validationErrorClass]
      rw [readName]
      simp [Frame.top, found]
    -- the errors are imported after the entity
    all_goals
      have errors : ∀ name ∈ [violationClass, validationErrorClass],
          (bindings name (validatorModule e).value.body).getLast? =
            .some (.importFrom ("." ++ validationErrorModule) [violationClass, validationErrorClass]) := by
        intro name listed
        have binds : bindings name [.importFrom ("." ++ validationErrorModule) [violationClass, validationErrorClass]] =
            [.importFrom ("." ++ validationErrorModule) [violationClass, validationErrorClass]] := by
          rcases List.mem_pair.mp listed with rfl | rfl <;> rfl
        rw [bindings_validatorModule (List.mem_of_mem_drop (i := 3) listed), List.isEmpty_eq_false_iff.mpr some,
          if_neg Bool.false_ne_true, if_neg Bool.false_ne_true, binds, List.getLast?_concat]
      rw [readName]
      simp [Frame.top, errors]

theorem patterns_texts {taken : List String} {fields : List ResolvedField}
    (declared : ∀ f ∈ fields, ∀ c ∈ f.field.constraints, Declared c) :
    ∀ q ∈ patternsIn taken fields, ∃ s, q.pattern = .text s := by
  induction fields generalizing taken with
  | nil => simp [patternsIn, allChecks]
  | cons f rest ih =>
    rw [patternsIn_cons]
    refine List.forall_mem_append.mpr ⟨fun q given => ?_, ih fun g member => declared g (List.mem_cons_of_mem _ member)⟩
    obtain ⟨c, applies, pattern⟩ := fieldChecks_pattern (Option.mem_toList.mp given)
    exact (declared f List.mem_cons_self c (Checking.applicable_constraints applies)).pattern _ pattern.1

/-- A validator that compiles its patterns in some scope, and for all values of the fields of an entity then raises the
error that lists exactly their violations, in the order of the fields, if there are any. -/
def Reports (p : Program) (σ : Frame L) (e : Entity) : Prop :=
  ∃ σ', runAll p σ ((patternsOf e).map CompiledPattern.stmt) = pure (.next σ') ∧
    ∀ (x : Datum L) (values : ResolvedField → Datum L),
      (∀ f ∈ e.record.fields, getAttribute p x f.identifier = pure (values f)) →
      Checking.Suitable values e.record.fields →
      (do
        let flow ← runAll p (σ'.put "entity" x) (validateBody e.name (checksOf e))
        pure flow.returned) = (do
        let found ← violations values e.record.fields
        if found = [] then pure .none else throw (validationError e.name found))

/-- Where names mean what they are written for, the body of a validator reports the violations. -/
theorem ValidatorNames.reports {e : Entity} (names : ValidatorNames p σ e) (errors : HasErrors p)
    (integers : ∀ n : Int, L.decimal? (toString n) = some (L.ofInt n))
    (declared : ∀ f ∈ e.record.fields, ∀ c ∈ f.field.constraints, Declared c)
    (compile : ∀ q ∈ patternsOf e, ∀ s, q.pattern = .text s → (L.pattern? s).isSome) : Reports p σ e := by
  have constants := patternsIn_constants [] e.record.fields
  obtain ⟨σ', loaded, compiled, kept⟩ := run_patterns constants.1 (fun q member => (constants.2 q member).2)
    (fun q member => by
      obtain ⟨s, text⟩ := patterns_texts declared q member
      obtain ⟨pattern, compiles⟩ := Option.isSome_iff_exists.mp (compile q member s text)
      exact ⟨s, pattern, text, compiles⟩) names.re
  refine ⟨σ', loaded, fun x values reads suitable => ?_⟩
  -- no pattern takes a name that the body reads
  have kept : ∀ {name}, name.toList.head? ≠ some '_' → name ≠ "entity" →
      readName p (σ'.put "entity" x) name = readName p σ name := by
    intro name plain other
    rw [Source.readName_put, if_neg other]
    refine (kept name fun constant => ?_).1
    obtain ⟨q, member, rfl⟩ := List.mem_map.mp constant
    exact plain (constants.2 q member).2
  have entity : readName p (σ'.put "entity" x) "entity" = pure x := Source.readName_local (by simp)
  have collects : ∀ τ : Frame L, readName p τ violationClass = pure (.cls [violationClass]) →
      (∀ name, name ≠ violationClass → readName p τ name = readName p (σ'.put "entity" x) name) →
      Collects p τ (checksOf e) (violations values e.record.fields) := by
    intro τ violation same
    have checking : Checking p τ values e.record.fields := by
      refine ⟨errors, ⟨x, by rw [same _ (by decide), entity], reads⟩, fun measures => ?_, fun compares => ?_, violation⟩
      · rw [same _ (by decide), kept (by decide) (by decide), names.len measures]
      · rw [same _ (by decide), kept (by decide) (by decide), names.decimal compares]
    refine checking.all integers suitable declared (List.Subset.refl _) fun q member => ?_
    obtain ⟨s, pattern, text, compiles, bound⟩ := compiled q member
    have other : ∀ {name : String}, name.toList.head? ≠ some '_' → q.constant ≠ name := by
      rintro name plain rfl
      exact plain (constants.2 q member).2
    refine ⟨other (by decide), s, pattern, text, compiles, ?_⟩
    rw [same _ (other (by decide)), Source.readName_put, if_neg (other (by decide)), Source.readName_local bound]
  rw [validateBody]
  by_cases noChecks : checksOf e = []
  · -- the class of violations is not imported then; in a scope that has it, no checks find no violations
    have nothing : violations values e.record.fields = pure [] := by
      refine Collects.of_nil (noChecks ▸ collects ((σ'.put "entity" x).put violationClass (.cls [violationClass])) ?_ ?_)
      · exact Source.readName_local (by simp)
      · intro name other
        rw [Source.readName_put, if_neg other]
    simp [noChecks, nothing, Source.runAll_single, Flow.returned]
  · have collected := collects (σ'.put "entity" x)
      (by rw [kept (by decide) (by decide), names.violation noChecks]) (fun _ _ => rfl) []
    have start : run p (σ'.put "entity" x) (.annotated "errors" (Expr.generic "List" [.name violationClass])
        (some (.list []))) = pure (.next ((σ'.put "entity" x).put "errors" (.list []))) := by
      simp
    rw [if_neg (by simpa using noChecks), List.cons_append, Source.runAll_next start, Source.runAll_append, collected]
    simp only [bind_assoc, pure_bind]
    refine bind_congr fun found => ?_
    have held : readName p ((σ'.put "entity" x).put "errors" (.list (found.map Violation.datum))) "errors" =
        pure (.list (found.map Violation.datum)) := Source.readName_local (by simp)
    rw [List.nil_append, Source.runAll_single, Source.run_ifThen, Source.eval_name, held, pure_bind]
    by_cases none : found = []
    · simp [none, Datum.truth, Flow.returned]
    · have cls : readName p ((σ'.put "entity" x).put "errors" (.list (found.map Violation.datum)))
          validationErrorClass = pure (.cls [validationErrorClass]) := by
        rw [Source.readName_put, if_neg (by decide), kept (by decide) (by decide), names.error noChecks]
      have made : eval p ((σ'.put "entity" x).put "errors" (.list (found.map Violation.datum)))
          (Expr.apply validationErrorClass [Expr.text e.name, .name "errors"]) =
          pure (validationError e.name found) := by
        simp [Expr.apply, cls, held, errors.call_error]
      have full : (Datum.list (found.map Violation.datum) : Datum L).truth = true := by
        simpa [Datum.truth] using none
      rw [full, if_pos rfl, if_neg none, Source.runAll_single, Source.run_raise, made, pure_bind]
      rfl

/-! ### Patterns that are not compiled -/

/-- The class of a record compiles nothing: what it calls so is at most a property. -/
theorem getAttribute_compile_ne {enums : List EnumType} {r : Record}
    (emitted : p.module? r.name = some (recordModule enums r).value) (distinct : (r.fields.map (·.identifier)).Nodup)
    (d : Datum L) : getAttribute p (.cls [r.name]) "compile" ≠ pure d := by
  have noEnum : (recordCls enums r).isEnum = false := rfl
  rw [getAttribute, class_recordCls emitted]
  by_cases field : "compile" ∈ r.fields.map (·.identifier)
  · obtain ⟨f, member, same⟩ := List.mem_map.mp field
    have both : bindings "compile" (recordCls enums r).body = property r f := by
      rw [recordCls, bindings_recordBody (by decide), ← same, bindings_properties distinct member]
    have found : (recordCls enums r).member? "compile" = some (.property (getterOf f) (some (setterOf f))) :=
      (ClassDef.member?_two both).trans (by simp [Stmt.member, getterOf, setterOf])
    simp only [noEnum, found]
    intro same
    cases same
  · have unbound : bindings "compile" (recordCls enums r).body = [] := by
      rw [recordCls, bindings_recordBody (by decide), bindings_properties_none field]
    have none : (recordCls enums r).member? "compile" = none := by
      rw [ClassDef.member?, unbound]
      rfl
    simp only [noEnum, none]
    exact Outcome.throw_ne_pure _ _

/-- An entity that is called like the module of patterns takes its place, and its validator is not loaded. -/
theorem not_reports_of_re {e : Entity} (named : e.name = "re") (patterns : patternsOf e ≠ [])
    (emitted : p.module? e.name = some (recordModule e.enums e.record).value)
    (distinct : (e.record.fields.map (·.identifier)).Nodup) :
    ¬ Reports p (.top (validatorModule e).value.body : Frame L) e := by
  rintro ⟨σ', loaded, -⟩
  have entity : readName p (.top (validatorModule e).value.body : Frame L) "re" = pure (.cls [e.name]) := by
    rw [← named]
    exact readName_captured (by simp [named])
  -- the first pattern asks the class of the entity to compile it
  obtain ⟨q, rest, first⟩ := List.exists_cons_of_ne_nil patterns
  rw [first, List.map_cons, Source.runAll_cons] at loaded
  obtain ⟨_, bound, -⟩ := Outcome.bind_eq_pure loaded
  rw [CompiledPattern.stmt, Source.run_bind] at bound
  obtain ⟨_, called, -⟩ := Outcome.bind_eq_pure bound
  rw [Expr.method, Source.eval_call, Source.eval_attr, Source.eval_name, entity, pure_bind] at called
  obtain ⟨f, found, -⟩ := Outcome.bind_eq_pure called
  exact getAttribute_compile_ne emitted distinct f found

/-- In its module, a validator reports exactly the violations, unless its entity has the name of a function or a class that
it reads. Where the entity has that of the module of patterns, the validator of a pattern is not even loaded. -/
theorem validateBody_reports (e : Entity) (errors : HasErrors p)
    (integers : ∀ n : Int, L.decimal? (toString n) = some (L.ofInt n))
    (declared : ∀ f ∈ e.record.fields, ∀ c ∈ f.field.constraints, Declared c)
    (compile : ∀ q ∈ patternsOf e, ∀ s, q.pattern = .text s → (L.pattern? s).isSome) :
    (e.name ∉ validatorReads e → Reports p (.top (validatorModule e).value.body : Frame L) e) ∧
    (e.name = "re" → patternsOf e ≠ [] → p.module? e.name = some (recordModule e.enums e.record).value →
      (e.record.fields.map (·.identifier)).Nodup → ¬ Reports p (.top (validatorModule e).value.body : Frame L) e) :=
  ⟨fun free => ((validatorModule_names e).mpr free).reports errors integers declared compile, not_reports_of_re⟩

def assigned (fields : List ResolvedField) (values : ResolvedField → Datum L) : Datum L :=
  .object [] (fields.map fun f => (f.identifier, values f))

/-- Where the fields have different identifiers, every assignment of values to them can be read from an
entity. -/
theorem getAttribute_assigned {fields : List ResolvedField} (distinct : (fields.map (·.identifier)).Nodup)
    (values : ResolvedField → Datum L) :
    ∀ f ∈ fields, getAttribute p (assigned fields values) f.identifier = pure (values f) := by
  intro f member
  refine Source.getAttribute_plain ?_ fun c cls => nomatch cls
  induction fields with
  | nil => cases member
  | cons first rest ih =>
    obtain ⟨fresh, distinct⟩ := List.nodup_cons.mp distinct
    rw [List.map_cons, Datum.lookup_cons_ite]
    rcases List.mem_cons.mp member with rfl | member
    · rw [if_pos rfl]
    · rw [if_neg, ih distinct member]
      intro same
      exact fresh (List.mem_map.mpr ⟨f, member, same⟩)

def errorsProgram : Program :=
  ⟨fun name => if name = violationClass ∨ name = validationErrorClass then some validationErrorSource else none⟩

/-- A wrong name, a negative amount, and nothing else. -/
def wrongOrder (f : ResolvedField) : Datum Library.plain :=
  if f.identifier = "orderId" then .text "7" else if f.identifier = "total" then .decimal (-3 : Int) else .none

/-- An order without time, with a wrong name and a negative amount breaks three bounds. -/
theorem shopOrder_reports : ∃ e, (describe shopOrder).value = .ok e ∧
    ∃ σ', runAll errorsProgram (.top (validatorModule e).value.body) ((patternsOf e).map CompiledPattern.stmt) =
        pure (.next σ') ∧
      (do
        let flow ← runAll errorsProgram (σ'.put "entity" (assigned e.record.fields wrongOrder))
          (validateBody e.name (checksOf e))
        pure flow.returned) = (throw (validationError "Order"
          [⟨"order-id", "pattern", "order-id must match pattern [a-z]+"⟩,
           ⟨"placed-at", "required", "placed-at is required"⟩,
           ⟨"total", "min", "total must be >= 0"⟩]) : Outcome Library.plain (Datum Library.plain)) := by
  have accepted : (describe shopOrder).value.isOk := by decide +kernel
  cases outcome : (describe shopOrder).value with
  | error shared => simp [outcome, Except.isOk, Except.toBool] at accepted
  | ok e =>
    have fields : e.record.fields = (mapFields "Order" shopOrder.fields).1 := (describe_ok outcome).fields
    have name : e.name = "Order" := (describe_ok outcome).name
    have found : violations wrongOrder e.record.fields = pure
        [⟨"order-id", "pattern", "order-id must match pattern [a-z]+"⟩,
         ⟨"placed-at", "required", "placed-at is required"⟩, ⟨"total", "min", "total must be >= 0"⟩] := by
      rw [fields]
      rfl
    have typed : ∀ f ∈ e.record.fields, (f.identifier, f.type) ∈
        ([("orderId", .scalar .string), ("placedAt", .scalar .timestamp), ("state", .enum "OrderState"),
          ("total", .scalar .number), ("lines", .list (.record "OrderLinesItem"))] : List (String × TypeRef)) := by
      rw [fields]
      decide +kernel
    have declared : ∀ f ∈ e.record.fields, ∀ c ∈ f.field.constraints, Declared c := by
      rw [fields, mapFields_fields, List.forall_mem_map]
      have bounds : ∀ f ∈ shopOrder.fields, f.constraints = none ∨
          f.constraints = some ⟨some (.int 1), none, some (.text "[a-z]+"), none, none⟩ ∨
          f.constraints = some ⟨none, none, none, some (.int 0), none⟩ := by
        simp [shopOrder, bareField]
      intro f member c given
      rcases bounds f member with absent | text | number
      · simp [absent] at given
      · obtain rfl := Option.some.inj (text.symm.trans given)
        constructor <;> simp
      · obtain rfl := Option.some.inj (number.symm.trans given)
        constructor <;> simp
    have suitable : Checking.Suitable wrongOrder e.record.fields := by
      refine ⟨fun f member isText => ?_, fun f member isNumber => ?_⟩
      · have listed := typed f member
        simp [isText] at listed
        simp [wrongOrder, listed]
      · have listed := typed f member
        simp [isNumber] at listed
        exact .inr ⟨(-3 : Int), by simp [wrongOrder, listed]⟩
    have distinct : (e.record.fields.map (·.identifier)).Nodup := by
      rw [fields]
      decide +kernel
    have free : e.name ∉ validatorReads e := by
      rw [mem_validatorReads, name]
      simp
    have patterns : patternsOf e = [⟨"_ORDER_ID_PATTERN", .text "[a-z]+"⟩] := by
      rw [patternsOf, fields]
      rfl
    have compile : ∀ q ∈ patternsOf e, ∀ s, q.pattern = .text s → (Library.plain.pattern? s).isSome := by
      rw [patterns]
      refine List.forall_mem_singleton.mpr fun s text => ?_
      obtain rfl := Value.text.inj text
      rfl
    have errors : HasErrors errorsProgram := ⟨rfl, rfl⟩
    obtain ⟨σ', loaded, reports⟩ := (validateBody_reports e errors Int.toInt?_repr declared compile).1 free
    refine ⟨e, rfl, σ', loaded, ?_⟩
    rw [reports _ wrongOrder (getAttribute_assigned distinct wrongOrder) suitable, found, name]
    rfl

/-- An entity that is called like the module of patterns, and a field with a pattern. -/
def reArticle : Schema :=
  { shopOrder with
    entityName := some "re"
    primaryKey := ⟨"sku", none⟩
    fields := [{ bareField "sku" "string" with constraints := some ⟨none, none, some (.text "[a-z]+"), none, none⟩ }] }

theorem reArticle_unreported : ¬ ∀ (s : Schema) (e : Entity) (p : Program), checkCollisions s = .ok () →
    (describe s).value = .ok e → checkTypeNames [e] = .ok () → HasErrors p →
      p.module? e.name = some (recordModule e.enums e.record).value →
      (∀ f ∈ e.record.fields, ∀ c ∈ f.field.constraints, Declared c) →
      (∀ q ∈ patternsOf e, ∀ s, q.pattern = .text s → (Library.plain.pattern? s).isSome) →
        Reports p (.top (validatorModule e).value.body : Frame Library.plain) e := by
  intro always
  -- the name is none of those that the check knows, so it is accepted
  obtain ⟨e, described, checked⟩ := exists_described (s := reArticle) (P := fun e =>
    decide (e.name = "re") && (checkTypeNames [e]).isOk) (by decide +kernel)
  rw [Bool.and_eq_true] at checked
  have named : e.name = "re" := of_decide_eq_true checked.1
  obtain ⟨⟨⟩, typesChecked⟩ := exists_ok_of_isOk checked.2
  have collisions : checkCollisions reArticle = .ok () := checkCollisions_ok.mpr (by decide +kernel)
  have fields : e.record.fields = [⟨reArticle.fields[0], "sku", .scalar .string⟩] := by
    rw [(describe_ok described).fields]
    rfl
  have patterns : patternsOf e = [⟨"_SKU_PATTERN", .text "[a-z]+"⟩] := by
    rw [patternsOf, fields]
    rfl
  let p : Program := ⟨fun name =>
    if name = "re" then some (recordModule e.enums e.record).value else errorsProgram.module? name⟩
  have emitted : p.module? e.name = some (recordModule e.enums e.record).value := if_pos named
  have declared : ∀ f ∈ e.record.fields, ∀ c ∈ f.field.constraints, Declared c := by
    rw [fields]
    refine List.forall_mem_singleton.mpr fun c given => ?_
    obtain rfl := Option.some.inj given
    constructor <;> simp
  have compile : ∀ q ∈ patternsOf e, ∀ s, q.pattern = .text s → (Library.plain.pattern? s).isSome := by
    rw [patterns]
    refine List.forall_mem_singleton.mpr fun s text => ?_
    obtain rfl := Value.text.inj text
    rfl
  have reports := always _ e p collisions described typesChecked ⟨rfl, rfl⟩ emitted declared compile
  refine not_reports_of_re named ?_ emitted ?_ reports
  · rw [patterns]
    exact List.cons_ne_nil _ _
  · rw [fields]
    exact List.nodup_singleton _

end Tablewright.Access
