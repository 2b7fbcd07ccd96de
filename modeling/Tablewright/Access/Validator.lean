import Tablewright.Access.Conversion
import Tablewright.Access.Layout

/-!
# Validators

The module that checks an entity against its schema, and the error types that all validators share.

* `fieldChecks`: the statements that check one field, and the pattern they compile.
* `validatorModule`: the validator of an entity; it collects every violation before it raises.
* `validationErrorSource`: the shared error types.
-/

namespace Tablewright.Access

open Source (Expr Stmt Param Part Keyword Module noResult)

/-! ## Bounds -/

/-- The text of a bound: a whole double is written as an integer. -/
def boundText : Value → String
  | .float x =>
    match Number.wholeValue? x with
    | some n => toString n
    | none => Value.floatText x
  | v => v.display

/-- The wished name of the constant that holds the pattern of a field. -/
def patternBase (identifier : String) : String :=
  String.ofList ((Name.constantCase identifier).toList.dropWhile (· == '_'))

/-- The name of the constant that holds the pattern of a field. Different identifiers can wish for one name;
where the taken names are known, the name is numbered from two on until it is free. -/
def patternName (taken : Option (List String)) (identifier : String) : String :=
  let base := patternBase identifier
  match taken with
  | none => s!"_{base}_PATTERN"
  | some taken => Name.fresh taken s!"_{base}_PATTERN" fun n => s!"_{base}_{n}_PATTERN"

/-- The bounds that apply to a field: texts and numbers have some, collections and enums only have to be
present. -/
def applicable (f : ResolvedField) : Option Constraints :=
  match f.type with
  | .scalar .string | .scalar .number => f.field.constraints
  | _ => none

/-! ## Checks -/

/-- The value of a field of the entity that is validated. -/
def validated (f : ResolvedField) : Expr := .attr (.name "entity") f.identifier

def violation (f : ResolvedField) (constraint message : String) : Stmt :=
  .expr (Expr.method (.name "errors") "append" [Expr.apply violationClass
    [Expr.text f.storageName, Expr.text constraint, Expr.text message]])

def requiredCheck (f : ResolvedField) : List Stmt :=
  if f.required then
    [.ifThen (Expr.isNone (validated f)) [violation f "required" s!"{f.storageName} is required"]]
  else []

/-- The check of the least length of a text. -/
def minLengthCheck (f : ResolvedField) (bound : Value) : Stmt :=
  .ifThen (.compare (Expr.apply "len" [validated f]) .lt (.constant bound))
    [violation f "minLength" s!"{f.storageName} must be at least {bound.display} characters"]

/-- The check of the greatest length of a text. -/
def maxLengthCheck (f : ResolvedField) (bound : Value) : Stmt :=
  .ifThen (.compare (Expr.apply "len" [validated f]) .gt (.constant bound))
    [violation f "maxLength" s!"{f.storageName} must be at most {bound.display} characters"]

/-- The check that the whole of a text matches the pattern in a constant. -/
def patternCheck (f : ResolvedField) (constant : String) (pattern : Value) : Stmt :=
  .ifThen (.not (Expr.method (.name constant) "fullmatch" [validated f]))
    [violation f "pattern" s!"{f.storageName} must match pattern {pattern.display}"]

def boundExpr (bound : Value) : Expr := Expr.apply "Decimal" [Expr.text (boundText bound)]

/-- The check of the least value of a number. -/
def minCheck (f : ResolvedField) (bound : Value) : Stmt :=
  .ifThen (.compare (validated f) .lt (boundExpr bound))
    [violation f "min" s!"{f.storageName} must be >= {boundText bound}"]

/-- The check of the greatest value of a number. -/
def maxCheck (f : ResolvedField) (bound : Value) : Stmt :=
  .ifThen (.compare (validated f) .gt (boundExpr bound))
    [violation f "max" s!"{f.storageName} must be <= {boundText bound}"]

/-- A compiled pattern: the constant and the expression it is compiled from. -/
structure CompiledPattern where
  constant : String
  pattern : Value

def CompiledPattern.stmt (p : CompiledPattern) : Stmt :=
  Stmt.bind p.constant (Expr.method (.name "re") "compile" [.constant p.pattern])

/-- The statements that check one field. -/
structure Checks where
  statements : List Stmt
  pattern : Option CompiledPattern

def boundChecks (taken : Option (List String)) (f : ResolvedField) (c : Constraints) : Checks :=
  if f.type = .scalar .string then
    let pattern := c.pattern.map fun p => CompiledPattern.mk (patternName taken f.identifier) p
    ⟨(c.minLength.map (minLengthCheck f)).toList ++ (c.maxLength.map (maxLengthCheck f)).toList
        ++ (pattern.map fun p => patternCheck f p.constant p.pattern).toList, pattern⟩
  else ⟨(c.min.map (minCheck f)).toList ++ (c.max.map (maxCheck f)).toList, none⟩

/-- The checks of a field. -/
def fieldChecks (taken : Option (List String)) (f : ResolvedField) : Checks :=
  match applicable f with
  | none => ⟨requiredCheck f, none⟩
  | some c =>
    let checks := boundChecks taken f c
    ⟨requiredCheck f
        ++ (if checks.statements.isEmpty then []
          else [.ifThen (Expr.isNotNone (validated f)) checks.statements]),
      checks.pattern⟩

/-- The names that are taken after the checks of a field. -/
def Checks.taken (c : Checks) (taken : List String) : List String :=
  (c.pattern.map (·.constant)).toList ++ taken

/-- The checks of several fields, whose patterns get different names. -/
def allChecks (taken : List String) : List ResolvedField → List Checks
  | [] => []
  | f :: rest =>
    let checks := fieldChecks (some taken) f
    checks :: allChecks (checks.taken taken) rest

/-! ## Modules -/

def comparesNumbers (f : ResolvedField) : Bool :=
  f.type == .scalar .number && ((applicable f).map Constraints.boundsNumbers).getD false

/-- The body of a validator: every check in order, then an error if there were violations. -/
def validateBody (entityName : String) (checks : List Stmt) : List Stmt :=
  if checks.isEmpty then [.pass]
  else .annotated "errors" (Expr.generic "List" [.name violationClass]) (some (.list []))
    :: checks
    ++ [.ifThen (.name "errors")
        [.raise (Expr.apply validationErrorClass [Expr.text entityName, .name "errors"])]]

/-- The class of a validator. -/
def validatorHelper (e : Entity) (checks : List Stmt) : Stmt :=
  .classDef (validatorClass e.name) [] []
    (some s!"Validates {e.name} instances against the schema's required flags and constraints.")
    [refusingConstructor (validatorClass e.name),
     .function ⟨"validate", [.name "staticmethod"], [Param.required "entity" (.name e.name)], none,
        noResult⟩
      (some s!"Raise {validationErrorClass} listing every violation found on the given {e.name}.")
      (validateBody e.name checks)]

/-- The module of a validator. -/
def validatorModule (e : Entity) : Noted Module :=
  let checks := allChecks [] e.record.fields
  let statements := checks.flatMap (·.statements)
  let patterns := checks.filterMap (·.pattern)
  ⟨⟨moduleDoc s!"Validator for {e.name}.",
    -- a name is imported only where a check reads it
    (if patterns.isEmpty then [] else [.importModule "re"])
      ++ (if e.record.fields.any comparesNumbers then [.importFrom "decimal" ["Decimal"]] else [])
      ++ (if statements.isEmpty then [] else [.importFrom "typing" ["List"]])
      ++ [.importFrom (".." ++ Name.snakeCase e.name) [e.name]]
      ++ (if statements.isEmpty then []
        else [.importFrom ("." ++ validationErrorModule) [violationClass, validationErrorClass]])
      ++ patterns.map CompiledPattern.stmt
      ++ [validatorHelper e statements]⟩,
   if statements.isEmpty then [.nothingToValidate e.name] else []⟩

def violationType : Stmt :=
  .classDef violationClass [.call (.name "dataclass") [] [.mk (some "frozen") (Expr.bool true)]] []
    (some "A single constraint violation: storage field name, constraint kind and message.")
    [.annotated "field" (.name "str") none, .annotated "constraint" (.name "str") none,
     .annotated "message" (.name "str") none]

/-- The class of the error that carries all violations. -/
def validationErrorType : Stmt :=
  .classDef validationErrorClass [] [.name "Exception"]
    (some "Raised when an entity violates one or more constraints; carries every violation found.")
    [.function ⟨"__init__", [],
        [Param.plain "self", Param.required "entity_name" (.name "str"),
         Param.required "errors" (Expr.generic "List" [.name violationClass])], none, noResult⟩ none
      [.assign (.attr (.name "self") "entity_name") (.name "entity_name"),
       .assign (.attr (.name "self") "errors") (Expr.apply "list" [.name "errors"]),
       Stmt.bind "details" (Expr.method (Expr.text "; ") "join"
         [.comprehension .generator (.attr (.name "violation") "message") "violation"
           (.attr (.name "self") "errors")]),
       .expr (Expr.method (Expr.apply "super" []) "__init__"
         [.formatted [.field (.name "entity_name") none, .text " validation failed: ",
           .field (.name "details") none]])]]

def validationErrorSource : Module :=
  ⟨moduleDoc "Validation error types shared by all validators.",
    [.importFrom "dataclasses" ["dataclass"], .importFrom "typing" ["List"], violationType,
     validationErrorType]⟩

end Tablewright.Access
