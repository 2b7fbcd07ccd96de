import Mathlib
import Tablewright.Access.Validator
import Tablewright.Proofs.Document.Places
import Tablewright.Proofs.Number.Rounding

/-!
# Integers as bounds

The bounds of a number are doubles, whatever they are in the document.  A check writes a whole double as an integer, so it
shows the integer that the bound was rounded to: the bound itself if it has at most 53 significant binary digits, and its
neighbour otherwise.

* `Limit`, `Limit.check`: the two sides of a range, and the check of a number on one of them.
* `statements_number`: all checks of a number that is bounded.
* `constraintsOf_int`: what becomes of an integer among the constraints of a document.
* `integerBound_checked`: the check of an integer bound, wherever it stands in a document that loads.
-/

namespace Tablewright.Access

open Source (Expr Stmt)
open Number (nearest Short)
open Document (readSchema)
open Value (get?)

/-! ## Limits -/

/-- The sides on which a number can be bounded. -/
inductive Limit where
  | min
  | max
  deriving DecidableEq, Repr

namespace Limit

def word : Limit → String
  | min => "min"
  | max => "max"

def of : Limit → Constraints → Option Value
  | min, c => c.min
  | max, c => c.max

/-- The comparison that holds of a number beyond the bound. -/
def comparison : Limit → Source.Comparison
  | min => .lt
  | max => .gt

def phrase : Limit → String
  | min => " must be >= "
  | max => " must be <= "

/-- The check of a number against a bound that is given by its text. -/
def check (l : Limit) (f : ResolvedField) (bound : String) : Stmt :=
  .ifThen (.compare (validated f) l.comparison (Expr.apply "Decimal" [Expr.text bound]))
    [violation f l.word (f.storageName ++ l.phrase ++ bound)]

theorem minCheck_eq (f : ResolvedField) : minCheck f = fun bound => min.check f (boundText bound) := rfl

theorem maxCheck_eq (f : ResolvedField) : maxCheck f = fun bound => max.check f (boundText bound) := rfl

/-- The checks on one side, if there is a bound. -/
def checks (l : Limit) (f : ResolvedField) (c : Constraints) : List Stmt :=
  ((l.of c).map fun bound => l.check f (boundText bound)).toList

end Limit

/-- The checks of a number that is bounded: those of both sides, where it is present. -/
theorem statements_number {f : ResolvedField} {c : Constraints} (isNumber : f.type = .scalar .number)
    (constrained : f.field.constraints = some c) (bounded : c.boundsNumbers) (taken : Option (List String)) :
    (fieldChecks taken f).statements =
      requiredCheck f ++ [.ifThen (Expr.isNotNone (validated f)) (Limit.min.checks f c ++ Limit.max.checks f c)] := by
  have applies : applicable f = some c := by rw [applicable, isNumber, constrained]
  have checks : (boundChecks taken f c).statements = Limit.min.checks f c ++ Limit.max.checks f c := by
    rw [boundChecks, if_neg (by simp [isNumber]), Limit.minCheck_eq, Limit.maxCheck_eq]
    rfl
  have some_checks : (Limit.min.checks f c ++ Limit.max.checks f c).isEmpty = false := by
    rw [Constraints.boundsNumbers] at bounded
    rw [Limit.checks, Limit.checks, Limit.of, Limit.of]
    cases min : c.min with
    | some bound => rfl
    | none =>
      cases max : c.max with
      | some bound => rfl
      | none => rw [min, max] at bounded; cases bounded
  rw [fieldChecks, applies]
  dsimp only
  rw [checks, some_checks, if_neg Bool.false_ne_true]

/-! ## Bounds of documents -/

theorem nullable_number_int {place : List Document.Step} {n : Int} {a : Option Float}
    (good : Document.nullable Document.number place (.int n) = .good a) : ∃ x, Number.ofInt? n = some x ∧ a = some x := by
  rw [Document.nullable_of_ne_null (v := .int n) nofun, Document.Checked.map_eq_good] at good
  obtain ⟨x, good, rfl⟩ := good
  rw [Document.number] at good
  cases fits : Number.ofInt? n with
  | none => rw [fits] at good; cases good
  | some y =>
    rw [fits] at good
    cases good
    exact ⟨x, rfl, rfl⟩

/-- An integer that bounds a number is read as a double. -/
theorem constraintsOf_int {place : List Document.Step} {cs : List (Value × Value)} {c : Constraints}
    (good : Document.constraintsOf place (.dict cs) = .good c) {limit : Limit} {n : Int}
    (given : get? limit.word cs = some (.int n)) : ∃ x, Number.ofInt? n = some x ∧ limit.of c = some (.float x) := by
  rw [Document.constraintsOf, Document.mappingOf] at good
  simp only [Document.Checked.seq_eq_good, Document.Checked.fmap_eq_good, Document.Checked.map_eq_good] at good
  obtain ⟨_, _, ⟨_, _, ⟨_, _, ⟨_, _, ⟨_, -, rfl⟩, -, rfl⟩, -, rfl⟩, ⟨lower, min, rfl⟩, rfl⟩, ⟨upper, max, rfl⟩, rfl⟩ := good
  cases limit with
  | min =>
    rw [Document.optional_single, show get? "min" cs = some (.int n) from given] at min
    obtain ⟨x, fits, rfl⟩ := nullable_number_int min
    exact ⟨x, fits, rfl⟩
  | max =>
    rw [Document.optional_single, show get? "max" cs = some (.int n) from given] at max
    obtain ⟨x, fits, rfl⟩ := nullable_number_int max
    exact ⟨x, fits, rfl⟩

theorem boundText_ofInt? {n : Int} {x : Float} (fits : Number.ofInt? n = some x) :
    boundText (.float x) = toString (nearest n) := by
  rw [boundText, Number.wholeValue?_ofInt? fits]

/-- An integer that bounds a number, in any field of a document that loads.  The check of the number compares it with the
decimal of the nearest integer of 53 significant binary digits and shows the same text, which is the text of the bound if
and only if the bound needs no more digits. -/
theorem integerBound_checked {document : List (Value × Value)} {schema : Schema}
    (loads : readSchema (.dict document) = .ok schema) {index : Nat} {way : List (Document.Branch × Nat)}
    {es : List (Value × Value)}
    (found : Document.mappingAt? (Document.listed "fields" (Document.flattenEntity document)) index way = some es)
    {cs : List (Value × Value)} (constrained : get? "constraints" es = some (.dict cs)) {limit : Limit} {n : Int}
    (given : get? limit.word cs = some (.int n)) :
    ∃ f, Document.fieldAt? schema.fields index way = some f ∧
      (∀ r : ResolvedField, r.field = f → r.type = .scalar .number → ∀ taken, ∃ checks : Limit → List Stmt,
        (fieldChecks taken r).statements =
          requiredCheck r ++ [.ifThen (Expr.isNotNone (validated r)) (checks .min ++ checks .max)] ∧
        checks limit = [limit.check r (toString (nearest n))]) ∧
      (toString (nearest n) = toString n ↔ Short n.natAbs) := by
  obtain ⟨f, fuel, place, there, read⟩ := Document.fieldAt?_of_readSchema loads found
  refine ⟨f, there, ?_, ?_⟩
  · rintro r rfl isNumber taken
    -- the bound is read as the nearest double, and the check is spelled from that
    have constraints := (Document.fieldOf_good read).1
    rw [Document.optional_single, Document.get?_fieldSpellings (by decide), constrained] at constraints
    dsimp only at constraints
    rw [Document.nullable_of_ne_null (v := .dict cs) nofun, Document.Checked.map_eq_good] at constraints
    obtain ⟨c, good, same⟩ := constraints
    obtain ⟨x, fits, bound⟩ := constraintsOf_int good given
    refine ⟨fun l => l.checks r c, statements_number isNumber same.symm ?_ taken, ?_⟩
    · cases limit with
      | min => rw [Constraints.boundsNumbers, show c.min = some (.float x) from bound]; rfl
      | max => rw [Constraints.boundsNumbers, show c.max = some (.float x) from bound, Option.isSome_some, Bool.or_true]
    · show limit.checks r c = _
      rw [Limit.checks, bound, ← boundText_ofInt? fits]
      rfl
  · rw [← Number.nearest_eq_self_iff]
    exact Int.repr_inj

/-- A document with a number that is bounded from below. -/
def orderDocument (least : Int) : List (Value × Value) :=
  [(.text "entityName", .text "Order"), (.text "primaryKey", .dict [(.text "partitionKey", .text "id")]),
    (.text "fields", .list [
      .dict [(.text "name", .text "id"), (.text "type", .text "string")],
      .dict [(.text "name", .text "total"), (.text "type", .text "number"),
        (.text "constraints", .dict [(.text "min", .int least)])]])]

/-- A bound of few digits is kept. -/
theorem orderDocument_checked : ∃ schema r, readSchema (.dict (orderDocument 250)) = .ok schema ∧
    (mapFields schema.name schema.fields).1[1]? = some r ∧ r.type = .scalar .number ∧
    ∃ checks : Limit → List Stmt, (fieldChecks none r).statements =
        requiredCheck r ++ [.ifThen (Expr.isNotNone (validated r)) (checks .min ++ checks .max)] ∧
      checks .min = [Limit.min.check r "250"] := by
  refine ⟨_, _, rfl, rfl, rfl, ?_⟩
  obtain ⟨f, there, checked, -⟩ := @integerBound_checked (orderDocument 250) _ rfl 1 [] _ rfl _ rfl .min 250 rfl
  obtain rfl := Option.some.inj there
  exact checked _ rfl rfl none

/-- A bound of 54 binary digits is not kept. -/
theorem orderDocument_rounded : ∃ schema r, readSchema (.dict (orderDocument 9007199254740993)) = .ok schema ∧
    (mapFields schema.name schema.fields).1[1]? = some r ∧ r.type = .scalar .number ∧
    (fieldChecks none r).statements =
      [.ifThen (Expr.isNotNone (validated r)) [Limit.min.check r "9007199254740992"]] ∧
    toString (9007199254740993 : Int) ≠ "9007199254740992" :=
  ⟨_, _, rfl, rfl, rfl, rfl, by decide⟩

end Tablewright.Access
