import Tablewright.Proofs.Plan.Clashes
import Tablewright.Proofs.Plan.Outcome
import Tablewright.Proofs.Schema.Identifiers
import Tablewright.Proofs.Schema.Nesting

/-!
# The checks of a batch

The names of a batch are checked in passes: first the identifiers of all fields, then the type names of each entity,
then the type names of the whole batch, then the names of indexes.  A pass sees every schema before the next one starts.

* `Schema.Collides`, `NameClash`: what the passes look for.
* `exists_described_iff`: a batch is described exactly if they find nothing.
* `describeBatch_error`: which failure comes first.
-/

namespace Tablewright

/-! ## Failures of sequences -/

namespace Attempt

variable {α β : Type} {e : Failure}

theorem result_bind_error {x : Attempt α} {f : α → Attempt β} :
    (x >>= f).result = .error e ↔ x.result = .error e ∨ ∃ a, x.result = .ok a ∧ (f a).result = .error e := by
  rw [result_bind]
  cases x.result with
  | error e => simp
  | ok a => simp

theorem result_mapM_error {f : α → Attempt β} {as : List α} (failed : (as.mapM f).result = .error e) :
    ∃ a ∈ as, (f a).result = .error e := by
  induction as with
  | nil => simp at failed
  | cons a as ih =>
    rw [List.mapM_cons, result_bind_error] at failed
    rcases failed with here | ⟨b, -, failed⟩
    · exact ⟨a, List.mem_cons_self, here⟩
    · rcases result_bind_error.mp failed with there | ⟨bs, -, failed⟩
      · obtain ⟨a', member, there⟩ := ih there
        exact ⟨a', List.mem_cons_of_mem _ member, there⟩
      · simp at failed

/-- A loop fails where its body fails first. -/
theorem result_forIn_error {f : α → Except Failure Unit} {as : List α} :
    (forIn as PUnit.unit fun a _ => do ofExcept (f a); pure (ForInStep.yield PUnit.unit)
      : Attempt PUnit).result = .error e ↔
      ∃ before a after, as = before ++ a :: after ∧ (∀ b ∈ before, f b = .ok ()) ∧ f a = .error e := by
  induction as with
  | nil => simp
  | cons first rest ih =>
    rw [List.forIn_cons]
    simp only [bind_assoc, pure_bind, result_bind_error, result_ofExcept]
    constructor
    · rintro (here | ⟨⟨⟩, passed, failed⟩)
      · exact ⟨[], first, rest, rfl, by simp, here⟩
      · obtain ⟨before, a, after, rfl, earlier, here⟩ := ih.mp failed
        exact ⟨first :: before, a, after, rfl, List.forall_mem_cons.mpr ⟨passed, earlier⟩, here⟩
    · rintro ⟨before, a, after, same, earlier, here⟩
      cases before with
      | nil =>
        obtain ⟨rfl, rfl⟩ := List.cons.inj same
        exact .inl here
      | cons b before =>
        obtain ⟨rfl, rfl⟩ := List.cons.inj same
        obtain ⟨passed, earlier⟩ := List.forall_mem_cons.mp earlier
        exact .inr ⟨(), passed, ih.mpr ⟨before, a, after, rfl, earlier, here⟩⟩

end Attempt

/-! ## Identifiers -/

/-- Two fields of some scope of a schema have one identifier. -/
def Schema.Collides (s : Schema) : Prop := ∃ scope, Scope s.fields scope ∧ ¬ (scope.map (·.identifier)).Nodup

theorem collisions_ne_nil {s : Schema} : collisions s.fields ≠ [] ↔ s.Collides := by
  rw [Ne, collisions_eq_nil]
  push Not
  rfl

theorem checkCollisions_ok_iff {s : Schema} : checkCollisions s = .ok () ↔ ¬ s.Collides := by
  rw [checkCollisions_ok, ← collisions_ne_nil, not_ne_iff]

/-- The failure tells all groups of fields that share an identifier. -/
theorem checkCollisions_error {s : Schema} {f : Failure} :
    checkCollisions s = .error f ↔ s.Collides ∧ f = .nameCollision (collisions s.fields) (some s.name) := by
  rw [← collisions_ne_nil, checkCollisions]
  split
  · rename_i none
    simp [none]
  · rename_i some
    exact ⟨fun same => ⟨some, (Except.error.inj same).symm⟩, fun both => congrArg Except.error both.2.symm⟩

/-! ## Type names of an entity -/

theorem describe_ok_iff {s : Schema} {e : Entity} :
    (describe s).value = .ok e ↔ e = s.entity ∧ s.entity.types.Nodup := by
  have distinct : sharedTypeName? [] s.entity.typeNames = none ↔ s.entity.types.Nodup :=
    sharedTypeName?_eq_none_iff List.nodup_nil
  rw [describe_value, ← distinct]
  cases sharedTypeName? [] s.entity.typeNames <;> simp [eq_comm]

/-! ## Type names of a batch -/

theorem claimModules_error {entity : String} {owners : Owners} {names : List String} {f : Failure}
    (refused : claimModules entity owners names = .error f) : f.topic = .generation := by
  induction names generalizing owners with
  | nil => cases refused
  | cons name rest ih =>
    rw [claimModules] at refused
    split at refused
    · cases refused
      rfl
    · split at refused
      · cases refused
        rfl
      · exact ih refused

theorem claimEntity_error {owners : Owners} {e : Entity} {f : Failure} (refused : claimEntity owners e = .error f) :
    f.topic = .generation := by
  rw [claimEntity] at refused
  split at refused
  · cases refused
    rfl
  · exact claimModules_error refused

theorem foldlM_error {α β : Type} {step : β → α → Except Failure β} {topic : Topic}
    (each : ∀ b a f, step b a = .error f → f.topic = topic) {as : List α} {b : β} {f : Failure}
    (failed : as.foldlM step b = .error f) : f.topic = topic := by
  induction as generalizing b with
  | nil => cases failed
  | cons a rest ih =>
    rw [List.foldlM_cons] at failed
    cases taken : step b a with
    | error g =>
      rw [taken] at failed
      cases failed
      exact each b a _ taken
    | ok b' =>
      rw [taken] at failed
      exact ih failed

theorem checkTypeNames_error {entities : List Entity} {f : Failure} (refused : checkTypeNames entities = .error f) :
    f.topic = .generation := by
  rw [checkTypeNames] at refused
  cases claimed : entities.foldlM claimEntity [] with
  | error g =>
    rw [claimed] at refused
    cases refused
    exact foldlM_error (fun _ _ _ => claimEntity_error) claimed
  | ok owners =>
    rw [claimed] at refused
    cases refused

/-! ## Index names -/

theorem claimNames_error {index : String} {owners : Owners} {names : List String} {f : Failure}
    (refused : claimNames index owners names = .error f) : f.topic = .generation := by
  induction names generalizing owners with
  | nil => cases refused
  | cons name rest ih =>
    rw [claimNames] at refused
    split at refused
    · cases refused
      rfl
    · exact ih refused

/-- Names are entered one after the other, and refused unless each is new. -/
theorem claimNames_ok {index : String} {owners claimed : Owners} {names : List String}
    (distinct : (owners.map (·.1)).Nodup) : claimNames index owners names = .ok claimed ↔
      claimed = owners ++ names.map (fun name => (name, index)) ∧ (claimed.map (·.1)).Nodup := by
  induction names generalizing owners with
  | nil =>
    simp only [claimNames, Except.ok.injEq, List.map_nil, List.append_nil]
    exact ⟨fun same => ⟨same.symm, same ▸ distinct⟩, fun same => same.1.symm⟩
  | cons name rest ih =>
    rw [claimNames]
    cases found : owners.lookup name with
    | some owner =>
      have taken := mem_of_lookup found
      simp only [reduceCtorEq, false_iff]
      rintro ⟨rfl, nodup⟩
      rw [List.map_append, List.nodup_append] at nodup
      exact nodup.2.2 _ taken _ (by simp) rfl
    | none =>
      have extended : ((owners ++ [(name, index)]).map (·.1)).Nodup := by
        simpa using distinct.concat (lookup_eq_none_iff.mp found)
      simp only [ih extended, List.append_assoc, List.singleton_append, List.map_cons]

theorem foldlM_claimNames_ok {owners : Owners} {indexes : List Index} (distinct : (owners.map (·.1)).Nodup) :
    (∃ claimed, indexes.foldlM (fun owners i => claimNames i.name owners (indexNames i)) owners = .ok claimed) ↔
      (owners.map (·.1) ++ indexes.flatMap indexNames).Nodup := by
  induction indexes generalizing owners with
  | nil => simpa [pure, Except.pure] using distinct
  | cons i rest ih =>
    rw [List.foldlM_cons, List.flatMap_cons, ← List.append_assoc]
    have entered : owners.map (·.1) ++ indexNames i =
        (owners ++ (indexNames i).map fun name => (name, i.name)).map (·.1) := by
      simp [Function.comp_def]
    cases claim : claimNames i.name owners (indexNames i) with
    | error f =>
      simp only [bind, Except.bind, reduceCtorEq, exists_false, false_iff]
      intro nodup
      have accepted := (claimNames_ok distinct).mpr ⟨rfl, entered ▸ (List.nodup_append.mp nodup).1⟩
      rw [claim] at accepted
      cases accepted
    | ok claimed =>
      obtain ⟨rfl, nodup⟩ := (claimNames_ok distinct).mp claim
      simp only [bind, Except.bind]
      rw [ih nodup, entered]

theorem checkIndexNames_ok {t : Table} : checkIndexNames t = .ok () ↔ (t.indexes.flatMap indexNames).Nodup := by
  have checked : checkIndexNames t = .ok () ↔ ∃ claimed,
      t.indexes.foldlM (fun owners i => claimNames i.name owners (indexNames i)) [] = .ok claimed := by
    rw [checkIndexNames]
    cases t.indexes.foldlM (fun owners i => claimNames i.name owners (indexNames i)) [] <;> simp [Except.map]
  have fresh : (([] : Owners).map (·.1)).Nodup := List.nodup_nil
  rw [checked, foldlM_claimNames_ok fresh]
  rfl

theorem checkIndexNames_error {t : Table} {f : Failure} (refused : checkIndexNames t = .error f) :
    f.topic = .generation := by
  rw [checkIndexNames] at refused
  cases claimed : t.indexes.foldlM (fun owners i => claimNames i.name owners (indexNames i)) [] with
  | error g =>
    rw [claimed] at refused
    cases refused
    exact foldlM_error (fun _ _ _ => claimNames_error) claimed
  | ok owners =>
    rw [claimed] at refused
    cases refused

/-! ## All passes -/

/-- What can be wrong with the names of a batch whose fields do not collide: an entity makes a type name twice, the
types of the batch clash with each other or with what is generated besides, or the indexes of the table clash. -/
inductive NameClash (schemas : List Schema) (table : Option Table) : Prop
  | twice {s : Schema} (member : s ∈ schemas) (shared : ¬ s.entity.types.Nodup)
  | types (clashing : ¬ Unclashing (schemas.map Schema.entity))
  | indexes {t : Table} (given : table = some t) (clashing : ¬ (t.indexes.flatMap indexNames).Nodup)

theorem describedAll_iff {schemas : List Schema} {entities : List Entity} :
    List.Forall₂ (fun s e => (describe s).value = .ok e) schemas entities ↔
      entities = schemas.map Schema.entity ∧ ∀ s ∈ schemas, s.entity.types.Nodup := by
  simp only [describe_ok_iff]
  induction schemas generalizing entities with
  | nil => simp
  | cons s rest ih =>
    rw [List.forall₂_cons_left_iff, List.map_cons, List.forall_mem_cons]
    constructor
    · rintro ⟨_, _, ⟨rfl, here⟩, described, rfl⟩
      obtain ⟨rfl, there⟩ := ih.mp described
      exact ⟨rfl, here, there⟩
    · rintro ⟨rfl, here, there⟩
      exact ⟨_, _, ⟨rfl, here⟩, ih.mpr ⟨rfl, there⟩, rfl⟩

/-- A batch is described exactly if no fields collide and no names clash. -/
theorem described_iff {schemas : List Schema} {table : Option Table} {entities : List Entity} :
    Described schemas table entities ↔
      entities = schemas.map Schema.entity ∧ (∀ s ∈ schemas, ¬ s.Collides) ∧ ¬ NameClash schemas table := by
  constructor
  · intro batch
    obtain ⟨rfl, once⟩ := describedAll_iff.mp batch.described
    refine ⟨rfl, fun s member => checkCollisions_ok_iff.mp (batch.uncollided s member), fun clash => ?_⟩
    cases clash with
    | twice member shared => exact shared (once _ member)
    | types clashing => exact clashing (checkTypeNames_ok.mp batch.typesChecked)
    | indexes given clashing => exact clashing (checkIndexNames_ok.mp (batch.indexesChecked _ given))
  · rintro ⟨rfl, uncollided, unclashing⟩
    refine ⟨fun s member => checkCollisions_ok_iff.mpr (uncollided s member), describedAll_iff.mpr ⟨rfl, ?_⟩, ?_, ?_⟩
    · exact fun s member => not_not.mp fun shared => unclashing (.twice member shared)
    · exact checkTypeNames_ok.mpr (not_not.mp fun clashing => unclashing (.types clashing))
    · exact fun t given => checkIndexNames_ok.mpr (not_not.mp fun clashing => unclashing (.indexes given clashing))

theorem describeOne_error {s : Schema} {f : Failure} (refused : (describeOne s).result = .error f) :
    f.topic = .generation := by
  unfold describeOne at refused
  rw [Attempt.result_bind_error] at refused
  rcases refused with impossible | ⟨described, -, refused⟩
  · cases impossible
  · cases described with
    | ok e => cases refused
    | error shared =>
      cases refused
      rfl

/-- The first schema of a batch whose fields collide is refused, whatever else is wrong with the batch. -/
theorem describeBatch_collides {before after : List Schema} {s : Schema} (table : Option Table)
    (earlier : ∀ b ∈ before, ¬ b.Collides) (collides : s.Collides) :
    (describeBatch (before ++ s :: after) table).result =
      .error (.nameCollision (collisions s.fields) (some s.name)) := by
  unfold describeBatch
  rw [Attempt.result_bind_error]
  refine .inl (Attempt.result_forIn_error.mpr ⟨before, s, after, rfl, ?_, ?_⟩)
  · exact fun b member => checkCollisions_ok_iff.mpr (earlier b member)
  · exact checkCollisions_error.mpr ⟨collides, rfl⟩

/-- Fields that collide are the only failure of the first pass; all other passes are about generated names. -/
theorem describeBatch_error {schemas : List Schema} {table : Option Table} {f : Failure}
    (refused : (describeBatch schemas table).result = .error f) :
    f.topic = .collision ∧ (∃ s ∈ schemas, s.Collides) ∨ f.topic = .generation ∧ ∀ s ∈ schemas, ¬ s.Collides := by
  unfold describeBatch at refused
  rcases Attempt.result_bind_error.mp refused with collision | ⟨⟨⟩, passed, refused⟩
  · obtain ⟨before, s, after, rfl, -, here⟩ := Attempt.result_forIn_error.mp collision
    obtain ⟨collides, rfl⟩ := checkCollisions_error.mp here
    exact .inl ⟨rfl, s, by simp, collides⟩
  · refine .inr ⟨?_, fun s member => checkCollisions_ok_iff.mp (Attempt.result_forIn_ok.mp passed s member)⟩
    rcases Attempt.result_bind_error.mp refused with described | ⟨entities, -, refused⟩
    · obtain ⟨s, -, here⟩ := Attempt.result_mapM_error described
      exact describeOne_error here
    · rcases Attempt.result_bind_error.mp refused with types | ⟨⟨⟩, -, refused⟩
      · exact checkTypeNames_error types
      · cases table with
        | none => cases refused
        | some t =>
          rcases Attempt.result_bind_error.mp refused with indexes | ⟨⟨⟩, -, refused⟩
          · exact checkIndexNames_error indexes
          · cases refused

end Tablewright
