import Mathlib.Data.List.Forall2
import Mathlib.Data.Option.Basic
import Tablewright.Proofs.Document.Entries

/-!
# What readings come to

The value that a reading ends with, apart from the places and the order of its problems.

* `Checked.value?`: the value of a reading, and how it is put together from the values of its parts.
* `Respects`: readers that do not tell related values apart, wherever they stand.
* `respects_text`, `respects_number`: scalars are read alike at every place.
* `value?_required`, `value?_optional`, `Respects.listOf`: entries and members that are related.
-/

namespace Tablewright.Document

variable {α β : Type}

namespace Checked

/-- The value of a reading without problems. -/
def value? : Checked α → Option α
  | good a => some a
  | bad _ => none

theorem value?_map (f : α → β) (x : Checked α) : (x.map f).value? = x.value?.map f := by
  cases x <;> rfl

theorem value?_fmap (f : α → β) (x : Checked α) : (f <$> x).value? = x.value?.map f := by
  cases x <;> rfl

theorem value?_both (f : Checked (α → β)) (x : Checked α) :
    (both f x).value? = f.value?.bind fun g => x.value?.map g := by
  cases f <;> cases x <;> rfl

theorem value?_seq (f : Checked (α → β)) (x : Checked α) :
    (f <*> x).value? = f.value?.bind fun g => x.value?.map g :=
  value?_both f x

theorem value?_andThen (x : Checked α) (f : α → Checked β) :
    (x.andThen f).value? = x.value?.bind fun a => (f a).value? := by
  cases x <;> rfl

theorem toOption_toExcept (x : Checked α) : x.toExcept.toOption = x.value? := by
  cases x <;> rfl

end Checked

/-- A reader finds the same in related values, whatever places they stand at. -/
def Respects (R : Value → Value → Prop) (read : Reader α) : Prop :=
  ∀ place place' v w, R v w → (read place v).value? = (read place' w).value?

/-! ## Scalars -/

theorem respects_text : Respects Eq text := by
  rintro place place' v _ rfl
  rw [text, text]
  split <;> rfl

theorem respects_nonEmptyText : Respects Eq nonEmptyText := by
  rintro place place' v _ rfl
  rw [nonEmptyText, nonEmptyText, Checked.value?_andThen, Checked.value?_andThen, respects_text place place' v v rfl]
  congr 1
  funext s
  split <;> rfl

theorem respects_truth : Respects Eq truth := by
  rintro place place' v _ rfl
  rw [truth.eq_def, truth.eq_def]
  split
  · rfl
  · split
    · split <;> rfl
    · rfl
  · split
    · split <;> rfl
    · rfl
  · split
    · split <;> rfl
    · rfl
    · rfl

theorem respects_integer : Respects Eq integer := by
  rintro place place' v _ rfl
  rw [integer.eq_def, integer.eq_def]
  split
  · rfl
  · rfl
  · split <;> rfl
  · split
    · split <;> rfl
    · rfl
    · rfl

theorem respects_number : Respects Eq number := by
  rintro place place' v _ rfl
  rw [number.eq_def, number.eq_def]
  split
  · rfl
  · rfl
  · split <;> rfl
  · split
    · split <;> rfl
    · rfl
    · rfl

/-! ## Related values -/

section

variable {R S : Value → Value → Prop} {read : Reader α}

theorem respects_anything : Respects Eq anything := by
  rintro place place' v _ rfl
  rfl

theorem Respects.mono (respects : Respects S read) (le : ∀ v w, R v w → S v w) : Respects R read :=
  fun place place' v w related => respects place place' v w (le v w related)

theorem bind_congr_of_rel {γ δ : Type} {T : γ → δ → Prop} {o : Option γ} {o' : Option δ} {f : γ → Option α}
    {g : δ → Option α} (related : Option.Rel T o o') (same : ∀ c d, T c d → f c = g d) : o.bind f = o'.bind g := by
  cases related with
  | none => rfl
  | some here => exact same _ _ here

def entries? : Value → Option (List (Value × Value))
  | .dict es => some es
  | _ => none

theorem value?_mappingOf (model : String) (read : List Step → List (Value × Value) → Checked α) (place : List Step)
    (v : Value) : (mappingOf model read place v).value? = (entries? v).bind fun es => (read place es).value? := by
  cases v <;> rfl

theorem value?_listOf (read : Reader α) (place : List Step) (v : Value) :
    (listOf read place v).value? = (members? v).bind fun vs => (each read place 0 vs).value? := by
  rw [listOf]
  cases members? v <;> rfl

theorem Respects.mappingOf {model : String} {read : List Step → List (Value × Value) → Checked α}
    {T : List (Value × Value) → List (Value × Value) → Prop}
    (shape : ∀ v w, R v w → Option.Rel T (entries? v) (entries? w))
    (same : ∀ place place' es es', T es es' → (read place es).value? = (read place' es').value?) :
    Respects R (mappingOf model read) := by
  intro place place' v w related
  rw [value?_mappingOf, value?_mappingOf]
  exact bind_congr_of_rel (shape v w related) (same place place')

theorem Respects.each (respects : Respects R read) {vs ws : List Value} (related : List.Forall₂ R vs ws)
    (place place' : List Step) (index index' : Nat) :
    (each read place index vs).value? = (each read place' index' ws).value? := by
  induction related generalizing index index' with
  | nil => rfl
  | cons here _ ih =>
    rw [Document.each, Document.each, Checked.value?_both, Checked.value?_both, Checked.value?_map, Checked.value?_map,
      respects _ _ _ _ here, ih]

theorem Respects.listOf (respects : Respects R read)
    (shape : ∀ v w, S v w → Option.Rel (List.Forall₂ R) (members? v) (members? w)) : Respects S (listOf read) := by
  intro place place' v w related
  rw [value?_listOf, value?_listOf]
  exact bind_congr_of_rel (shape v w related) fun vs ws members => respects.each members place place' 0 0

theorem Respects.nullable (respects : Respects R read) (null : ∀ v w, R v w → (v = .null ↔ w = .null)) :
    Respects R (nullable read) := by
  intro place place' v w related
  have same := respects place place' v w related
  by_cases isNull : v = .null
  · obtain rfl := isNull
    obtain rfl := (null _ _ related).mp rfl
    rfl
  · have notNull : w ≠ .null := fun is => isNull ((null _ _ related).mpr is)
    rw [Document.nullable.eq_2 _ _ _ isNull, Document.nullable.eq_2 _ _ _ notNull, Checked.value?_map, Checked.value?_map,
      same]

variable {s : Spelling} {es es' : List (Value × Value)}

theorem find?_of_rel (entries : Option.Rel R (s.value? es) (s.value? es')) :
    (s.find? es = none ∧ s.find? es' = none) ∨
      ∃ found found', s.find? es = some found ∧ s.find? es' = some found' ∧ R found.2 found'.2 := by
  rw [Spelling.value?, Spelling.value?] at entries
  cases found : s.find? es with
  | none =>
    cases found' : s.find? es' with
    | none => exact .inl ⟨rfl, rfl⟩
    | some _ => rw [found, found'] at entries; cases entries
  | some _ =>
    cases found' : s.find? es' with
    | none => rw [found, found'] at entries; cases entries
    | some _ =>
      rw [found, found'] at entries
      cases entries with
      | some related => exact .inr ⟨_, _, rfl, rfl, related⟩

theorem Respects.required (respects : Respects R read) (entries : Option.Rel R (s.value? es) (s.value? es'))
    (place place' : List Step) : (required s read place es).value? = (required s read place' es').value? := by
  rw [Document.required, Document.required]
  rcases find?_of_rel entries with ⟨none, none'⟩ | ⟨found, found', here, here', related⟩
  · rw [none, none']
    rfl
  · rw [here, here']
    exact respects _ _ _ _ related

theorem Respects.optional (respects : Respects R read) (absent : α) (entries : Option.Rel R (s.value? es) (s.value? es'))
    (place place' : List Step) :
    (optional s read absent place es).value? = (optional s read absent place' es').value? := by
  rw [Document.optional, Document.optional]
  rcases find?_of_rel entries with ⟨none, none'⟩ | ⟨found, found', here, here', related⟩
  · rw [none, none']
  · rw [here, here']
    exact respects _ _ _ _ related

end

end Tablewright.Document
