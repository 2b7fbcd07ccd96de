import Tablewright.Proofs.Document.Entries
import Tablewright.Proofs.Document.Reading

/-!
# Fields in documents

Every field of a schema is read from a mapping of its document.  A field is reached through the fields around it, so both
the document and the schema are followed along one way.

* `Branch`, `mappingAt?`, `fieldAt?`: the mapping and the field at the end of a way.
* `partsOf_good`, `constraintsOf_good`: what a field that is read has of its mapping.
* `fieldAt?_of_readSchema`: at the end of every way that the document has, the schema has the field of the mapping.
-/

namespace Tablewright.Document

open Value (get?)

/-! ## Ways -/

/-- Where a mapping keeps the fields below it: beside its other entries, or in the block of its elements. -/
inductive Branch where
  | fields
  | items
  deriving DecidableEq, Repr

def listed (name : String) (es : List (Value × Value)) : List Value := ((get? name es).bind members?).getD []

def Branch.documents : Branch → List (Value × Value) → List Value
  | fields, es => listed "fields" es
  | items, es => ((get? "items" es).bind entries?).elim [] (listed "fields")

def Branch.below : Branch → Field → List Field
  | fields, f => f.fields
  | items, f => f.itemFields

/-- The mapping at the end of a way: that of an index among some documents, or one below it. -/
def mappingAt? (vs : List Value) (index : Nat) : List (Branch × Nat) → Option (List (Value × Value))
  | [] => vs[index]?.bind entries?
  | (branch, next) :: rest => (vs[index]?.bind entries?).bind fun es => mappingAt? (branch.documents es) next rest

def fieldAt? (fs : List Field) (index : Nat) : List (Branch × Nat) → Option Field
  | [] => fs[index]?
  | (branch, next) :: rest => fs[index]?.bind fun f => fieldAt? (branch.below f) next rest

/-! ## Readings without problems -/

section

variable {α β : Type}

theorem Checked.map_eq_good {f : α → β} {x : Checked α} {b : β} : x.map f = .good b ↔ ∃ a, x = .good a ∧ f a = b := by
  cases x <;> simp [Checked.map]

theorem Checked.fmap_eq_good {f : α → β} {x : Checked α} {b : β} : f <$> x = .good b ↔ ∃ a, x = .good a ∧ f a = b := by
  cases x <;> simp [Functor.map, Checked.both]

theorem Checked.both_eq_good {f : Checked (α → β)} {x : Checked α} {b : β} :
    both f x = .good b ↔ ∃ g a, f = .good g ∧ x = .good a ∧ g a = b := by
  cases f <;> cases x <;> simp [Checked.both]

theorem Checked.seq_eq_good {f : Checked (α → β)} {x : Checked α} {b : β} :
    f <*> x = .good b ↔ ∃ g a, f = .good g ∧ x = .good a ∧ g a = b :=
  Checked.both_eq_good

variable {read : Reader α} {place : List Step} {es : List (Value × Value)} {name : String}

theorem optional_single (name : String) (read : Reader α) (absent : α) (place : List Step) (es : List (Value × Value)) :
    optional (.single name) read absent place es = match get? name es with
      | some v => read (place ++ [.key name]) v
      | none => .good absent := by
  rw [optional, Spelling.find?, Spelling.single]
  dsimp only
  cases get? name es <;> rfl

theorem nullable_of_ne_null {v : Value} (given : v ≠ .null) : nullable read place v = (read place v).map some :=
  nullable.eq_2 read place v given

/-- An entry that may be missing or `null`. -/
theorem optional_nullable_good {a : Option α} (good : optional (.single name) (nullable read) none place es = .good a) :
    (get? name es = none ∨ get? name es = some .null) ∧ a = none ∨
      ∃ v b, get? name es = some v ∧ read (place ++ [.key name]) v = .good b ∧ a = some b := by
  rw [optional_single] at good
  cases found : get? name es with
  | none =>
    rw [found] at good
    cases good
    exact .inl ⟨.inl rfl, rfl⟩
  | some v =>
    rw [found] at good
    by_cases null : v = .null
    · subst null
      cases good
      exact .inl ⟨.inr rfl, rfl⟩
    · dsimp only at good
      rw [nullable_of_ne_null null, Checked.map_eq_good] at good
      obtain ⟨b, here, rfl⟩ := good
      exact .inr ⟨v, b, rfl, here, rfl⟩

theorem listOf_good_iff {v : Value} {as : List α} :
    listOf read place v = .good as ↔ ∃ vs, members? v = some vs ∧ each read place 0 vs = .good as := by
  rw [listOf]
  cases members? v <;> simp [misfit]

/-- The members of a list that may be missing or `null`. -/
theorem each_listed {below : Option (List α)}
    (good : optional (.single name) (nullable (listOf read)) none place es = .good below) :
    each read (place ++ [.key name]) 0 (listed name es) = .good (below.getD []) := by
  rcases optional_nullable_good good with ⟨absent | null, rfl⟩ | ⟨v, as, there, here, rfl⟩
  · rw [listed, absent]
    rfl
  · rw [listed, null]
    rfl
  · obtain ⟨vs, members, each⟩ := listOf_good_iff.mp here
    rwa [listed, there, Option.bind_some, members]

/-- Every member of a list that is read has its value. -/
theorem each_getElem? {vs : List Value} {as : List α} {start index : Nat} {v : Value}
    (good : each read place start vs = .good as) (here : vs[index]? = some v) :
    ∃ a, as[index]? = some a ∧ read (place ++ [.item (start + index)]) v = .good a := by
  induction vs generalizing as start index with
  | nil => cases here
  | cons w rest ih =>
    rw [each, Checked.both_eq_good] at good
    obtain ⟨_, others, first, after, rfl⟩ := good
    obtain ⟨a, here', rfl⟩ := Checked.map_eq_good.mp first
    cases index with
    | zero =>
      obtain rfl := Option.some.inj here
      exact ⟨a, rfl, here'⟩
    | succ index =>
      obtain ⟨b, there, value⟩ := ih after here
      refine ⟨b, there, ?_⟩
      rwa [show start + (index + 1) = start + 1 + index by omega]

end

/-! ## Fields -/

variable {fuel : Nat} {place : List Step} {es : List (Value × Value)} {f : Field}

theorem partsOf_good {read : Reader (List Field)} {parts : FieldParts} (good : partsOf read place es = .good parts) :
    optional (.single "constraints") (nullable constraintsOf) none place es = .good parts.declaration.constraints ∧
      (∃ below, optional (.single "fields") (nullable read) none place es = .good below ∧ parts.fields = below.getD []) ∧
      optional (.single "items") (nullable (itemsOf read)) none place es = .good parts.items := by
  simp only [partsOf, Checked.seq_eq_good, Checked.fmap_eq_good] at good
  obtain ⟨_, items, ⟨_, below, ⟨_, constraints, ⟨_, values, ⟨_, initial, ⟨_, description, ⟨_, identifier, ⟨_, isRequired,
    ⟨_, type, ⟨name, -, rfl⟩, -, rfl⟩, -, rfl⟩, -, rfl⟩, -, rfl⟩, -, rfl⟩, -, rfl⟩, constrained, rfl⟩, nested, rfl⟩,
    elements, rfl⟩ := good
  exact ⟨constrained, ⟨below, nested, rfl⟩, elements⟩

theorem fieldOf_good (good : fieldOf fuel place (.dict es) = .good f) :
    optional (.single "constraints") (nullable constraintsOf) none place (fieldSpellings es) = .good f.constraints ∧
      ∀ branch : Branch, ∃ fuel' place', each (fieldOf fuel') place' 0 (branch.documents es) = .good (branch.below f) := by
  cases fuel with
  | zero => cases good
  | succ fuel =>
    rw [fieldOf, mappingOf] at good
    obtain ⟨parts, read, rfl⟩ := Checked.map_eq_good.mp good
    obtain ⟨constrained, ⟨below, nested, same⟩, elements⟩ := partsOf_good read
    refine ⟨constrained, fun branch => ⟨fuel, ?_⟩⟩
    -- fields below are read as a list, those of elements out of a block of their own
    cases branch with
    | fields =>
      have fields := each_listed nested
      rw [listed, get?_fieldSpellings (by decide)] at fields
      exact ⟨_, same ▸ fields⟩
    | items =>
      rcases optional_nullable_good elements with ⟨missing, none⟩ | ⟨v, items, there, here, some⟩
      · refine ⟨place, ?_⟩
        have nothing : (FieldParts.field parts).itemFields = [] := by rw [FieldParts.field, none]; rfl
        rw [Branch.below, nothing, Branch.documents, ← get?_fieldSpellings (by decide)]
        rcases missing with absent | null
        · rw [absent]
          rfl
        · rw [null]
          rfl
      · cases v with
        | dict block =>
          rw [itemsOf, mappingOf] at here
          simp only [Checked.seq_eq_good, Checked.fmap_eq_good, Checked.map_eq_good] at here
          obtain ⟨_, fields, ⟨type, -, rfl⟩, ⟨below, nested, rfl⟩, rfl⟩ := here
          have these : (FieldParts.field parts).itemFields = below.getD [] := by rw [FieldParts.field, some]; rfl
          rw [Branch.below, these, Branch.documents, ← get?_fieldSpellings (by decide), there]
          exact ⟨_, each_listed nested⟩
        | _ => cases here

/-- A way through the documents of fields leads to the field that is read there. -/
theorem fieldAt?_of_each {vs : List Value} {fs : List Field} {start index : Nat} {way : List (Branch × Nat)}
    (good : each (fieldOf fuel) place start vs = .good fs) (found : mappingAt? vs index way = some es) :
    ∃ f fuel' place', fieldAt? fs index way = some f ∧ fieldOf fuel' place' (.dict es) = .good f := by
  have entries {v : Value} {es : List (Value × Value)} (is : entries? v = some es) : v = .dict es := by
    cases v <;> cases is
    rfl
  -- on the way down the mappings and the fields change together
  induction way generalizing vs fs start index fuel place with
  | nil =>
    obtain ⟨v, here, mapping⟩ := Option.bind_eq_some_iff.mp found
    obtain rfl := entries mapping
    obtain ⟨f, there, read⟩ := each_getElem? good here
    exact ⟨f, fuel, _, there, read⟩
  | cons turn rest ih =>
    obtain ⟨around, mapping, after⟩ := Option.bind_eq_some_iff.mp found
    obtain ⟨v, here, mapping⟩ := Option.bind_eq_some_iff.mp mapping
    obtain rfl := entries mapping
    obtain ⟨f, there, read⟩ := each_getElem? good here
    obtain ⟨fuel', place', below⟩ := (fieldOf_good read).2 turn.1
    obtain ⟨g, fuel'', place'', there', read'⟩ := ih below after
    refine ⟨g, fuel'', place'', ?_, read'⟩
    rw [fieldAt?, there]
    exact there'

theorem fieldAt?_of_readSchema {document : List (Value × Value)} {schema : Schema}
    (good : readSchema (.dict document) = .ok schema) {index : Nat} {way : List (Branch × Nat)}
    (found : mappingAt? (listed "fields" (flattenEntity document)) index way = some es) :
    ∃ f fuel' place', fieldAt? schema.fields index way = some f ∧ fieldOf fuel' place' (.dict es) = .good f := by
  rw [readSchema] at good
  cases read : schemaOf (Value.dict document).depth [] (.dict document) with
  | bad problems => rw [read] at good; cases good
  | good s =>
    rw [read] at good
    obtain rfl := Except.ok.inj good
    rw [schemaOf, mappingOf] at read
    simp only [Checked.seq_eq_good, Checked.fmap_eq_good] at read
    obtain ⟨_, fields, ⟨_, key, ⟨_, description, ⟨_, name, ⟨version, -, rfl⟩, -, rfl⟩, -, rfl⟩, -, rfl⟩, fieldsRead,
      rfl⟩ := read
    rw [optional_single, get?_versionText (by decide)] at fieldsRead
    cases there : get? "fields" (flattenEntity document) with
    | none =>
      rw [listed, there] at found
      cases way <;> cases found
    | some v =>
      rw [there] at fieldsRead
      obtain ⟨vs, members, each⟩ := listOf_good_iff.mp fieldsRead
      rw [listed, there, Option.bind_some, members] at found
      exact fieldAt?_of_each each found

end Tablewright.Document
