import Tablewright.Proofs.Access.Keys
import Tablewright.Proofs.Access.Members
import Tablewright.Proofs.Access.Repository
import Tablewright.Proofs.Schema.Keys
import Tablewright.Proofs.Source.Printing

/-!
# The names of key attributes

Key attributes are the parameters of the functions that build keys and look items up.  A declared one has the identifier
of its field.  An undeclared one has its name in camel case, which no check compares with the identifiers of the fields
or with the other parameters.

* `keyFunctions`: the functions that take key attributes.
* `KeepsKeyNames`: every key attribute has a name of its own.
* `KeysApart`: what this needs of the storage names; `keepsKeyNames_iff`.
-/

namespace Tablewright.Access

open Source (Expr Stmt Param Signature)

variable {s : Schema} {e : Entity} {table : Option Table} {t : Table}

/-! ## Functions of keys -/

/-- The methods of a repository that look items up, with the key attributes that they take. -/
def lookups (e : Entity) (t : Table) : List (Stmt × List KeyAttribute) :=
  (findByKey e, e.keys) :: (deleteByKey e, e.keys)
    :: t.indexes.map fun i => (queryMethod e i (indexKeys e i).value.1 (indexKeys e i).value.2, indexAttributes e i)

/-- The functions that take key attributes as parameters, with these. -/
def keyFunctions (e : Entity) (table : Option Table) : List (Stmt × List KeyAttribute) :=
  (keyFunction e, e.keys) :: (table.map (lookups e)).getD []

/-- The key attributes of an entity: those of its own key, and those of the indexes of the table. -/
def keyAttributes (e : Entity) (table : Option Table) : List KeyAttribute := (table.map (repositoryKeys e)).getD e.keys

theorem ofEntity_indexAttributes {i : Index} : ∀ k ∈ indexAttributes e i, OfEntity e k := by
  intro k known
  obtain ⟨storageName, rfl⟩ := mem_indexAttributes known
  exact ofEntity_keyAttribute e _ storageName

theorem ofEntity_keyAttributes (describes : Describes s e) : ∀ k ∈ keyAttributes e table, OfEntity e k := by
  cases table with
  | none => exact describes.ofEntity_keys
  | some t =>
    refine List.forall_mem_append.mpr ⟨describes.ofEntity_keys, fun k known => ?_⟩
    obtain ⟨i, -, inIndex⟩ := List.mem_flatMap.mp known
    exact ofEntity_indexAttributes k inIndex

/-- Key attributes are called like fields, or in camel case. -/
theorem keyAttributes_identifier (P : String → Prop) (describes : Describes s e)
    (fields : ∀ f ∈ e.record.fields, P f.identifier)
    (undeclared : ∀ k ∈ keyAttributes e table, ¬ e.Declares k.storageName → P (Name.camelCase k.storageName)) :
    ∀ k ∈ keyAttributes e table, P k.identifier := by
  intro k known
  have ofEntity := ofEntity_keyAttributes describes k known
  by_cases declares : e.Declares k.storageName
  · obtain ⟨f, inRecord, -, same, -⟩ := ofEntity.declared declares
    exact same ▸ fields f inRecord
  · rw [(ofEntity.undeclared declares).1]
    exact undeclared k known declares

/-- The parameters of key functions are key attributes of the entity. -/
theorem keyFunctions_keys {f : Stmt × List KeyAttribute} (member : f ∈ keyFunctions e table) :
    f.2 ⊆ keyAttributes e table := by
  cases table with
  | none =>
    obtain rfl := List.mem_singleton.mp member
    exact List.Subset.refl _
  | some t =>
    rcases List.mem_cons.mp member with rfl | lookup
    · exact List.subset_append_left _ _
    · rcases List.mem_cons.mp lookup with rfl | lookup
      · exact List.subset_append_left _ _
      · rcases List.mem_cons.mp lookup with rfl | query
        · exact List.subset_append_left _ _
        · obtain ⟨i, inTable, rfl⟩ := List.mem_map.mp query
          exact fun k known => List.mem_append_right _ (List.mem_flatMap.mpr ⟨i, inTable, known⟩)

/-! ## Parameters -/

def parameterNames (s : Signature) : List String := s.params.map (·.name) ++ s.rest.toList.map (·.name)

theorem wellFormed_iff {signatures : List Signature} {names : List String}
    (only : signatures.map parameterNames = [names]) : (∀ s ∈ signatures, s.wellFormed) ↔ names.Nodup := by
  have each : (∀ s ∈ signatures, s.wellFormed) ↔ ∀ names ∈ signatures.map parameterNames, names.Nodup := by
    simp [Signature.wellFormed, parameterNames]
  rw [each, only, List.forall_mem_singleton]

theorem keyParams_names (keys : List KeyAttribute) : (keyParams keys).map (·.name) = keys.map (·.identifier) := by
  simp [keyParams, Param.required]

theorem keyFunction_parameters (e : Entity) :
    (keyFunction e).signatures.map parameterNames = [e.keys.map (·.identifier)] := by
  simp [keyFunction, Stmt.signatures, Source.signaturesAll, Param.required, parameterNames]

theorem queryMethod_parameters (e : Entity) (i : Index) (partitionKey : KeyAttribute) (sortKey : Option KeyAttribute) :
    (queryMethod e i partitionKey sortKey).signatures.map parameterNames =
      ["self" :: (partitionKey :: sortKey.toList).map (·.identifier)] := by
  cases sortKey <;> rfl

/-- The methods that look items up have the receiver and the key attributes as parameters. -/
theorem lookups_parameters {f : Stmt × List KeyAttribute} (lookup : f ∈ lookups e t) :
    f.1.signatures.map parameterNames = ["self" :: f.2.map (·.identifier)] := by
  rcases List.mem_cons.mp lookup with rfl | lookup
  · rw [← keyParams_names]
    simp [findByKey, Stmt.signatures, Source.signaturesAll, Stmt.bind, Param.plain, parameterNames]
  · rcases List.mem_cons.mp lookup with rfl | query
    · rw [← keyParams_names]
      simp [deleteByKey, Stmt.signatures, Source.signaturesAll, Param.plain, parameterNames]
    · obtain ⟨i, -, rfl⟩ := List.mem_map.mp query
      exact queryMethod_parameters e i _ _

/-! ## Names of their own -/

/-- The names of key attributes are their own: the parameters of every function differ if the attributes do, no field is
called like a key attribute of another storage name, and the constants of the record class name no field that is stored
under another name than those of the key helper. -/
structure KeepsKeyNames (e : Entity) (table : Option Table) : Prop where
  parameters : ∀ f ∈ keyFunctions e table, (f.2.map (·.storageName)).Nodup → ∀ s ∈ f.1.signatures, s.wellFormed
  identifiers : ∀ k ∈ keyAttributes e table, ∀ f ∈ e.record.fields,
    f.identifier = k.identifier → f.storageName = k.storageName
  constants : ∀ names ∈ [("PARTITION_KEY", "PARTITION_KEY_FIELD"), ("SORT_KEY", "SORT_KEY_FIELD")],
    ∀ identifier storageName, Stmt.bind names.1 (Expr.text identifier) ∈ (recordClass e.enums e.record).value.suite →
      Stmt.bind names.2 (Expr.text storageName) ∈ (keysHelper e table).suite →
      ∀ f ∈ e.record.fields, f.identifier = identifier → f.storageName = storageName

/-- The camel case of an undeclared key attribute is no identifier of a field, nor that of another undeclared parameter of
one function, and no method takes a field that is called like its receiver. -/
structure KeysApart (e : Entity) (table : Option Table) : Prop where
  fields : ∀ k ∈ keyAttributes e table, ¬ e.Declares k.storageName →
    Name.camelCase k.storageName ∉ e.record.fields.map (·.identifier)
  undeclared : ∀ f ∈ keyFunctions e table, (f.2.map (·.storageName)).Nodup → ∀ k ∈ f.2, ∀ l ∈ f.2,
    ¬ e.Declares k.storageName → ¬ e.Declares l.storageName →
    Name.camelCase k.storageName = Name.camelCase l.storageName → k.storageName = l.storageName
  receiver : ∀ t ∈ table, ∀ f ∈ lookups e t, (f.2.map (·.storageName)).Nodup → "self" ∉ f.2.map (·.identifier)

instance (e : Entity) (table : Option Table) : Decidable (KeysApart e table) :=
  decidable_of_iff ((∀ k ∈ keyAttributes e table, _) ∧ (∀ f ∈ keyFunctions e table, _) ∧ ∀ t ∈ table, _)
    ⟨fun ⟨fields, undeclared, receiver⟩ => ⟨fields, undeclared, receiver⟩,
      fun ⟨fields, undeclared, receiver⟩ => ⟨fields, undeclared, receiver⟩⟩

section

variable (describes : Describes s e)
include describes

/-- The constants of the record class name the key attributes of the entity. -/
theorem bind_mem_recordClass {name identifier : String}
    (bound : Stmt.bind name (Expr.text identifier) ∈ (recordClass e.enums e.record).value.suite) :
    (name = "PARTITION_KEY" ∧ identifier = e.partitionKey.identifier) ∨
      name = "SORT_KEY" ∧ ∃ k ∈ e.sortKey, identifier = k.identifier := by
  have constant : Stmt.bind name (Expr.text identifier) ∈ classConstants e.record := by
    rw [recordClass_body] at bound
    simpa [Stmt.suite, recordBody, constructor_value, property, classMethod, toItem, plainMethod, fromItem, equality,
      hash, shown, builderClass, Stmt.bind] using bound
  rw [classConstants, describes.role, List.mem_append, List.mem_cons] at constant
  rcases constant with (partition | sort) | renamed
  · simp only [Stmt.bind, Expr.text, Stmt.assign.injEq, Expr.name.injEq, Expr.constant.injEq, Value.text.injEq] at partition
    exact .inl partition
  · obtain ⟨key, isGiven, same⟩ := Option.map_eq_some_iff.mp (Option.mem_toList.mp sort)
    simp only [Stmt.bind, Expr.text, Stmt.assign.injEq, Expr.name.injEq, Expr.constant.injEq, Value.text.injEq] at same
    obtain ⟨k, isKey, rfl⟩ := Option.map_eq_some_iff.mp (Option.eq_some_of_filter_eq_some isGiven)
    exact .inr ⟨same.1.symm, k, isKey, same.2.symm⟩
  · simp [Stmt.bind, Expr.text] at renamed

end

/-- The constants of the key helper name the storage names of the key attributes. -/
theorem bind_mem_keysHelper {name storageName : String} (noIndex : ¬ "INDEX_".toList <+: name.toList)
    (bound : Stmt.bind name (Expr.text storageName) ∈ (keysHelper e table).suite) :
    (name = "PARTITION_KEY_FIELD" ∧ storageName = e.partitionKey.storageName) ∨
      name = "SORT_KEY_FIELD" ∧ ∃ k ∈ e.sortKey, storageName = k.storageName := by
  have parts : Stmt.bind name (Expr.text storageName) ∈
      Stmt.bind "PARTITION_KEY_FIELD" (Expr.text e.partitionKey.storageName)
        :: ((e.sortKey.map fun k => Stmt.bind "SORT_KEY_FIELD" (Expr.text k.storageName)).toList
        ++ (indexConstants table ++ [refusingConstructor (keysClass e.name), keyFunction e])) := by
    simpa [keysHelper, Stmt.suite] using bound
  rcases List.mem_cons.mp parts with partition | parts
  · simp only [Stmt.bind, Expr.text, Stmt.assign.injEq, Expr.name.injEq, Expr.constant.injEq, Value.text.injEq] at partition
    exact .inl partition
  · rcases List.mem_append.mp parts with sort | parts
    · obtain ⟨k, isKey, same⟩ := Option.map_eq_some_iff.mp (Option.mem_toList.mp sort)
      simp only [Stmt.bind, Expr.text, Stmt.assign.injEq, Expr.name.injEq, Expr.constant.injEq, Value.text.injEq] at same
      exact .inr ⟨same.1.symm, k, isKey, same.2.symm⟩
    · rcases List.mem_append.mp parts with index | function
      · obtain ⟨i, -, same⟩ := List.mem_map.mp index
        simp only [Stmt.bind, Stmt.assign.injEq, Expr.name.injEq] at same
        refine absurd ?_ noIndex
        rw [← same.1, Name.indexConstant, String.toList_append]
        exact List.prefix_append _ _
      · simp [Stmt.bind, refusingConstructor, keyFunction] at function

/-! ## Exactness -/

section

variable (describes : Describes s e) (distinct : (e.record.fields.map (·.identifier)).Nodup)
include describes distinct

namespace KeysApart

variable (apart : KeysApart e table)
include apart

theorem names_field {k : KeyAttribute} (known : k ∈ keyAttributes e table) {f : ResolvedField}
    (inRecord : f ∈ e.record.fields) (same : f.identifier = k.identifier) : f.storageName = k.storageName :=
  (ofEntity_keyAttributes describes k known).names_field distinct (apart.fields k known) inRecord same

/-- The parameters that stand for key attributes are different. -/
theorem identifiers_nodup {f : Stmt × List KeyAttribute} (member : f ∈ keyFunctions e table)
    (different : (f.2.map (·.storageName)).Nodup) : (f.2.map (·.identifier)).Nodup := by
  refine List.Nodup.map_on ?_ (List.Nodup.of_map _ different)
  intro k inKeys l inKeys' same
  have known := keyFunctions_keys member inKeys
  have known' := keyFunctions_keys member inKeys'
  refine List.inj_on_of_nodup_map different inKeys inKeys' ?_
  exact (ofEntity_keyAttributes describes k known).identifier_inj distinct (apart.fields k known)
    (ofEntity_keyAttributes describes l known') (apart.fields l known')
    (apart.undeclared f member different k inKeys l inKeys') same

theorem keepsKeyNames : KeepsKeyNames e table where
  parameters f member different := by
    have identifiers := apart.identifiers_nodup describes distinct member different
    rcases List.mem_cons.mp member with rfl | lookup
    · exact (wellFormed_iff (keyFunction_parameters e)).mpr identifiers
    · cases table with
      | none => cases lookup
      | some t =>
        refine (wellFormed_iff (lookups_parameters lookup)).mpr ?_
        exact List.nodup_cons.mpr ⟨apart.receiver t rfl f lookup different, identifiers⟩
  identifiers k known f inRecord same := apart.names_field describes distinct known inRecord same
  constants := by
    have known : ∀ k ∈ e.keys, k ∈ keyAttributes e table :=
      fun k isKey => keyFunctions_keys (f := (keyFunction e, e.keys)) List.mem_cons_self isKey
    intro names pair identifier storageName inRecordClass inHelper f inRecord same
    have noIndex : ∀ names ∈ [("PARTITION_KEY", "PARTITION_KEY_FIELD"), ("SORT_KEY", "SORT_KEY_FIELD")],
        ¬ "INDEX_".toList <+: names.2.toList := by decide
    have field := bind_mem_keysHelper (noIndex names pair) inHelper
    have constant := bind_mem_recordClass describes inRecordClass
    simp only [List.mem_cons, List.not_mem_nil, or_false] at pair
    rcases pair with rfl | rfl
    · -- the partition key
      obtain ⟨-, rfl⟩ | ⟨other, -⟩ := constant
      · obtain ⟨-, rfl⟩ | ⟨other, -⟩ := field
        · exact apart.names_field describes distinct (known _ List.mem_cons_self) inRecord same
        · exact absurd other (by decide)
      · exact absurd other (by decide)
    · -- the sort key
      obtain ⟨other, -⟩ | ⟨-, k, isKey, rfl⟩ := constant
      · exact absurd other (by decide)
      · obtain ⟨other, -⟩ | ⟨-, l, isKey', rfl⟩ := field
        · exact absurd other (by decide)
        · obtain rfl : k = l := Option.some.inj (isKey.symm.trans isKey')
          refine apart.names_field describes distinct (known k ?_) inRecord same
          exact List.mem_cons_of_mem _ (Option.mem_toList.mpr isKey)

end KeysApart

omit describes distinct in
theorem KeepsKeyNames.identifiers_nodup (keeps : KeepsKeyNames e table) {f : Stmt × List KeyAttribute}
    (member : f ∈ keyFunctions e table) (different : (f.2.map (·.storageName)).Nodup) :
    (f.2.map (·.identifier)).Nodup := by
  have wellFormed := keeps.parameters f member different
  rcases List.mem_cons.mp member with rfl | lookup
  · exact (wellFormed_iff (keyFunction_parameters e)).mp wellFormed
  · cases table with
    | none => cases lookup
    | some t => exact (List.nodup_cons.mp ((wellFormed_iff (lookups_parameters lookup)).mp wellFormed)).2

/-- The key attributes of an entity have names of their own if and only if the undeclared ones are apart in camel case
and no method has a second parameter for its receiver. -/
theorem keepsKeyNames_iff : KeepsKeyNames e table ↔ KeysApart e table := by
  refine ⟨fun keeps => ⟨?_, ?_, ?_⟩, fun apart => apart.keepsKeyNames describes distinct⟩
  · intro k known absent taken
    obtain ⟨f, inRecord, same⟩ := List.mem_map.mp taken
    rw [← ((ofEntity_keyAttributes describes k known).undeclared absent).1] at same
    exact absent (List.mem_map.mpr ⟨f, inRecord, keeps.identifiers k known f inRecord same⟩)
  · intro f member different k inKeys l inKeys' absent absent' same
    rw [← ((ofEntity_keyAttributes describes k (keyFunctions_keys member inKeys)).undeclared absent).1,
      ← ((ofEntity_keyAttributes describes l (keyFunctions_keys member inKeys')).undeclared absent').1] at same
    rw [List.inj_on_of_nodup_map (keeps.identifiers_nodup member different) inKeys inKeys' same]
  · rintro t rfl f lookup different
    have wellFormed := keeps.parameters f (List.mem_cons_of_mem _ lookup) different
    exact (List.nodup_cons.mp ((wellFormed_iff (lookups_parameters lookup)).mp wellFormed)).1

end

end Tablewright.Access
