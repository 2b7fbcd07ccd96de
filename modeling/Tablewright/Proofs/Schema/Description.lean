import Tablewright.Proofs.Plan.Outcome
import Tablewright.Proofs.Schema.Scopes

/-!
# Descriptions

What the description of a schema consists of: every record of it stands for a scope of the fields of the
schema, and its fields have the identifiers of that scope and types whose records and enums are described
too.

* `Needs.Within`: needs that are met by others.
* `mapField_shape`: the kinds of types a field can have, with what each needs.
* `mapFields_records`: the scope that a needed record stands for.
* `Schema.entity`, `describe_value`: a description, which is refused if two of its types share a name.
* `describe_ok`: the parts of an accepted description.
-/

namespace Tablewright

/-! ## Needs -/

namespace Needs

@[simp] theorem records_append (a b : Needs) : (a ++ b).records = a.records ++ b.records := rfl

@[simp] theorem enums_append (a b : Needs) : (a ++ b).enums = a.enums ++ b.enums := rfl

@[simp] theorem records_nothing : nothing.records = [] := rfl

@[simp] theorem enums_nothing : nothing.enums = [] := rfl

@[simp] theorem records_record (r : Record) : (record r).records = [r] := rfl

@[simp] theorem enums_record (r : Record) : (record r).enums = [] := rfl

@[simp] theorem records_enum (e : EnumType) : (enum e).records = [] := rfl

@[simp] theorem enums_enum (e : EnumType) : (enum e).enums = [e] := rfl

/-- Every record and enum of some needs is among those of others. -/
structure Within (a b : Needs) : Prop where
  records : a.records ⊆ b.records
  enums : a.enums ⊆ b.enums

theorem Within.refl (a : Needs) : Within a a := ⟨List.Subset.refl _, List.Subset.refl _⟩

theorem Within.trans {a b c : Needs} (ab : Within a b) (bc : Within b c) : Within a c :=
  ⟨List.Subset.trans ab.records bc.records, List.Subset.trans ab.enums bc.enums⟩

theorem Within.append_left (a b : Needs) : Within a (a ++ b) :=
  ⟨List.subset_append_left _ _, List.subset_append_left _ _⟩

theorem Within.append_right (a b : Needs) : Within b (a ++ b) :=
  ⟨List.subset_append_right _ _, List.subset_append_right _ _⟩

end Needs

@[simp] theorem mapName_records (typeName : String) : (mapName typeName).2.records = [] := by
  rw [mapName]
  split <;> rfl

@[simp] theorem mapName_enums (typeName : String) : (mapName typeName).2.enums = [] := by
  rw [mapName]
  split <;> rfl

/-! ## Types of fields -/

namespace TypeRef

def recordNames : TypeRef → List String
  | .record name => [name]
  | .list element => recordNames element
  | _ => []

def enumNames : TypeRef → List String
  | .enum name => [name]
  | .list element => enumNames element
  | _ => []

/-- The records and enums that a type mentions are among the given ones. -/
structure Provided (type : TypeRef) (records : List Record) (enums : List EnumType) : Prop where
  records : ∀ name ∈ type.recordNames, name ∈ records.map (·.name)
  enums : ∀ name ∈ type.enumNames, name ∈ enums.map (·.name)

theorem Provided.within {type : TypeRef} {needs more : Needs} (provided : type.Provided needs.records needs.enums)
    (within : needs.Within more) : type.Provided more.records more.enums :=
  ⟨fun name mentioned => List.map_subset _ within.records (provided.records name mentioned),
    fun name mentioned => List.map_subset _ within.enums (provided.enums name mentioned)⟩

/-- The type of a type name mentions no generated type. -/
theorem ofName_names (name : String) : (ofName name).recordNames = [] ∧ (ofName name).enumNames = [] := by
  rw [ofName]
  cases Kind.ofName name <;> exact ⟨rfl, rfl⟩

end TypeRef

/-- The nested record of a name whose fields are those of a scope. -/
def nestedRecord (name : String) (scope : List Field) (description : Option String) : Record :=
  ⟨name, (mapFields name scope).1, description, .nested⟩

/-- The types a field can have: an enum, a record of its fields, a list of records of its element fields,
and types without names. -/
theorem mapField_shape (owner : String) (f : Field) :
    mapField owner f = (.enum (f.ownTypeName owner), .enum (enumOf owner f.toDeclaration)) ∨
    (∃ name, mapField owner f = (.record name,
      (mapFields name f.fields).2 ++ .record (nestedRecord name f.fields f.description))) ∨
    (∃ name, mapField owner f = (.list (.record name),
      (mapFields name f.itemFields).2 ++ .record (nestedRecord name f.itemFields none))) ∨
    ((mapField owner f).1.recordNames = [] ∧ (mapField owner f).1.enumNames = [] ∧
      (mapField owner f).2.records = [] ∧ (mapField owner f).2.enums = []) := by
  obtain ⟨d, fields, itemType, itemFields⟩ := f
  have named : ∀ name, (mapName name).1.recordNames = [] ∧ (mapName name).1.enumNames = [] ∧
      (mapName name).2.records = [] ∧ (mapName name).2.enums = [] := fun name =>
    ⟨(TypeRef.ofName_names name).1, (TypeRef.ofName_names name).2, mapName_records name, mapName_enums name⟩
  rw [mapField.eq_def]
  by_cases isEnum : d.isEnum
  · exact .inl (by simp [isEnum])
  · right
    simp only [isEnum, Bool.false_eq_true, if_false]
    cases kind : d.kind with
    | map =>
      by_cases empty : fields.isEmpty
      · exact .inr (.inr (by simp [empty, TypeRef.recordNames, TypeRef.enumNames]))
      · exact .inl ⟨d.ownTypeName owner, by simp [empty, nestedRecord]⟩
    | list =>
      right
      cases itemType with
      | none => exact .inr (by simp [TypeRef.recordNames, TypeRef.enumNames])
      | some itemType =>
        by_cases isRecord : Kind.ofName itemType = .map ∧ ¬ itemFields.isEmpty
        · exact .inl ⟨d.ownTypeName owner ++ "Item", by simp only [if_pos isRecord]; rfl⟩
        · simp only [if_neg isRecord]
          exact .inr (by simpa [TypeRef.recordNames, TypeRef.enumNames] using named itemType)
    | _ => exact .inr (.inr (named d.typeName))

/-- A field needs the records and enums that its type mentions. -/
theorem mapField_provided (owner : String) (f : Field) :
    (mapField owner f).1.Provided (mapField owner f).2.records (mapField owner f).2.enums := by
  rcases mapField_shape owner f with isEnum | ⟨name, isRecord⟩ | ⟨name, isList⟩ | ⟨noRecord, noEnum, -, -⟩
  · rw [isEnum]
    constructor <;> simp [TypeRef.recordNames, TypeRef.enumNames, enumOf]
  · rw [isRecord]
    constructor <;> simp [TypeRef.recordNames, TypeRef.enumNames, nestedRecord]
  · rw [isList]
    constructor <;> simp [TypeRef.recordNames, TypeRef.enumNames, nestedRecord]
  · constructor
    · simp [noRecord]
    · simp [noEnum]

/-! ## Records and their scopes -/

theorem mapFields_fields (owner : String) (fields : List Field) :
    (mapFields owner fields).1 = fields.map fun f => ⟨f, f.identifier, (mapField owner f).1⟩ := by
  induction fields with
  | nil => rw [mapFields, List.map_nil]
  | cons f rest ih =>
    rw [mapFields, List.map_cons, ← ih]

/-- The fields of a scope keep their identifiers. -/
theorem mapFields_identifiers (owner : String) (fields : List Field) :
    (mapFields owner fields).1.map (·.identifier) = fields.map (·.identifier) := by
  rw [mapFields_fields, List.map_map]
  rfl

theorem mapFields_cons (owner : String) (f : Field) (rest : List Field) :
    (mapFields owner (f :: rest)).2 = (mapField owner f).2 ++ (mapFields owner rest).2 := by
  rw [mapFields]

/-- What one field of a scope needs is needed by the scope. -/
theorem mapField_within {owner : String} {f : Field} {fields : List Field} (member : f ∈ fields) :
    (mapField owner f).2.Within (mapFields owner fields).2 := by
  induction fields with
  | nil => cases member
  | cons first rest ih =>
    rw [mapFields_cons]
    rcases List.mem_cons.mp member with rfl | member
    · exact .append_left _ _
    · exact (ih member).trans (.append_right _ _)

/-- A record stands for a scope: it is nested, its fields are those of the scope, and what they need is among
the given needs. -/
structure Record.StandsFor (r : Record) (scope : List Field) (needs : Needs) : Prop where
  role : r.role = .nested
  fields : r.fields = (mapFields r.name scope).1
  needed : (mapFields r.name scope).2.Within needs

theorem Record.StandsFor.within {r : Record} {scope : List Field} {needs more : Needs}
    (stands : r.StandsFor scope needs) (within : needs.Within more) : r.StandsFor scope more :=
  ⟨stands.role, stands.fields, stands.needed.trans within⟩

mutual

/-- The records that a field needs stand for scopes below it. -/
theorem mapField_records {owner : String} {r : Record} :
    (f : Field) → r ∈ (mapField owner f).2.records →
      ∃ scope, f.ScopeBelow scope ∧ r.StandsFor scope (mapField owner f).2
  | ⟨d, fields, itemType, itemFields⟩, member => by
    have shape := mapField_shape owner ⟨d, fields, itemType, itemFields⟩
    rcases shape with isEnum | ⟨name, isRecord⟩ | ⟨name, isList⟩ | ⟨-, -, none, -⟩
    · simp [isEnum] at member
    · rw [isRecord] at member ⊢
      -- the record of the field itself comes after the records that its fields need
      rcases List.mem_append.mp member with below | here
      · obtain ⟨g, inFields, scope, is, stands⟩ := mapFields_records fields below
        exact ⟨scope, .inl (is.scope inFields), stands.within (.append_left _ _)⟩
      · obtain rfl := List.mem_singleton.mp here
        exact ⟨fields, .inl (.self fields), rfl, rfl, .append_left _ _⟩
    · rw [isList] at member ⊢
      rcases List.mem_append.mp member with below | here
      · obtain ⟨g, inFields, scope, is, stands⟩ := mapFields_records itemFields below
        exact ⟨scope, .inr (is.scope inFields), stands.within (.append_left _ _)⟩
      · obtain rfl := List.mem_singleton.mp here
        exact ⟨itemFields, .inr (.self itemFields), rfl, rfl, .append_left _ _⟩
    · rw [none] at member
      cases member

/-- The records that the fields of a scope need stand for scopes below one of them. -/
theorem mapFields_records {owner : String} {r : Record} :
    (fields : List Field) → r ∈ (mapFields owner fields).2.records →
      ∃ f ∈ fields, ∃ scope, f.ScopeBelow scope ∧ r.StandsFor scope (mapFields owner fields).2
  | [], member => by simp [mapFields] at member
  | f :: rest, member => by
    rw [mapFields_cons] at member ⊢
    rcases List.mem_append.mp member with here | there
    · obtain ⟨scope, is, stands⟩ := mapField_records f here
      exact ⟨f, List.mem_cons_self, scope, is, stands.within (.append_left _ _)⟩
    · obtain ⟨g, inRest, scope, is, stands⟩ := mapFields_records rest there
      exact ⟨g, List.mem_cons_of_mem _ inRest, scope, is, stands.within (.append_right _ _)⟩

end

/-- The types of the fields of a scope mention what the scope needs. -/
theorem mapFields_provided {owner : String} {fields : List Field} {g : ResolvedField}
    (member : g ∈ (mapFields owner fields).1) :
    g.type.Provided (mapFields owner fields).2.records (mapFields owner fields).2.enums := by
  rw [mapFields_fields] at member
  obtain ⟨f, inFields, rfl⟩ := List.mem_map.mp member
  exact (mapField_provided owner f).within (mapField_within inFields)

/-! ## Descriptions -/

/-- A key attribute is a text, or it has the type of a field. -/
theorem keyAttribute_type (entityName : String) (fields : List ResolvedField) (storageName : String) :
    (keyAttribute entityName fields storageName).value.type = .scalar .string ∨
      ∃ f ∈ fields, (keyAttribute entityName fields storageName).value.type = f.type := by
  rw [keyAttribute]
  cases found : fields.reverse.find? (·.storageName == storageName) with
  | none => exact .inl rfl
  | some f => exact .inr ⟨f, List.mem_reverse.mp (List.mem_of_find?_eq_some found), rfl⟩

/-- The description of a schema: its record has the fields of the schema, and what they need is described
beside it. -/
structure Describes (s : Schema) (e : Entity) : Prop where
  schema : e.schema = s
  name : e.record.name = s.name
  fields : e.record.fields = (mapFields s.name s.fields).1
  role : e.record.role = .entity e.partitionKey.identifier (e.sortKey.map (·.identifier))
  nested : e.nested = (mapFields s.name s.fields).2.records
  enums : e.enums = (mapFields s.name s.fields).2.enums
  partitionKey : e.partitionKey = (keyAttribute s.name e.record.fields s.primaryKey.partitionKey).value
  sortKey : e.sortKey =
    s.primaryKey.sortKey?.map fun storageName => (keyAttribute s.name e.record.fields storageName).value

/-- The description of a schema, whether or not two of its types share a name. -/
def Schema.entity (s : Schema) : Entity :=
  let mapped := mapFields s.name s.fields
  let partitionKey := (keyAttribute s.name mapped.1 s.primaryKey.partitionKey).value
  let sortKey := s.primaryKey.sortKey?.map fun storageName => (keyAttribute s.name mapped.1 storageName).value
  { schema := s
    record :=
      { name := s.name
        fields := mapped.1
        description := s.description
        role := .entity partitionKey.identifier (sortKey.map (·.identifier)) }
    nested := mapped.2.records
    enums := mapped.2.enums
    partitionKey
    sortKey }

/-- A schema is described unless two of its types share a name. -/
theorem describe_value (s : Schema) : (describe s).value = match sharedTypeName? [] s.entity.typeNames with
    | some shared => .error shared
    | none => .ok s.entity := by
  unfold describe Schema.entity
  cases s.primaryKey.sortKey? <;> rfl

theorem describe_ok {s : Schema} {e : Entity} (described : (describe s).value = .ok e) : Describes s e := by
  rw [describe_value] at described
  split at described
  · cases described
  · obtain rfl := Except.ok.inj described
    constructor <;> rfl

/-- Every record of a description stands for a scope of the schema. -/
theorem Describes.scope {s : Schema} {e : Entity} (describes : Describes s e) {r : Record}
    (member : r ∈ e.record :: e.nested) :
    ∃ scope, Scope s.fields scope ∧ r.fields = (mapFields r.name scope).1 ∧
      (mapFields r.name scope).2.Within (mapFields s.name s.fields).2 := by
  rcases List.mem_cons.mp member with rfl | nested
  · refine ⟨s.fields, .self _, ?_, ?_⟩
    · rw [describes.name]
      exact describes.fields
    · rw [describes.name]
      exact .refl _
  · rw [describes.nested] at nested
    obtain ⟨f, inFields, scope, below, stands⟩ := mapFields_records s.fields nested
    exact ⟨scope, below.scope inFields, stands.fields, stands.needed⟩

/-- The types of all fields of a description mention described types only. -/
theorem Describes.provided {s : Schema} {e : Entity} (describes : Describes s e) {r : Record}
    (member : r ∈ e.record :: e.nested) {f : ResolvedField} (inRecord : f ∈ r.fields) :
    f.type.Provided e.nested e.enums := by
  obtain ⟨scope, -, fields, within⟩ := describes.scope member
  rw [fields] at inRecord
  rw [describes.nested, describes.enums]
  exact (mapFields_provided inRecord).within within

/-- The nested records of a description know that they are. -/
theorem Describes.role_nested {s : Schema} {e : Entity} (describes : Describes s e) {r : Record}
    (nested : r ∈ e.nested) : r.role = .nested := by
  rw [describes.nested] at nested
  obtain ⟨f, inFields, scope, below, stands⟩ := mapFields_records s.fields nested
  exact stands.role

/-- The type of a key attribute mentions described types only. -/
theorem Describes.provided_keyAttribute {s : Schema} {e : Entity} (describes : Describes s e)
    (entityName storageName : String) :
    (Tablewright.keyAttribute entityName e.record.fields storageName).value.type.Provided e.nested e.enums := by
  rcases keyAttribute_type entityName e.record.fields storageName with text | ⟨f, inRecord, type⟩
  · rw [text]
    constructor <;> simp [TypeRef.recordNames, TypeRef.enumNames]
  · rw [type]
    exact describes.provided List.mem_cons_self inRecord

theorem Describes.identifiers_nodup {s : Schema} {e : Entity} (describes : Describes s e)
    (uncollided : collisions s.fields = []) {r : Record} (member : r ∈ e.record :: e.nested) :
    (r.fields.map (·.identifier)).Nodup := by
  obtain ⟨scope, is, fields, -⟩ := describes.scope member
  rw [fields, mapFields_identifiers]
  exact Tablewright.identifiers_nodup uncollided is

/-- The collisions of a list of fields are the identifiers that fields share, scope by scope.  So the records
of a description of fields without collisions have different identifiers, however deep they lie. -/
theorem collisions_cover_scopes :
    (∀ fields, collisions fields = (scopes fields).flatMap sharedIdentifiers) ∧
    ∀ s e, checkCollisions s = .ok () → (describe s).value = .ok e →
      ∀ r ∈ e.record :: e.nested, (r.fields.map (·.identifier)).Nodup := by
  refine ⟨collisions_eq, ?_⟩
  intro s e checked described r member
  refine (describe_ok described).identifiers_nodup ?_ member
  unfold checkCollisions at checked
  split at checked
  · assumption
  · cases checked

/-- A field that declares nothing but its type. -/
def bareField (name typeName : String) : Field :=
  { name, typeName, required := false, nameOverride := none, description := none, default := .null,
    enumValues := [], constraints := none, fields := [], itemType := none, itemFields := [] }

/-- An order with a state, an amount and lines, which have fields of their own. -/
def shopOrder : Schema :=
  { entityName := some "Order"
    primaryKey := ⟨"order-id", some "placed-at"⟩
    fields :=
      [{ bareField "order-id" "string" with
         required := true, constraints := some ⟨some (.int 1), none, some (.text "[a-z]+"), none, none⟩ },
       { bareField "placed-at" "timestamp" with required := true },
       { bareField "state" "string" with enumValues := ["open", "paid"], default := .text "open" },
       { bareField "total" "number" with constraints := some ⟨none, none, none, some (.int 0), none⟩ },
       { bareField "lines" "list" with
         itemType := some "map"
         itemFields := [bareField "sku" "string", bareField "amounts" "number-set",
           { bareField "size" "map" with fields := [bareField "unit" "string"] }] }]
    description := none
    schemaVersion := none }

theorem shopOrder_identifiers :
    ∃ e, (describe shopOrder).value = .ok e ∧
      ∀ r ∈ e.record :: e.nested, (r.fields.map (·.identifier)).Nodup := by
  have accepted : (describe shopOrder).value.isOk := by decide +kernel
  cases outcome : (describe shopOrder).value with
  | error shared => simp [outcome, Except.isOk, Except.toBool] at accepted
  | ok e =>
    have uncollided : collisions shopOrder.fields = [] := by decide +kernel
    have checked : checkCollisions shopOrder = .ok () := by rw [checkCollisions, uncollided]
    exact ⟨e, rfl, collisions_cover_scopes.2 shopOrder e checked outcome⟩

end Tablewright
