import Mathlib.Tactic.MkIffOfInductiveProp
import Tablewright.Proofs.Document.Entries

/-!
# Writing schemas

Schemas as documents in the usual spelling.  What a schema leaves out has no entry, and the older form keeps the entity in
a block of its own.

* `Field.written`, `Schema.written`, `Schema.writtenNested`: the documents of a field and of a schema.
* `Schema.Proper`: schemas with the names and bounds that documents may have.
* `fieldOf_written`: a field is read from its document, whatever place it stands at.
* `readSchema_written`: both documents of a schema are read as the schema.
-/

namespace Tablewright

open Value (get?)

/-! ## Documents -/

/-- The entries that are given, under their names. -/
def givenEntries (parts : List (String × Option Value)) : List (Value × Value) :=
  parts.filterMap fun part => part.2.map fun v => (.text part.1, v)

/-- A list that is left out where it has no members. -/
def unlessEmpty {α : Type} (items : List α) : Option (List α) := if items.isEmpty then none else some items

def Constraints.written (c : Constraints) : Value :=
  .dict (givenEntries [("minLength", c.minLength), ("maxLength", c.maxLength), ("pattern", c.pattern),
    ("min", c.min), ("max", c.max)])

def Declaration.parts (d : Declaration) : List (String × Option Value) :=
  [("name", some (.text d.name)), ("type", some (.text d.typeName)), ("required", some (.bool d.required)),
    ("nameOverride", d.nameOverride.map .text), ("description", d.description.map .text),
    ("default", if d.hasDefault then some d.default else none),
    ("enumValues", (unlessEmpty (d.enumValues.map .text)).map .list), ("constraints", d.constraints.map Constraints.written)]

mutual

def Field.written : Field → Value
  | ⟨d, fields, itemType, itemFields⟩ =>
    .dict (givenEntries (d.parts ++ [("fields", (unlessEmpty (writtenFields fields)).map .list),
      ("items", itemType.map fun name => .dict (givenEntries [("type", some (.text name)),
        ("fields", (unlessEmpty (writtenFields itemFields)).map .list)]))]))

def writtenFields : List Field → List Value
  | [] => []
  | f :: rest => f.written :: writtenFields rest

end

/-- The document of the elements of a list: their type with the fields that they have. -/
def writtenItems (items : String × List Field) : Value :=
  .dict (givenEntries [("type", some (.text items.1)), ("fields", (unlessEmpty (writtenFields items.2)).map .list)])

def PrimaryKey.written (k : PrimaryKey) : Value :=
  .dict (givenEntries [("partitionKey", some (.text k.partitionKey)), ("sortKey", k.sortKey.map .text)])

def Schema.written (s : Schema) : Value :=
  .dict (givenEntries [("schemaVersion", s.schemaVersion.map .text), ("entityName", s.entityName.map .text),
    ("description", s.description.map .text), ("primaryKey", some s.primaryKey.written),
    ("fields", some (.list (writtenFields s.fields)))])

/-- The document of a schema with a block for all that belongs to the entity. -/
def Schema.writtenNested (s : Schema) : Value :=
  .dict (givenEntries [("schemaVersion", s.schemaVersion.map .text),
    ("entity", some (.dict (givenEntries [("name", s.entityName.map .text),
      ("primaryKey", some s.primaryKey.written), ("fields", some (.list (writtenFields s.fields))),
      ("description", s.description.map .text)])))])

/-! ## Schemas that have documents -/

/-- Lengths are integers, patterns texts and bounds doubles. -/
@[mk_iff]
structure Constraints.Proper (c : Constraints) : Prop where
  minLength : ∀ v ∈ c.minLength, ∃ n, v = .int n
  maxLength : ∀ v ∈ c.maxLength, ∃ n, v = .int n
  pattern : ∀ v ∈ c.pattern, ∃ s, v = .text s
  min : ∀ v ∈ c.min, ∃ x, v = .float x
  max : ∀ v ∈ c.max, ∃ x, v = .float x

@[mk_iff]
structure Declaration.Proper (d : Declaration) : Prop where
  name : d.name ≠ ""
  typeName : d.typeName ≠ ""
  constraints : ∀ c ∈ d.constraints, c.Proper

mutual

/-- A field with proper declarations at every depth; only a list with an element type has fields of elements. -/
def Field.Proper : Field → Prop
  | ⟨d, fields, itemType, itemFields⟩ =>
    d.Proper ∧ AllProper fields ∧ (itemType = none → itemFields = []) ∧ AllProper itemFields

def AllProper : List Field → Prop
  | [] => True
  | f :: rest => f.Proper ∧ AllProper rest

end

@[mk_iff]
structure Schema.Proper (s : Schema) : Prop where
  partitionKey : s.primaryKey.partitionKey ≠ ""
  fields : AllProper s.fields

/-! ## Entries -/

section

variable {α β : Type}

@[simp] theorem getD_unlessEmpty (items : List α) : (unlessEmpty items).getD [] = items := by
  cases items <;> rfl

theorem unlessEmpty_map (f : α → β) (items : List α) :
    unlessEmpty (items.map f) = (unlessEmpty items).map (List.map f) := by
  cases items <;> rfl

theorem eq_of_mem_unlessEmpty {items given : List α} (member : given ∈ unlessEmpty items) : given = items := by
  cases items with
  | nil => cases member
  | cons => exact (Option.some.inj member).symm

end

theorem writtenFields_eq (fs : List Field) : writtenFields fs = fs.map Field.written := by
  induction fs with
  | nil => rw [writtenFields, List.map_nil]
  | cons f rest ih => rw [writtenFields, ih, List.map_cons]

theorem unlessEmpty_writtenFields (fs : List Field) :
    (unlessEmpty (writtenFields fs)).map .list = (unlessEmpty fs).map fun given => Value.list (writtenFields given) := by
  simp only [writtenFields_eq, unlessEmpty_map, Option.map_map, Function.comp_def]

theorem Field.written_mk (d : Declaration) (fields : List Field) (itemType : Option String) (itemFields : List Field) :
    (Field.mk d fields itemType itemFields).written = .dict (givenEntries (d.parts ++
      [("fields", (unlessEmpty fields).map fun given => .list (writtenFields given)),
        ("items", (itemType.map fun name => (name, itemFields)).map writtenItems)])) := by
  rw [Field.written, unlessEmpty_writtenFields, Option.map_map]
  rfl

@[simp] theorem get?_givenEntries_nil (name : String) : get? name (givenEntries []) = none := rfl

@[simp] theorem get?_givenEntries_cons (name other : String) (o : Option Value) (parts : List (String × Option Value)) :
    get? name (givenEntries ((other, o) :: parts)) =
      if other = name then o.or (get? name (givenEntries parts)) else get? name (givenEntries parts) := by
  cases o with
  | none => simp [givenEntries]
  | some v =>
    have cons : givenEntries ((other, some v) :: parts) = (.text other, v) :: givenEntries parts := rfl
    rw [cons, Value.get?_cons, Value.isText_text]
    by_cases same : other = name <;> simp [same]

namespace Value

theorem depth_le_entryDepths (name : String) {es : List (Value × Value)} {v : Value} (stands : get? name es = some v) :
    v.depth ≤ entryDepths es := by
  induction es with
  | nil => cases stands
  | cons entry rest ih =>
    obtain ⟨key, w⟩ := entry
    rw [get?_cons] at stands
    rw [entryDepths]
    split at stands
    · obtain rfl := Option.some.inj stands
      exact Nat.le_max_left ..
    · exact Nat.le_trans (ih stands) (Nat.le_max_right ..)

theorem depths_le_entryDepths (name : String) {es : List (Value × Value)} {items : List Value}
    (stands : get? name es = (unlessEmpty items).map .list) : depths items ≤ entryDepths es := by
  cases items with
  | nil => exact Nat.zero_le _
  | cons first rest =>
    have list : depth (.list (first :: rest)) ≤ entryDepths es := depth_le_entryDepths name stands
    rw [depth] at list
    omega

end Value

namespace Document

/-! ## Readings that succeed -/

section Readings

variable {α β : Type} {s : Spelling} {es : List (Value × Value)} {place : List Step} {read : Reader α}

theorem Checked.map_good (f : α → β) (a : α) : f <$> Checked.good a = .good (f a) := rfl

theorem Checked.seq_good (f : α → β) (a : α) : Checked.good f <*> Checked.good a = .good (f a) := rfl

theorem required_good {v : Value} {a : α} (found : s.value? es = some v) (reads : ∀ place, read place v = .good a) :
    required s read place es = .good a := by
  obtain ⟨⟨spelling, w⟩, here, rfl⟩ := Option.map_eq_some_iff.mp found
  rw [required, here]
  exact reads _

theorem optional_good {v : Value} {a absent : α} (found : s.value? es = some v)
    (reads : ∀ place, read place v = .good a) : optional s read absent place es = .good a := by
  obtain ⟨⟨spelling, w⟩, here, rfl⟩ := Option.map_eq_some_iff.mp found
  rw [optional, here]
  exact reads _

theorem optional_absent {absent : α} (found : s.value? es = none) :
    optional s read absent place es = .good absent := by
  rw [optional, Option.map_eq_none_iff.mp found]

theorem nullable_good {v : Value} {a : α} (notNull : v ≠ .null) (reads : read place v = .good a) :
    nullable read place v = .good (some a) := by
  rw [nullable.eq_def]
  split
  · exact absurd rfl notNull
  · rw [reads]
    rfl

/-- An entry that is written if there is something to write. -/
theorem optional_written (write : α → Value) {o : Option α} (found : s.value? es = o.map write)
    (reads : ∀ a ∈ o, ∀ place, write a ≠ .null ∧ read place (write a) = .good a) :
    optional s (nullable read) none place es = .good o := by
  cases o with
  | none => exact optional_absent found
  | some a => exact optional_good found fun place => nullable_good (reads a rfl place).1 (reads a rfl place).2

theorem optional_text {o : Option String} (found : s.value? es = o.map .text) :
    optional s (nullable text) none place es = .good o :=
  optional_written .text found fun _ _ _ => ⟨nofun, rfl⟩

/-- A text that may be spelled out as missing. -/
theorem optional_textOrNull {o : Option String} (found : s.value? es = some ((o.map .text).getD .null)) :
    optional s (nullable text) none place es = .good o := by
  cases o with
  | none => exact optional_good found fun _ => rfl
  | some t => exact optional_good found fun _ => rfl

theorem each_good (write : α → Value) {items : List α} (reads : ∀ a ∈ items, ∀ place, read place (write a) = .good a)
    (place : List Step) (index : Nat) : each read place index (items.map write) = .good items := by
  induction items generalizing index with
  | nil => rfl
  | cons a rest ih =>
    obtain ⟨here, there⟩ := List.forall_mem_cons.mp reads
    rw [List.map_cons, each, here, ih there]
    rfl

theorem listOf_good (write : α → Value) {items : List α}
    (reads : ∀ a ∈ items, ∀ place, read place (write a) = .good a) :
    listOf read place (.list (items.map write)) = .good items :=
  each_good write reads place 0

/-- A bound is kept as the value that it is read from. -/
theorem bound_written {wrap : α → Value} {o : Option Value} (found : s.value? es = o) (typed : ∀ v ∈ o, ∃ a, v = wrap a)
    (reads : ∀ a place, wrap a ≠ .null ∧ read place (wrap a) = .good a) :
    (optional s (nullable read) none place es).map (·.map wrap) = .good o := by
  cases o with
  | none =>
    rw [optional_absent found]
    rfl
  | some v =>
    obtain ⟨a, rfl⟩ := typed v rfl
    have given : s.value? es = (some a).map wrap := found
    rw [optional_written wrap given fun b member place => reads b place]
    rfl

end Readings

/-! ## Documents that are read -/

variable {place : List Step}

theorem constraintsOf_written {c : Constraints} (proper : c.Proper) : constraintsOf place c.written = .good c := by
  obtain ⟨minLength, maxLength, pattern, min, max⟩ := c
  rw [Constraints.written, constraintsOf, mappingOf]
  simp only
  rw [bound_written (o := minLength) (by simp [Spelling.value?_eq]) proper.minLength
      fun _ _ => ⟨nofun, rfl⟩,
    bound_written (o := maxLength) (by simp [Spelling.value?_eq]) proper.maxLength
      fun _ _ => ⟨nofun, rfl⟩,
    bound_written (o := pattern) (by simp [Spelling.value?_single]) proper.pattern
      fun _ _ => ⟨nofun, rfl⟩,
    bound_written (o := min) (by simp [Spelling.value?_single]) proper.min
      fun _ _ => ⟨nofun, rfl⟩,
    bound_written (o := max) (by simp [Spelling.value?_single]) proper.max
      fun _ _ => ⟨nofun, rfl⟩]
  rfl

theorem nonEmptyText_text {s : String} (given : s ≠ "") : nonEmptyText place (.text s) = .good s := by
  simp [nonEmptyText, text, textOf?, Checked.andThen, given]

theorem primaryKeyOf_written {k : PrimaryKey} (given : k.partitionKey ≠ "") :
    primaryKeyOf place k.written = .good k := by
  obtain ⟨partitionKey, sortKey⟩ := k
  rw [PrimaryKey.written, primaryKeyOf, mappingOf]
  simp only
  rw [required_good (v := .text partitionKey) (by simp [Spelling.value?_eq])
      fun _ => nonEmptyText_text given,
    optional_text (o := sortKey) (by simp [Spelling.value?_eq])]
  rfl

/-- An initial value is carried over as it is. -/
theorem optional_default {d : Declaration} {es : List (Value × Value)}
    (found : (Spelling.single "default").value? es = if d.hasDefault then some d.default else none) :
    optional (.single "default") anything .null place es = .good d.default := by
  by_cases given : d.hasDefault
  · rw [if_pos given] at found
    exact optional_good found fun _ => rfl
  · rw [if_neg given] at found
    have null : d.default = .null := by
      rw [Declaration.hasDefault] at given
      split at given
      · assumption
      · exact absurd rfl given
    rw [optional_absent found, null]

/-- The parts of a field are read, if the fields below it are. -/
theorem partsOf_written {d : Declaration} (proper : d.Proper) {read : Reader (List Field)} {fields : Option (List Field)}
    {items : Option (String × List Field)} {writeFields : List Field → Value} {writeItems : String × List Field → Value}
    (readFields : ∀ fs ∈ fields, ∀ place, writeFields fs ≠ .null ∧ read place (writeFields fs) = .good fs)
    (readItems : ∀ i ∈ items, ∀ place, writeItems i ≠ .null ∧ itemsOf read place (writeItems i) = .good i) :
    partsOf read place (fieldSpellings (givenEntries (d.parts ++
      [("fields", fields.map writeFields), ("items", items.map writeItems)]))) =
      .good ⟨d, fields.getD [], items⟩ := by
  generalize entries : givenEntries (d.parts ++ _) = es
  -- each part finds what is written under its own name, since no two parts share one
  have name : required (.single "name") nonEmptyText place (fieldSpellings es) = .good d.name :=
    required_good (v := .text d.name) (by simp [Spelling.value?_fieldSpellings, ← entries, Declaration.parts])
      fun _ => nonEmptyText_text proper.name
  have typeName : required (.single "type") nonEmptyText place (fieldSpellings es) = .good d.typeName :=
    required_good (v := .text d.typeName) (by simp [Spelling.value?_fieldSpellings, ← entries, Declaration.parts])
      fun _ => nonEmptyText_text proper.typeName
  have isRequired : optional (.single "required") truth false place (fieldSpellings es) = .good d.required :=
    optional_good (v := .bool d.required) (by simp [Spelling.value?_fieldSpellings, ← entries, Declaration.parts])
      fun _ => rfl
  have nameOverride : optional ⟨"nameOverride", "name_override"⟩ (nullable text) none place (fieldSpellings es) =
      .good d.nameOverride :=
    optional_text (by simp [Spelling.value?_eq, get?_fieldSpellings, ← entries, Declaration.parts])
  have description : optional (.single "description") (nullable text) none place (fieldSpellings es) =
      .good d.description :=
    optional_text (by simp [Spelling.value?_fieldSpellings, ← entries, Declaration.parts])
  have default : optional (.single "default") anything .null place (fieldSpellings es) = .good d.default :=
    optional_default (by simp [Spelling.value?_single, get?_fieldSpellings_default, ← entries, Declaration.parts])
  have enumValues : optional ⟨"enumValues", "enum_values"⟩ (nullable (listOf text)) none place (fieldSpellings es) =
      .good (unlessEmpty d.enumValues) := by
    refine optional_written (fun values => .list (values.map .text)) ?_ fun values _ place =>
      ⟨nofun, listOf_good .text fun _ _ _ => rfl⟩
    simp [Spelling.value?_eq, get?_fieldSpellings_enumValues, get?_fieldSpellings, ← entries, Declaration.parts,
      unlessEmpty_map, Function.comp_def]
  have constraints : optional (.single "constraints") (nullable constraintsOf) none place (fieldSpellings es) =
      .good d.constraints :=
    optional_written Constraints.written
      (by simp [Spelling.value?_fieldSpellings, ← entries, Declaration.parts])
      fun c member _ => ⟨nofun, constraintsOf_written (proper.constraints c member)⟩
  have below : optional (.single "fields") (nullable read) none place (fieldSpellings es) = .good fields :=
    optional_written _ (by simp [Spelling.value?_fieldSpellings, ← entries, Declaration.parts]) readFields
  have elements : optional (.single "items") (nullable (itemsOf read)) none place (fieldSpellings es) = .good items :=
    optional_written _ (by simp [Spelling.value?_fieldSpellings, ← entries, Declaration.parts]) readItems
  rw [partsOf, name, typeName, isRequired, nameOverride, description, default, enumValues, constraints, below, elements]
  simp only [Checked.map_good, Checked.seq_good, getD_unlessEmpty]

theorem itemsOf_written {read : Reader (List Field)} {items : String × List Field}
    (reads : ∀ fs ∈ unlessEmpty items.2, ∀ place, read place (.list (writtenFields fs)) = .good fs) :
    itemsOf read place (writtenItems items) = .good items := by
  rw [writtenItems, itemsOf, mappingOf]
  generalize entries : givenEntries _ = es
  have type : required (.single "type") text place es = .good items.1 :=
    required_good (v := .text items.1) (by simp [Spelling.value?_single, ← entries]) fun _ => rfl
  have fields : optional (.single "fields") (nullable read) none place es = .good (unlessEmpty items.2) :=
    optional_written (fun fs => .list (writtenFields fs))
      (by simp [Spelling.value?_single, unlessEmpty_writtenFields, ← entries])
      fun fs member place => ⟨nofun, reads fs member place⟩
  simp only [type, fields, Checked.map_good, Checked.map, Checked.seq_good, getD_unlessEmpty]

theorem listOf_written {fs : List Field} {fuel : Nat}
    (reads : ∀ f ∈ fs, ∀ place, fieldOf fuel place f.written = .good f) (place : List Step) :
    listOf (fieldOf fuel) place (.list (writtenFields fs)) = .good fs := by
  rw [writtenFields_eq]
  exact listOf_good Field.written reads

theorem depths_writtenItems (items : String × List Field) :
    Value.depths (writtenFields items.2) < (writtenItems items).depth := by
  rw [writtenItems, Value.depth, Nat.lt_one_add_iff]
  exact Value.depths_le_entryDepths "fields" (by simp)

/-- The fields below a field lie deeper in its document. -/
theorem depths_written {d : Declaration} {fields : List Field} {itemType : Option String} {itemFields : List Field}
    (elements : itemType = none → itemFields = []) {fuel : Nat}
    (deep : (Field.mk d fields itemType itemFields).written.depth ≤ fuel + 1) :
    Value.depths (writtenFields fields) ≤ fuel ∧ Value.depths (writtenFields itemFields) ≤ fuel := by
  rw [Field.written, Value.depth] at deep
  generalize entries : givenEntries (d.parts ++ _) = es at deep
  constructor
  · have list : Value.depths (writtenFields fields) ≤ Value.entryDepths es :=
      Value.depths_le_entryDepths "fields" (by simp [← entries, Declaration.parts])
    omega
  · cases itemType with
    | none => simp [elements rfl, writtenFields, Value.depths]
    | some name =>
      have block : (writtenItems (name, itemFields)).depth ≤ Value.entryDepths es :=
        Value.depth_le_entryDepths "items" (by simp [← entries, Declaration.parts, writtenItems])
      have : Value.depths (writtenFields itemFields) < _ := depths_writtenItems (name, itemFields)
      omega

theorem fieldOf_mk {d : Declaration} {fields : List Field} {itemType : Option String} {itemFields : List Field}
    (declared : d.Proper) (elements : itemType = none → itemFields = []) {fuel : Nat}
    (readFields : ∀ place, listOf (fieldOf fuel) place (.list (writtenFields fields)) = .good fields)
    (readElements : ∀ place, listOf (fieldOf fuel) place (.list (writtenFields itemFields)) = .good itemFields) :
    fieldOf (fuel + 1) place (Field.mk d fields itemType itemFields).written =
      .good ⟨d, fields, itemType, itemFields⟩ := by
  have whole : (FieldParts.mk d ((unlessEmpty fields).getD []) (itemType.map fun name => (name, itemFields))).field =
      ⟨d, fields, itemType, itemFields⟩ := by
    cases itemType with
    | none => simp [FieldParts.field, elements rfl]
    | some name => simp [FieldParts.field]
  rw [Field.written_mk, fieldOf, mappingOf, partsOf_written declared, Checked.map, whole]
  · intro fs member place
    obtain rfl := eq_of_mem_unlessEmpty member
    exact ⟨nofun, readFields place⟩
  · intro items member place
    obtain ⟨name, -, rfl⟩ := Option.map_eq_some_iff.mp member
    refine ⟨nofun, itemsOf_written fun fs given place => ?_⟩
    obtain rfl := eq_of_mem_unlessEmpty given
    exact readElements place

mutual

theorem fieldOf_written : ∀ (f : Field), f.Proper → ∀ fuel, f.written.depth ≤ fuel → ∀ place,
    fieldOf fuel place f.written = .good f
  | ⟨d, fields, itemType, itemFields⟩, proper, fuel, deep, place => by
    obtain ⟨declared, properFields, elements, properElements⟩ := Field.Proper.eq_def _ ▸ proper
    cases fuel with
    | zero => simp [Field.written_mk, Value.depth] at deep
    | succ fuel =>
      obtain ⟨deepFields, deepElements⟩ := depths_written elements deep
      exact fieldOf_mk declared elements (listOf_written (fields_written fields properFields fuel deepFields))
        (listOf_written (fields_written itemFields properElements fuel deepElements))

theorem fields_written : ∀ (fs : List Field), AllProper fs → ∀ fuel, Value.depths (writtenFields fs) ≤ fuel →
    ∀ f ∈ fs, ∀ place, fieldOf fuel place f.written = .good f
  | [], _, _, _ => fun _ absent => nomatch absent
  | f :: rest, proper, fuel, deep => by
    rw [AllProper] at proper
    rw [writtenFields, Value.depths, Nat.max_le] at deep
    exact List.forall_mem_cons.mpr
      ⟨fieldOf_written f proper.1 fuel deep.1, fields_written rest proper.2 fuel deep.2⟩

end

/-! ## Schemas -/

/-- A schema is read, if its parts are found once the entity block is taken up. -/
theorem schemaOf_good {s : Schema} (proper : s.Proper) {fuel : Nat} (deep : Value.depths (writtenFields s.fields) ≤ fuel)
    {es : List (Value × Value)}
    (version : get? "schemaVersion" (flattenEntity es) = s.schemaVersion.map .text)
    (noOtherVersion : get? "schema_version" (flattenEntity es) = none)
    (name : get? "entityName" (flattenEntity es) = s.entityName.map .text ∨
      get? "entityName" (flattenEntity es) = some ((s.entityName.map .text).getD .null))
    (noOtherName : get? "entity_name" (flattenEntity es) = none)
    (description : get? "description" (flattenEntity es) = s.description.map .text)
    (key : get? "primaryKey" (flattenEntity es) = some s.primaryKey.written)
    (fields : get? "fields" (flattenEntity es) = some (.list (writtenFields s.fields))) :
    schemaOf fuel place (.dict es) = .good s := by
  have readVersion : optional ⟨"schemaVersion", "schema_version"⟩ (nullable text) none place
      (versionText (flattenEntity es)) = .good s.schemaVersion := by
    refine optional_text ?_
    rw [Spelling.value?_eq, get?_versionText_schemaVersion, get?_versionText (by decide), version, noOtherVersion,
      Option.or_none, Option.map_map]
    rfl
  -- the name may be written as null, in which case nothing is given
  have readName : optional ⟨"entityName", "entity_name"⟩ (nullable text) none place (versionText (flattenEntity es)) =
      .good s.entityName := by
    have found : (Spelling.mk "entityName" "entity_name").value? (versionText (flattenEntity es)) =
        get? "entityName" (flattenEntity es) := by
      rw [Spelling.value?_versionText (by decide) (by decide), Spelling.value?_eq, noOtherName, Option.or_none]
    rcases name with name | name
    · exact optional_text (found.trans name)
    · exact optional_textOrNull (found.trans name)
  have readDescription : optional (.single "description") (nullable text) none place (versionText (flattenEntity es)) =
      .good s.description :=
    optional_text (by rw [Spelling.value?_versionText (by decide) (by decide), Spelling.value?_single, description])
  have readKey : required ⟨"primaryKey", "primary_key"⟩ primaryKeyOf place (versionText (flattenEntity es)) =
      .good s.primaryKey :=
    required_good (by rw [Spelling.value?_versionText (by decide) (by decide), Spelling.value?_eq, key, Option.some_or])
      fun _ => primaryKeyOf_written proper.partitionKey
  have readFields : optional (.single "fields") (listOf (fieldOf fuel)) [] place (versionText (flattenEntity es)) =
      .good s.fields :=
    optional_good (by rw [Spelling.value?_versionText (by decide) (by decide), Spelling.value?_single, fields])
      (listOf_written (fields_written s.fields proper.fields fuel deep))
  rw [schemaOf, mappingOf]
  simp only [readVersion, readName, readDescription, readKey, readFields, Checked.map_good, Checked.seq_good]

theorem readSchema_eq_ok {document : Value} {s : Schema} (read : schemaOf document.depth [] document = .good s) :
    readSchema document = .ok s := by
  rw [readSchema, read]
  rfl

theorem readSchema_flat {s : Schema} (proper : s.Proper) : readSchema s.written = .ok s := by
  refine readSchema_eq_ok ?_
  rw [Schema.written]
  generalize entries : givenEntries _ = es
  have flat : flattenEntity es = es := flattenEntity_plain fun block => by simp [← entries]
  have deep : (Value.list (writtenFields s.fields)).depth ≤ Value.entryDepths es :=
    Value.depth_le_entryDepths "fields" (by simp [← entries])
  refine schemaOf_good proper ?_ ?_ ?_ (.inl ?_) ?_ ?_ ?_ ?_
  · simp only [Value.depth] at deep ⊢
    omega
  all_goals
    rw [flat]
    simp [← entries]

theorem readSchema_nested {s : Schema} (proper : s.Proper) : readSchema s.writtenNested = .ok s := by
  refine readSchema_eq_ok ?_
  rw [Schema.writtenNested]
  generalize blockEntries : givenEntries [("name", _), _, _, _] = block
  generalize entries : givenEntries _ = es
  have given : get? "entity" es = some (.dict block) := by simp [← entries]
  have deep : (Value.list (writtenFields s.fields)).depth ≤ Value.entryDepths block :=
    Value.depth_le_entryDepths "fields" (by simp [← blockEntries])
  have deepBlock := Value.depth_le_entryDepths "entity" given
  refine schemaOf_good proper ?_ ?_ ?_ (.inr ?_) ?_ ?_ ?_ ?_
  · simp only [Value.depth] at deep deepBlock ⊢
    omega
  · rw [get?_flattenEntity (by decide)]
    simp [← entries]
  · rw [get?_flattenEntity (by decide)]
    simp [← entries]
  · rw [get?_flattenEntity_entityName given]
    simp [← entries, ← blockEntries]
  · rw [get?_flattenEntity (by decide)]
    simp [← entries]
  all_goals
    rw [get?_flattenEntity_block given (by decide)]
    simp [← entries, ← blockEntries]

/-- A schema with fields below fields, in a map and in the elements of a list. -/
def parcelSchema : Schema where
  entityName := none
  primaryKey := ⟨"parcel-id", some "sentAt"⟩
  fields := [
    ⟨⟨"parcel-id", "string", true, some "parcelId", none, .null, [],
      some ⟨some (.int 3), none, some (.text "[a-z]+"), none, none⟩⟩, [], none, []⟩,
    ⟨⟨"state", "string", false, none, some "How far it is.", .text "sent", ["sent", "lost"], none⟩, [], none, []⟩,
    ⟨⟨"address", "map", false, none, none, .dict [(.text "enum", .null)], [], none⟩,
      [⟨⟨"lines", "list", false, none, none, .null, [], none⟩, [], some "map",
        [⟨⟨"weight", "number", false, none, none, .null, [], some ⟨none, none, none, some (.float 0.5), none⟩⟩,
          [], none, []⟩]⟩],
      none, []⟩]
  description := some "A parcel."
  schemaVersion := some "2"

example : parcelSchema.writtenNested = .dict [(.text "schemaVersion", .text "2"),
    (.text "entity", .dict [
      (.text "primaryKey", .dict [(.text "partitionKey", .text "parcel-id"), (.text "sortKey", .text "sentAt")]),
      (.text "fields", .list [
        .dict [(.text "name", .text "parcel-id"), (.text "type", .text "string"), (.text "required", .bool true),
          (.text "nameOverride", .text "parcelId"),
          (.text "constraints", .dict [(.text "minLength", .int 3), (.text "pattern", .text "[a-z]+")])],
        .dict [(.text "name", .text "state"), (.text "type", .text "string"), (.text "required", .bool false),
          (.text "description", .text "How far it is."), (.text "default", .text "sent"),
          (.text "enumValues", .list [.text "sent", .text "lost"])],
        .dict [(.text "name", .text "address"), (.text "type", .text "map"), (.text "required", .bool false),
          (.text "default", .dict [(.text "enum", .null)]),
          (.text "fields", .list [
            .dict [(.text "name", .text "lines"), (.text "type", .text "list"), (.text "required", .bool false),
              (.text "items", .dict [(.text "type", .text "map"), (.text "fields", .list [
                .dict [(.text "name", .text "weight"), (.text "type", .text "number"), (.text "required", .bool false),
                  (.text "constraints", .dict [(.text "min", .float 0.5)])]])])]])]]),
      (.text "description", .text "A parcel.")])] := rfl

end Document

end Tablewright
