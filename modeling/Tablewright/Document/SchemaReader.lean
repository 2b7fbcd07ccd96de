import Tablewright.Document.Scalar
import Tablewright.Schema.Basic

/-!
# Reading schemas

Schemas from documents. Entries may be spelled in two ways, and older documents keep the entity in a block
of its own.

* `fieldSpellings`, `flattenEntity`: documents of any accepted spelling in the usual one.
* `fieldOf`: a field with the fields below it; `schemaOf`: a schema.
* `readSchema`: the schema of a document, or all problems of the document.
-/

namespace Tablewright.Document

def hasEntry (name : String) (entries : List (Value × Value)) : Bool := (Value.get? name entries).isSome

/-- A mapping without the entry of a name. -/
def removeEntry (name : String) (entries : List (Value × Value)) : List (Value × Value) :=
  entries.filter fun entry => !entry.1.sameKey (.text name)

/-- A mapping in which an entry of another name stands under its usual name, unless that is taken. -/
def renameEntry (other usual : String) (entries : List (Value × Value)) : List (Value × Value) :=
  match Value.get? other entries with
  | some v => if hasEntry usual entries then entries else Value.put (removeEntry other entries) (.text usual) v
  | none => entries

/-- A mapping with an entry, unless there is one of the name. -/
def addEntry (name : String) (v : Value) (entries : List (Value × Value)) : List (Value × Value) :=
  if hasEntry name entries then entries else Value.put entries (.text name) v

/-! ## Fields -/

/-- The bounds of a field. -/
def constraintsOf : Reader Constraints :=
  mappingOf "ConstraintsInput" fun place entries =>
    let bound {α : Type} (s : Spelling) (read : Reader α) (wrap : α → Value) : Checked (Option Value) :=
      (optional s (nullable read) none place entries).map (·.map wrap)
    Constraints.mk
      <$> bound ⟨"minLength", "min_length"⟩ integer .int
      <*> bound ⟨"maxLength", "max_length"⟩ integer .int
      <*> bound (.single "pattern") text .text
      <*> bound (.single "min") number .float
      <*> bound (.single "max") number .float

/-- The entries of a field in their usual spelling: allowed values and initial values have an older name
each. -/
def fieldSpellings (entries : List (Value × Value)) : List (Value × Value) :=
  renameEntry "defaultValue" "default" (renameEntry "enum" "enumValues" entries)

/-- What a field declares about itself. -/
structure FieldParts where
  declaration : Declaration
  fields : List Field
  items : Option (String × List Field)

def FieldParts.field (p : FieldParts) : Field :=
  ⟨p.declaration, p.fields, p.items.map (·.1), (p.items.map (·.2)).getD []⟩

def itemsOf (fields : Reader (List Field)) : Reader (String × List Field) :=
  mappingOf "ItemsInput" fun place entries =>
    Prod.mk
      <$> required (.single "type") text place entries
      <*> (optional (.single "fields") (nullable fields) none place entries).map (·.getD [])

/-- Reads any value. -/
def anything : Reader Value := fun _ v => .good v

/-- The parts of a field, given how the fields below it are read. -/
def partsOf (fields : Reader (List Field)) (place : List Step) (entries : List (Value × Value)) :
    Checked FieldParts :=
  (fun name typeName required nameOverride description default enumValues constraints fields items =>
      ⟨{ name, typeName, required, nameOverride, description, default
         enumValues := Option.getD enumValues []
         constraints }, Option.getD fields [], items⟩)
    <$> required (.single "name") nonEmptyText place entries
    <*> required (.single "type") nonEmptyText place entries
    <*> optional (.single "required") truth false place entries
    <*> optional ⟨"nameOverride", "name_override"⟩ (nullable text) none place entries
    <*> optional (.single "description") (nullable text) none place entries
    <*> optional (.single "default") anything .null place entries
    <*> optional ⟨"enumValues", "enum_values"⟩ (nullable (listOf text)) none place entries
    <*> optional (.single "constraints") (nullable constraintsOf) none place entries
    <*> optional (.single "fields") (nullable fields) none place entries
    <*> optional (.single "items") (nullable (itemsOf fields)) none place entries

/-- A field of a document that is at most as deep as the fuel. -/
def fieldOf : (fuel : Nat) → Reader Field
  | 0 => fun place v => misfit place v (.notMapping "FieldInput")
  | fuel + 1 => mappingOf "FieldInput" fun place entries =>
    (partsOf (listOf (fieldOf fuel)) place (fieldSpellings entries)).map FieldParts.field

/-! ## Schemas -/

def primaryKeyOf : Reader PrimaryKey :=
  mappingOf "PrimaryKeyInput" fun place entries =>
    PrimaryKey.mk
      <$> required ⟨"partitionKey", "partition_key"⟩ nonEmptyText place entries
      <*> optional ⟨"sortKey", "sort_key"⟩ (nullable text) none place entries

/-- The entries of a schema with those of its entity block, which give way to the entries beside the
block. -/
def flattenEntity (entries : List (Value × Value)) : List (Value × Value) :=
  match Value.get? "entity" entries with
  | some (.dict block) =>
    let entries := addEntry "entityName" ((Value.get? "name" block).getD .null) (removeEntry "entity" entries)
    ["primaryKey", "fields", "description"].foldl
      (fun entries name => match Value.get? name block with
        | some v => addEntry name v entries
        | none => entries) entries
  | _ => entries

/-- The entries of a schema with the version as a text. -/
def versionText (entries : List (Value × Value)) : List (Value × Value) :=
  match Value.get? "schemaVersion" entries with
  | some .null | none => entries
  | some v => Value.put entries (.text "schemaVersion") (.text v.display)

/-- A schema of a document that is at most as deep as the fuel. -/
def schemaOf (fuel : Nat) : Reader Schema :=
  mappingOf "SchemaInput" fun place entries =>
    let entries := versionText (flattenEntity entries)
    (fun schemaVersion entityName description primaryKey fields =>
        { entityName, primaryKey, fields, description, schemaVersion })
      <$> optional ⟨"schemaVersion", "schema_version"⟩ (nullable text) none place entries
      <*> optional ⟨"entityName", "entity_name"⟩ (nullable text) none place entries
      <*> optional (.single "description") (nullable text) none place entries
      <*> required ⟨"primaryKey", "primary_key"⟩ primaryKeyOf place entries
      <*> optional (.single "fields") (listOf (fieldOf fuel)) [] place entries

/-- The schema of a document. Every field lies deeper in the document than the fields around it, so the
depth bounds the number of steps down. -/
def readSchema (document : Value) : Except (List Problem) Schema :=
  (schemaOf document.depth [] document).toExcept

end Tablewright.Document
