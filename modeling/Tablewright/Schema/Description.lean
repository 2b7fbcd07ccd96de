import Tablewright.Name.Constant
import Tablewright.Notice
import Tablewright.Schema.Identifier
import Tablewright.Schema.TypeRef

/-!
# Descriptions of entities

Everything that is generated for a schema is described first: the record of the entity, the nested records
and enums that its fields need, and its key attributes.

* `Record`, `EnumType`, `KeyAttribute`, `Entity`: the descriptions.
* `mapField`, `mapFields`: the types of fields, with the records and enums they need. A nested record comes
  after the records that its own fields need.
* `describe`: the description of a schema, refused if two of its types share a name.
-/

namespace Tablewright

/-- A field with its identifier and its type. -/
structure ResolvedField where
  field : Field
  identifier : String
  type : TypeRef

namespace ResolvedField

def storageName (f : ResolvedField) : String := f.field.name

def required (f : ResolvedField) : Bool := f.field.required

def isRenamed (f : ResolvedField) : Bool := f.identifier != f.storageName

end ResolvedField

/-- What a record stands for: an entity, with the identifiers of its key fields, or a nested value. -/
inductive Role where
  | entity (partitionKey : String) (sortKey : Option String)
  | nested
  deriving DecidableEq, Repr

/-- A record type: an entity or a nested value with its fields in order. -/
structure Record where
  name : String
  fields : List ResolvedField
  description : Option String
  role : Role

namespace Record

def isEntity (r : Record) : Bool :=
  match r.role with
  | .entity _ _ => true
  | .nested => false

def partitionKey? (r : Record) : Option String :=
  match r.role with
  | .entity partitionKey _ => some partitionKey
  | .nested => none

/-- The identifier of the sort key of an entity that has one. -/
def sortKey? (r : Record) : Option String :=
  match r.role with
  | .entity _ sortKey => sortKey
  | .nested => none

end Record

/-- An enum type: the allowed values of a text field with their constant names. -/
structure EnumType where
  name : String
  values : List String
  constants : List String
  /-- The record that holds the field. -/
  owner : String
  /-- The storage name of the field. -/
  fieldName : String
  deriving DecidableEq, Repr

namespace EnumType

def members (e : EnumType) : List (String × String) := e.constants.zip e.values

/-- The first constant of a value; a value that is no text has none. -/
def constantFor? (e : EnumType) : Value → Option String
  | .text s => (e.members.find? (·.2 == s)).map (·.1)
  | _ => none

end EnumType

/-- A key attribute as the key helper and the repository see it. -/
structure KeyAttribute where
  storageName : String
  identifier : String
  type : TypeRef
  deriving DecidableEq, Repr

/-- Everything that is generated for a schema, before any source exists. -/
structure Entity where
  schema : Schema
  record : Record
  nested : List Record
  enums : List EnumType
  partitionKey : KeyAttribute
  sortKey : Option KeyAttribute

namespace Entity

def name (e : Entity) : String := e.record.name

/-- The key attributes, partition key first. -/
def keys (e : Entity) : List KeyAttribute := e.partitionKey :: e.sortKey.toList

end Entity

/-- The records and enums that some fields need, in the order in which they are completed, and the type
names that none of them stands for. -/
structure Needs where
  records : List Record
  enums : List EnumType
  notices : List Notice

namespace Needs

def nothing : Needs := ⟨[], [], []⟩

def append (a b : Needs) : Needs :=
  ⟨a.records ++ b.records, a.enums ++ b.enums, a.notices ++ b.notices⟩

instance : Append Needs := ⟨append⟩

def record (r : Record) : Needs := ⟨[r], [], []⟩

def enum (e : EnumType) : Needs := ⟨[], [e], []⟩

end Needs

/-- The type of a type name on its own; a name outside the vocabulary is noticed. -/
def mapName (typeName : String) : TypeRef × Needs :=
  (TypeRef.ofName typeName,
    if Kind.ofName typeName = .unknown then ⟨[], [], [.unknownType typeName]⟩ else .nothing)

/-- The name of the record or enum of a field: the name of the record that holds it with the identifier. -/
def Declaration.ownTypeName (d : Declaration) (owner : String) : String := owner ++ Text.capitalize d.identifier

def enumOf (owner : String) (d : Declaration) : EnumType :=
  { name := d.ownTypeName owner
    values := d.enumValues
    constants := Name.memberNames d.enumValues
    owner
    fieldName := d.name }

mutual

/-- The type of a field of the record `owner`, and what it needs. -/
def mapField (owner : String) : Field → TypeRef × Needs
  | ⟨d, fields, itemType, itemFields⟩ =>
    let name := d.ownTypeName owner
    if d.isEnum then (.enum name, .enum (enumOf owner d))
    else match d.kind with
      | .map =>
        if fields.isEmpty then (.any, .nothing)
        else
          let (resolved, needs) := mapFields name fields
          (.record name, needs ++ .record ⟨name, resolved, d.description, .nested⟩)
      | .list =>
        match itemType with
        | none => (.list .any, .nothing)
        | some itemType =>
          if Kind.ofName itemType = .map ∧ ¬ itemFields.isEmpty then
            -- only the elements of a list are described without a text of their own
            let name := name ++ "Item"
            let (resolved, needs) := mapFields name itemFields
            (.list (.record name), needs ++ .record ⟨name, resolved, none, .nested⟩)
          else
            let (element, needs) := mapName itemType
            (.list element, needs)
      | _ => mapName d.typeName

/-- The fields of the record `owner` with their types, and what they need. -/
def mapFields (owner : String) : List Field → List ResolvedField × Needs
  | [] => ([], .nothing)
  | f :: rest =>
    let (type, needs) := mapField owner f
    let (resolved, restNeeds) := mapFields owner rest
    (⟨f, f.identifier, type⟩ :: resolved, needs ++ restNeeds)

end

/-- A key attribute: that of the last field of its storage name, or a text if no field declares it. -/
def keyAttribute (entityName : String) (fields : List ResolvedField) (storageName : String) :
    Noted KeyAttribute :=
  match fields.reverse.find? (·.storageName == storageName) with
  | some f => pure ⟨storageName, f.identifier, f.type⟩
  | none => do
    Noted.tell (.undeclaredKey storageName entityName)
    pure ⟨storageName, Name.camelCase storageName, .scalar .string⟩

/-- A key attribute of a described entity, for instance one of a secondary index. -/
def Entity.keyAttribute (e : Entity) (storageName : String) : Noted KeyAttribute :=
  Tablewright.keyAttribute e.schema.name e.record.fields storageName

/-- What kind of type a name belongs to. -/
inductive TypeRole where
  | entity
  | nestedRecord
  | enum
  deriving DecidableEq, Repr

def TypeRole.words : TypeRole → String
  | entity => "entity"
  | nestedRecord => "nested record"
  | enum => "enum"

/-- A type name that two types of an entity share, with the kinds of both. -/
structure SharedTypeName where
  name : String
  first : TypeRole
  second : TypeRole
  deriving DecidableEq, Repr

/-- The first name that occurs among those before it, which are `seen`. -/
def sharedTypeName? (seen : List (String × TypeRole)) : List (String × TypeRole) → Option SharedTypeName
  | [] => none
  | (name, role) :: rest =>
    match seen.lookup name with
    | some first => some ⟨name, first, role⟩
    | none => sharedTypeName? (seen ++ [(name, role)]) rest

/-- The names of the types of an entity, with their kinds. -/
def Entity.typeNames (e : Entity) : List (String × TypeRole) :=
  (e.name, .entity) :: (e.nested.map fun r => (r.name, .nestedRecord))
    ++ e.enums.map fun t => (t.name, .enum)

/-- The description of a schema, with the name that two of its types share, if there is one. -/
def describe (schema : Schema) : Noted (Except SharedTypeName Entity) := do
  let (fields, needs) := mapFields schema.name schema.fields
  Noted.tellAll needs.notices
  -- keys need not be declared, in which case they are texts
  let partitionKey ← keyAttribute schema.name fields schema.primaryKey.partitionKey
  let sortKey ← match schema.primaryKey.sortKey? with
    | some storageName => do pure (some (← keyAttribute schema.name fields storageName))
    | none => pure none
  let record : Record :=
    { name := schema.name
      fields
      description := schema.description
      role := .entity partitionKey.identifier (sortKey.map (·.identifier)) }
  let entity : Entity :=
    { schema, record, nested := needs.records, enums := needs.enums, partitionKey, sortKey }
  pure (match sharedTypeName? [] entity.typeNames with
    | some shared => .error shared
    | none => .ok entity)

end Tablewright
