import Tablewright.Value

/-!
# Schemas and tables

What a generation run starts from: entity schemas with their fields, and the table they are stored in.

* `Kind`: the closed vocabulary of field types, with the spellings that are accepted for them.
* `Field`: a declared attribute, with the fields below it; `Schema`: an entity.
* `Table`, `Index`: the physical table and its secondary indexes.
-/

namespace Tablewright

/-- The types a field can be declared with. -/
inductive Kind where
  | string
  | number
  | boolean
  | timestamp
  | list
  | map
  | stringSet
  | numberSet
  | unknown
  deriving DecidableEq, Repr, Inhabited

namespace Kind

/-- The spelling of a kind in schemas. -/
def name : Kind → String
  | string => "string"
  | number => "number"
  | boolean => "boolean"
  | timestamp => "timestamp"
  | list => "list"
  | map => "map"
  | stringSet => "string-set"
  | numberSet => "number-set"
  | unknown => "unknown"

/-- The kind a type name stands for; a name outside the vocabulary is unknown. -/
def ofName (name : String) : Kind :=
  if name = "string" then string
  else if name = "number" then number
  else if name = "boolean" ∨ name = "bool" then boolean
  else if name = "timestamp" then timestamp
  else if name = "list" then list
  else if name = "map" then map
  else if name = "string-set" ∨ name = "stringSet" ∨ name = "string_set" then stringSet
  else if name = "number-set" ∨ name = "numberSet" ∨ name = "number_set" then numberSet
  else unknown

end Kind

/-- Bounds on the values of a field. Documents give whole numbers as lengths, texts as patterns and doubles
as bounds; a schema that is built directly may hold any value, which is written out as it is. -/
structure Constraints where
  minLength : Option Value
  maxLength : Option Value
  pattern : Option Value
  min : Option Value
  max : Option Value
  deriving Inhabited

def Constraints.boundsNumbers (c : Constraints) : Bool := c.min.isSome || c.max.isSome

/-- What a field declares about itself, apart from the fields below it. -/
structure Declaration where
  /-- The storage name. -/
  name : String
  typeName : String
  required : Bool
  /-- An identifier to be used instead of the one derived from the storage name. -/
  nameOverride : Option String
  description : Option String
  /-- The initial value; `null` where the schema gives none. -/
  default : Value
  /-- The allowed values of a text field; empty where it may hold any text. -/
  enumValues : List String
  constraints : Option Constraints
  deriving Inhabited

namespace Declaration

def kind (d : Declaration) : Kind := Kind.ofName d.typeName

def hasDefault (d : Declaration) : Bool :=
  match d.default with
  | .null => false
  | _ => true

/-- Whether the field is a text restricted to given values. -/
def isEnum (d : Declaration) : Bool := d.kind == .string && !d.enumValues.isEmpty

end Declaration

/-- A declared attribute: of an entity, of a map, or of the maps in a list. -/
structure Field extends Declaration where
  /-- The fields of a map. -/
  fields : List Field
  /-- The element type of a list, where it is declared. -/
  itemType : Option String
  /-- The fields of the elements of a list of maps. -/
  itemFields : List Field
  deriving Inhabited

namespace Field

/-- The kind of the elements of a list, where it is declared. -/
def itemKind? (f : Field) : Option Kind := f.itemType.map Kind.ofName

end Field

/-- Which attributes identify an item, by storage name. -/
structure PrimaryKey where
  partitionKey : String
  sortKey : Option String
  deriving DecidableEq, Repr, Inhabited

/-- An attribute name that is given and not empty. -/
def given (name : Option String) : Option String := name.filter (· ≠ "")

/-- The sort key, if the key declares one. -/
def PrimaryKey.sortKey? (k : PrimaryKey) : Option String := given k.sortKey

/-- An entity: its name, its key and its fields in order. -/
structure Schema where
  entityName : Option String
  primaryKey : PrimaryKey
  fields : List Field
  description : Option String
  schemaVersion : Option String
  deriving Inhabited

namespace Schema

/-- The name of the entity type; an entity without a name is called `Entity`. -/
def name (s : Schema) : String := (given s.entityName).getD "Entity"

/-- The first field of a storage name. -/
def find? (s : Schema) (storageName : String) : Option Field :=
  s.fields.find? (·.name == storageName)

end Schema

/-- A secondary index of a table, global or local. -/
structure Index where
  name : String
  partitionKey : String
  sortKey : Option String
  deriving DecidableEq, Repr, Inhabited

/-- The sort key of an index, if it has one. -/
def Index.sortKey? (i : Index) : Option String := given i.sortKey

/-- The table that entities are stored in. -/
structure Table where
  name : String
  /-- The resource name of the table, or a token that is replaced by it at deployment. -/
  arn : Option String
  region : Option String
  globalIndexes : List Index
  localIndexes : List Index
  deriving DecidableEq, Repr, Inhabited

/-- The secondary indexes of a table, global ones first. -/
def Table.indexes (t : Table) : List Index := t.globalIndexes ++ t.localIndexes

end Tablewright
