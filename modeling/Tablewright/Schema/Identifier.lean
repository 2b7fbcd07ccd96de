import Tablewright.Name.Camel
import Tablewright.Schema.Basic

/-!
# Identifiers of fields

Every field gets an identifier, and the fields of one scope must get different ones.

* `Declaration.identifier`: the identifier of a field.
* `Collision`: storage names that share an identifier.
* `collisions`: the collisions of a list of fields and of all lists of fields below it.
* `keyIdentifier`: the identifier of an attribute that is named by a key.
-/

namespace Tablewright

/-- The identifier of a field: the override, else a storage name that can be used as it is, else the
storage name in camel case. -/
def Declaration.identifier (d : Declaration) : String :=
  match given d.nameOverride with
  | some identifier => identifier
  | none => if Name.isFieldIdentifier d.name then d.name else Name.camelCase d.name

/-- Whether the identifier differs from the storage name, so that the record has to map it back. -/
def Declaration.isRenamed (d : Declaration) : Bool := d.identifier != d.name

/-- Storage names, in the order of their declaration, that share an identifier. -/
structure Collision where
  identifier : String
  names : List String
  deriving DecidableEq, Repr

/-- Adds a name to the group of its identifier; a new group goes to the end. -/
def addToGroup (identifier name : String) : List Collision → List Collision
  | [] => [⟨identifier, [name]⟩]
  | group :: rest =>
    if group.identifier = identifier then ⟨identifier, group.names ++ [name]⟩ :: rest
    else group :: addToGroup identifier name rest

/-- The fields of one scope grouped by identifier, in the order of first appearance. -/
def groups (fields : List Field) : List Collision :=
  fields.foldl (fun acc f => addToGroup f.identifier f.name acc) []

/-- The groups of one scope with more than one member. -/
def scopeCollisions (fields : List Field) : List Collision :=
  (groups fields).filter fun group => 1 < group.names.length

mutual

/-- The collisions in the scopes below a field: its own fields, then the fields of its elements. -/
def Field.collisionsBelow : Field → List Collision
  | ⟨_, fields, _, itemFields⟩ =>
    (scopeCollisions fields ++ collisionsBelowAll fields)
      ++ (scopeCollisions itemFields ++ collisionsBelowAll itemFields)

def collisionsBelowAll : List Field → List Collision
  | [] => []
  | f :: rest => f.collisionsBelow ++ collisionsBelowAll rest

end

/-- The collisions of a scope and of all scopes below it, outer scopes first. -/
def collisions (fields : List Field) : List Collision :=
  scopeCollisions fields ++ collisionsBelowAll fields

/-- The identifier of an attribute named by a key, and whether a field declares it; an undeclared attribute
gets its name in camel case. -/
def keyIdentifier (fields : List Field) (storageName : String) : String × Bool :=
  match fields.find? (·.name == storageName) with
  | some f => (f.identifier, true)
  | none => (Name.camelCase storageName, false)

end Tablewright
