import Tablewright.Schema.Basic

/-!
# Type references

The types of fields in generated source.

* `Scalar`, `TypeRef`: scalars, lists, sets of scalars, records and enums by name, and untyped values.
* `TypeRef.ofName`: the type of a name that needs no record or enum of its own.
-/

namespace Tablewright

/-- The scalar types. -/
inductive Scalar where
  | string
  | number
  | boolean
  | timestamp
  deriving DecidableEq, Repr, Inhabited

/-- The type of a value in generated source. -/
inductive TypeRef where
  | scalar (kind : Scalar)
  | list (element : TypeRef)
  | set (element : Scalar)
  | record (name : String)
  | enum (name : String)
  | any
  deriving DecidableEq, Repr, Inhabited

namespace TypeRef

/-- The type of a kind on its own: a list of an undeclared element type holds untyped values, and a map
without fields is untyped. -/
def ofKind : Kind → TypeRef
  | .string => .scalar .string
  | .number => .scalar .number
  | .boolean => .scalar .boolean
  | .timestamp => .scalar .timestamp
  | .stringSet => .set .string
  | .numberSet => .set .number
  | .list => .list .any
  | .map => .any
  | .unknown => .any

def ofName (name : String) : TypeRef := ofKind (Kind.ofName name)

end TypeRef

end Tablewright
