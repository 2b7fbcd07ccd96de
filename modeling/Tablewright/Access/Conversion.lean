import Tablewright.Schema.TypeRef
import Tablewright.Source.Syntax
import Tablewright.Text.Sorted

/-!
# Types in generated source

How the values of a type are annotated, how they are written to an item and read back, and what has to
be imported for it.

* `typeHint`, `optionalHint`: the type hints of a type.
* `toStorage`, `fromStorage`: the expressions that convert a value to its stored form and back.
* `Usage`: the names that a module has to import for the types it mentions.
-/

namespace Tablewright.Access

open Source (Expr Stmt)

def scalarClass : Scalar → String
  | .string => "str"
  | .number => "Decimal"
  | .boolean => "bool"
  | .timestamp => "datetime"

/-- The type hint of a value that is present. -/
def typeHint : TypeRef → Expr
  | .scalar kind => .name (scalarClass kind)
  | .list element => Expr.generic "List" [typeHint element]
  | .set element => Expr.generic "Set" [.name (scalarClass element)]
  | .record name => .name name
  | .enum name => .name name
  | .any => .name "Any"

/-- The type hint of a value that may be absent. -/
def optionalHint : TypeRef → Expr
  | .any => .name "Any"
  | type => Expr.generic "Optional" [typeHint type]

/-- The variable of a comprehension inside `depth` others. -/
def elementName (depth : Nat) : String := if depth = 0 then "element" else s!"element{depth}"

def decimalOf (value : Expr) : Expr := Expr.apply "Decimal" [Expr.apply "str" [value]]

/-- Whether the stored form of a value differs from the value. -/
def needsConversion : TypeRef → Bool
  | .scalar kind => kind == .number || kind == .timestamp
  | .list element => needsConversion element
  | .set element => element == .number
  | .record _ => true
  | .enum _ => true
  | .any => false

/-- The stored form of a value. -/
def toStorage (depth : Nat) : TypeRef → Expr → Expr
  | .scalar .number, value => decimalOf value
  | .scalar .timestamp, value => Expr.method value "isoformat" []
  | .scalar _, value => value
  | .enum _, value => .attr value "value"
  | .record _, value => Expr.method value "to_item" []
  -- a container is copied even where its elements stay as they are
  | .list element, value =>
    if needsConversion element then
      .comprehension .list (toStorage (depth + 1) element (.name (elementName depth))) (elementName depth)
        value
    else Expr.apply "list" [value]
  | .set element, value =>
    if element = .number then
      .comprehension .set (decimalOf (.name (elementName depth))) (elementName depth) value
    else Expr.apply "set" [value]
  | .any, value => value

/-- Whether the elements of a stored list have to be converted one by one when they are read. -/
def readsElementwise : TypeRef → Bool
  | .record _ | .enum _ | .set _ | .scalar .timestamp => true
  | _ => false

/-- The value of a stored form. -/
def fromStorage (depth : Nat) : TypeRef → Expr → Expr
  | .scalar .timestamp, value => Expr.method (.name "datetime") "fromisoformat" [value]
  | .scalar _, value => value
  | .enum name, value => Expr.apply name [value]
  | .record name, value => Expr.method (.name name) "from_item" [value]
  | .list element, value =>
    if readsElementwise element then
      .comprehension .list (fromStorage (depth + 1) element (.name (elementName depth))) (elementName depth)
        value
    else Expr.apply "list" [value]
  | .set _, value => Expr.apply "set" [value]
  | .any, value => value

/-- Whether values of a type may be lists, sets or mappings, which have no hash of their own. -/
def needsHashable : TypeRef → Bool
  | .list _ | .set _ | .any => true
  | _ => false

/-- What a module has to import for the types it mentions. -/
structure Usage where
  typing : List String
  records : List String
  enums : List String
  decimal : Bool
  datetime : Bool
  deriving DecidableEq, Repr

namespace Usage

/-- A module that mentions some generic types and nothing else. -/
def ofTyping (names : List String) : Usage := ⟨names, [], [], false, false⟩

def addScalar (u : Usage) : Scalar → Usage
  | .number => { u with decimal := true }
  | .timestamp => { u with datetime := true }
  | _ => u

/-- What a type needs, on its own. -/
def addPlain (u : Usage) : TypeRef → Usage
  | .scalar kind => u.addScalar kind
  | .list element => addPlain { u with typing := "List" :: u.typing } element
  | .set element => ({ u with typing := "Set" :: u.typing } : Usage).addScalar element
  | .record name => { u with records := name :: u.records }
  | .enum name => { u with enums := name :: u.enums }
  | .any => { u with typing := "Any" :: u.typing }

/-- What a type of values that may be absent needs. -/
def addOptional (u : Usage) (type : TypeRef) : Usage :=
  match type with
  | .any => u.addPlain .any
  | type => ({ u with typing := "Optional" :: u.typing } : Usage).addPlain type

/-- The imports from the standard library. -/
def standardImports (u : Usage) : List Stmt :=
  (if u.datetime then [.importFrom "datetime" ["datetime"]] else [])
    ++ (if u.decimal then [.importFrom "decimal" ["Decimal"]] else [])
    ++ (if u.typing.isEmpty then [] else [.importFrom "typing" (Text.sortNames u.typing)])

/-- The generated types that are mentioned, in order. -/
def types (u : Usage) : List String := Text.sortNames (u.records ++ u.enums)

end Usage

end Tablewright.Access
