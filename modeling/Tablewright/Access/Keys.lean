import Tablewright.Access.Conversion
import Tablewright.Access.Layout

/-!
# Key helpers

The module of an entity's key: the names of its key attributes, the names of the secondary indexes of the
table, and the function that builds a key.

* `keyFunction`: the function from key components to a key.
* `keysHelper`, `keysModule`: the class and the module around it.
-/

namespace Tablewright.Access

open Source (Expr Stmt Param Module)

/-- The type hint of a key component as it is handed to the key function: timestamps and enums arrive in
their stored form. -/
def componentHint (k : KeyAttribute) : Expr :=
  match k.type with
  | .scalar .number => .name "Decimal"
  | .scalar .boolean => .name "bool"
  | .scalar _ | .enum _ => .name "str"
  | _ => .name "Any"

/-- The function that builds the key of an item from its components. -/
def keyFunction (e : Entity) : Stmt :=
  let constant (name : String) : Expr := .attr (.name (keysClass e.name)) name
  let entries := Source.Entry.mk (constant "PARTITION_KEY_FIELD") (.name e.partitionKey.identifier)
    :: (e.sortKey.map fun k =>
      Source.Entry.mk (constant "SORT_KEY_FIELD") (.name k.identifier)).toList
  .function ⟨"key", [.name "staticmethod"],
      e.keys.map fun k => Param.required k.identifier (componentHint k), none, some itemType⟩
    (some s!"Build the primary key of a {e.name} item.") [.result (.dict entries)]

def indexConstants (table : Option Table) : List Stmt :=
  ((table.map Table.indexes).getD []).map fun i =>
    Stmt.bind (Name.indexConstant i.name) (Expr.text i.name)

/-- The class of a key helper. -/
def keysHelper (e : Entity) (table : Option Table) : Stmt :=
  .classDef (keysClass e.name) [] []
    (some s!"Key helper for {e.name}; storage attribute names and key construction.")
    (Stmt.bind "PARTITION_KEY_FIELD" (Expr.text e.partitionKey.storageName)
      :: (e.sortKey.map fun k => Stmt.bind "SORT_KEY_FIELD" (Expr.text k.storageName)).toList
      ++ indexConstants table
      ++ [refusingConstructor (keysClass e.name), keyFunction e])

def keysModule (e : Entity) (table : Option Table) : Noted Module :=
  ⟨⟨moduleDoc s!"Key helper for {e.name}.",
    (if e.keys.any (·.type == .scalar .number) then [.importFrom "decimal" ["Decimal"]] else [])
      ++ [.importFrom "typing" ["Any", "Dict"], keysHelper e table]⟩,
   [.keysEmitted e.name e.keys.length]⟩

end Tablewright.Access
