import Tablewright.Access.Repository
import Tablewright.Failure
import Tablewright.Name.Snake

/-!
# Clashes of generated names

The types of a batch need modules of their own, and the indexes of a table need names of their own.

* `checkTypeNames`: whether every type of a batch has a module of its own and no name that modules import.
* `checkIndexNames`: whether the indexes of a table stay distinct in generated source.
-/

namespace Tablewright

abbrev Owners := List (String × String)

def moduleName (typeName : String) : String := Name.snakeCase typeName

/-- Enters the modules of some types of an entity. -/
def claimModules (entity : String) : Owners → List String → Except Failure Owners
  | owners, [] => .ok owners
  | owners, typeName :: rest =>
    if Access.importedNames.contains typeName then .error (.importedName typeName entity)
    else match owners.lookup (moduleName typeName) with
      | some owner => .error (.takenModule typeName entity (moduleName typeName) owner)
      | none => claimModules entity (owners ++ [(moduleName typeName, entity)]) rest

/-- Enters the modules of an entity, which may not have the name of a sub-package. -/
def claimEntity (owners : Owners) (e : Entity) : Except Failure Owners :=
  if Access.subPackages.contains (moduleName e.name) then .error (.subPackageName e.name (moduleName e.name))
  else claimModules e.name owners (e.typeNames.map (·.1))

/-- Every type of a batch must have its own module and a name that no generated module imports. -/
def checkTypeNames (entities : List Entity) : Except Failure Unit :=
  (entities.foldlM claimEntity []).map fun _ => ()

/-- The names that an index is turned into: that of its query and that of its constant. -/
def indexNames (i : Index) : List String := [Access.queryName i, Name.indexConstant i.name]

def claimNames (index : String) : Owners → List String → Except Failure Owners
  | owners, [] => .ok owners
  | owners, name :: rest =>
    match owners.lookup name with
    | some owner => .error (.indexClash owner index name)
    | none => claimNames index (owners ++ [(name, index)]) rest

def checkIndexNames (t : Table) : Except Failure Unit :=
  (t.indexes.foldlM (fun owners i => claimNames i.name owners (indexNames i)) []).map fun _ => ()

end Tablewright
