import Tablewright.Plan.Clashes
import Tablewright.Plan.Namespace
import Tablewright.Plan.Render
import Tablewright.Text.Sorted

/-!
# Batches

All files that are generated for the entities of a table.

* `describeAll`: the descriptions of schemas, refused at the first clash of names.
* `plan`: the files of a batch in the order of their paths. All names are checked before the first file is
  made.
-/

namespace Tablewright

/-- Refuses a schema in which fields share an identifier. -/
def checkCollisions (s : Schema) : Except Failure Unit :=
  match collisions s.fields with
  | [] => .ok ()
  | cs => .error (.nameCollision cs (some s.name))

def describeOne (s : Schema) : Attempt Entity := do
  match ← Attempt.ofNoted (describe s) with
  | .ok e => pure e
  | .error shared => throw (.sharedTypeName shared s.name)

/-- The descriptions of several schemas, in order. -/
def describeAll (schemas : List Schema) : Attempt (List Entity) := schemas.mapM describeOne

def moduleFile (name : String) : String := moduleName name ++ ".py"

def packageFile : String := "__init__.py"

/-- The files that stand for an entity: its record, its nested types, its helpers, and its repository if
there is a table. -/
def entityFiles (root : Path) (table : Option Table) (e : Entity) : List (Category × Path × Material) :=
  let own : Material := .ofEntities [e]
  let bound : Material := { own with table }
  let nested := root.child Access.nestedPackage
  [(.entity, root.child (moduleFile e.name), own)]
    ++ (e.nested.map fun r => (.nested, nested.child (moduleFile r.name), { own with record := some r }))
    ++ (e.enums.map fun t => (.enum, nested.child (moduleFile t.name), { own with enum := some t }))
    ++ [(.keys, (root.child Access.keysPackage).child (moduleFile (Access.keysClass e.name)), bound),
        (.validator, (root.child Access.validatorsPackage).child (moduleFile (Access.validatorClass e.name)),
          own)]
    ++ (table.toList.map fun _ =>
        (.repository, (root.child Access.repositoryPackage).child (moduleFile (Access.repositoryClass e.name)),
          bound))

/-- The files of the table: the connection and the configuration. -/
def tableFiles (root : Path) (entities : List Entity) (t : Table) : List (Category × Path × Material) :=
  [(.client, (root.child Access.clientPackage).child (Access.clientModule ++ ".py"), .ofEntities entities),
   (.config, (root.child Access.configPackage).child (Access.configModule ++ ".py"),
     ⟨entities, some t, none, none⟩)]

/-- The sub-packages that a batch needs, sorted. -/
def neededPackages (entities : List Entity) (table : Option Table) : List String :=
  Text.sortNames ([Access.keysPackage, Access.validatorsPackage]
    ++ (if entities.any fun e => !e.nested.isEmpty || !e.enums.isEmpty then [Access.nestedPackage] else [])
    ++ (if table.isSome then [Access.clientPackage, Access.configPackage, Access.repositoryPackage] else []))

def packageFiles (n : Namespace) (subPackages : List String) : List (Category × Path × Material) :=
  (n.packages ++ [n.path] ++ subPackages.map n.path.child).map fun p =>
    (.package, p.child packageFile, .ofEntities [])

/-- The files of a batch, in the order in which they are made. -/
def batchFiles (n : Namespace) (entities : List Entity) (table : Option Table) :
    List (Category × Path × Material) :=
  table.toList.flatMap (tableFiles n.path entities)
    ++ entities.flatMap (entityFiles n.path table)
    ++ [(.validationError,
          (n.path.child Access.validatorsPackage).child (Access.validationErrorModule ++ ".py"),
          .ofEntities entities)]
    ++ packageFiles n (neededPackages entities table)

/-- The descriptions of the schemas of a batch, once all names have been checked. -/
def describeBatch (schemas : List Schema) (table : Option Table) : Attempt (List Entity) := do
  for s in schemas do
    Attempt.ofExcept (checkCollisions s)
  let entities ← describeAll schemas
  Attempt.ofExcept (checkTypeNames entities)
  if let some t := table then
    Attempt.ofExcept (checkIndexNames t)
  Attempt.tell (.described entities.length)
  pure entities

/-- The files of a batch in the order of their paths. -/
def plan (o : Options) (n : Namespace) (schemas : List Schema) (table : Option Table) :
    Attempt (List RenderedFile) := do
  let entities ← describeBatch schemas table
  if table.isNone then
    Attempt.tell .noTable
  let files ← (batchFiles n entities table).mapM fun (category, path, material) =>
    renderFile o category path material
  pure (Path.sortBy (·.path) files)

def readNamespace (s : String) : Except Failure Namespace :=
  match Namespace.ofText s with
  | .ok n => .ok n
  | .error parts => .error (.invalidNamespace s parts)

end Tablewright
