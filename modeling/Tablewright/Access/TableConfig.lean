import Tablewright.Access.Client

/-!
# The table configuration

The module with the constants of a table, the connection that a process shares, and a factory for every
repository.

* `isDeployTimeArn`: whether a resource name may be replaced at deployment.
* `tableConfigModule`: the module.
-/

namespace Tablewright.Access

open Source (Expr Stmt Param Module)

/-- The texts that mark a token in a resource name. -/
def tokenMarkers : List String := ["$\x7bToken[", "Token[", "$\x7b"]

/-- Whether a resource name is one, or holds a token that is replaced at deployment: then the environment
may give another one. -/
def isDeployTimeArn (arn : Option String) : Bool :=
  match arn with
  | none => false
  | some arn =>
    "arn:".toList.isPrefixOf arn.toList
      || tokenMarkers.any fun marker => Text.occursIn marker.toList arn.toList

def arnExpr (arn : Option String) : Expr :=
  let plain : Expr := .constant ((arn.map Value.text).getD .null)
  if isDeployTimeArn arn then
    .or (Expr.method (Expr.path "os.environ") "get" [Expr.text "DYNAMODB_TABLE_ARN"]) plain
  else plain

def factoryName (entityName : String) : String := Name.snakeCase entityName ++ "_repository"

/-- The function that gives the shared connection and creates it on first use, under a lock. -/
def getClient : Stmt :=
  let absent := Expr.isNone (.name "_shared_client")
  .function ⟨"get_client", [], [], none, some (.name clientClass)⟩
    (some "Return the process-wide client, creating it on first use.")
    [.global "_shared_client",
     .ifThen absent [.withBlock (.name "_lock") [.ifThen absent
       [Stmt.bind "_shared_client" (Expr.method (Expr.apply "client_builder" []) "build" [])]]],
     .result (.name "_shared_client")]

/-- The function that gives a builder with the name and the region of the table. -/
def clientBuilderFunction : Stmt :=
  .function ⟨"client_builder", [], [], none, some (Expr.text s!"{clientClass}.Builder")⟩
    (some "Return a client builder pre-set with this table's name and region.")
    [.result (Expr.method
      (Expr.method (Expr.method (.name clientClass) "builder" []) "table_name" [.name "TABLE_NAME"])
      "region" [.name "REGION"])]

/-- The function that creates a repository. -/
def repositoryFactory (e : Entity) : Stmt :=
  let repository := repositoryClass e.name
  .function ⟨factoryName e.name, [],
      [Param.optional "client" (Expr.generic "Optional" [.name clientClass])], none,
      some (.name repository)⟩
    (some s!"Create a {repository} on the given client, or on the shared client when omitted.")
    [.result (Expr.apply repository
      [.conditional (.name "client") (Expr.isNotNone (.name "client")) (Expr.apply "get_client" [])])]

/-- Puts an entity after those whose names are not greater. -/
def insertByName (e : Entity) : List Entity → List Entity
  | [] => [e]
  | other :: rest => if e.name < other.name then e :: other :: rest else other :: insertByName e rest

def sortByName (entities : List Entity) : List Entity :=
  entities.foldl (fun sorted e => insertByName e sorted) []

def repositoryImports (entities : List Entity) : List Stmt :=
  (sortByName entities).map fun e =>
    .importFrom (s!"..{repositoryPackage}." ++ Name.snakeCase (repositoryClass e.name))
      [repositoryClass e.name]

/-- The module of the table configuration. -/
def tableConfigModule (t : Table) (entities : List Entity) : Noted Module :=
  ⟨⟨moduleDoc s!"Configuration of table '{t.name}'.",
    [.importModule "os", .importModule "threading", .importFrom "typing" ["Optional"],
     .importFrom s!"..{clientPackage}.{clientModule}" [clientClass]]
    ++ repositoryImports entities
    ++ [Stmt.bind "TABLE_NAME" (Expr.text t.name),
        Stmt.bind "TABLE_ARN" (arnExpr t.arn),
        Stmt.bind "REGION" (.constant ((t.region.map Value.text).getD .null)),
        .annotated "_shared_client" (Expr.generic "Optional" [.name clientClass]) (some Expr.none),
        Stmt.bind "_lock" (Expr.method (.name "threading") "Lock" []),
        getClient, clientBuilderFunction]
    ++ entities.map repositoryFactory⟩,
   if isDeployTimeArn t.arn then [.arnOverridable t.name] else []⟩

end Tablewright.Access
