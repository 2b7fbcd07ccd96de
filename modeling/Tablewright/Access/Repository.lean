import Tablewright.Access.Conversion
import Tablewright.Access.Layout
import Tablewright.Text.Plural

/-!
# Repositories

The module that stores and loads the items of an entity: by primary key, and by every secondary index of
the table.

* `keyArgument`: a key parameter as it is handed to the store.
* `queryMethod`, `queryAllMethod`: the query of an index, and the loop over all result pages.
* `repositoryHelper`, `repositoryModule`: the class and the module around it.
-/

namespace Tablewright.Access

open Source (Expr Stmt Param Keyword Module noResult)

def queryName (i : Index) : String := "query_by_" ++ Name.snakeCase i.name

/-- A key parameter as it is handed to the store: timestamps and enums become texts. -/
def keyArgument (k : KeyAttribute) : Expr :=
  match k.type with
  | .enum _ | .scalar .timestamp => toStorage 0 k.type (.name k.identifier)
  | _ => .name k.identifier

def keyCall (e : Entity) : Expr := Expr.method (.name (keysClass e.name)) "key" (e.keys.map keyArgument)

def keyParams (keys : List KeyAttribute) : List Param :=
  keys.map fun k => Param.required k.identifier (typeHint k.type)

def tableCall (method : String) (keywords : List Keyword) : Expr :=
  .call (.attr (.attr (.name "self") "_table") method) [] keywords

def argument (name : String) (value : Expr) : Keyword := .mk (some name) value

/-! ## Members -/

def repositoryConstructor : Stmt :=
  .function ⟨"__init__", [], [Param.plain "self", Param.required "client" (Expr.text clientClass)], none,
      noResult⟩ none
    [.assign (.attr (.name "self") "_table") (.attr (.name "client") "table")]

/-- The constructor from an existing resource. -/
def fromResource (e : Entity) : Stmt :=
  .function ⟨"from_resource", [.name "classmethod"],
      [Param.plain "cls", Param.required "resource" (.name "Any"),
       Param.required "table_name" (.name "str")], none, some (Expr.text (repositoryClass e.name))⟩
    (some "Create a repository over an already constructed DynamoDB resource (e.g. in tests).")
    [Stmt.bind "repository" (Expr.method (.name "cls") "__new__" [.name "cls"]),
     .assign (.attr (.name "repository") "_table")
       (Expr.method (.name "resource") "Table" [.name "table_name"]),
     .result (.name "repository")]

/-- Saving: validation comes before the write. -/
def saveMethod (e : Entity) : Stmt :=
  .function ⟨"save", [], [Param.plain "self", Param.required "entity" (.name e.name)], none, noResult⟩
    (some s!"Validate and store a {e.name}; raises ValidationError without writing when invalid.")
    [.expr (Expr.method (.name (validatorClass e.name)) "validate" [.name "entity"]),
     .expr (tableCall "put_item" [argument "Item" (Expr.method (.name "entity") "to_item" [])])]

/-- Loading by primary key. -/
def findByKey (e : Entity) : Stmt :=
  .function ⟨"find_by_key", [], Param.plain "self" :: keyParams e.keys, none,
      some (Expr.generic "Optional" [.name e.name])⟩ none
    [Stmt.bind "response" (tableCall "get_item" [argument "Key" (keyCall e)]),
     Stmt.bind "item" (Expr.method (.name "response") "get" [Expr.text "Item"]),
     .ifThen (Expr.isNone (.name "item")) [.result Expr.none],
     .result (Expr.method (.name e.name) "from_item" [.name "item"])]

def deleteByKey (e : Entity) : Stmt :=
  .function ⟨"delete_by_key", [], Param.plain "self" :: keyParams e.keys, none, noResult⟩ none
    [.expr (tableCall "delete_item" [argument "Key" (keyCall e)])]

/-- The key attributes of an index: the partition key, and the sort key if there is one. -/
def indexKeys (e : Entity) (i : Index) : Noted (KeyAttribute × Option KeyAttribute) := do
  let partitionKey ← e.keyAttribute i.partitionKey
  match i.sortKey? with
  | some attr => do pure (partitionKey, some (← e.keyAttribute attr))
  | none => pure (partitionKey, none)

/-- The part of a query that adds the condition on the sort key, if the caller gives one. -/
def sortCondition (k : KeyAttribute) : Stmt :=
  .ifThen (Expr.isNotNone (.name k.identifier))
    [.increase "key_condition" (Expr.text " AND #sk = :sk"),
     Stmt.put (.name "expression_names") "#sk" (Expr.text k.storageName),
     Stmt.put (.name "expression_values") ":sk" (keyArgument k)]

/-- The query of an index by its key. -/
def queryMethod (e : Entity) (i : Index) (partitionKey : KeyAttribute) (sortKey : Option KeyAttribute) :
    Stmt :=
  .function ⟨queryName i, [],
      Param.plain "self" :: (keyParams [partitionKey]
        ++ sortKey.toList.map fun k =>
          Param.optional k.identifier (Expr.generic "Optional" [typeHint k.type])), none,
      some (Expr.generic "List" [.name e.name])⟩
    (some s!"Return every {e.name} matching the '{i.name}' index key; all result pages are read.")
    ([Stmt.bind "key_condition" (Expr.text "#pk = :pk"),
      Stmt.bind "expression_names" (.dict [.mk (Expr.text "#pk") (Expr.text partitionKey.storageName)]),
      Stmt.bind "expression_values" (.dict [.mk (Expr.text ":pk") (keyArgument partitionKey)])]
      -- a sort key may be left out of a call, and the condition then leaves it out too
      ++ sortKey.toList.map sortCondition
      ++ [.result (.call (.attr (.name "self") "_query_all") []
        [argument "IndexName" (.attr (.name (keysClass e.name)) (Name.indexConstant i.name)),
         argument "KeyConditionExpression" (.name "key_condition"),
         argument "ExpressionAttributeNames" (.name "expression_names"),
         argument "ExpressionAttributeValues" (.name "expression_values")])])

/-- The loop that reads result pages until none is left. -/
def queryAllMethod (e : Entity) : Stmt :=
  .function ⟨"_query_all", [], [Param.plain "self"], some (Param.required "kwargs" (.name "Any")),
      some (Expr.generic "List" [.name e.name])⟩ none
    [.annotated "results" (Expr.generic "List" [.name e.name]) (some (.list [])),
     .loop (Expr.bool true)
      [Stmt.bind "response" (tableCall "query" [.mk none (.name "kwargs")]),
       .expr (Expr.method (.name "results") "extend"
         [.comprehension .generator (Expr.method (.name e.name) "from_item" [.name "item"]) "item"
           (Expr.method (.name "response") "get" [Expr.text "Items", .list []])]),
       Stmt.bind "last_key" (Expr.method (.name "response") "get" [Expr.text "LastEvaluatedKey"]),
       .ifThen (.not (.name "last_key")) [.result (.name "results")],
       Stmt.put (.name "kwargs") "ExclusiveStartKey" (.name "last_key")]]

/-! ## Class and module -/

/-- The plural of a name. One that has none gets an `s`. -/
def pluralName (name : String) : Noted String := do
  match Text.plural? name with
  | some plural => pure plural
  | none => do
    Noted.tell (.noPlural name)
    pure (name ++ "s")

/-- The class of a repository. -/
def repositoryHelper (e : Entity) (t : Table) : Noted Stmt := do
  let queries ← Noted.each (fun i => do
    let (partitionKey, sortKey) ← indexKeys e i
    pure (queryMethod e i partitionKey sortKey)) t.indexes
  let plural ← pluralName e.name
  pure (.classDef (repositoryClass e.name) [] []
    (some (s!"Stores and loads {plural} in table '{t.name}'.\n\n"
      ++ "Access is by primary key or secondary index query only; no scan operation is provided."))
    ([repositoryConstructor, fromResource e, saveMethod e, findByKey e, deleteByKey e] ++ queries
      ++ (if t.indexes.isEmpty then [] else [queryAllMethod e])))

/-- What a repository imports for its key parameters. -/
def repositoryUsage (e : Entity) (t : Table) : Noted Usage := do
  let keys ← Noted.each (fun i => do
    let (partitionKey, sortKey) ← indexKeys e i
    pure (partitionKey :: sortKey.toList)) t.indexes
  let start := Usage.ofTyping (["TYPE_CHECKING", "Any", "Optional"]
    ++ (if t.indexes.isEmpty then [] else ["List"]))
  pure ((e.keys ++ keys.flatten).foldl (fun u k => u.addPlain k.type) start)

/-- The module of a repository. -/
def repositoryModule (e : Entity) (t : Table) : Noted Module := do
  let usage ← repositoryUsage e t
  let cls ← repositoryHelper e t
  pure ⟨moduleDoc s!"Repository for {e.name}.",
    usage.standardImports
      ++ [.importFrom (s!"..{keysPackage}." ++ Name.snakeCase (keysClass e.name)) [keysClass e.name]]
      ++ (usage.types.map fun type => .importFrom (s!"..{nestedPackage}." ++ Name.snakeCase type) [type])
      ++ [.importFrom (".." ++ Name.snakeCase e.name) [e.name],
          .importFrom (s!"..{validatorsPackage}." ++ Name.snakeCase (validatorClass e.name))
            [validatorClass e.name],
          .ifThen (.name "TYPE_CHECKING")
            [.importFrom s!"..{clientPackage}.{clientModule}" [clientClass]],
          cls]⟩

end Tablewright.Access
