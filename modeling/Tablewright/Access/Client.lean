import Tablewright.Access.Layout

/-!
# The connection

The module of the connection that all repositories of a table share. Table name, region and endpoint
come from the builder, else from the environment, else from the defaults of the service library.

* `environmentLookup`: the function that looks a setting up.
* `clientType`, `clientBuilder`: the connection and its builder.
* `clientSource`: the module.
-/

namespace Tablewright.Access

open Source (Expr Stmt Param Keyword Module noResult)

/-- The object that only the builder and the wrapper hold, so that nothing else can construct a
connection. -/
def constructionToken : String := "_CONSTRUCTION_TOKEN"

def optionalText : Expr := Expr.generic "Optional" [.name "str"]

/-- The settings that the environment may give: the attribute of the builder, the constant with the names
of the variables, and these names. -/
def environmentSettings : List (String × String × List String) :=
  [("table_name", "TABLE_NAME_ENV_VARS", ["DYNAMODB_TABLE_NAME"]),
   ("region", "REGION_ENV_VARS", ["AWS_REGION", "AWS_DEFAULT_REGION"]),
   ("endpoint", "ENDPOINT_ENV_VARS", ["DYNAMODB_ENDPOINT"])]

/-- The look-up of a setting: the given value, else the first variable that is not empty. -/
def environmentLookup : Stmt :=
  .function ⟨"_from_environment", [],
      [Param.required "value" optionalText,
       Param.required "names" (Expr.generic "Sequence" [.name "str"])], none, some optionalText⟩ none
    [.ifThen (Expr.isNotNone (.name "value")) [.result (.name "value")],
     .forIn "name" (.name "names")
       [Stmt.bind "candidate" (Expr.method (Expr.path "os.environ") "get" [.name "name"]),
        .ifThen (.name "candidate") [.result (.name "candidate")]],
     .result Expr.none]

/-- A private attribute of the instance. -/
def own (member : String) : Expr := .attr (.name "self") ("_" ++ member)

def constructClient (resource tableName : Expr) : Stmt :=
  .result (Expr.apply clientClass [.name constructionToken, resource, tableName])

def builderAttributes : List String := ["table_name", "region", "endpoint", "existing_resource"]

/-- The method that builds the connection. -/
def buildMethod : Stmt :=
  .function ⟨"build", [], [Param.plain "self"], none, some (Expr.text clientClass)⟩
    (some ("Create the client. An existing resource is used as-is; otherwise explicit values win "
      ++ "over environment variables, and anything still unset is left to boto3."))
    (.ifThen (Expr.isNotNone (own "existing_resource"))
        [constructClient (own "existing_resource") (own "table_name")]
      :: (environmentSettings.map fun (member, constant, _) =>
        Stmt.bind member (Expr.apply "_from_environment" [own member, .name constant]))
      ++ [.annotated "options" itemType (some (.dict [])),
          .ifThen (.name "region") [Stmt.put (.name "options") "region_name" (.name "region")],
          .ifThen (.name "endpoint") [Stmt.put (.name "options") "endpoint_url" (.name "endpoint")],
          Stmt.bind "resource" (.call (Expr.path "boto3.resource") [Expr.text "dynamodb"]
            [.mk none (.name "options")]),
          constructClient (.name "resource") (.name "table_name")])

/-- The builder of the connection. -/
def clientBuilder : Stmt :=
  .classDef "Builder" [] [] (some s!"Fluent builder for {clientClass}.")
    (.function ⟨"__init__", [], [Param.plain "self"], none, noResult⟩ none
        (builderAttributes.map fun member => .assign (own member) Expr.none)
      :: (builderAttributes.map fun member =>
        .function ⟨member, [], [Param.plain "self", Param.required "value"
            (if member = "existing_resource" then .name "Any" else optionalText)], none,
            some (Expr.text s!"{clientClass}.Builder")⟩ none
          [.assign (own member) (.name "value"), .result (.name "self")])
      ++ [buildMethod])

def readOnlyProperty (name : String) (returns : Expr) (doc : Option String) (body : List Stmt) : Stmt :=
  .function ⟨name, [.name "property"], [Param.plain "self"], none, some returns⟩ doc body

/-- The class of the connection. -/
def clientType : Stmt :=
  .classDef clientClass [] []
    (some "Shared DynamoDB connection: a boto3 service resource plus the bound table name.")
    [.function ⟨"__init__", [],
        [Param.plain "self", Param.required "token" (.name "object"),
         Param.required "resource" (.name "Any"), Param.required "table_name" optionalText], none,
        noResult⟩ none
      [.ifThen (.compare (.name "token") .isNot (.name constructionToken))
         [.raise (Expr.apply "TypeError" [Expr.text
           s!"Use {clientClass}.builder() or {clientClass}.wrap() to create a client"])],
       .assign (own "resource") (.name "resource"),
       .assign (own "table_name") (.name "table_name"),
       .assign (own "table") Expr.none],
     readOnlyProperty "resource" (.name "Any")
       (some "The underlying boto3 DynamoDB service resource.") [.result (own "resource")],
     readOnlyProperty "table_name" optionalText none [.result (own "table_name")],
     readOnlyProperty "table" (.name "Any") (some "The bound Table resource, created on first use.")
       [.ifThen (Expr.isNone (own "table"))
         [.assign (own "table") (Expr.method (own "resource") "Table" [own "table_name"])],
        .result (own "table")],
     .function ⟨"builder", [.name "staticmethod"], [], none, some (Expr.text s!"{clientClass}.Builder")⟩
       none [.result (Expr.method (.name clientClass) "Builder" [])],
     .function ⟨"wrap", [.name "staticmethod"],
         [Param.required "resource" (.name "Any"), Param.required "table_name" (.name "str")], none,
         some (Expr.text clientClass)⟩
       (some "Wrap an already constructed boto3 DynamoDB resource.")
       [constructClient (.name "resource") (.name "table_name")],
     clientBuilder]

/-- The module of the connection. -/
def clientSource : Module :=
  ⟨moduleDoc "DynamoDB connection wrapper shared by all repositories of this table.",
    [.importModule "os", .importFrom "typing" ["Any", "Dict", "Optional", "Sequence"],
     .importModule "boto3"]
    ++ (environmentSettings.map fun (_, constant, names) =>
      Stmt.bind constant (.tuple (names.map Expr.text)))
    ++ [Stmt.bind constructionToken (Expr.apply "object" []), environmentLookup, clientType]⟩

end Tablewright.Access
