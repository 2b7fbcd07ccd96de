import Tablewright.Name.Constant
import Tablewright.Schema.Description
import Tablewright.Source.Syntax

/-!
# Names in a generated package

The sub-packages, modules and classes of a generated package, and what generated source calls its
members.

* `subPackages`, `importedNames`: fixed names of the package.
* `keysClass`, `validatorClass`, `repositoryClass`: the classes of an entity.
* `backing`: the instance attribute behind a field.
* `moduleDoc`: the text that every generated module starts with.
-/

namespace Tablewright.Access

def nestedPackage : String := "nested"

def keysPackage : String := "keys"

def validatorsPackage : String := "validators"

def repositoryPackage : String := "repository"

def clientPackage : String := "client"

def configPackage : String := "config"

/-- Every sub-package; entity modules stand beside them. -/
def subPackages : List String :=
  [nestedPackage, keysPackage, validatorsPackage, repositoryPackage, clientPackage, configPackage]

def validationErrorModule : String := "validation_error"

def clientModule : String := "dynamodb_table_client"

def configModule : String := "table_config"

def clientClass : String := "DynamoDbTableClient"

def validationErrorClass : String := "ValidationError"

def violationClass : String := "FieldViolation"

/-- The names that generated modules import beside the types of entities. -/
def importedNames : List String :=
  [clientClass, validationErrorClass, violationClass,
   "Any", "Dict", "List", "Optional", "Set", "Decimal", "Enum"]

def keysClass (entityName : String) : String := entityName ++ "Keys"

def validatorClass (entityName : String) : String := entityName ++ "Validator"

def repositoryClass (entityName : String) : String := entityName ++ "Repository"

/-- The instance attribute behind a field. Two underscores in front would be mangled, so an identifier that
starts with one gets a word before it. -/
def backing (identifier : String) : String :=
  if identifier.toList.head? = some '_' then "_field" ++ identifier else "_" ++ identifier

def moduleDoc (summary : String) : String :=
  "\n" ++ summary ++ "\n\nGenerated by dynamo-codegen. Do not edit by hand.\n"

/-- The type of items: mappings from attribute names to anything. -/
def itemType : Source.Expr := Source.Expr.generic "Dict" [.name "str", .name "Any"]

/-- The constructor of a class that is not to be instantiated. -/
def refusingConstructor (className : String) : Source.Stmt :=
  .function ⟨"__init__", [], [Source.Param.plain "self"], none, Source.noResult⟩ none
    [.raise (Source.Expr.apply "TypeError"
      [Source.Expr.text s!"{className} is a utility class and cannot be instantiated"])]

end Tablewright.Access
