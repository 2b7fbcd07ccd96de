import Tablewright.Access.Conversion
import Tablewright.Access.Layout

/-!
# Record classes

The module of an entity or of a nested record: a class with a property for every field, conversion to
and from items, comparison, a printed form, and a builder.

* `defaultValue`: the initial value of a field as an expression, where it can be expressed.
* `recordClass`: the class; `recordModule`: the module around it.
-/

namespace Tablewright.Access

open Source (Expr Stmt Param Signature Module Part Entry Keyword noResult)

/-- The backing attribute of a field, on an instance by name. -/
def backingOf (owner : String) (f : ResolvedField) : Expr := .attr (.name owner) (backing f.identifier)

def setBacking (owner : String) (f : ResolvedField) (value : Expr) : Stmt :=
  .assign (backingOf owner f) value

/-- A method without parameters of its own. -/
def plainMethod (name : String) (returns : Expr) (doc : Option String) (body : List Stmt) : Stmt :=
  .function ⟨name, [], [Param.plain "self"], none, some returns⟩ doc body

def classMethod (name : String) (params : List Param) (returns : Expr) (body : List Stmt) : Stmt :=
  .function ⟨name, [.name "classmethod"], Param.plain "cls" :: params, none, some returns⟩ none body

/-! ## Defaults -/

def sequence? : Value → Option (List Value)
  | .list items => some items
  | .tuple items => some items
  | _ => none

/-- The truth value that a value or its text stands for. -/
def truth? : Value → Option Bool
  | .bool b => some b
  | v =>
    let word := String.ofList (Text.lower v.display.toList)
    if word = "true" then some true else if word = "false" then some false else none

/-- The initial value of a type that is no enum, where it can be expressed. -/
def plainDefault? : TypeRef → Value → Option Expr
  | .scalar .string, v => some (Expr.text v.display)
  | .scalar .number, .bool _ => none
  | .scalar .number, v => some (Expr.apply "Decimal" [Expr.text v.display])
  | .scalar .boolean, v => (truth? v).map Expr.bool
  | .scalar .timestamp, .text s =>
    some (Expr.method (.name "datetime") "fromisoformat" [Expr.text s])
  | .any, v => some (Expr.ofValue v)
  | .list .any, v | .list (.scalar .string), v | .list (.scalar .boolean), v =>
    (sequence? v).map fun items => Expr.ofValue (.list items)
  | .set .string, v =>
    (sequence? v).map fun items =>
      Expr.apply "set" [Expr.ofValue (.list (items.map fun item => .text item.display))]
  | _, _ => none

/-- The initial value of a field, where it can be expressed. -/
def default? (enums : List EnumType) (f : ResolvedField) : Option Expr :=
  match f.type with
  | .enum name =>
    (enums.reverse.find? (·.name == name)).bind fun e =>
      (e.constantFor? f.field.default).map fun constant => .attr (.name name) constant
  | type => plainDefault? type f.field.default

/-- The notice about an initial value that cannot be expressed. -/
def skippedDefault (recordName : String) (f : ResolvedField) : Notice :=
  match f.type with
  | .enum _ => .enumDefaultSkipped f.field.default.display recordName f.identifier
  | _ => .defaultSkipped f.field.default.literal recordName f.identifier

/-- The value that the constructor stores for a field. -/
def initialValue (enums : List EnumType) (recordName : String) (f : ResolvedField) : Noted Expr :=
  let given := Expr.name f.identifier
  if f.field.hasDefault then
    match default? enums f with
    | some default => pure (.conditional given (Expr.isNotNone given) default)
    | none => ⟨given, [skippedDefault recordName f]⟩
  else pure given

/-! ## Members -/

def renamedFields (r : Record) : List ResolvedField := r.fields.filter (·.isRenamed)

/-- The key identifiers of an entity and the storage names of renamed fields. -/
def classConstants (r : Record) : List Stmt :=
  (match r.role with
    | .entity partitionKey sortKey =>
      Stmt.bind "PARTITION_KEY" (Expr.text partitionKey)
        :: ((given sortKey).map fun key => Stmt.bind "SORT_KEY" (Expr.text key)).toList
    | .nested => [])
    ++ [Stmt.bind "ATTRIBUTE_NAMES" (.dict ((renamedFields r).map fun f =>
      .mk (Expr.text f.identifier) (Expr.text f.storageName)))]

/-- The constructor: every field may be given by name, in the order of declaration. -/
def constructor (enums : List EnumType) (r : Record) : Noted Stmt := do
  let values ← Noted.each (initialValue enums r.name) r.fields
  let params := r.fields.map fun f => Param.optional f.identifier (optionalHint f.type)
  pure (.function ⟨"__init__", [], Param.plain "self" :: params, none, noResult⟩ none
    (orPass (List.zipWith (setBacking "self") r.fields values)))
where
  /-- A body that would be empty passes. -/
  orPass (body : List Stmt) : List Stmt := if body.isEmpty then [.pass] else body

/-- What is said about a field: its part in the key, its description and its storage name. -/
def propertyDoc (r : Record) (f : ResolvedField) : Option String :=
  let role :=
    if r.partitionKey? = some f.identifier then ["Partition key."]
    else if r.sortKey? = some f.identifier then ["Sort key."] else []
  let lines := role ++ (given f.field.description).toList
    ++ (if f.isRenamed then [s!"Stored as '{f.storageName}'."] else [])
  if lines.isEmpty then none else some (" ".intercalate lines)

/-- The property of a field: reading and writing. -/
def property (r : Record) (f : ResolvedField) : List Stmt :=
  [.function ⟨f.identifier, [.name "property"], [Param.plain "self"], none, some (optionalHint f.type)⟩
      (propertyDoc r f) [.result (backingOf "self" f)],
   .function ⟨f.identifier, [.attr (.name f.identifier) "setter"],
      [Param.plain "self", Param.required "value" (optionalHint f.type)], none, noResult⟩ none
      [setBacking "self" f (.name "value")]]

/-- Whether a field is stored: absent values and empty sets are not. -/
def storedTest (f : ResolvedField) : Expr :=
  match f.type with
  | .set _ => backingOf "self" f
  | _ => Expr.isNotNone (backingOf "self" f)

/-- The method that gives the item of a record. -/
def toItem (r : Record) : Stmt :=
  plainMethod "to_item" itemType
    (some "Return the item representation keyed by storage attribute names.")
    (.annotated "item" itemType (some (.dict []))
      :: (r.fields.map fun f => .ifThen (storedTest f)
          [Stmt.put (.name "item") f.storageName (toStorage 0 f.type (backingOf "self" f))])
      ++ [.result (.name "item")])

/-- The method that builds a record from an item. -/
def fromItem (r : Record) : Stmt :=
  classMethod "from_item" [Param.required "item" itemType] (Expr.text r.name)
    (Stmt.bind "entity" (Expr.apply "cls" [])
      :: (r.fields.map fun f => .ifThen
          (Expr.isNotNone (Expr.method (.name "item") "get" [Expr.text f.storageName]))
          [setBacking "entity" f
            (fromStorage 0 f.type (.subscript (.name "item") (Expr.text f.storageName)))])
      ++ [.result (.name "entity")])

/-- Equality: of the same class and equal in every field. -/
def equality (r : Record) : Stmt :=
  .function ⟨"__eq__", [], [Param.plain "self", Param.required "other" (.name "object")], none,
      some (.name "bool")⟩ none
    [.ifThen (.not (Expr.apply "isinstance" [.name "other", .name r.name]))
      [.result (.name "NotImplemented")],
     .result (if r.fields.isEmpty then Expr.bool true
       else .compare (.tuple (r.fields.map (backingOf "self"))) .eq
         (.tuple (r.fields.map (backingOf "other"))))]

/-- The hash: of every field, after lists, sets and mappings are made hashable. -/
def hash (r : Record) : Stmt :=
  plainMethod "__hash__" (.name "int") none
    [.result (if r.fields.isEmpty then .constant (.int 0)
      else Expr.apply "hash" [.tuple (r.fields.map fun f =>
        if needsHashable f.type then Expr.apply "_hashable" [backingOf "self" f]
        else backingOf "self" f)])]

/-- The parts of the printed form, after the name and the opening brace. -/
def shownFields : List ResolvedField → List Part
  | [] => []
  | f :: rest =>
    .text (", " ++ f.identifier ++ "=") :: .field (backingOf "self" f) (some 'r') :: shownFields rest

def shown (r : Record) : Stmt :=
  plainMethod "__repr__" (.name "str") none
    [.result (match r.fields with
      | [] => Expr.text (r.name ++ "\x7b\x7d")
      | f :: rest => .formatted (.text (r.name ++ "\x7b" ++ f.identifier ++ "=")
          :: .field (backingOf "self" f) (some 'r') :: (shownFields rest ++ [.text "\x7d"])))]

def builderName (r : Record) : Expr := Expr.text (r.name ++ ".Builder")

/-- The builder: a method for every field, and one that builds the record. -/
def builderClass (r : Record) : Stmt :=
  .classDef "Builder" [] [] (some s!"Fluent builder for {r.name}.")
    (.function ⟨"__init__", [], [Param.plain "self"], none, noResult⟩ none
        (if r.fields.isEmpty then [.pass] else r.fields.map fun f => setBacking "self" f Expr.none)
      :: (r.fields.map fun f =>
          .function ⟨f.identifier, [],
              [Param.plain "self", Param.required "value" (optionalHint f.type)], none,
              some (builderName r)⟩ none
            [setBacking "self" f (.name "value"), .result (.name "self")])
      ++ [plainMethod "build" (Expr.text r.name) none
          [.result (.call (.name r.name) [] (r.fields.map fun f =>
            Keyword.mk (some f.identifier) (backingOf "self" f)))]])

/-! ## Class and module -/

/-- What a record is, in two words. -/
def roleWords (r : Record) : String := if r.isEntity then "entity" else "nested record"

/-- The class of a record. -/
def recordClass (enums : List EnumType) (r : Record) : Noted Stmt := do
  let init ← constructor enums r
  pure (.classDef r.name [] []
    (some ((given r.description).getD s!"{r.name} {roleWords r}."))
    (classConstants r ++ init :: (r.fields.flatMap (property r))
      ++ [classMethod "builder" [] (builderName r) [.result (Expr.method (.name "cls") "Builder" [])],
          toItem r, fromItem r, equality r, hash r, shown r, builderClass r]))

/-- The function that makes lists, sets and mappings hashable, member by member. -/
def hashableFunction : Stmt :=
  let recurse (source : Expr) : Expr :=
    .comprehension .generator (Expr.apply "_hashable" [.name "item"]) "item" source
  let isInstance (type : Expr) : Expr := Expr.apply "isinstance" [.name "value", type]
  .function ⟨"_hashable", [], [Param.required "value" (.name "Any")], none, some (.name "Any")⟩ none
    [.ifThen (isInstance (.name "dict"))
      [.result (Expr.apply "frozenset" [recurse (Expr.method (.name "value") "items" [])])],
     .ifThen (isInstance (.tuple [.name "list", .name "tuple"]))
      [.result (Expr.apply "tuple" [recurse (.name "value")])],
     .ifThen (isInstance (.tuple [.name "set", .name "frozenset"]))
      [.result (Expr.apply "frozenset" [recurse (.name "value")])],
     .result (.name "value")]

def recordUsage (r : Record) : Usage :=
  r.fields.foldl (fun u f => u.addOptional f.type) (Usage.ofTyping ["Any", "Dict"])

/-- Where the modules of nested types are, seen from the module of a record. -/
def nestedModule (r : Record) (typeName : String) : String :=
  (if r.isEntity then "." ++ nestedPackage ++ "." else ".") ++ Name.snakeCase typeName

/-- The module of a record. -/
def recordModule (enums : List EnumType) (r : Record) : Noted Module := do
  let cls ← recordClass enums r
  let usage := recordUsage r
  pure ⟨moduleDoc s!"{r.name} {roleWords r}.",
    usage.standardImports
      ++ (usage.types.map fun t => .importFrom (nestedModule r t) [t])
      ++ (if r.fields.any fun f => needsHashable f.type then [hashableFunction] else [])
      ++ [cls]⟩

/-- The module of an enum: its values under their constants, in order. -/
def enumModule (e : EnumType) : Module :=
  ⟨moduleDoc s!"{e.name} enum.",
    [.importFrom "enum" ["Enum"],
     .classDef e.name [] [.name "str", .name "Enum"]
       (some s!"Allowed values of {e.owner}.{e.fieldName}.")
       (e.members.map fun (constant, value) => Stmt.bind constant (Expr.text value))]⟩

end Tablewright.Access
