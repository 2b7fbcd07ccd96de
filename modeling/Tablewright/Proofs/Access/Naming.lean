import Tablewright.Proofs.Access.Building
import Tablewright.Proofs.Access.HelperClasses
import Tablewright.Proofs.Access.KeyNames
import Tablewright.Proofs.Source.Naming

/-!
# What emitted modules are spelled with

The identifiers in emitted modules come from few places: fixed words, the variables of comprehensions, and what the
description of an entity gives.  So a property of names holds throughout a module once it holds of these.

* `SharedNames`, `recordWords` and the like: the fixed words; `FixedNames`: all names that are the same for every batch.
* `RecordNames`, `EntityNames`: what the description of a record or of an entity gives.
* `recordModule_namedBy` and the like: the modules are spelled with nothing else.
* `record_named`, `keyFunctions_named`, `factory_named`: some of these names stand in every such module.
-/

namespace Tablewright.Access

open Source (Expr Stmt Param Part Entry Keyword Signature Module noResult)

variable {P : String → Prop} {enums : List EnumType} {r : Record} {f : ResolvedField} {e : Entity}

/-! ## Types and values -/

def conversionWords : List String :=
  ["str", "Decimal", "bool", "datetime", "Any", "Dict", "List", "Set", "Optional", "list", "set", "value", "isoformat",
   "fromisoformat", "to_item", "from_item"]

/-- The words that any module may use for types and values have a property. -/
structure SharedNames (P : String → Prop) : Prop where
  conversions : ∀ word ∈ conversionWords, P word
  elements : ∀ depth, P (elementName depth)

/-- The generated types that a type mentions have a property. -/
def TypeNames (P : String → Prop) (type : TypeRef) : Prop :=
  ∀ name, name ∈ type.recordNames ∨ name ∈ type.enumNames → P name

theorem undotted_conversionWords : ∀ word ∈ conversionWords, Text.split '.' word = [word] := by decide +kernel

mutual

/-- The expression of a document value has no identifiers. -/
theorem ofValue_namedBy : (v : Value) → (Expr.ofValue v).NamedBy P
  | .dict entries => Expr.namedBy_dict.mpr (ofEntries_namedBy entries)
  | .list items => Expr.namedBy_list.mpr (ofValues_namedBy items)
  | .tuple items => Expr.namedBy_list.mpr (ofValues_namedBy items)
  | .null | .bool _ | .int _ | .float _ | .text _ | .set _ | .bytes _ | .date _ | .moment _ => Expr.namedBy_constant _

theorem ofValues_namedBy : (items : List Value) → ∀ a ∈ Expr.ofValues items, a.NamedBy P
  | [] => by simp [Expr.ofValues]
  | v :: rest => List.forall_mem_cons.mpr ⟨ofValue_namedBy v, ofValues_namedBy rest⟩

theorem ofEntries_namedBy : (entries : List (Value × Value)) → ∀ a ∈ Expr.ofEntries entries, a.NamedBy P
  | [] => by simp [Expr.ofEntries]
  | (k, v) :: rest => List.forall_mem_cons.mpr ⟨⟨ofValue_namedBy k, ofValue_namedBy v⟩, ofEntries_namedBy rest⟩

end

namespace SharedNames

variable (shared : SharedNames P) {type : TypeRef}
include shared

theorem generic_namedBy {head : String} (known : head ∈ conversionWords) {args : List Expr} :
    (Expr.generic head args).NamedBy P ↔ ∀ a ∈ args, a.NamedBy P := by
  rw [Expr.namedBy_generic, Expr.namedBy_path, undotted_conversionWords head known, List.forall_mem_singleton,
    and_iff_right (shared.conversions head known)]

theorem typeHint_namedBy (types : TypeNames P type) : (typeHint type).NamedBy P := by
  have words := shared.conversions
  simp only [conversionWords, List.forall_mem_cons] at words
  induction type with
  | scalar kind => cases kind <;> simp [typeHint, scalarClass, words]
  | list element ih =>
    rw [typeHint, shared.generic_namedBy (by decide), List.forall_mem_singleton]
    exact ih types
  | set element =>
    rw [typeHint, shared.generic_namedBy (by decide), List.forall_mem_singleton]
    cases element <;> simp [scalarClass, words]
  | record name => simpa [typeHint] using types name (.inl (List.mem_singleton_self name))
  | enum name => simpa [typeHint] using types name (.inr (List.mem_singleton_self name))
  | any => simp [typeHint, words]

theorem optionalHint_namedBy (types : TypeNames P type) : (optionalHint type).NamedBy P := by
  have any : P "Any" := shared.conversions _ (by decide)
  have hint := shared.typeHint_namedBy types
  cases type with
  | any => simpa [optionalHint] using any
  | _ =>
    rw [optionalHint, shared.generic_namedBy (by decide), List.forall_mem_singleton]
    · exact hint
    · exact nofun

theorem itemType_namedBy : itemType.NamedBy P := by
  have words := shared.conversions
  simp only [conversionWords, List.forall_mem_cons] at words
  rw [itemType, shared.generic_namedBy (by decide)]
  simp [words]

theorem toStorage_namedBy {depth : Nat} {value : Expr} (named : value.NamedBy P) :
    (toStorage depth type value).NamedBy P := by
  have words := shared.conversions
  simp only [conversionWords, List.forall_mem_cons] at words
  induction type generalizing depth value with
  | scalar kind => cases kind <;> simp [toStorage, decimalOf, words, named]
  | list element ih =>
    have target := shared.elements depth
    rw [toStorage]
    split
    · exact (Expr.namedBy_comprehension _).mpr ⟨target, ih (Expr.namedBy_name.mpr target), named⟩
    · simp [words, named]
  | set element =>
    rw [toStorage]
    split <;> simp [decimalOf, words, named, shared.elements]
  | _ => simp [toStorage, words, named]

theorem fromStorage_namedBy (types : TypeNames P type) {depth : Nat} {value : Expr} (named : value.NamedBy P) :
    (fromStorage depth type value).NamedBy P := by
  have words := shared.conversions
  simp only [conversionWords, List.forall_mem_cons] at words
  induction type generalizing depth value with
  | scalar kind => cases kind <;> simp [fromStorage, words, named]
  | list element ih =>
    have target := shared.elements depth
    rw [fromStorage]
    split
    · exact (Expr.namedBy_comprehension _).mpr ⟨target, ih types (Expr.namedBy_name.mpr target), named⟩
    · simp [words, named]
  | record name =>
    have type := types name (.inl (List.mem_singleton_self name))
    simp [fromStorage, words, named, type]
  | enum name =>
    have type := types name (.inr (List.mem_singleton_self name))
    simp [fromStorage, named, type]
  | _ => simp [fromStorage, words, named]

theorem spelledOut_namedBy {v : Value} {default : Expr} (spelled : SpelledOut type v default) : default.NamedBy P := by
  have words := shared.conversions
  simp only [conversionWords, List.forall_mem_cons] at words
  cases spelled with
  | text | truth => simp
  | number | time => simp [words]
  | untyped | list => exact ofValue_namedBy _
  | set => simpa [words] using ofValue_namedBy _

theorem standardImports_namedBy {u : Usage} (typing : ∀ name ∈ u.typing, P name) :
    ∀ s ∈ u.standardImports, s.NamedBy P := by
  have words := shared.conversions
  simp only [conversionWords, List.forall_mem_cons] at words
  intro s member
  simp only [Usage.standardImports, List.mem_append, List.mem_ite_nil_right, List.mem_ite_nil_left,
    List.mem_singleton] at member
  obtain (⟨-, rfl⟩ | ⟨-, rfl⟩) | ⟨-, rfl⟩ := member
  · simp [words]
  · simp [words]
  · simpa using typing

end SharedNames

/-! ## Records -/

def recordWords : List String :=
  ["PARTITION_KEY", "SORT_KEY", "ATTRIBUTE_NAMES", "__init__", "self", "property", "setter", "item", "cls", "classmethod",
   "entity", "get", "__eq__", "other", "object", "isinstance", "NotImplemented", "__hash__", "int", "hash", "_hashable",
   "__repr__", "Builder", "build", "builder", "frozenset", "tuple", "dict", "items", "Enum"]

/-- The names that a record gives its module have a property. -/
structure RecordNames (P : String → Prop) (enums : List EnumType) (r : Record) : Prop extends SharedNames P where
  words : ∀ word ∈ recordWords, P word
  name : P r.name
  identifiers : ∀ f ∈ r.fields, P f.identifier
  backings : ∀ f ∈ r.fields, P (backing f.identifier)
  types : ∀ f ∈ r.fields, TypeNames P f.type
  constants : ∀ t ∈ enums, ∀ constant ∈ t.constants, P constant

theorem backingOf_namedBy {owner : String} : (backingOf owner f).NamedBy P ↔ P (backing f.identifier) ∧ P owner := by
  simp [backingOf]

theorem setBacking_namedBy {owner : String} {value : Expr} :
    (setBacking owner f value).NamedBy P ↔ (P (backing f.identifier) ∧ P owner) ∧ value.NamedBy P := by
  simp [setBacking, backingOf_namedBy]

theorem plainMethod_namedBy {name : String} {returns : Expr} {doc : Option String} {body : List Stmt} :
    (plainMethod name returns doc body).NamedBy P ↔
      P name ∧ returns.NamedBy P ∧ P "self" ∧ ∀ s ∈ body, s.NamedBy P := by
  simp [plainMethod, and_assoc]

theorem classMethod_namedBy {name : String} {params : List Param} {returns : Expr} {body : List Stmt} :
    (classMethod name params returns body).NamedBy P ↔ P name ∧ P "classmethod" ∧ returns.NamedBy P ∧ P "cls" ∧
      (∀ p ∈ params, p.NamedBy P) ∧ ∀ s ∈ body, s.NamedBy P := by
  simp [classMethod, and_assoc]

theorem orPass_namedBy {body : List Stmt} (named : ∀ s ∈ body, s.NamedBy P) :
    ∀ s ∈ constructor.orPass body, s.NamedBy P := by
  rw [constructor.orPass]
  split
  · simp
  · exact named

/-- The constant of a value is one of the enum. -/
theorem mem_constants_of_constantFor? {t : EnumType} {v : Value} {constant : String}
    (found : t.constantFor? v = some constant) : constant ∈ t.constants := by
  cases v with
  | text s =>
    obtain ⟨member, inMembers, rfl⟩ := Option.map_eq_some_iff.mp found
    exact (List.of_mem_zip (List.mem_of_find?_eq_some inMembers)).1
  | _ => cases found

namespace RecordNames

section

variable (names : RecordNames P enums r)
include names

theorem initialValue_namedBy (inRecord : f ∈ r.fields) : (initialValue enums r.name f).value.NamedBy P := by
  have given : P f.identifier := names.identifiers f inRecord
  unfold initialValue
  split
  · split
    · rename_i default found
      have named : default.NamedBy P := by
        rcases default?_cases found with ⟨t, known, constant, isEnum, value, rfl⟩ | spelled
        · have type : P t.name := names.types f inRecord t.name (.inr (by simp [isEnum, TypeRef.enumNames]))
          exact Expr.namedBy_attr.mpr ⟨names.constants t known constant (mem_constants_of_constantFor? value),
            Expr.namedBy_name.mpr type⟩
        · exact names.spelledOut_namedBy spelled
      simp [given, named]
    · simp [given]
  · simp [given]

theorem constructor_namedBy : (constructor enums r).value.NamedBy P := by
  have words := names.words
  simp only [recordWords, List.forall_mem_cons] at words
  rw [constructor_value, Stmt.namedBy_function]
  refine ⟨?_, orPass_namedBy (List.forall_mem_map.mpr fun f inRecord => setBacking_namedBy.mpr ?_)⟩
  · have params : ∀ f ∈ r.fields, P f.identifier ∧ (optionalHint f.type).NamedBy P := fun f inRecord =>
      ⟨names.identifiers f inRecord, names.optionalHint_namedBy (names.types f inRecord)⟩
    simpa [words, noResult] using params
  · exact ⟨⟨names.backings f inRecord, by simp [words]⟩, names.initialValue_namedBy inRecord⟩

theorem property_namedBy (inRecord : f ∈ r.fields) : ∀ s ∈ property r f, s.NamedBy P := by
  have hint := names.optionalHint_namedBy (names.types f inRecord)
  have value : P "value" := names.conversions _ (by decide)
  have words := names.words
  simp only [recordWords, List.forall_mem_cons] at words
  simp [property, backingOf_namedBy, setBacking_namedBy, noResult, words, value, hint, names.identifiers f inRecord,
    names.backings f inRecord]

theorem toItem_namedBy : (toItem r).NamedBy P := by
  have toItem : P "to_item" := names.conversions _ (by decide)
  have item := names.itemType_namedBy
  have words := names.words
  simp only [recordWords, List.forall_mem_cons] at words
  have field : ∀ f ∈ r.fields, (backingOf "self" f).NamedBy P := fun f inRecord =>
    backingOf_namedBy.mpr ⟨names.backings f inRecord, by simp [words]⟩
  have body : ∀ f ∈ r.fields, (Stmt.ifThen (storedTest f)
      [Stmt.put (.name "item") f.storageName (toStorage 0 f.type (backingOf "self" f))]).NamedBy P := by
    intro f inRecord
    have test : (storedTest f).NamedBy P := by
      rw [storedTest]
      split <;> simpa using field f inRecord
    simpa [words, test] using names.toStorage_namedBy (field f inRecord)
  rw [Access.toItem, plainMethod_namedBy]
  simp only [List.forall_mem_append, List.forall_mem_cons, List.forall_mem_map]
  exact ⟨toItem, item, by simp [words], ⟨by simp [words, item], body⟩, by simp [words], by simp⟩

theorem fromItem_namedBy : (fromItem r).NamedBy P := by
  have fromItem : P "from_item" := names.conversions _ (by decide)
  have item := names.itemType_namedBy
  have words := names.words
  simp only [recordWords, List.forall_mem_cons] at words
  have stored : ∀ f : ResolvedField, (Expr.subscript (.name "item") (Expr.text f.storageName)).NamedBy P := by
    simp [words]
  have body : ∀ f ∈ r.fields, (Stmt.ifThen
      (Expr.isNotNone (Expr.method (.name "item") "get" [Expr.text f.storageName]))
      [setBacking "entity" f (fromStorage 0 f.type (.subscript (.name "item") (Expr.text f.storageName)))]).NamedBy P := by
    intro f inRecord
    simpa [words, setBacking_namedBy, names.backings f inRecord] using
      names.fromStorage_namedBy (names.types f inRecord) (stored f)
  rw [Access.fromItem, classMethod_namedBy]
  simp only [List.forall_mem_append, List.forall_mem_cons, List.forall_mem_map]
  exact ⟨fromItem, by simp [words], by simp, by simp [words], ⟨by simp [words, item], by simp⟩, ⟨by simp [words], body⟩,
    by simp [words], by simp⟩

theorem equality_namedBy : (equality r).NamedBy P := by
  have bool : P "bool" := names.conversions _ (by decide)
  have name := names.name
  have fields := names.backings
  have words := names.words
  simp only [recordWords, List.forall_mem_cons] at words
  have compared : (if r.fields.isEmpty then Expr.bool true
      else .compare (.tuple (r.fields.map (backingOf "self"))) .eq (.tuple (r.fields.map (backingOf "other")))).NamedBy P := by
    split
    · simp
    · simpa [backingOf_namedBy, words] using fields
  simp only [equality, Stmt.namedBy_function, List.forall_mem_cons, Stmt.namedBy_result]
  exact ⟨by simp [words, bool], by simp [words, name], compared, by simp⟩

theorem hash_namedBy : (hash r).NamedBy P := by
  have words := names.words
  simp only [recordWords, List.forall_mem_cons] at words
  rw [hash, plainMethod_namedBy, List.forall_mem_singleton, Stmt.namedBy_result]
  refine ⟨by simp [words], by simp [words], by simp [words], ?_⟩
  split
  · simp
  · rw [Expr.namedBy_apply, List.forall_mem_singleton, Expr.namedBy_tuple, List.forall_mem_map]
    refine ⟨by simp [words], fun f inRecord => ?_⟩
    have backing := names.backings f inRecord
    split <;> simp [backingOf_namedBy, words, backing]

theorem shownFields_namedBy {fields : List ResolvedField} (known : fields ⊆ r.fields) :
    ∀ part ∈ shownFields fields, part.NamedBy P := by
  have self : P "self" := names.words _ (by decide)
  induction fields with
  | nil => simp [shownFields]
  | cons f rest ih =>
    obtain ⟨inRecord, known⟩ := List.cons_subset.mp known
    simp only [shownFields, List.forall_mem_cons]
    exact ⟨trivial, backingOf_namedBy.mpr ⟨names.backings f inRecord, self⟩, ih known⟩

theorem shown_namedBy : (shown r).NamedBy P := by
  have str : P "str" := names.conversions _ (by decide)
  have self : P "self" := names.words _ (by decide)
  have repr : P "__repr__" := names.words _ (by decide)
  rw [shown, plainMethod_namedBy, List.forall_mem_singleton, Stmt.namedBy_result]
  refine ⟨repr, Expr.namedBy_name.mpr str, self, ?_⟩
  split
  · simp
  · rename_i f rest fields
    have known : f :: rest ⊆ r.fields := by rw [fields]; exact List.Subset.refl _
    obtain ⟨inRecord, known⟩ := List.cons_subset.mp known
    rw [Expr.namedBy_formatted]
    simp only [List.forall_mem_cons, List.forall_mem_append]
    exact ⟨trivial, backingOf_namedBy.mpr ⟨names.backings f inRecord, self⟩, names.shownFields_namedBy known,
      trivial, List.forall_mem_nil _⟩

theorem builderClass_namedBy : (builderClass r).NamedBy P := by
  have value : P "value" := names.conversions _ (by decide)
  have name := names.name
  have fields : ∀ f ∈ r.fields, P (backing f.identifier) := names.backings
  have words := names.words
  simp only [recordWords, List.forall_mem_cons] at words
  have init : (methodOf (builderInit r)).NamedBy P := by
    rw [methodOf, Stmt.namedBy_function]
    refine ⟨by simp [builderInit, noResult, words], orPass_namedBy ?_⟩
    simpa [setBacking_namedBy, words] using fields
  have gives : ∀ f ∈ r.fields, (methodOf (giveFunction r f)).NamedBy P := by
    intro f inRecord
    have hint := names.optionalHint_namedBy (names.types f inRecord)
    simp [methodOf, giveFunction, builderName, setBacking_namedBy, words, value, hint, names.identifiers f inRecord,
      fields f inRecord]
  have build : (methodOf (buildFunction r)).NamedBy P := by
    have named : ∀ f ∈ r.fields, P f.identifier ∧ P (backing f.identifier) := fun f inRecord =>
      ⟨names.identifiers f inRecord, fields f inRecord⟩
    simpa [methodOf, buildFunction, backingOf_namedBy, words, name] using named
  rw [builderClass_body, Stmt.namedBy_classDef]
  refine ⟨by simp [words], by simp, ?_⟩
  rw [builderBody, List.forall_mem_append, List.forall_mem_cons, List.forall_mem_map, List.forall_mem_singleton]
  exact ⟨⟨init, gives⟩, build⟩

theorem hashableFunction_namedBy : hashableFunction.NamedBy P := by
  have conversions := names.conversions
  simp only [conversionWords, List.forall_mem_cons] at conversions
  have words := names.words
  simp only [recordWords, List.forall_mem_cons] at words
  simp [hashableFunction, words, conversions]

theorem recordModule_namedBy : (recordModule enums r).value.NamedBy P := by
  have typing : ∀ name ∈ (recordUsage r).typing, P name := fun name used =>
    names.conversions name ((by decide : typingNames ⊆ conversionWords) (recordUsage_typing r used))
  have imports : ∀ type ∈ (recordUsage r).types, P type := by
    intro type used
    obtain ⟨f, inRecord, mentioned⟩ := (recordUsage_types r type).mp used
    exact names.types f inRecord type mentioned
  have helper : ∀ s ∈ hashableHelper r, s.NamedBy P := by
    rw [hashableHelper]
    split
    · exact List.forall_mem_singleton.mpr (names.hashableFunction_namedBy)
    · simp
  have constants : ∀ s ∈ classConstants r, s.NamedBy P := by
    have words := names.words
    simp only [recordWords, List.forall_mem_cons] at words
    rw [classConstants, List.forall_mem_append]
    refine ⟨?_, List.forall_mem_singleton.mpr (by simp [words])⟩
    cases r.role <;> simp [words]
  have builder : (classMethod "builder" [] (builderName r)
      [.result (Expr.method (.name "cls") "Builder" [])]).NamedBy P := by
    have words := names.words
    simp only [recordWords, List.forall_mem_cons] at words
    simp [classMethod_namedBy, builderName, words]
  have cls : (recordClass enums r).value.NamedBy P := by
    rw [recordClass_body, Stmt.namedBy_classDef]
    refine ⟨names.name, by simp, ?_⟩
    simp only [recordBody, List.forall_mem_append, List.forall_mem_cons, List.forall_mem_flatMap]
    exact ⟨constants, names.constructor_namedBy, fun f => names.property_namedBy, builder,
      names.toItem_namedBy, names.fromItem_namedBy, names.equality_namedBy,
      names.hash_namedBy, names.shown_namedBy, names.builderClass_namedBy, by simp⟩
  -- imports, helper and class, in the order of the module
  rw [Module.namedBy_iff, recordModule_body, recordImports]
  simp only [List.forall_mem_append, List.forall_mem_map, List.forall_mem_singleton, Stmt.namedBy_importFrom]
  exact ⟨⟨⟨names.standardImports_namedBy typing, imports⟩, helper⟩, cls⟩

end

end RecordNames

theorem enumModule_namedBy {t : EnumType} (str : P "str") (base : P "Enum") (name : P t.name)
    (constants : ∀ constant ∈ t.constants, P constant) : (enumModule t).NamedBy P := by
  have members : ∀ member ∈ t.members, (Stmt.bind member.1 (Expr.text member.2)).NamedBy P := fun member listed =>
    Stmt.namedBy_bind.mpr ⟨constants _ (List.of_mem_zip listed).1, Expr.namedBy_text _⟩
  rw [Module.namedBy_iff, enumModule, List.forall_mem_cons, List.forall_mem_singleton, Stmt.namedBy_classDef,
    List.forall_mem_map]
  exact ⟨by simpa using base, name, by simp [str, base], members⟩

/-! ## Entities -/

/-- The words of key helpers, validators, repositories and table configurations. -/
def helperWords : List String :=
  ["self", "__init__", "TypeError", "key", "staticmethod", "PARTITION_KEY_FIELD", "SORT_KEY_FIELD", "re", "compile",
   "entity", "errors", "append", "validate", "len", "fullmatch", violationClass, validationErrorClass, "cls",
   "classmethod", "_table", "client", "table", "from_resource", "resource", "table_name", "repository", "__new__", "Table",
   "save", "put_item", "Item", "find_by_key", "get_item", "Key", "response", "item", "get", "delete_by_key",
   "delete_item", "key_condition", "expression_names", "expression_values", "_query_all", "IndexName",
   "KeyConditionExpression", "ExpressionAttributeNames", "ExpressionAttributeValues", "kwargs", "results", "query",
   "extend", "last_key", "TYPE_CHECKING", clientClass, "os", "threading", "environ", "TABLE_NAME", "TABLE_ARN", "REGION",
   "_shared_client", "_lock", "Lock", "get_client", "client_builder", "builder", "build", "region"]

/-- The names that are the same for every batch. -/
def fixedNames : List String :=
  conversionWords ++ (recordWords ++ (helperWords ++ (clientSource.identifiers ++ validationErrorSource.identifiers)))

/-- The names that are the same for every batch have a property. -/
structure FixedNames (P : String → Prop) : Prop extends SharedNames P where
  recordWords : ∀ word ∈ recordWords, P word
  helperWords : ∀ word ∈ helperWords, P word
  client : clientSource.NamedBy P
  validationError : validationErrorSource.NamedBy P

theorem FixedNames.of_all (all : ∀ name ∈ fixedNames, P name) (elements : ∀ depth, P (elementName depth)) :
    FixedNames P := by
  simp only [fixedNames, List.forall_mem_append] at all
  obtain ⟨conversions, recordWords, helperWords, client, validationError⟩ := all
  exact ⟨⟨conversions, elements⟩, recordWords, helperWords, client, validationError⟩

/-- The names that an entity gives its modules have a property. -/
structure EntityNames (P : String → Prop) (e : Entity) (table : Option Table) : Prop extends SharedNames P where
  recordWords : ∀ word ∈ recordWords, P word
  words : ∀ word ∈ helperWords, P word
  name : P e.name
  nested : ∀ type ∈ e.nested.map (·.name) ++ e.enums.map (·.name), P type
  keysClass : P (keysClass e.name)
  validatorClass : P (validatorClass e.name)
  repositoryClass : P (repositoryClass e.name)
  identifiers : ∀ r ∈ e.record :: e.nested, ∀ f ∈ r.fields, P f.identifier
  backings : ∀ r ∈ e.record :: e.nested, ∀ f ∈ r.fields, P (backing f.identifier)
  constants : ∀ t ∈ e.enums, ∀ constant ∈ t.constants, P constant
  patterns : ∀ pattern ∈ patternsOf e, P pattern.constant
  keys : ∀ k ∈ keyAttributes e table, P k.identifier
  queries : ∀ t ∈ table, ∀ i ∈ t.indexes, P (queryName i) ∧ P (Name.indexConstant i.name)
  factory : table.isSome → P (factoryName e.name)

namespace EntityNames

section

variable {table : Option Table} {s : Schema} (names : EntityNames P e table)
include names

theorem ofProvided {type : TypeRef} (provided : type.Provided e.nested e.enums) : TypeNames P type := by
  rintro name (isRecord | isEnum)
  · exact names.nested name (List.mem_append_left _ (provided.records name isRecord))
  · exact names.nested name (List.mem_append_right _ (provided.enums name isEnum))

/-- The records of an entity get their names from it. -/
theorem ofRecord (describes : Describes s e) (member : r ∈ e.record :: e.nested) : RecordNames P e.enums r where
  toSharedNames := names.toSharedNames
  words := names.recordWords
  name := by
    cases List.mem_cons.mp member with
    | inl itself => exact itself ▸ names.name
    | inr nested => exact names.nested r.name (List.mem_append_left _ (List.mem_map_of_mem nested))
  identifiers := names.identifiers r member
  backings := names.backings r member
  types f inRecord := names.ofProvided (describes.provided member inRecord)
  constants := names.constants

theorem ofEnum {t : EnumType} (member : t ∈ e.enums) : (enumModule t).NamedBy P := by
  have str : P "str" := names.conversions _ (by decide)
  have base : P "Enum" := names.recordWords _ (by decide)
  exact enumModule_namedBy str base (names.nested t.name (List.mem_append_right _ (List.mem_map_of_mem member)))
    (names.constants t member)

theorem refusingConstructor_namedBy (className : String) : (refusingConstructor className).NamedBy P := by
  have words := names.words
  simp only [helperWords, List.forall_mem_cons] at words
  simp [refusingConstructor, noResult, words]

/-! ### Key helpers -/

theorem componentHint_namedBy (k : KeyAttribute) : (componentHint k).NamedBy P := by
  have words := names.conversions
  simp only [conversionWords, List.forall_mem_cons] at words
  rw [componentHint]
  split <;> simp [words]

theorem own_keys : ∀ k ∈ e.keys, P k.identifier := fun k isKey =>
  names.keys k (keyFunctions_keys (f := (keyFunction e, e.keys)) List.mem_cons_self isKey)

theorem keyFunction_namedBy : (keyFunction e).NamedBy P := by
  have params : ∀ k ∈ e.keys, P k.identifier ∧ (componentHint k).NamedBy P := fun k isKey =>
    ⟨names.own_keys k isKey, names.componentHint_namedBy k⟩
  have item := names.itemType_namedBy
  have partition : P e.partitionKey.identifier := names.own_keys _ List.mem_cons_self
  have sort : ∀ k ∈ e.sortKey, P k.identifier := fun k isKey =>
    names.own_keys k (List.mem_cons_of_mem _ (Option.mem_toList.mpr isKey))
  have cls := names.keysClass
  have words := names.words
  simp only [helperWords, List.forall_mem_cons] at words
  rw [keyFunction, Stmt.namedBy_function]
  refine ⟨?_, ?_⟩
  · simpa [words, item] using params
  · simpa [words, partition, cls] using sort

theorem keysModule_namedBy : (keysModule e table).value.NamedBy P := by
  have constants : ∀ s ∈ indexConstants table, s.NamedBy P := by
    cases table with
    | none => simp [indexConstants]
    | some t => simpa [indexConstants] using fun i inTable => (names.queries t rfl i inTable).2
  have cls := names.keysClass
  have refuses := names.refusingConstructor_namedBy (Access.keysClass e.name)
  have function := names.keyFunction_namedBy
  have conversions := names.conversions
  have words := names.words
  simp only [helperWords, List.forall_mem_cons] at words
  simp only [conversionWords, List.forall_mem_cons] at conversions
  have helper : (keysHelper e table).NamedBy P := by
    rw [keysHelper, Stmt.namedBy_classDef]
    refine ⟨cls, by simp, ?_⟩
    simp only [List.forall_mem_append, List.forall_mem_cons]
    exact ⟨⟨⟨by simp [words], by simp [words]⟩, constants⟩, refuses, function, by simp⟩
  rw [Module.namedBy_iff, keysModule_body, List.forall_mem_append]
  exact ⟨by split <;> simp [conversions], by simp [conversions, helper]⟩

/-! ### Validators -/

theorem validated_namedBy (inRecord : f ∈ e.record.fields) : (validated f).NamedBy P := by
  have entity : P "entity" := names.words _ (by decide)
  simp [validated, entity, names.identifiers e.record List.mem_cons_self f inRecord]

theorem violation_namedBy (f : ResolvedField) (constraint message : String) : (violation f constraint message).NamedBy P := by
  have words := names.words
  simp only [helperWords, List.forall_mem_cons] at words
  simp [violation, words]

theorem requiredCheck_namedBy (inRecord : f ∈ e.record.fields) : ∀ s ∈ requiredCheck f, s.NamedBy P := by
  have value := names.validated_namedBy inRecord
  have violation := names.violation_namedBy f
  rw [requiredCheck]
  split <;> simp [value, violation]

theorem boundChecks_namedBy {taken : Option (List String)} {c : Constraints} (inRecord : f ∈ e.record.fields)
    (pattern : ∀ p ∈ (boundChecks taken f c).pattern, P p.constant) :
    ∀ s ∈ (boundChecks taken f c).statements, s.NamedBy P := by
  have value := names.validated_namedBy inRecord
  have violation := names.violation_namedBy f
  have len : P "len" := names.words _ (by decide)
  have fullmatch : P "fullmatch" := names.words _ (by decide)
  have decimal : P "Decimal" := names.conversions _ (by decide)
  rw [boundChecks] at pattern ⊢
  split
  · rename_i isText
    simp only [if_pos isText, Option.mem_def, Option.map_eq_some_iff] at pattern
    simp only [List.forall_mem_append, Option.mem_toList, Option.map_eq_some_iff]
    refine ⟨⟨?_, ?_⟩, ?_⟩
    · rintro _ ⟨bound, -, rfl⟩
      simp [minLengthCheck, value, violation, len]
    · rintro _ ⟨bound, -, rfl⟩
      simp [maxLengthCheck, value, violation, len]
    · rintro _ ⟨p, found, rfl⟩
      simp [patternCheck, value, violation, fullmatch, pattern p found]
  · simp only [List.forall_mem_append, Option.mem_toList, Option.map_eq_some_iff]
    refine ⟨?_, ?_⟩
    · rintro _ ⟨bound, -, rfl⟩
      simp [minCheck, boundExpr, value, violation, decimal]
    · rintro _ ⟨bound, -, rfl⟩
      simp [maxCheck, boundExpr, value, violation, decimal]

theorem fieldChecks_namedBy {taken : Option (List String)} (inRecord : f ∈ e.record.fields)
    (pattern : ∀ p ∈ (fieldChecks taken f).pattern, P p.constant) :
    ∀ s ∈ (fieldChecks taken f).statements, s.NamedBy P := by
  have value := names.validated_namedBy inRecord
  rw [fieldChecks] at pattern ⊢
  split
  · exact names.requiredCheck_namedBy inRecord
  · rename_i c applies
    rw [applies] at pattern
    have bounds := names.boundChecks_namedBy inRecord pattern
    refine List.forall_mem_append.mpr ⟨names.requiredCheck_namedBy inRecord, ?_⟩
    split
    · simp
    · exact List.forall_mem_singleton.mpr (Stmt.namedBy_ifThen.mpr ⟨Expr.namedBy_isNotNone.mpr value, bounds⟩)

theorem allChecks_namedBy {taken : List String} {fields : List ResolvedField} (known : fields ⊆ e.record.fields)
    (patterns : ∀ p ∈ (allChecks taken fields).filterMap (·.pattern), P p.constant) :
    ∀ s ∈ (allChecks taken fields).flatMap (·.statements), s.NamedBy P := by
  induction fields generalizing taken with
  | nil => simp [allChecks]
  | cons f rest ih =>
    obtain ⟨inRecord, known⟩ := List.cons_subset.mp known
    rw [allChecks] at patterns ⊢
    rw [List.flatMap_cons]
    refine List.forall_mem_append.mpr ⟨names.fieldChecks_namedBy inRecord ?_, ih known ?_⟩
    · exact fun p found => patterns p (List.mem_filterMap.mpr ⟨_, List.mem_cons_self, found⟩)
    · intro p found
      obtain ⟨checks, later, found⟩ := List.mem_filterMap.mp found
      exact patterns p (List.mem_filterMap.mpr ⟨checks, List.mem_cons_of_mem _ later, found⟩)

theorem validatorModule_namedBy : (validatorModule e).value.NamedBy P := by
  have checks : ∀ s ∈ checksOf e, s.NamedBy P := names.allChecks_namedBy (List.Subset.refl _) names.patterns
  have list : P "List" := names.conversions _ (by decide)
  have decimal : P "Decimal" := names.conversions _ (by decide)
  have name := names.name
  have patterns := names.patterns
  have refuses := names.refusingConstructor_namedBy (Access.validatorClass e.name)
  have words := names.words
  simp only [helperWords, List.forall_mem_cons] at words
  have body : ∀ s ∈ validateBody e.name (checksOf e), s.NamedBy P := by
    rw [validateBody]
    split
    · simp
    · simp only [List.forall_mem_append, List.forall_mem_cons, Stmt.namedBy_annotated]
      refine ⟨⟨⟨by simp [words], ?_, by simp⟩, checks⟩, by simp [words], by simp⟩
      simpa [names.generic_namedBy (by decide : "List" ∈ conversionWords)] using names.words _ (by decide)
  have helper : (validatorHelper e (checksOf e)).NamedBy P := by
    rw [validatorHelper, Stmt.namedBy_classDef]
    refine ⟨names.validatorClass, by simp, List.forall_mem_cons.mpr ⟨refuses, List.forall_mem_singleton.mpr ?_⟩⟩
    exact Stmt.namedBy_function.mpr ⟨by simp [noResult, words, name], body⟩
  have re : Text.split '.' "re" = ["re"] := by decide
  -- the imports are there only where they are needed, so each of them is split
  rw [Module.namedBy_iff, validatorModule_body]
  simp only [List.forall_mem_append, List.forall_mem_map, List.forall_mem_singleton]
  refine ⟨⟨⟨⟨⟨⟨?_, ?_⟩, ?_⟩, ?_⟩, ?_⟩, fun p listed => ?_⟩, helper⟩
  · split <;> simp [re, words]
  · split <;> simp [decimal]
  · split <;> simp [list]
  · simpa using name
  · split <;> simp [words]
  · simp [CompiledPattern.stmt, words, patterns p listed]

/-! ### Repositories -/

theorem keyArgument_namedBy {k : KeyAttribute} (identifier : P k.identifier) : (keyArgument k).NamedBy P := by
  have value : (Expr.name k.identifier).NamedBy P := Expr.namedBy_name.mpr identifier
  rw [keyArgument]
  split
  · exact names.toStorage_namedBy value
  · exact names.toStorage_namedBy value
  · exact value

theorem keyCall_namedBy : (keyCall e).NamedBy P := by
  have arguments : ∀ k ∈ e.keys, (keyArgument k).NamedBy P := fun k isKey =>
    names.keyArgument_namedBy (names.own_keys k isKey)
  have key : P "key" := names.words _ (by decide)
  simpa [keyCall, key, names.keysClass] using arguments

end

section

variable {t : Table} {s : Schema} (names : EntityNames P e (some t)) (describes : Describes s e)
include names describes

theorem keyHint_namedBy {k : KeyAttribute} (known : k ∈ repositoryKeys e t) : (typeHint k.type).NamedBy P :=
  names.typeHint_namedBy (names.ofProvided (repositoryKeys_provided describes known))

theorem keyParams_namedBy {keys : List KeyAttribute} (known : keys ⊆ repositoryKeys e t) :
    ∀ p ∈ keyParams keys, p.NamedBy P := by
  have each : ∀ k ∈ keys, P k.identifier ∧ (typeHint k.type).NamedBy P := fun k listed =>
    ⟨names.keys k (known listed), names.keyHint_namedBy describes (known listed)⟩
  simpa [keyParams] using each

omit describes in
theorem sortCondition_namedBy {k : KeyAttribute} (identifier : P k.identifier) : (sortCondition k).NamedBy P := by
  have argument := names.keyArgument_namedBy identifier
  have words := names.words
  simp only [helperWords, List.forall_mem_cons] at words
  simp [sortCondition, words, identifier, argument]

theorem indexQuery_namedBy {i : Index} (inTable : i ∈ t.indexes) : (indexQuery e i).NamedBy P := by
  have attributes : indexAttributes e i ⊆ repositoryKeys e t := fun k listed =>
    List.mem_append_right _ (List.mem_flatMap.mpr ⟨i, inTable, listed⟩)
  obtain ⟨partition, sort⟩ := List.cons_subset.mp attributes
  have params := names.keyParams_namedBy describes (List.cons_subset.mpr ⟨partition, List.nil_subset _⟩)
  have optional : ∀ k ∈ (indexKeys e i).value.2, (Param.optional k.identifier
      (Expr.generic "Optional" [typeHint k.type])).NamedBy P := by
    intro k isSort
    have known := sort (Option.mem_toList.mpr isSort)
    rw [Param.namedBy_optional, names.generic_namedBy (by decide), List.forall_mem_singleton]
    exact ⟨names.keys k known, names.keyHint_namedBy describes known⟩
  have condition : ∀ k ∈ (indexKeys e i).value.2, (sortCondition k).NamedBy P := fun k isSort =>
    names.sortCondition_namedBy (names.keys k (sort (Option.mem_toList.mpr isSort)))
  have result : (Expr.generic "List" [.name e.name]).NamedBy P := by
    simpa [names.generic_namedBy (by decide : "List" ∈ conversionWords)] using names.name
  have argument := names.keyArgument_namedBy (names.keys _ partition)
  have cls := names.keysClass
  have query := names.queries t rfl i inTable
  have words := names.words
  simp only [helperWords, List.forall_mem_cons] at words
  rw [indexQuery, queryMethod, Stmt.namedBy_function, Signature.namedBy_mk]
  simp only [List.forall_mem_append, List.forall_mem_cons, List.forall_mem_map, Option.mem_toList]
  refine ⟨⟨query.1, by simp, by simpa using result, ⟨by simp [words], params, optional⟩, by simp⟩,
    ⟨⟨?_, ?_, ?_, by simp⟩, condition⟩, ?_, by simp⟩
  · simp [words]
  · simp [words]
  · simp [words, argument]
  · simp [Access.argument, words, cls, query]

omit describes in
theorem queryAllMethod_namedBy : (queryAllMethod e).NamedBy P := by
  have fromItem : P "from_item" := names.conversions _ (by decide)
  have any : P "Any" := names.conversions _ (by decide)
  have name := names.name
  have list : (Expr.generic "List" [.name e.name]).NamedBy P := by
    simpa [names.generic_namedBy (by decide : "List" ∈ conversionWords)] using name
  have words := names.words
  simp only [helperWords, List.forall_mem_cons] at words
  simp [queryAllMethod, tableCall, words, fromItem, any, name, list]

theorem repositoryHelper_namedBy : (repositoryHelper e t).value.NamedBy P := by
  have queries : ∀ i ∈ t.indexes, (indexQuery e i).NamedBy P := fun i => names.indexQuery_namedBy describes
  have queryAll := names.queryAllMethod_namedBy
  have params := names.keyParams_namedBy describes (List.subset_append_left e.keys _)
  have key := names.keyCall_namedBy
  have optional : (Expr.generic "Optional" [.name e.name]).NamedBy P := by
    simpa [names.generic_namedBy (by decide : "Optional" ∈ conversionWords)] using names.name
  have name := names.name
  have validator := names.validatorClass
  have conversions := names.conversions
  have words := names.words
  simp only [conversionWords, List.forall_mem_cons] at conversions
  simp only [helperWords, List.forall_mem_cons] at words
  have init : repositoryConstructor.NamedBy P := by simp [repositoryConstructor, noResult, words]
  have wrap : (fromResource e).NamedBy P := by simp [fromResource, words, conversions]
  have save : (saveMethod e).NamedBy P := by
    simp [saveMethod, noResult, tableCall, argument, words, conversions, name, validator]
  have find : (findByKey e).NamedBy P := by
    rw [findByKey, Stmt.namedBy_function]
    constructor
    · simpa [words, optional] using params
    · simp [tableCall, argument, words, conversions, name, key]
  have delete : (deleteByKey e).NamedBy P := by
    rw [deleteByKey, Stmt.namedBy_function]
    constructor
    · simpa [noResult, words] using params
    · simp [tableCall, argument, words, key]
  -- the members in order, and the loop over pages only where there are indexes
  simp only [repositoryHelper, Noted.value_bind, Noted.value_pure, Noted.value_each, Stmt.namedBy_classDef,
    List.forall_mem_append, List.forall_mem_cons, List.forall_mem_map]
  refine ⟨names.repositoryClass, by simp, ⟨⟨init, wrap, save, find, delete, by simp⟩, queries⟩, ?_⟩
  split
  · simp
  · exact List.forall_mem_singleton.mpr queryAll

theorem repositoryModule_namedBy : (repositoryModule e t).value.NamedBy P := by
  have checking : P "TYPE_CHECKING" := names.words _ (by decide)
  have client : P clientClass := names.words _ (by decide)
  have typing : ∀ name ∈ (repositoryUsage e t).value.typing, P name := by
    intro name used
    rcases List.mem_cons.mp (repositoryUsage_typing e t used) with rfl | generic
    · exact checking
    · exact names.conversions name ((by decide : typingNames ⊆ conversionWords) generic)
  have imports : ∀ type ∈ (repositoryUsage e t).value.types, P type := by
    intro type used
    obtain ⟨k, known, mentioned⟩ := (repositoryUsage_types e t type).mp used
    exact names.ofProvided (repositoryKeys_provided describes known) type mentioned
  have helper := names.repositoryHelper_namedBy describes
  rw [Module.namedBy_iff, repositoryModule_body]
  simp only [List.forall_mem_append, List.forall_mem_map, List.forall_mem_cons, Stmt.namedBy_importFrom]
  exact ⟨⟨⟨names.standardImports_namedBy typing, by simp [names.keysClass]⟩, by simpa using imports⟩,
    by simp [names.name], by simp [names.validatorClass], by simp [checking, client], helper, by simp⟩

end

end EntityNames

/-! ## The table -/

/-- The module of the table configuration is spelled with the names of the repositories and their factories. -/
theorem tableConfigModule_namedBy {t : Table} {entities : List Entity} (shared : SharedNames P)
    (words : ∀ word ∈ helperWords, P word)
    (named : ∀ e ∈ entities, P (repositoryClass e.name) ∧ P (factoryName e.name)) :
    (tableConfigModule t entities).value.NamedBy P := by
  have optional : (Expr.generic "Optional" [.name clientClass]).NamedBy P := by
    simpa [shared.generic_namedBy (by decide : "Optional" ∈ conversionWords)] using words _ (by decide)
  have typed : P "Optional" := shared.conversions _ (by decide)
  have undotted : Text.split '.' "os" = ["os"] ∧ Text.split '.' "threading" = ["threading"] ∧
      Text.split '.' "os.environ" = ["os", "environ"] := by decide
  simp only [helperWords, List.forall_mem_cons] at words
  have arn : (arnExpr t.arn).NamedBy P := by
    rw [arnExpr]
    split <;> simp [undotted, words]
  have client : getClient.NamedBy P := by simp [getClient, words]
  have builder : clientBuilderFunction.NamedBy P := by simp [clientBuilderFunction, words]
  have factory : ∀ e ∈ entities, (repositoryFactory e).NamedBy P := by
    intro e member
    simp [repositoryFactory, words, optional, named e member]
  have imports : ∀ s ∈ repositoryImports entities, s.NamedBy P := by
    rw [repositoryImports, List.forall_mem_map]
    intro e member
    simpa using (named e ((sortByName_perm entities).mem_iff.mp member)).1
  rw [Module.namedBy_iff, tableConfigModule_body]
  simp only [List.forall_mem_append, List.forall_mem_map, List.forall_mem_cons]
  refine ⟨⟨⟨⟨by simp [undotted, words], by simp [undotted, words], by simp [typed], by simp [words], by simp⟩, imports⟩,
    by simp [words], ?_, by simp [words], ?_, by simp [words], client, builder, by simp⟩, factory⟩
  · simpa [words] using arn
  · simp [words, optional]

/-! ## Names that modules need -/

theorem namedBy_suite {c s : Stmt} (named : c.NamedBy P) (member : s ∈ c.suite) : s.NamedBy P := by
  cases c with
  | classDef => exact (Stmt.namedBy_classDef.mp named).2.2 s member
  | _ => cases member

/-- The module of a record has the name of the record and the identifiers of its fields. -/
theorem record_named (named : (recordModule enums r).value.NamedBy P) : P r.name ∧ ∀ f ∈ r.fields, P f.identifier := by
  have cls : (recordClass enums r).value.NamedBy P := Module.namedBy_iff.mp named _ (by simp [recordModule_body])
  have init : (constructor enums r).value.NamedBy P := by
    refine namedBy_suite cls ?_
    rw [recordClass_body]
    simp [Stmt.suite, recordBody]
  rw [recordClass_body, Stmt.namedBy_classDef] at cls
  rw [constructor_value, Stmt.namedBy_function, Signature.namedBy_mk] at init
  refine ⟨cls.1, fun f inRecord => ?_⟩
  have param := init.1.2.2.2.1 _ (List.mem_cons_of_mem _ (List.mem_map_of_mem inRecord))
  exact (Param.namedBy_optional.mp param).1

/-- A function has the identifiers of the key attributes that it takes. -/
theorem keyFunctions_named {table : Option Table} {f : Stmt × List KeyAttribute} (function : f ∈ keyFunctions e table)
    (named : f.1.NamedBy P) : ∀ k ∈ f.2, P k.identifier := by
  have required : ∀ keys, (∀ p ∈ keyParams keys, p.NamedBy P) → ∀ k ∈ keys, P k.identifier := fun keys params k listed =>
    (Param.namedBy_required.mp (params _ (List.mem_map_of_mem listed))).1
  rcases List.mem_cons.mp function with rfl | lookup
  · rw [keyFunction, Stmt.namedBy_function, Signature.namedBy_mk] at named
    exact fun k listed => (Param.namedBy_required.mp (named.1.2.2.2.1 _ (List.mem_map_of_mem listed))).1
  · cases table with
    | none => cases lookup
    | some t =>
      rcases List.mem_cons.mp lookup with rfl | lookup
      · rw [findByKey, Stmt.namedBy_function, Signature.namedBy_mk] at named
        exact required e.keys (List.forall_mem_cons.mp named.1.2.2.2.1).2
      · rcases List.mem_cons.mp lookup with rfl | query
        · rw [deleteByKey, Stmt.namedBy_function, Signature.namedBy_mk] at named
          exact required e.keys (List.forall_mem_cons.mp named.1.2.2.2.1).2
        · obtain ⟨i, -, rfl⟩ := List.mem_map.mp query
          rw [queryMethod, Stmt.namedBy_function, Signature.namedBy_mk] at named
          obtain ⟨partition, sort⟩ := List.forall_mem_append.mp (List.forall_mem_cons.mp named.1.2.2.2.1).2
          refine List.forall_mem_cons.mpr ⟨required _ partition _ (List.mem_singleton_self _), fun k isSort => ?_⟩
          exact (Param.namedBy_optional.mp (sort _ (List.mem_map_of_mem isSort))).1

/-- Every key attribute is taken by some function. -/
theorem exists_keyFunction {table : Option Table} {k : KeyAttribute} (known : k ∈ keyAttributes e table) :
    ∃ f ∈ keyFunctions e table, k ∈ f.2 := by
  have own : k ∈ e.keys → ∃ f ∈ keyFunctions e table, k ∈ f.2 := fun isKey => ⟨_, List.mem_cons_self, isKey⟩
  cases table with
  | none => exact own known
  | some t =>
    cases List.mem_append.mp known with
    | inl isKey => exact own isKey
    | inr indexed =>
      obtain ⟨i, inTable, inIndex⟩ := List.mem_flatMap.mp indexed
      refine ⟨(indexQuery e i, indexAttributes e i), ?_, inIndex⟩
      exact List.mem_cons_of_mem _ (List.mem_cons_of_mem _ (List.mem_cons_of_mem _ (List.mem_map_of_mem inTable)))

/-- The module of the table configuration has the names of the factories. -/
theorem factory_named {t : Table} {entities : List Entity} (named : (tableConfigModule t entities).value.NamedBy P)
    (member : e ∈ entities) : P (factoryName e.name) := by
  have factory : (repositoryFactory e).NamedBy P := by
    refine Module.namedBy_iff.mp named _ ?_
    rw [tableConfigModule_body]
    exact List.mem_append_right _ (List.mem_map_of_mem member)
  rw [repositoryFactory, Stmt.namedBy_function, Signature.namedBy_mk] at factory
  exact factory.1.1

end Tablewright.Access
