import Tablewright.Proofs.Access.Record
import Tablewright.Proofs.Access.RoundTrip
import Tablewright.Proofs.Name.Constant
import Tablewright.Proofs.Source.Instances

/-!
# Record classes in a program

What the generated types of an entity are to a program that has them.

* `Loads`: a program with the generated types of an entity.
* `Loads.reads`: in the methods of a record class, conversions read what they are written for.
* `Separate`, `Usable`: the fields of a record do not get in each other's way, nor in the way of the members of its
  class.
* `recordCls`, `Loads.class_record`: the class of a record, with a lemma for each of its members.
-/

namespace Tablewright.Access

open Source (Expr Stmt Param Program Frame Flow Function Datum Library Outcome ClassDef Member eval evalNamed readName
  send getAttribute setAttribute call invoke update run runAll bindings bindParams suppliedTo)

variable {L : Library} {p : Program} {σ : Frame L} {enums : List EnumType} {r : Record} {e : Entity}

/-! ## Modules of records -/

/-- The names that record modules use for other things than types. -/
def moduleNames : List String :=
  importedNames ++ ["datetime", "_hashable", "list", "set", "str", "self", "cls", "item", "entity"]

/-- A program has the generated types of an entity, and the names of these are no others that record modules
use. -/
structure Loads (p : Program) (e : Entity) : Prop where
  records : ∀ r ∈ e.record :: e.nested, p.module? r.name = some (recordModule e.enums r).value
  enums : ∀ t ∈ e.enums, p.module? t.name = some (enumModule t)
  free : ∀ name ∈ (e.record :: e.nested).map (·.name) ++ e.enums.map (·.name), name ∉ moduleNames

def typingNames : List String := ["Any", "Dict", "Optional", "List", "Set"]

theorem typing_addScalar (u : Usage) (kind : Scalar) : (u.addScalar kind).typing = u.typing := by
  cases kind <;> rfl

theorem typing_addPlain {u : Usage} {type : TypeRef} {names : List String} (generic : typingNames ⊆ names)
    (known : u.typing ⊆ names) : (u.addPlain type).typing ⊆ names := by
  have added : ∀ {name : String}, name ∈ typingNames → (name :: u.typing) ⊆ names :=
    fun member => List.cons_subset.mpr ⟨generic member, known⟩
  induction type generalizing u with
  | scalar kind => rwa [Usage.addPlain, typing_addScalar]
  | list element ih =>
    have more : ({ u with typing := "List" :: u.typing } : Usage).typing ⊆ names := added (by decide)
    exact ih more fun member => List.cons_subset.mpr ⟨generic member, more⟩
  | set element =>
    rw [Usage.addPlain, typing_addScalar]
    exact added (by decide)
  | record name => exact known
  | enum name => exact known
  | any => exact added (by decide)

theorem typing_addOptional {u : Usage} {type : TypeRef} (known : u.typing ⊆ typingNames) :
    (u.addOptional type).typing ⊆ typingNames := by
  by_cases any : type = .any
  · subst any
    exact typing_addPlain (List.Subset.refl _) known
  · rw [Usage.addOptional_of_ne any]
    exact typing_addPlain (List.Subset.refl _) (List.cons_subset.mpr ⟨by decide, known⟩)

theorem recordUsage_typing (r : Record) : (recordUsage r).typing ⊆ typingNames :=
  List.foldlRecOn r.fields (fun u f => Usage.addOptional u f.type) (motive := fun u : Usage => u.typing ⊆ typingNames)
    (by decide) fun _ known _ _ => typing_addOptional known

/-- A statement of a record module, by the name that it binds. -/
inductive Binds (enums : List EnumType) (r : Record) : String → Stmt → Prop
  | datetime : Binds enums r "datetime" (.importFrom "datetime" ["datetime"])
  | decimal : Binds enums r "Decimal" (.importFrom "decimal" ["Decimal"])
  | typing {name : String} (generic : name ∈ typingNames) (names : List String) :
      Binds enums r name (.importFrom "typing" names)
  | type {name : String} (mentioned : name ∈ (recordUsage r).types) :
      Binds enums r name (.importFrom (nestedModule r name) [name])
  | hashable : Binds enums r "_hashable" hashableFunction
  | itself : Binds enums r r.name (recordClass enums r).value

theorem recordModule_binds {s : Stmt} (member : s ∈ (recordModule enums r).value.body) {name : String}
    (binds : name ∈ s.binds) : Binds enums r name s := by
  rw [recordModule_body, List.mem_append, List.mem_append, recordImports, List.mem_append] at member
  rcases member with ((standard | types) | helper) | itself
  · simp only [Usage.standardImports, List.mem_append, List.mem_ite_nil_right, List.mem_ite_nil_left,
      List.mem_singleton] at standard
    obtain (⟨-, rfl⟩ | ⟨-, rfl⟩) | ⟨-, rfl⟩ := standard
    · obtain rfl := List.mem_singleton.mp binds
      exact .datetime
    · obtain rfl := List.mem_singleton.mp binds
      exact .decimal
    · refine .typing (recordUsage_typing r ?_) _
      simpa [Stmt.binds] using binds
  · obtain ⟨t, mentioned, rfl⟩ := List.mem_map.mp types
    obtain rfl := List.mem_singleton.mp binds
    exact .type mentioned
  · rw [hashableHelper, List.mem_ite_nil_right, List.mem_singleton] at helper
    obtain ⟨-, rfl⟩ := helper
    obtain rfl := List.mem_singleton.mp binds
    exact .hashable
  · obtain rfl := List.mem_singleton.mp itself
    obtain rfl := List.mem_singleton.mp binds
    exact .itself

/-- The statement that gives a name of a record module its meaning. -/
theorem recordModule_last (home : σ.home = (recordModule enums r).value.body) {name : String}
    (top : name ∈ (recordModule enums r).value.topLevel) :
    ∃ t, (bindings name σ.home).getLast? = some t ∧ Binds enums r name t := by
  obtain ⟨t, inside, binds⟩ := List.mem_flatMap.mp top
  have some : bindings name σ.home ≠ [] := by
    rw [home]
    exact List.ne_nil_of_mem (List.mem_filter.mpr ⟨inside, by simpa using binds⟩)
  refine ⟨_, List.getLast?_eq_some_getLast some, ?_⟩
  obtain ⟨inside, binds⟩ := List.mem_filter.mp (List.getLast_mem some)
  exact recordModule_binds (home ▸ inside) (by simpa using binds)

theorem importsOf_number {type : TypeRef} (number : .number ∈ scalars type) : "Decimal" ∈ importsOf type := by
  induction type with
  | scalar kind =>
    obtain rfl := List.mem_singleton.mp number
    exact List.mem_singleton.mpr rfl
  | list element ih => exact List.mem_cons_of_mem _ (ih number)
  | set element =>
    obtain rfl := List.mem_singleton.mp number
    simp [importsOf, scalarImports]
  | record name => cases number
  | enum name => cases number
  | any => cases number

theorem importsOf_timestamp {type : TypeRef} (timestamp : .timestamp ∈ scalars type) : "datetime" ∈ importsOf type := by
  induction type with
  | scalar kind =>
    obtain rfl := List.mem_singleton.mp timestamp
    exact List.mem_singleton.mpr rfl
  | list element ih => exact List.mem_cons_of_mem _ (ih timestamp)
  | set element =>
    obtain rfl := List.mem_singleton.mp timestamp
    simp [importsOf, scalarImports]
  | record name => cases timestamp
  | enum name => cases timestamp
  | any => cases timestamp

theorem importsOf_types {type : TypeRef} {name : String} (mentioned : name ∈ type.recordNames ++ type.enumNames) :
    name ∈ importsOf type := by
  induction type with
  | list element ih => exact List.mem_cons_of_mem _ (ih mentioned)
  | record other => simpa [TypeRef.recordNames, TypeRef.enumNames, importsOf] using mentioned
  | enum other => simpa [TypeRef.recordNames, TypeRef.enumNames, importsOf] using mentioned
  | scalar kind => cases mentioned
  | set element => cases mentioned
  | any => cases mentioned

namespace Loads

variable {s : Schema} (describes : Describes s e) (loads : Loads p e) (member : r ∈ e.record :: e.nested)
include loads member

theorem record_free : r.name ∉ moduleNames :=
  loads.free _ (List.mem_append_left _ (List.mem_map_of_mem member))

include describes in
theorem types_free {name : String} (mentioned : name ∈ (recordUsage r).types) : name ∉ moduleNames := by
  obtain ⟨f, inRecord, isRecord | isEnum⟩ := (recordUsage_types r name).mp mentioned
  · have known := (describes.provided member inRecord).records name isRecord
    exact loads.free _ (List.mem_append_left _ (List.mem_cons_of_mem _ known))
  · exact loads.free _ (List.mem_append_right _ ((describes.provided member inRecord).enums name isEnum))

variable (home : σ.home = (recordModule e.enums r).value.body)
  (locals : ∀ name, name ∉ ["self", "cls", "item", "entity"] → σ.locals name = none)

include describes home locals

theorem readName_builtin {name : String} (builtin : name ∈ ["list", "set", "str"]) :
    readName p σ name = pure (.builtin name) := by
  have named : name ∈ moduleNames ∧ name ∉ ["self", "cls", "item", "entity"] ∧ name ∉ typingNames ∧
      name ∉ ["datetime", "Decimal", "_hashable"] ∧ name ∈ Source.builtins := by
    have all : ∀ name ∈ ["list", "set", "str"], name ∈ moduleNames ∧ name ∉ ["self", "cls", "item", "entity"] ∧
      name ∉ typingNames ∧ name ∉ ["datetime", "Decimal", "_hashable"] ∧ name ∈ Source.builtins := by decide
    exact all name builtin
  obtain ⟨taken, noLocal, noGeneric, noImport, isBuiltin⟩ := named
  have unbound : bindings name σ.home = [] := by
    refine Source.bindings_eq_nil fun t inside binds => ?_
    cases recordModule_binds (home ▸ inside) binds with
    | datetime => exact noImport (by simp)
    | decimal => exact noImport (by simp)
    | typing generic => exact noGeneric generic
    | type mentioned => exact loads.types_free describes member mentioned taken
    | hashable => exact noImport (by simp)
    | itself => exact loads.record_free member taken
  rw [readName, locals name noLocal, unbound]
  simp [isBuiltin]

theorem readName_import {name : String} (imported : name ∈ ["Decimal", "datetime"])
    (top : name ∈ (recordModule e.enums r).value.topLevel) : readName p σ name = pure (.imported name) := by
  have named : ∀ name ∈ ["Decimal", "datetime"], name ∈ moduleNames ∧ name ∉ ["self", "cls", "item", "entity"] ∧
    name ∉ typingNames ∧ name ≠ "_hashable" := by decide
  obtain ⟨taken, noLocal, noGeneric, noHelper⟩ := named name imported
  obtain ⟨t, last, binds⟩ := recordModule_last home top
  rw [readName, locals name noLocal]
  cases binds with
  | datetime => simp [last]
  | decimal => simp [last]
  | typing generic => exact absurd generic noGeneric
  | type mentioned => exact absurd taken (loads.types_free describes member mentioned)
  | hashable => exact absurd rfl noHelper
  | itself => exact absurd taken (loads.record_free member)

theorem readName_type {name : String} (type : name = r.name ∨ name ∈ (recordUsage r).types)
    (top : name ∈ (recordModule e.enums r).value.topLevel) : readName p σ name = pure (.cls [name]) := by
  have free : name ∉ moduleNames := by
    rcases type with rfl | mentioned
    · exact loads.record_free member
    · exact loads.types_free describes member mentioned
  have noLocal : name ∉ ["self", "cls", "item", "entity"] := fun isLocal =>
    free ((by decide : ["self", "cls", "item", "entity"] ⊆ moduleNames) isLocal)
  obtain ⟨t, last, binds⟩ := recordModule_last home top
  rw [readName, locals name noLocal]
  cases binds with
  | datetime => exact absurd (by decide) free
  | decimal => exact absurd (by decide) free
  | typing generic => exact absurd ((by decide : typingNames ⊆ moduleNames) generic) free
  | type mentioned =>
    have relative : (nestedModule r name).toList.head? = some '.' := by
      unfold nestedModule
      split <;> simp
    simp [last, relative]
  | hashable => exact absurd (by decide) free
  | itself =>
    rw [last]
    rfl

/-- In the methods of a record class the names that conversions read mean what they are written for. -/
theorem reads {f : ResolvedField} (inRecord : f ∈ r.fields) : Reads p σ f.type := by
  have top : importsOf f.type ⊆ (recordModule e.enums r).value.topLevel :=
    (recordModule_scope e.enums r).importsOf_subset inRecord
  refine ⟨?_, ?_, ?_, fun number => ?_, fun timestamp => ?_, fun name mentioned => ?_⟩
  · exact loads.readName_builtin describes member home locals (by simp)
  · exact loads.readName_builtin describes member home locals (by simp)
  · exact loads.readName_builtin describes member home locals (by simp)
  · exact loads.readName_import describes member home locals (by simp) (top (importsOf_number number))
  · exact loads.readName_import describes member home locals (by simp) (top (importsOf_timestamp timestamp))
  · refine loads.readName_type describes member home locals (.inr ?_) (top (importsOf_types mentioned))
    exact (recordUsage_types r name).mpr ⟨f, inRecord, List.mem_append.mp mentioned⟩

end Loads

/-! ## Classes of records -/

/-- The members of the class of a record that are no properties, those of its builder, and the receiver. -/
def memberNames : List String :=
  ["PARTITION_KEY", "SORT_KEY", "ATTRIBUTE_NAMES", "__init__", "builder", "to_item", "from_item", "__eq__",
   "__hash__", "__repr__", "Builder", "build", "self"]

/-- A record whose fields do not get in each other's way: they have different storage names and backing attributes,
and an identifier is neither a backing attribute, nor reserved, nor written with two underscores in front, which have
a meaning of their own in classes. -/
structure Separate (r : Record) : Prop where
  storageNames : (r.fields.map (·.storageName)).Nodup
  backings : (r.fields.map fun f => backing f.identifier).Nodup
  apart : ∀ f ∈ r.fields, ∀ g ∈ r.fields, f.identifier ≠ backing g.identifier
  unreserved : ∀ f ∈ r.fields, f.identifier ∉ Name.reserved
  plain : ∀ f ∈ r.fields, ¬ "__".toList <+: f.identifier.toList

/-- A record whose class has a member of its own for every field. -/
structure Usable (r : Record) : Prop extends Separate r where
  identifiers : (r.fields.map (·.identifier)).Nodup

/-- A backing attribute starts with one underscore. -/
theorem backing_spelled (identifier : String) :
    ∃ rest : List Char, (backing identifier).toList = '_' :: rest ∧ rest.head? ≠ some '_' := by
  unfold backing
  split
  · exact ⟨"field".toList ++ identifier.toList, by simp, by simp⟩
  · rename_i noUnderscore
    exact ⟨identifier.toList, by simp, noUnderscore⟩

theorem backing_ne_of_mem {name : String} (member : name ∈ memberNames) (identifier : String) :
    name ≠ backing identifier := by
  have spelled : ∀ name ∈ memberNames, name.toList.head? ≠ some '_' ∨ "__".toList <+: name.toList := by decide
  rintro rfl
  obtain ⟨rest, spells, other⟩ := backing_spelled identifier
  rcases spelled _ member with noUnderscore | ⟨more, two⟩
  · exact noUnderscore (by rw [spells]; rfl)
  · rw [spells] at two
    have : rest = '_' :: more := (List.cons.inj two).2.symm
    exact other (by rw [this]; rfl)

namespace Usable

variable (usable : Usable r) {f : ResolvedField} (inRecord : f ∈ r.fields)
include usable inRecord

theorem ne_member {name : String} (member : name ∈ memberNames) : name ≠ f.identifier := by
  have known : ∀ name ∈ memberNames, name ∈ Name.reserved ∨ "__".toList <+: name.toList := by decide
  rintro rfl
  rcases known _ member with reserved | two
  · exact usable.unreserved f inRecord reserved
  · exact usable.plain f inRecord two

end Usable

def recordBody (enums : List EnumType) (r : Record) : List Stmt :=
  classConstants r ++ (constructor enums r).value :: (r.fields.flatMap (property r)
    ++ [classMethod "builder" [] (builderName r) [.result (Expr.method (.name "cls") "Builder" [])],
        toItem r, fromItem r, equality r, hash r, shown r, builderClass r])

def recordCls (enums : List EnumType) (r : Record) : ClassDef :=
  ⟨(recordModule enums r).value.body, [], [], recordBody enums r⟩

theorem recordClass_body (enums : List EnumType) (r : Record) : (recordClass enums r).value =
    .classDef r.name [] [] (some ((given r.description).getD s!"{r.name} {roleWords r}.")) (recordBody enums r) := by
  simp only [recordClass, Noted.value_bind, Noted.value_pure, recordBody, List.append_assoc, List.cons_append]

theorem class_recordCls (emitted : p.module? r.name = some (recordModule enums r).value) :
    p.class? [r.name] = some (recordCls enums r) := by
  have last : (bindings r.name (recordModule enums r).value.body).getLast? = some (recordClass enums r).value := by
    rw [recordModule_body]
    exact Source.getLast?_bindings List.mem_cons_self (by simp)
  simp only [Program.class?, emitted, Option.bind_eq_bind, Option.bind_some, Source.classNamed?, last, recordClass_body]
  rfl

theorem Loads.class_record (loads : Loads p e) (member : r ∈ e.record :: e.nested) :
    p.class? [r.name] = some (recordCls e.enums r) := class_recordCls (loads.records r member)

section

variable {name : String}

theorem bindings_classConstants (other : name ∉ ["PARTITION_KEY", "SORT_KEY", "ATTRIBUTE_NAMES"]) :
    bindings name (classConstants r) = [] := by
  refine Source.bindings_eq_nil fun s member => ?_
  simp only [List.mem_cons, List.not_mem_nil, or_false, not_or] at other
  rw [classConstants, List.mem_append, List.mem_singleton] at member
  rcases member with key | rfl
  · cases role : r.role with
    | nested => simp [role] at key
    | entity partitionKey sortKey =>
      simp only [role, List.mem_cons, Option.mem_toList, Option.map_eq_some_iff] at key
      rcases key with rfl | ⟨key, -, rfl⟩
      · simpa [Stmt.bind, Stmt.binds] using other.1
      · simpa [Stmt.bind, Stmt.binds] using other.2.1
  · simpa [Stmt.bind, Stmt.binds] using other.2.2

/-- Members of other names are properties. -/
theorem bindings_recordBody (other : name ∉ memberNames) :
    bindings name (recordBody enums r) = bindings name (r.fields.flatMap (property r)) := by
  simp only [memberNames, List.mem_cons, not_or] at other
  have init : bindings name [(constructor enums r).value] = [] := by
    refine Source.bindings_eq_nil ?_
    simp [constructor_value, Stmt.binds, other]
  have rest : bindings name [classMethod "builder" [] (builderName r)
      [.result (Expr.method (.name "cls") "Builder" [])], toItem r, fromItem r, equality r, hash r, shown r,
      builderClass r] = [] := by
    refine Source.bindings_eq_nil ?_
    simp [Stmt.binds, other, classMethod, toItem, plainMethod, fromItem, equality, hash, shown, builderClass]
  rw [recordBody, ← List.singleton_append, Source.bindings_append, Source.bindings_append, Source.bindings_append,
    bindings_classConstants (by simp [other]), init, rest, List.nil_append, List.nil_append, List.append_nil]

theorem bindings_property (f : ResolvedField) :
    bindings name (property r f) = if name = f.identifier then property r f else [] := by
  by_cases same : name = f.identifier
  · simp [bindings, property, Stmt.binds, same]
  · simp [bindings, property, Stmt.binds, same]

theorem bindings_properties_none {fields : List ResolvedField} (other : name ∉ fields.map (·.identifier)) :
    bindings name (fields.flatMap (property r)) = [] := by
  induction fields with
  | nil => rfl
  | cons f rest ih =>
    rw [List.map_cons, List.mem_cons, not_or] at other
    rw [List.flatMap_cons, Source.bindings_append, bindings_property, if_neg other.1, ih other.2, List.nil_append]

theorem bindings_properties {fields : List ResolvedField} (distinct : (fields.map (·.identifier)).Nodup)
    {f : ResolvedField} (member : f ∈ fields) :
    bindings f.identifier (fields.flatMap (property r)) = property r f := by
  induction fields with
  | nil => cases member
  | cons first rest ih =>
    obtain ⟨fresh, distinct⟩ := List.nodup_cons.mp distinct
    rw [List.flatMap_cons, Source.bindings_append, bindings_property]
    rcases List.mem_cons.mp member with rfl | member
    · rw [if_pos rfl, bindings_properties_none fresh, List.append_nil]
    · rw [if_neg, ih distinct member, List.nil_append]
      intro same
      exact fresh (List.mem_map.mpr ⟨f, member, same⟩)

end

/-! ### Functions -/

def initFunction (enums : List EnumType) (r : Record) : Function :=
  ⟨⟨"__init__", [], Param.plain "self" :: r.fields.map fun f =>
      Param.optional f.identifier (optionalHint f.type), none, Source.noResult⟩,
    constructor.orPass (r.fields.map fun f => setBacking "self" f (initialValue enums r.name f).value)⟩

def getterOf (f : ResolvedField) : Function :=
  ⟨⟨f.identifier, [.name "property"], [Param.plain "self"], none, some (optionalHint f.type)⟩,
    [.result (backingOf "self" f)]⟩

def setterOf (f : ResolvedField) : Function :=
  ⟨⟨f.identifier, [.attr (.name f.identifier) "setter"],
      [Param.plain "self", Param.required "value" (optionalHint f.type)], none, Source.noResult⟩,
    [setBacking "self" f (.name "value")]⟩

def toItemFunction (r : Record) : Function :=
  ⟨⟨"to_item", [], [Param.plain "self"], none, some itemType⟩,
    .annotated "item" itemType (some (.dict []))
      :: (r.fields.map fun f => .ifThen (storedTest f)
          [Stmt.put (.name "item") f.storageName (toStorage 0 f.type (backingOf "self" f))])
      ++ [.result (.name "item")]⟩

/-- The method that builds a record from an item. -/
def fromItemFunction (r : Record) : Function :=
  ⟨⟨"from_item", [.name "classmethod"], [Param.plain "cls", Param.required "item" itemType], none,
      some (Expr.text r.name)⟩,
    Stmt.bind "entity" (Expr.apply "cls" [])
      :: (r.fields.map fun f => .ifThen
          (Expr.isNotNone (Expr.method (.name "item") "get" [Expr.text f.storageName]))
          [setBacking "entity" f
            (fromStorage 0 f.type (.subscript (.name "item") (Expr.text f.storageName)))])
      ++ [.result (.name "entity")]⟩

def builderFunction (r : Record) : Function :=
  ⟨⟨"builder", [.name "classmethod"], [Param.plain "cls"], none, some (builderName r)⟩,
    [.result (Expr.method (.name "cls") "Builder" [])]⟩

/-- The method that gives the item, whatever the fields are called. -/
theorem member_toItem (enums : List EnumType) (r : Record) :
    (recordCls enums r).member? "to_item" = some (.method (toItemFunction r)) := by
  have ending : toItem r :: [fromItem r, equality r, hash r, shown r, builderClass r] <:+ (recordCls enums r).body :=
    (List.suffix_cons _ _).trans ((List.suffix_append _ _).trans ((List.suffix_cons _ _).trans (List.suffix_append _ _)))
  obtain ⟨earlier, found⟩ : ∃ earlier, (recordCls enums r).member? "to_item" = some ((toItem r).member earlier) :=
    ClassDef.member?_last ending List.mem_cons_self
      (by simp [Stmt.binds, classMethod, plainMethod, fromItem, equality, hash, shown, builderClass])
  rw [found]
  rfl

/-- The method that reads items, whatever the fields are called. -/
theorem member_fromItem (enums : List EnumType) (r : Record) :
    (recordCls enums r).member? "from_item" = some (.classMethod (fromItemFunction r)) := by
  have ending : fromItem r :: [equality r, hash r, shown r, builderClass r] <:+ (recordCls enums r).body :=
    (List.suffix_cons _ _).trans ((List.suffix_cons _ _).trans
      ((List.suffix_append _ _).trans ((List.suffix_cons _ _).trans (List.suffix_append _ _))))
  obtain ⟨earlier, found⟩ : ∃ earlier, (recordCls enums r).member? "from_item" = some ((fromItem r).member earlier) :=
    ClassDef.member?_last ending List.mem_cons_self
      (by simp [Stmt.binds, plainMethod, equality, hash, shown, builderClass])
  rw [found]
  rfl

namespace Usable

variable (usable : Usable r)
include usable

theorem notMem_identifiers {name : String} (member : name ∈ memberNames) : name ∉ r.fields.map (·.identifier) := by
  intro taken
  obtain ⟨f, inRecord, same⟩ := List.mem_map.mp taken
  exact usable.ne_member inRecord member same.symm

theorem bindings_member {name : String} (listed : name ∈ ["__init__", "builder", "to_item", "from_item", "Builder"]) :
    bindings name (recordBody enums r) = bindings name [(constructor enums r).value] ++
      bindings name [classMethod "builder" [] (builderName r) [.result (Expr.method (.name "cls") "Builder" [])],
        toItem r, fromItem r, equality r, hash r, shown r, builderClass r] := by
  have known : ∀ name ∈ ["__init__", "builder", "to_item", "from_item", "Builder"],
      name ∉ ["PARTITION_KEY", "SORT_KEY", "ATTRIBUTE_NAMES"] ∧ name ∈ memberNames := by decide
  obtain ⟨noConstant, member⟩ := known name listed
  rw [recordBody, Source.bindings_append, bindings_classConstants noConstant, ← List.singleton_append,
    Source.bindings_append, Source.bindings_append, bindings_properties_none (usable.notMem_identifiers member)]
  rfl

theorem member_init : (recordCls enums r).member? "__init__" = some (.method (initFunction enums r)) := by
  refine (ClassDef.member?_one (s := (constructor enums r).value) ?_).trans ?_
  · rw [recordCls, usable.bindings_member (by decide), constructor_value]
    rfl
  · rw [constructor_value]
    rfl

theorem member_builder : (recordCls enums r).member? "builder" = some (.classMethod (builderFunction r)) := by
  refine ClassDef.member?_one (s := classMethod "builder" [] (builderName r)
    [.result (Expr.method (.name "cls") "Builder" [])]) ?_
  rw [recordCls, usable.bindings_member (by decide), constructor_value]
  rfl

theorem member_inner : (recordCls enums r).member? "Builder" = some .inner := by
  refine ClassDef.member?_one (s := builderClass r) ?_
  rw [recordCls, usable.bindings_member (by decide), constructor_value]
  rfl

theorem member_field {f : ResolvedField} (inRecord : f ∈ r.fields) :
    (recordCls enums r).member? f.identifier = some (.property (getterOf f) (some (setterOf f))) := by
  have other : f.identifier ∉ memberNames := fun member => usable.ne_member inRecord member rfl
  have both : bindings f.identifier (recordCls enums r).body = property r f := by
    rw [recordCls, bindings_recordBody other, bindings_properties usable.identifiers inRecord]
  refine (ClassDef.member?_two both).trans ?_
  simp [Stmt.member, getterOf, setterOf]

/-- No member is called like a backing attribute. -/
theorem member_backing {f : ResolvedField} (inRecord : f ∈ r.fields) :
    (recordCls enums r).member? (backing f.identifier) = none := by
  have other : backing f.identifier ∉ memberNames := fun member => backing_ne_of_mem member f.identifier rfl
  have noField : backing f.identifier ∉ r.fields.map (·.identifier) := by
    intro taken
    obtain ⟨g, inRecord', same⟩ := List.mem_map.mp taken
    exact usable.apart g inRecord' f inRecord same
  have unbound : bindings (backing f.identifier) (recordCls enums r).body = [] := by
    rw [recordCls, bindings_recordBody other, bindings_properties_none noField]
  rw [ClassDef.member?, unbound]
  rfl

end Usable

/-! ## Classes of enums -/

def enumCls (t : EnumType) : ClassDef :=
  ⟨(enumModule t).body, [], [.name "str", .name "Enum"],
    t.members.map fun (constant, value) => Stmt.bind constant (Expr.text value)⟩

theorem enumCls_constants (t : EnumType) : (enumCls t).constants = t.members := by
  simp [ClassDef.constants, enumCls, Stmt.bind, Expr.text, List.filterMap_map]

theorem class_enumCls {t : EnumType} (emitted : p.module? t.name = some (enumModule t)) :
    p.class? [t.name] = some (enumCls t) := by
  have last : (bindings t.name (enumModule t).body).getLast? = some (.classDef t.name [] [.name "str", .name "Enum"]
      (some s!"Allowed values of {t.owner}.{t.fieldName}.") (enumCls t).body) := by
    rw [enumModule, ← List.singleton_append]
    exact Source.getLast?_bindings List.mem_cons_self (by simp)
  simp only [Program.class?, emitted, Option.bind_eq_bind, Option.bind_some, Source.classNamed?, last]
  rfl

theorem Loads.class_enum (loads : Loads p e) {t : EnumType} (member : t ∈ e.enums) :
    p.class? [t.name] = some (enumCls t) := class_enumCls (loads.enums t member)

theorem enumCls_isEnum (t : EnumType) : (enumCls t).isEnum = true := by
  simp [ClassDef.isEnum, enumCls, Expr.isNamed]

theorem enumOf_constants (owner : String) (d : Declaration) :
    (enumOf owner d).members.map (·.1) = (enumOf owner d).constants :=
  List.map_fst_zip (Name.length_memberNames _).le

/-- An enum that is called with a value gives the first constant of that. -/
theorem call_enumCls {t : EnumType} (defined : p.class? [t.name] = some (enumCls t)) {c : String × String}
    (first : t.members.find? (·.2 == c.2) = some c) :
    call p (.cls [t.name] : Datum L) [.text c.2] [] = pure (.member t.name c.1 c.2) := by
  rw [Source.call, defined]
  simp only [enumCls_isEnum, if_true, List.headD_cons]
  simp [ClassDef.constantOf?, enumCls_constants, first, Datum.text?]

/-- An enum with different constants gives for a constant the first one of its value. -/
theorem getAttribute_enumCls {t : EnumType} (defined : p.class? [t.name] = some (enumCls t))
    (distinct : (t.members.map (·.1)).Nodup) {c first : String × String} (member : c ∈ t.members)
    (isFirst : t.members.find? (·.2 == c.2) = some first) :
    getAttribute p (.cls [t.name] : Datum L) c.1 = pure (.member t.name first.1 first.2) := by
  have own : t.members.lookup c.1 = some c.2 := by
    obtain ⟨before, after, split⟩ := List.append_of_mem member
    rw [split, List.map_append, List.map_cons, List.nodup_middle, List.nodup_cons] at distinct
    refine List.lookup_eq_some_iff.mpr ⟨before, after, split, fun other earlier => ?_⟩
    have different : other.1 ≠ c.1 := fun again =>
      distinct.1 (List.mem_append_left _ (List.mem_map.mpr ⟨other, earlier, again⟩))
    simpa using different.symm
  rw [Source.getAttribute, defined]
  simp only [enumCls_isEnum, if_true, enumCls_constants, List.headD_cons]
  rw [own, Option.bind_some, ClassDef.constantOf?, enumCls_constants, isFirst, Option.map_some, Outcome.given_some]

/-- What an enum gives for the name of a constant is the first of its constants with the value of that. -/
theorem Loads.constant_first (loads : Loads p e) {t : EnumType} (member : t ∈ e.enums) {constant : String}
    {m : Datum L} (gives : getAttribute p (.cls [t.name]) constant = pure m) :
    ∃ c, t.members.find? (·.2 == c.2) = some c ∧ m = .member t.name c.1 c.2 := by
  rw [Source.getAttribute, loads.class_enum member] at gives
  simp only [enumCls_isEnum, if_true, enumCls_constants, List.headD_cons] at gives
  cases named : t.members.lookup constant with
  | none =>
    rw [named] at gives
    cases gives
  | some value =>
    rw [named, Option.bind_some, ClassDef.constantOf?, enumCls_constants] at gives
    cases first : t.members.find? (·.2 == value) with
    | none =>
      rw [first] at gives
      cases gives
    | some c =>
      rw [first, Option.map_some, Outcome.given_some] at gives
      have same : c.2 = value := by simpa using List.find?_some first
      exact ⟨c, same ▸ first, (Outcome.pure_inj gives).symm⟩

/-- What an enum gives for the name of a constant is what it gives for the value of that. -/
theorem Loads.constant_comesBack (loads : Loads p e) {name : String} (known : name ∈ e.enums.map (·.name))
    {constant : String} {m : Datum L} (gives : getAttribute p (.cls [name]) constant = pure m) :
    m ≠ .none ∧ ∃ s, getAttribute p m "value" = pure (.text s) ∧ call p (.cls [name]) [.text s] [] = pure m := by
  obtain ⟨t, member, rfl⟩ := List.mem_map.mp known
  obtain ⟨c, first, rfl⟩ := loads.constant_first member gives
  refine ⟨by simp, c.2, ?_, ?_⟩
  · rw [Source.getAttribute, if_pos rfl]
  · exact call_enumCls (loads.class_enum member) first

end Tablewright.Access
