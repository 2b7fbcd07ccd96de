import Tablewright.Access.Conversion
import Tablewright.Proofs.Schema.Description
import Tablewright.Proofs.Source.Scoping
import Tablewright.Proofs.Text.Sorted

/-!
# Names that types need

The hints and the conversions of a type read certain names, and the imports of a module are derived from
the types it mentions.  Both are measured against `importsOf`: it holds the names that the hint and the
conversions of a type read, and exactly the names that the usage of a module gains by it.
-/

namespace Tablewright.Access

open Source (Expr Stmt Env)

/-! ## What a type reads -/

/-- The names that the class of a scalar reads, builtins apart. -/
def scalarImports : Scalar → List String
  | .number => ["Decimal"]
  | .timestamp => ["datetime"]
  | _ => []

/-- The names that the hint and the conversions of a type read, builtins apart. -/
def importsOf : TypeRef → List String
  | .scalar kind => scalarImports kind
  | .list element => "List" :: importsOf element
  | .set element => "Set" :: scalarImports element
  | .record name => [name]
  | .enum name => [name]
  | .any => ["Any"]

/-- The names that the hint of a value that may be absent reads, builtins apart. -/
def optionalImports : TypeRef → List String
  | .any => ["Any"]
  | type => "Optional" :: importsOf type

theorem importsOf_subset_optionalImports (type : TypeRef) : importsOf type ⊆ optionalImports type := by
  cases type <;> simp [importsOf, optionalImports]

theorem optionalImports_of_ne {type : TypeRef} (any : type ≠ .any) :
    optionalImports type = "Optional" :: importsOf type := by
  cases type <;> first | rfl | exact absurd rfl any

theorem scalarClass_bound {env : Env} {kind : Scalar} (bound : scalarImports kind ⊆ env.here) :
    (Expr.name (scalarClass kind)).Bound env := by
  cases kind <;> simp_all [scalarImports, scalarClass, Expr.Bound, Source.builtins]

theorem typeHint_bound {env : Env} {type : TypeRef} (bound : importsOf type ⊆ env.here) :
    (typeHint type).Bound env := by
  induction type with
  | scalar kind => exact scalarClass_bound bound
  | list element ih =>
    obtain ⟨list, element⟩ := List.cons_subset.mp bound
    exact ⟨.inl list, ih element⟩
  | set element =>
    obtain ⟨set, element⟩ := List.cons_subset.mp bound
    exact ⟨.inl set, scalarClass_bound element⟩
  | record name => exact .inl (bound List.mem_cons_self)
  | enum name => exact .inl (bound List.mem_cons_self)
  | any => exact .inl (bound List.mem_cons_self)

theorem optionalHint_of_ne {type : TypeRef} (any : type ≠ .any) :
    optionalHint type = Expr.generic "Optional" [typeHint type] := by
  cases type <;> first | rfl | exact absurd rfl any

theorem optionalHint_bound {env : Env} {type : TypeRef} (bound : optionalImports type ⊆ env.here) :
    (optionalHint type).Bound env := by
  by_cases any : type = .any
  · subst any
    exact .inl (bound List.mem_cons_self)
  · rw [optionalImports_of_ne any] at bound
    obtain ⟨here, plain⟩ := List.cons_subset.mp bound
    rw [optionalHint_of_ne any]
    exact ⟨.inl here, typeHint_bound plain⟩

/-! ## Conversions -/

theorem decimalOf_bound {env : Env} {value : Expr} (decimal : "Decimal" ∈ env.here) (bound : value.Bound env) :
    (decimalOf value).Bound env := by
  simp [decimalOf, Expr.apply, Expr.Bound, decimal, bound, Source.builtins]

/-- The stored form reads what the value and the hint of the type read. The elements of a list are converted
in a comprehension of their own, so the names may grow. -/
theorem toStorage_bound {names : List String} {type : TypeRef} {depth : Nat} {value : Expr}
    (imports : importsOf type ⊆ names) (bound : value.Bound (.all names)) :
    (toStorage depth type value).Bound (.all names) := by
  induction type generalizing names depth value with
  | scalar kind =>
    cases kind with
    | number => exact decimalOf_bound (imports List.mem_cons_self) bound
    | timestamp => simpa [toStorage, Expr.method, Expr.Bound] using bound
    | string => exact bound
    | boolean => exact bound
  | list element ih =>
    rw [toStorage]
    split
    · -- inside the comprehension the element is read under its own name, and every import is still seen
      have more : importsOf element ⊆ elementName depth :: names :=
        List.subset_cons_of_subset _ (List.cons_subset.mp imports).2
      exact ⟨bound, ih more (.inl List.mem_cons_self)⟩
    · simp [Expr.apply, Expr.Bound, Source.builtins, bound]
  | set element =>
    rw [toStorage]
    split
    · rename_i number
      subst number
      have decimal : "Decimal" ∈ elementName depth :: names :=
        List.mem_cons_of_mem _ (imports (List.mem_cons_of_mem _ List.mem_cons_self))
      exact ⟨bound, decimalOf_bound decimal (.inl List.mem_cons_self)⟩
    · simp [Expr.apply, Expr.Bound, Source.builtins, bound]
  | record name => simpa [toStorage, Expr.method, Expr.Bound] using bound
  | enum name => exact bound
  | any => exact bound

/-- Reading a value back reads what the stored form and the hint of the type read. -/
theorem fromStorage_bound {names : List String} {type : TypeRef} {depth : Nat} {value : Expr}
    (imports : importsOf type ⊆ names) (bound : value.Bound (.all names)) :
    (fromStorage depth type value).Bound (.all names) := by
  induction type generalizing names depth value with
  | scalar kind =>
    cases kind with
    | timestamp =>
      have datetime : "datetime" ∈ names := imports List.mem_cons_self
      exact ⟨.inl datetime, ⟨bound, trivial⟩, trivial⟩
    | number => exact bound
    | string => exact bound
    | boolean => exact bound
  | list element ih =>
    rw [fromStorage]
    split
    · have more : importsOf element ⊆ elementName depth :: names :=
        List.subset_cons_of_subset _ (List.cons_subset.mp imports).2
      exact ⟨bound, ih more (.inl List.mem_cons_self)⟩
    · simp [Expr.apply, Expr.Bound, Source.builtins, bound]
  | set element => simp [fromStorage, Expr.apply, Expr.Bound, Source.builtins, bound]
  | record name =>
    have here : name ∈ names := imports List.mem_cons_self
    exact ⟨.inl here, ⟨bound, trivial⟩, trivial⟩
  | enum name =>
    have here : name ∈ names := imports List.mem_cons_self
    exact ⟨.inl here, ⟨bound, trivial⟩, trivial⟩
  | any => exact bound

/-! ## What a module imports -/

namespace Usage

def names (u : Usage) : List String :=
  (if u.datetime then ["datetime"] else []) ++ (if u.decimal then ["Decimal"] else []) ++ u.typing ++ u.types

@[simp] theorem mem_types {u : Usage} {name : String} : name ∈ u.types ↔ name ∈ u.records ∨ name ∈ u.enums := by
  simp [types]

theorem mem_names {u : Usage} {name : String} :
    name ∈ u.names ↔ u.datetime ∧ name = "datetime" ∨ u.decimal ∧ name = "Decimal" ∨ name ∈ u.typing ∨
      name ∈ u.types := by
  simp only [names, List.mem_append, List.mem_ite_nil_right, List.mem_singleton, or_assoc]

theorem binds_standardImports (u : Usage) (name : String) :
    name ∈ u.standardImports.flatMap Stmt.binds ↔
      u.datetime ∧ name = "datetime" ∨ u.decimal ∧ name = "Decimal" ∨ name ∈ u.typing := by
  have sorted : name ∈ (if u.typing.isEmpty then [] else
      [Stmt.importFrom "typing" (Text.sortNames u.typing)]).flatMap Stmt.binds ↔ name ∈ u.typing := by
    by_cases empty : u.typing = []
    · simp [empty]
    · simp [empty, Stmt.binds]
  rw [standardImports, List.flatMap_append, List.flatMap_append, List.mem_append, List.mem_append, sorted]
  cases u.datetime <;> cases u.decimal <;> simp [Stmt.binds, or_assoc]

theorem binds_typeImports (u : Usage) (module : String → String) (name : String) :
    name ∈ (u.types.map fun t => Stmt.importFrom (module t) [t]).flatMap Stmt.binds ↔ name ∈ u.types := by
  simp [List.flatMap_map, Stmt.binds]

/-- The imports of a usage bind its names, wherever the modules of the types are. -/
theorem binds_imports (u : Usage) (module : String → String) (name : String) :
    name ∈ u.names ↔ name ∈ u.standardImports.flatMap Stmt.binds ∨
      name ∈ (u.types.map fun t => Stmt.importFrom (module t) [t]).flatMap Stmt.binds := by
  rw [binds_standardImports, binds_typeImports, mem_names, or_assoc, or_assoc]

/-- The imports from the standard library read no name. -/
theorem standardImports_bound {env : Env} (u : Usage) : ∀ s ∈ u.standardImports, s.Bound env := by
  intro s member
  simp only [standardImports, List.mem_append, List.mem_ite_nil_right, List.mem_ite_nil_left,
    List.mem_singleton] at member
  obtain (⟨-, rfl⟩ | ⟨-, rfl⟩) | ⟨-, rfl⟩ := member <;> trivial

theorem typeImports_bound {env : Env} (u : Usage) (module : String → String) :
    ∀ s ∈ u.types.map fun t => Stmt.importFrom (module t) [t], s.Bound env :=
  List.forall_mem_map.mpr fun _ _ => trivial

theorem mem_names_addScalar {u : Usage} {kind : Scalar} {name : String} :
    name ∈ (u.addScalar kind).names ↔ name ∈ u.names ∨ name ∈ scalarImports kind := by
  cases kind <;> simp [addScalar, mem_names, scalarImports] <;> tauto

/-- A usage gains exactly the names that the hint of the type reads. -/
theorem mem_names_addPlain {u : Usage} (type : TypeRef) {name : String} :
    name ∈ (u.addPlain type).names ↔ name ∈ u.names ∨ name ∈ importsOf type := by
  have typing : ∀ (u : Usage) (added : String),
      name ∈ ({ u with typing := added :: u.typing } : Usage).names ↔ name ∈ u.names ∨ name = added := by
    intro u added
    simp only [mem_names, List.mem_cons, mem_types]
    tauto
  induction type generalizing u with
  | scalar kind => exact mem_names_addScalar
  | list element ih =>
    simp only [addPlain, ih, typing, importsOf, List.mem_cons, or_assoc]
  | set element =>
    rw [addPlain, mem_names_addScalar, typing, importsOf, List.mem_cons, or_assoc]
  | record record =>
    simp only [addPlain, mem_names, importsOf, mem_types, List.mem_cons, List.not_mem_nil, or_false]
    tauto
  | enum enum =>
    simp only [addPlain, mem_names, importsOf, mem_types, List.mem_cons, List.not_mem_nil, or_false]
    tauto
  | any => rw [addPlain, typing, importsOf, List.mem_singleton]

theorem addOptional_of_ne {u : Usage} {type : TypeRef} (any : type ≠ .any) :
    u.addOptional type = ({ u with typing := "Optional" :: u.typing } : Usage).addPlain type := by
  cases type <;> first | rfl | exact absurd rfl any

theorem mem_names_addOptional {u : Usage} (type : TypeRef) {name : String} :
    name ∈ (u.addOptional type).names ↔ name ∈ u.names ∨ name ∈ optionalImports type := by
  by_cases any : type = .any
  · subst any
    exact mem_names_addPlain _
  · rw [addOptional_of_ne any, optionalImports_of_ne any, mem_names_addPlain, List.mem_cons]
    simp only [mem_names, List.mem_cons, mem_types]
    tauto

/-- A usage gains exactly the generated types that the type mentions. -/
theorem mem_types_addPlain {u : Usage} (type : TypeRef) {name : String} :
    name ∈ (u.addPlain type).types ↔ name ∈ u.types ∨ name ∈ type.recordNames ∨ name ∈ type.enumNames := by
  have scalar : ∀ (u : Usage) (kind : Scalar), (u.addScalar kind).types = u.types := by
    intro u kind
    cases kind <;> rfl
  have typing : ∀ (u : Usage) (added : List String), ({ u with typing := added } : Usage).types = u.types :=
    fun _ _ => rfl
  induction type generalizing u with
  | scalar kind => simp [addPlain, scalar, TypeRef.recordNames, TypeRef.enumNames]
  | list element ih => simp only [addPlain, ih, typing, TypeRef.recordNames, TypeRef.enumNames]
  | set element => simp [addPlain, scalar, TypeRef.recordNames, TypeRef.enumNames]
  | record record =>
    simp only [addPlain, mem_types, TypeRef.recordNames, TypeRef.enumNames, List.mem_cons, List.not_mem_nil, or_false]
    tauto
  | enum enum =>
    simp only [addPlain, mem_types, TypeRef.recordNames, TypeRef.enumNames, List.mem_cons, List.not_mem_nil,
      or_false, false_or]
    tauto
  | any => simp [addPlain, TypeRef.recordNames, TypeRef.enumNames]

theorem mem_types_addOptional {u : Usage} (type : TypeRef) {name : String} :
    name ∈ (u.addOptional type).types ↔ name ∈ u.types ∨ name ∈ type.recordNames ∨ name ∈ type.enumNames := by
  by_cases any : type = .any
  · subst any
    exact mem_types_addPlain _
  · rw [addOptional_of_ne any]
    exact mem_types_addPlain _

/-- What a list of items adds to a usage is what each of them adds. -/
theorem foldl_gains {α : Type} {step : Usage → α → Usage} (has : Usage → Prop) {brings : α → Prop}
    (each : ∀ u a, has (step u a) ↔ has u ∨ brings a) (items : List α) (u : Usage) :
    has (items.foldl step u) ↔ has u ∨ ∃ a ∈ items, brings a := by
  induction items generalizing u with
  | nil => simp
  | cons a rest ih => rw [List.foldl_cons, ih, each, or_assoc, List.exists_mem_cons_iff]

end Usage

end Tablewright.Access
