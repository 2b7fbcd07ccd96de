import Tablewright.Access.Record
import Tablewright.Proofs.Access.Conversion
import Tablewright.Proofs.Access.Layout

/-!
# Names in record modules

The module of a record binds every name that it reads.  The members of the class are taken one by one:
each reads its parameters and local names, and otherwise names of the module that `RecordScope` lists.
Only the second half of a property reads a name of the class body, which its first half binds.

* `SpelledOut`, `default?_cases`: the forms of initial values.
* `RecordScope`: what the members of a record class need from its module.
* `recordModule_namesBound`, `enumModule_namesBound`: the modules bind what they read.
-/

namespace Tablewright.Access

open Source (Expr Stmt Param Signature Module Env Part Keyword Entry builtins noResult)

variable {names : List String} {r : Record} {f : ResolvedField} {enums : List EnumType}

/-! ## Defaults -/

/-- The initial values that are spelled out for types without constants, by what they make. -/
inductive SpelledOut : TypeRef → Value → Expr → Prop
  | text (v : Value) : SpelledOut (.scalar .string) v (Expr.text v.display)
  | number (v : Value) (noTruth : ∀ b, v ≠ .bool b) :
      SpelledOut (.scalar .number) v (Expr.apply "Decimal" [Expr.text v.display])
  | truth {v : Value} {b : Bool} (reads : truth? v = some b) : SpelledOut (.scalar .boolean) v (Expr.bool b)
  | time (text : String) :
      SpelledOut (.scalar .timestamp) (.text text) (Expr.method (.name "datetime") "fromisoformat" [Expr.text text])
  | untyped (v : Value) : SpelledOut .any v (Expr.ofValue v)
  | list {element : TypeRef} {v : Value} {items : List Value}
      (plain : element = .any ∨ element = .scalar .string ∨ element = .scalar .boolean)
      (sequence : sequence? v = some items) : SpelledOut (.list element) v (Expr.ofValue (.list items))
  | set {v : Value} {items : List Value} (sequence : sequence? v = some items) : SpelledOut (.set .string) v
      (Expr.apply "set" [Expr.ofValue (.list (items.map fun item => .text item.display))])

theorem plainDefault?_eq_some_iff {type : TypeRef} {v : Value} {default : Expr} :
    plainDefault? type v = some default ↔ SpelledOut type v default := by
  constructor
  · intro given
    unfold plainDefault? at given
    split at given
    case h_1 =>
      obtain rfl := Option.some.inj given
      exact .text v
    case h_2 => cases given
    case h_3 noTruth =>
      obtain rfl := Option.some.inj given
      exact .number v noTruth
    case h_4 =>
      obtain ⟨b, reads, rfl⟩ := Option.map_eq_some_iff.mp given
      exact .truth reads
    case h_5 text =>
      obtain rfl := Option.some.inj given
      exact .time text
    case h_6 =>
      obtain rfl := Option.some.inj given
      exact .untyped v
    case h_7 =>
      obtain ⟨items, sequence, rfl⟩ := Option.map_eq_some_iff.mp given
      exact .list (.inl rfl) sequence
    case h_8 =>
      obtain ⟨items, sequence, rfl⟩ := Option.map_eq_some_iff.mp given
      exact .list (.inr (.inl rfl)) sequence
    case h_9 =>
      obtain ⟨items, sequence, rfl⟩ := Option.map_eq_some_iff.mp given
      exact .list (.inr (.inr rfl)) sequence
    case h_10 =>
      obtain ⟨items, sequence, rfl⟩ := Option.map_eq_some_iff.mp given
      exact .set sequence
    case h_11 => cases given
  · intro spelled
    cases spelled with
    | text | time | untyped => rfl
    | number v noTruth =>
      cases v with
      | bool b => exact absurd rfl (noTruth b)
      | _ => rfl
    | truth reads => rw [plainDefault?, reads, Option.map_some]
    | list plain sequence => rcases plain with rfl | rfl | rfl <;> rw [plainDefault?, sequence, Option.map_some]
    | set sequence => rw [plainDefault?, sequence, Option.map_some]

/-- The initial value of a field is a constant of the enum that is its type, or it is spelled out for its type. -/
theorem default?_cases {default : Expr} (given : default? enums f = some default) :
    (∃ t ∈ enums, ∃ constant, f.type = .enum t.name ∧ t.constantFor? f.field.default = some constant ∧
      default = .attr (.name t.name) constant) ∨ SpelledOut f.type f.field.default default := by
  unfold default? at given
  split at given
  · rename_i name isEnum
    obtain ⟨t, found, given⟩ := Option.bind_eq_some_iff.mp given
    obtain ⟨constant, value, rfl⟩ := Option.map_eq_some_iff.mp given
    obtain rfl : t.name = name := by simpa using List.find?_some found
    exact .inl ⟨t, List.mem_reverse.mp (List.mem_of_find?_eq_some found), constant, isEnum, value, rfl⟩
  · exact .inr (plainDefault?_eq_some_iff.mp given)

mutual

/-- The expression of a document value reads no name. -/
theorem ofValue_bound (env : Env) : (v : Value) → (Expr.ofValue v).Bound env
  | .dict entries => ofEntries_bound env entries
  | .list items => ofValues_bound env items
  | .tuple items => ofValues_bound env items
  | .null => trivial
  | .bool _ => trivial
  | .int _ => trivial
  | .float _ => trivial
  | .text _ => trivial
  | .set _ => trivial
  | .bytes _ => trivial
  | .date _ => trivial
  | .moment _ => trivial

theorem ofValues_bound (env : Env) : (items : List Value) → Expr.AllBound env (Expr.ofValues items)
  | [] => trivial
  | v :: rest => ⟨ofValue_bound env v, ofValues_bound env rest⟩

theorem ofEntries_bound (env : Env) :
    (entries : List (Value × Value)) → Entry.AllBound env (Expr.ofEntries entries)
  | [] => trivial
  | (k, v) :: rest => ⟨ofValue_bound env k, ofValue_bound env v, ofEntries_bound env rest⟩

end

theorem SpelledOut.bound {env : Env} {type : TypeRef} {v : Value} {default : Expr} (spelled : SpelledOut type v default)
    (imports : importsOf type ⊆ env.here) : default.Bound env := by
  cases spelled with
  | text | truth => trivial
  | number | time => exact ⟨.inl (imports List.mem_cons_self), ⟨trivial, trivial⟩, trivial⟩
  | untyped | list => exact ofValue_bound env _
  | set => exact ⟨.inr (by decide), ⟨ofValue_bound env _, trivial⟩, trivial⟩

/-- The initial value of a field reads what the hint of its type reads. -/
theorem default?_bound {env : Env} (imports : importsOf f.type ⊆ env.here) {default : Expr}
    (some : default? enums f = some default) : default.Bound env := by
  rcases default?_cases some with ⟨t, -, constant, isEnum, -, rfl⟩ | spelled
  · rw [isEnum] at imports
    exact .inl (imports List.mem_cons_self)
  · exact spelled.bound imports

/-- The value that the constructor stores reads the parameter of the field and what its default reads. -/
theorem initialValue_bound {env : Env} (parameter : f.identifier ∈ env.here)
    (imports : importsOf f.type ⊆ env.here) (name : String) : (initialValue enums name f).value.Bound env := by
  unfold initialValue
  split
  · split
    · rename_i default found
      exact ⟨.inl parameter, ⟨.inl parameter, trivial⟩, default?_bound imports found⟩
    · exact .inl parameter
  · exact .inl parameter

/-! ## Members -/

/-- The names that the members of a record class read from its module. -/
structure RecordScope (r : Record) (names : List String) : Prop where
  any : "Any" ∈ names
  dict : "Dict" ∈ names
  hints : ∀ f ∈ r.fields, optionalImports f.type ⊆ names
  hashable : ∀ f ∈ r.fields, needsHashable f.type → "_hashable" ∈ names
  itself : r.name ∈ names

theorem backingOf_bound {env : Env} {owner : String} (known : owner ∈ env.here) (f : ResolvedField) :
    (backingOf owner f).Bound env := .inl known

theorem setBacking_bound {env : Env} {owner : String} (known : owner ∈ env.here) (f : ResolvedField)
    {value : Expr} (bound : value.Bound env) : (setBacking owner f value).Bound env :=
  ⟨.inl known, bound⟩

theorem storedTest_bound {env : Env} (self : "self" ∈ env.here) (f : ResolvedField) :
    (storedTest f).Bound env := by
  unfold storedTest
  split
  · exact backingOf_bound self f
  · exact ⟨backingOf_bound self f, trivial⟩

theorem constructor_value : (constructor enums r).value =
    .function ⟨"__init__", [], Param.plain "self" :: r.fields.map fun f =>
        Param.optional f.identifier (Access.optionalHint f.type), none, noResult⟩ none
      (constructor.orPass (r.fields.map fun f => setBacking "self" f (initialValue enums r.name f).value)) := by
  simp only [constructor, Noted.value_bind, Noted.value_pure, Noted.value_each, List.zipWith_map_right,
    List.zipWith_self]

theorem shownFields_bound {env : Env} (self : "self" ∈ env.here) (fields : List ResolvedField) :
    ∀ part ∈ shownFields fields, part.Bound env := by
  induction fields with
  | nil => simp [shownFields]
  | cons f rest ih =>
    simp only [shownFields, List.forall_mem_cons]
    exact ⟨trivial, backingOf_bound self f, ih⟩

theorem shown_bound : (shown r).Bound (.all names) := by
  refine Stmt.function_bound ⟨by simp, by simp [Param.plain_bound], by simp, ?_⟩ (by simp [Stmt.globals]) ?_
  · simp [Expr.Bound, builtins]
  · intro inner inside
    have self : "self" ∈ inner := inside.params _ List.mem_cons_self
    refine List.forall_mem_singleton.mpr ?_
    split
    · trivial
    · rename_i f rest _
      refine Part.allBound_iff.mpr ?_
      simp only [List.forall_mem_append, List.forall_mem_cons]
      exact ⟨trivial, backingOf_bound self f, shownFields_bound self rest, trivial, by simp⟩

theorem builder_bound :
    (classMethod "builder" [] (builderName r) [.result (Expr.method (.name "cls") "Builder" [])]).Bound
      (.all names) := by
  refine Stmt.function_bound ⟨?_, by simp [Param.plain_bound], by simp, ?_⟩ (by simp [Stmt.globals]) ?_
  · simp [Expr.Bound, builtins]
  · simp [builderName, Expr.text, Expr.Bound]
  · intro inner inside
    have cls : "cls" ∈ inner := inside.params _ List.mem_cons_self
    exact List.forall_mem_singleton.mpr ⟨.inl cls, trivial, trivial⟩

theorem classConstants_bound : ∀ s ∈ classConstants r, s.Bound (.all names) := by
  unfold classConstants
  have attributes : (Stmt.bind "ATTRIBUTE_NAMES" (.dict ((renamedFields r).map fun f =>
      .mk (Expr.text f.identifier) (Expr.text f.storageName)))).Bound (.all names) :=
    ⟨trivial, Entry.allBound_iff.mpr (List.forall_mem_map.mpr fun f _ => ⟨trivial, trivial⟩)⟩
  refine List.forall_mem_append.mpr ⟨?_, List.forall_mem_singleton.mpr attributes⟩
  split
  · refine List.forall_mem_cons.mpr ⟨⟨trivial, trivial⟩, ?_⟩
    intro s member
    obtain ⟨key, -, rfl⟩ := Option.map_eq_some_iff.mp (Option.mem_toList.mp member)
    exact ⟨trivial, trivial⟩
  · simp

namespace RecordScope

variable (scope : RecordScope r names)
include scope

theorem importsOf_subset (member : f ∈ r.fields) : importsOf f.type ⊆ names :=
  List.Subset.trans (importsOf_subset_optionalImports f.type) (scope.hints f member)

theorem optionalHint_bound {env : Env} (seen : names ⊆ env.here) (member : f ∈ r.fields) :
    (optionalHint f.type).Bound env :=
  Access.optionalHint_bound (List.Subset.trans (scope.hints f member) seen)

theorem constructor_bound : (constructor enums r).value.Bound (.all names) := by
  rw [constructor_value]
  refine Stmt.function_bound ⟨by simp, ?_, by simp, Source.noResult_bound⟩ ?_ ?_
  · refine List.forall_mem_cons.mpr ⟨Param.plain_bound, List.forall_mem_map.mpr fun f member => ?_⟩
    exact Param.optional_bound (scope.optionalHint_bound (List.Subset.refl _) member)
  · unfold constructor.orPass
    split
    · simp [Stmt.globals]
    · simp [setBacking, Stmt.globals]
  · intro inner inside
    have self : "self" ∈ inner := inside.params _ List.mem_cons_self
    unfold constructor.orPass
    split
    · simp [Stmt.Bound]
    · refine List.forall_mem_map.mpr fun f member => setBacking_bound self f ?_
      have parameter : f.identifier ∈ inner :=
        inside.params _ (List.mem_cons_of_mem _ (List.mem_map_of_mem member))
      have outer : names ⊆ inner := inside.outer
      exact initialValue_bound parameter (List.Subset.trans (scope.importsOf_subset member) outer) r.name

/-- Reading and writing: the second half reads the name of the first as a decorator. -/
theorem property_bound (member : f ∈ r.fields) (earlier : List String) :
    Stmt.ClassBound names earlier (property r f) := by
  have seen : names ⊆ (Env.classBody names earlier).here := List.subset_append_right _ _
  have seenLater : names ⊆ (Env.classBody names (earlier ++ [f.identifier])).here := List.subset_append_right _ _
  refine ⟨?_, ?_, trivial⟩
  · refine Stmt.function_bound ⟨?_, ?_, by simp, ?_⟩ (by simp [Stmt.globals]) ?_
    · simp [Expr.Bound, builtins]
    · simp [Param.plain_bound]
    · simpa using scope.optionalHint_bound seen member
    · intro inner inside
      have self : "self" ∈ inner := inside.params _ List.mem_cons_self
      exact List.forall_mem_singleton.mpr (backingOf_bound self f)
  · refine Stmt.function_bound ⟨?_, ?_, by simp, Source.noResult_bound⟩ (by simp [setBacking, Stmt.globals]) ?_
    · simp [Expr.Bound, Env.classBody, Stmt.binds]
    · exact List.forall_mem_cons.mpr ⟨Param.plain_bound, List.forall_mem_singleton.mpr
        (Param.required_bound (scope.optionalHint_bound seenLater member))⟩
    · intro inner inside
      have self : "self" ∈ inner := inside.params _ List.mem_cons_self
      have value : "value" ∈ inner := inside.params _ (List.mem_cons_of_mem _ List.mem_cons_self)
      exact List.forall_mem_singleton.mpr (setBacking_bound self f (.inl value))

theorem toItem_bound : (toItem r).Bound (.all names) := by
  refine Stmt.function_bound ⟨by simp, by simp [Param.plain_bound], by simp, ?_⟩ ?_ ?_
  · simpa using itemType_bound scope.dict scope.any
  · simp [-List.mem_append, List.forall_mem_append, Stmt.globals, Stmt.put]
  · intro inner inside
    have outer : names ⊆ inner := inside.outer
    have self : "self" ∈ inner := inside.params _ List.mem_cons_self
    have item : "item" ∈ inner := inside.locals _ List.mem_cons_self List.mem_cons_self
    simp only [List.forall_mem_append, List.forall_mem_cons, List.forall_mem_map]
    refine ⟨⟨⟨itemType_bound (outer scope.dict) (outer scope.any), ?_⟩, ?_⟩, ?_⟩
    · simp [Expr.Bound]
    · intro f member
      refine ⟨storedTest_bound self f, ⟨⟨.inl item, trivial⟩, ?_⟩, trivial⟩
      exact toStorage_bound (List.Subset.trans (scope.importsOf_subset member) outer) (backingOf_bound self f)
    · simpa using .inl item

theorem fromItem_bound : (fromItem r).Bound (.all names) := by
  refine Stmt.function_bound ⟨?_, ?_, by simp, ?_⟩ ?_ ?_
  · simp [Expr.Bound, builtins]
  · exact List.forall_mem_cons.mpr ⟨Param.plain_bound, List.forall_mem_singleton.mpr
      (Param.required_bound (itemType_bound scope.dict scope.any))⟩
  · simp [Expr.text, Expr.Bound]
  · simp [-List.mem_append, List.forall_mem_append, Stmt.globals, Stmt.bind, setBacking]
  · intro inner inside
    have outer : names ⊆ inner := inside.outer
    have cls : "cls" ∈ inner := inside.params _ List.mem_cons_self
    have item : "item" ∈ inner := inside.params _ (List.mem_cons_of_mem _ List.mem_cons_self)
    have entity : "entity" ∈ inner := inside.locals _ List.mem_cons_self List.mem_cons_self
    simp only [List.forall_mem_append, List.forall_mem_cons, List.forall_mem_map]
    refine ⟨⟨⟨trivial, .inl cls, trivial, trivial⟩, ?_⟩, ?_⟩
    · intro f member
      refine ⟨⟨⟨.inl item, ⟨trivial, trivial⟩, trivial⟩, trivial⟩, ?_, trivial⟩
      exact setBacking_bound entity f (fromStorage_bound
        (List.Subset.trans (scope.importsOf_subset member) outer) ⟨.inl item, trivial⟩)
    · simpa using .inl entity

theorem equality_bound : (equality r).Bound (.all names) := by
  refine Stmt.function_bound ⟨by simp, ?_, by simp, ?_⟩ (by simp [Stmt.globals]) ?_
  · exact List.forall_mem_cons.mpr ⟨Param.plain_bound, List.forall_mem_singleton.mpr
      (Param.required_bound (.inr (by decide)))⟩
  · simp [Expr.Bound, builtins]
  · intro inner inside
    have self : "self" ∈ inner := inside.params _ List.mem_cons_self
    have other : "other" ∈ inner := inside.params _ (List.mem_cons_of_mem _ List.mem_cons_self)
    have itself : r.name ∈ inner := inside.outer scope.itself
    refine List.forall_mem_cons.mpr ⟨?_, List.forall_mem_singleton.mpr ?_⟩
    · exact ⟨⟨.inr (by decide), ⟨.inl other, .inl itself, trivial⟩, trivial⟩, .inr (by decide), trivial⟩
    · split
      · trivial
      · have compared : ∀ owner ∈ inner, (Expr.tuple (r.fields.map (backingOf owner))).Bound (.all inner) :=
          fun owner known => Expr.allBound_iff.mpr (List.forall_mem_map.mpr fun f _ => backingOf_bound known f)
        exact ⟨compared "self" self, compared "other" other⟩

theorem hash_bound : (hash r).Bound (.all names) := by
  refine Stmt.function_bound ⟨by simp, by simp [Param.plain_bound], by simp, ?_⟩ (by simp [Stmt.globals]) ?_
  · simp [Expr.Bound, builtins]
  · intro inner inside
    have self : "self" ∈ inner := inside.params _ List.mem_cons_self
    refine List.forall_mem_singleton.mpr ?_
    split
    · trivial
    · refine ⟨.inr (by decide), ⟨Expr.allBound_iff.mpr (List.forall_mem_map.mpr fun f member => ?_), trivial⟩, trivial⟩
      split
      · rename_i unhashed
        have hashable : "_hashable" ∈ inner := inside.outer (scope.hashable f member unhashed)
        exact ⟨.inl hashable, ⟨backingOf_bound self f, trivial⟩, trivial⟩
      · exact backingOf_bound self f

theorem builderClass_bound : (builderClass r).Bound (.all names) := by
  refine ⟨by simp, by simp, Stmt.classBound_of_forall ?_⟩
  simp only [List.forall_mem_append, List.forall_mem_cons, List.forall_mem_map]
  refine ⟨⟨?_, ?_⟩, ?_, by simp⟩
  -- the constructor
  · refine Stmt.function_bound ⟨by simp, by simp [Param.plain_bound], by simp, Source.noResult_bound⟩ ?_ ?_
    · split
      · simp [Stmt.globals]
      · simp [setBacking, Stmt.globals]
    · intro inner inside
      have self : "self" ∈ inner := inside.params _ List.mem_cons_self
      split
      · simp [Stmt.Bound]
      · exact List.forall_mem_map.mpr fun f _ => setBacking_bound self f trivial
  -- the methods that give the fields
  · intro f member
    refine Stmt.function_bound ⟨by simp, ?_, by simp, ?_⟩ (by simp [setBacking, Stmt.globals]) ?_
    · exact List.forall_mem_cons.mpr ⟨Param.plain_bound, List.forall_mem_singleton.mpr
        (Param.required_bound (scope.optionalHint_bound (List.Subset.refl _) member))⟩
    · simp [builderName, Expr.text, Expr.Bound]
    · intro inner inside
      have self : "self" ∈ inner := inside.params _ List.mem_cons_self
      have value : "value" ∈ inner := inside.params _ (List.mem_cons_of_mem _ List.mem_cons_self)
      exact List.forall_mem_cons.mpr ⟨setBacking_bound self f (.inl value),
        List.forall_mem_singleton.mpr (.inl self)⟩
  -- building, which reads the class of the record by its name
  · refine Stmt.function_bound ⟨by simp, by simp [Param.plain_bound], by simp, ?_⟩ (by simp [Stmt.globals]) ?_
    · simp [Expr.text, Expr.Bound]
    · intro inner inside
      have self : "self" ∈ inner := inside.params _ List.mem_cons_self
      have itself : r.name ∈ inner := inside.outer scope.itself
      refine List.forall_mem_singleton.mpr ⟨.inl itself, trivial, Keyword.allBound_iff.mpr ?_⟩
      exact List.forall_mem_map.mpr fun f _ => backingOf_bound self f

theorem properties_bound {fields : List ResolvedField} (some : fields ⊆ r.fields) (earlier : List String) :
    Stmt.ClassBound names earlier (fields.flatMap (property r)) := by
  induction fields generalizing earlier with
  | nil => trivial
  | cons f rest ih =>
    obtain ⟨here, there⟩ := List.cons_subset.mp some
    rw [List.flatMap_cons, Stmt.classBound_append]
    exact ⟨scope.property_bound here earlier, ih there _⟩

theorem recordClass_bound : (recordClass enums r).value.Bound (.all names) := by
  simp only [recordClass, Noted.value_bind, Noted.value_pure]
  refine ⟨by simp, by simp, ?_⟩
  rw [List.append_assoc, Stmt.classBound_append]
  refine ⟨Stmt.classBound_of_forall classConstants_bound, ?_⟩
  rw [List.cons_append, ← List.singleton_append, Stmt.classBound_append]
  refine ⟨Stmt.classBound_of_forall (List.forall_mem_singleton.mpr scope.constructor_bound), ?_⟩
  rw [Stmt.classBound_append]
  refine ⟨scope.properties_bound (List.Subset.refl _) _, Stmt.classBound_of_forall ?_⟩
  simp only [List.forall_mem_cons]
  exact ⟨builder_bound, scope.toItem_bound, scope.fromItem_bound, scope.equality_bound, scope.hash_bound,
    shown_bound, scope.builderClass_bound, by simp⟩

end RecordScope

/-! ## Modules -/

theorem hashableFunction_bound (any : "Any" ∈ names) (itself : "_hashable" ∈ names) :
    hashableFunction.Bound (.all names) := by
  refine Stmt.function_bound ⟨by simp, ?_, by simp, ?_⟩ (by simp [Stmt.globals]) ?_
  · exact List.forall_mem_singleton.mpr (Param.required_bound (.inl any))
  · simpa using .inl any
  · intro inner inside
    have recurse : "_hashable" ∈ inner := inside.outer itself
    have value : "value" ∈ inner := inside.params _ List.mem_cons_self
    simp [Stmt.Bound, Expr.apply, Expr.method, Expr.Bound, Env.all, Env.comprehension, builtins, recurse, value]

/-- The module of a record imports what the hints of its fields read. -/
theorem recordUsage_names (r : Record) (name : String) :
    name ∈ (recordUsage r).names ↔
      name = "Any" ∨ name = "Dict" ∨ ∃ f ∈ r.fields, name ∈ optionalImports f.type := by
  rw [recordUsage]
  refine (Usage.foldl_gains (name ∈ ·.names) (fun _ f => Usage.mem_names_addOptional f.type) r.fields _).trans ?_
  simp [Usage.ofTyping, Usage.mem_names, or_assoc]

/-- The generated types that the module of a record imports are those that its fields mention. -/
theorem recordUsage_types (r : Record) (name : String) :
    name ∈ (recordUsage r).types ↔ ∃ f ∈ r.fields, name ∈ f.type.recordNames ∨ name ∈ f.type.enumNames := by
  rw [recordUsage]
  refine (Usage.foldl_gains (name ∈ ·.types) (fun _ f => Usage.mem_types_addOptional f.type) r.fields _).trans ?_
  simp [Usage.ofTyping]

def recordImports (r : Record) : List Stmt :=
  (recordUsage r).standardImports ++ (recordUsage r).types.map fun t => .importFrom (nestedModule r t) [t]

/-- The helper of a record module for fields without hash. -/
def hashableHelper (r : Record) : List Stmt :=
  if r.fields.any fun f => needsHashable f.type then [hashableFunction] else []

theorem recordModule_body (enums : List EnumType) (r : Record) :
    (recordModule enums r).value.body =
      recordImports r ++ hashableHelper r ++ [(recordClass enums r).value] := rfl

/-- The top level of a record module binds what its members read. -/
theorem recordModule_scope (enums : List EnumType) (r : Record) :
    RecordScope r (recordModule enums r).value.topLevel := by
  have imported : ∀ {name}, name ∈ (recordUsage r).names → name ∈ (recordModule enums r).value.topLevel := by
    intro name member
    rw [Module.topLevel, recordModule_body, List.flatMap_append, List.flatMap_append]
    refine List.mem_append_left _ (List.mem_append_left _ ?_)
    rw [recordImports, List.flatMap_append, List.mem_append]
    exact (Usage.binds_imports _ _ _).mp member
  refine ⟨imported ((recordUsage_names r _).mpr (.inl rfl)), imported ((recordUsage_names r _).mpr (.inr (.inl rfl))),
    fun f member name needed => imported ((recordUsage_names r _).mpr (.inr (.inr ⟨f, member, needed⟩))), ?_, ?_⟩
  · intro f member unhashed
    have helper : hashableHelper r = [hashableFunction] := by
      rw [hashableHelper, if_pos (List.any_eq_true.mpr ⟨f, member, unhashed⟩)]
    rw [Module.topLevel, recordModule_body, helper, List.flatMap_append, List.flatMap_append]
    exact List.mem_append_left _ (List.mem_append_right _ List.mem_cons_self)
  · rw [Module.topLevel, recordModule_body, List.flatMap_append]
    exact List.mem_append_right _ List.mem_cons_self

/-- What a module supplies to the fields of a record: its top level binds what their hints, conversions and
defaults read, and the helper for values without hash. -/
structure RecordSupplied (enums : List EnumType) (r : Record) (m : Module) : Prop where
  hint : ∀ f ∈ r.fields, (optionalHint f.type).Bound m.env
  stored : ∀ f ∈ r.fields, ∀ value, value.Bound m.env → (toStorage 0 f.type value).Bound m.env
  read : ∀ f ∈ r.fields, ∀ value, value.Bound m.env → (fromStorage 0 f.type value).Bound m.env
  default : ∀ f ∈ r.fields, ∀ default ∈ default? enums f, default.Bound m.env
  hashable : ∀ f ∈ r.fields, needsHashable f.type → "_hashable" ∈ m.topLevel

theorem recordModule_supplied (enums : List EnumType) (r : Record) :
    RecordSupplied enums r (recordModule enums r).value := by
  have scope := recordModule_scope enums r
  exact ⟨fun f member => optionalHint_bound (scope.hints f member),
    fun f member value bound => toStorage_bound (scope.importsOf_subset member) bound,
    fun f member value bound => fromStorage_bound (scope.importsOf_subset member) bound,
    fun f member default given => default?_bound (scope.importsOf_subset member) given, scope.hashable⟩

/-- The module of a record binds every name that it reads. -/
theorem recordModule_namesBound (enums : List EnumType) (r : Record) :
    (recordModule enums r).value.NamesBound := by
  have scope := recordModule_scope enums r
  rw [Module.NamesBound, Stmt.allBound_iff, recordModule_body]
  simp only [List.forall_mem_append]
  refine ⟨⟨List.forall_mem_append.mpr ⟨(recordUsage r).standardImports_bound, (recordUsage r).typeImports_bound _⟩, ?_⟩,
    List.forall_mem_singleton.mpr scope.recordClass_bound⟩
  unfold hashableHelper
  split
  · rename_i some
    obtain ⟨f, member, unhashed⟩ := List.any_eq_true.mp some
    exact List.forall_mem_singleton.mpr (hashableFunction_bound scope.any (scope.hashable f member unhashed))
  · simp

/-- The module of an enum binds every name that it reads. -/
theorem enumModule_namesBound (e : EnumType) : (enumModule e).NamesBound := by
  rw [Module.NamesBound, Stmt.allBound_iff]
  refine List.forall_mem_cons.mpr ⟨trivial, List.forall_mem_singleton.mpr ⟨by simp, ?_, ?_⟩⟩
  · simp [Expr.Bound, builtins, Module.env, Env.all, Module.topLevel, enumModule, Stmt.binds]
  · exact Stmt.classBound_of_forall (List.forall_mem_map.mpr fun _ _ => ⟨trivial, trivial⟩)

end Tablewright.Access
