import Tablewright.Proofs.Access.RecordClass
import Tablewright.Proofs.Source.Equality

/-!
# Comparison of records

What the methods of a record class that compare and hash do, and the function that makes values hashable for them.

* `comparisonNames`, `Comparing`: a program with the classes of some records, whose names hide nothing that these read.
* `prepare`: the function that makes a value hashable, with an equation for each kind of value in `Prepares`.
* `Instance`: an instance of a record, with the values of its fields.
* `answer_equality_apart`, `answer_equality`, `hashOf_record`: the two methods.
-/

namespace Tablewright.Access

open Source (Expr Stmt Param Program Frame Function Datum Library Outcome Hashing View Comparison builtins bindings
  readName eval getAttribute alike allAlike hashOf gather examine examineAll conclude answer)

variable {L : Library} {p : Program} {H : Hashing L} {σ : Frame L} {enums : List EnumType} {r : Record}
  {records : List Record} {home : List Stmt} {v w : Datum L}

/-! ## Names -/

/-- The names that the methods and the function read, besides the class itself. -/
def comparisonNames : List String :=
  ["isinstance", "NotImplemented", "self", "other", "hash", "_hashable", "dict", "list", "tuple", "set", "frozenset"]

/-- Neither a record nor a type that its module imports has one of some names. -/
def LeavesFree (names : List String) (r : Record) : Prop := ∀ name ∈ names, name ∉ r.name :: (recordUsage r).types

instance (names : List String) (r : Record) : Decidable (LeavesFree names r) :=
  inferInstanceAs (Decidable (∀ name ∈ names, name ∉ r.name :: (recordUsage r).types))

/-- A program with the classes of some records.  No two of them share a name, neither they nor the types that they import
are called like something that comparing and hashing read, and the name of none starts with two underscores, which have a
meaning of their own in classes. -/
structure Comparing (p : Program) (records : List Record) : Prop where
  modules : ∀ r ∈ records, ∃ enums, p.module? r.name = some (recordModule enums r).value
  free : ∀ r ∈ records, LeavesFree comparisonNames r
  plain : ∀ r ∈ records, ¬ "__".toList <+: r.name.toList
  named : ∀ r ∈ records, ∀ other ∈ records, r.name = other.name → r = other

theorem LeavesFree.fewer {names others : List String} (free : LeavesFree names r) (fewer : others ⊆ names) :
    LeavesFree others r := fun name listed => free name (fewer listed)

theorem Comparing.eq_of_path (comparing : Comparing p records) (known : r ∈ records) {other : Record} (known' : other ∈ records)
    (same : [r.name] = [other.name]) : r = other := comparing.named r known other known' (List.cons.inj same).1

/-- The names are not bound in the module of a record that has no type of the name, the function that makes values
hashable apart. -/
theorem unbound_of_free {name : String} (free : name ∉ r.name :: (recordUsage r).types) (read : name ∈ comparisonNames)
    (other : name ≠ "_hashable") :
    bindings name (recordModule enums r).value.body = [] := by
  have apart : ∀ name ∈ comparisonNames, name ∉ ["datetime", "Decimal"] ∧ name ∉ typingNames := by decide
  obtain ⟨noImport, noGeneric⟩ := apart name read
  refine Source.bindings_eq_nil fun t inside binds => ?_
  cases recordModule_binds inside binds with
  | datetime => exact noImport (by simp)
  | decimal => exact noImport (by simp)
  | typing generic => exact noGeneric generic
  | type mentioned => exact free (List.mem_cons_of_mem _ mentioned)
  | hashable => exact other rfl
  | itself => exact free List.mem_cons_self

/-- In its module the name of a record stands for its class. -/
theorem readName_itself (home : σ.home = (recordModule enums r).value.body) (noLocal : σ.locals r.name = none) :
    readName p σ r.name = pure (.cls [r.name]) := by
  have last : (bindings r.name (recordModule enums r).value.body).getLast? = some (recordClass enums r).value := by
    rw [recordModule_body]
    exact Source.getLast?_bindings List.mem_cons_self (by simp)
  rw [readName, noLocal, home, last]
  rfl

/-! ## Making values hashable -/

/-- The members of a container, made hashable. -/
def hashableMembers (source : Expr) : Expr :=
  .comprehension .generator (Expr.apply "_hashable" [.name "item"]) "item" source

/-- The function that makes a value hashable. -/
def hashable : Function :=
  let isInstance (type : Expr) : Expr := Expr.apply "isinstance" [.name "value", type]
  ⟨⟨"_hashable", [], [Param.required "value" (.name "Any")], none, some (.name "Any")⟩,
    [.ifThen (isInstance (.name "dict"))
      [.result (Expr.apply "frozenset" [hashableMembers (Expr.method (.name "value") "items" [])])],
     .ifThen (isInstance (.tuple [.name "list", .name "tuple"]))
      [.result (Expr.apply "tuple" [hashableMembers (.name "value")])],
     .ifThen (isInstance (.tuple [.name "set", .name "frozenset"]))
      [.result (Expr.apply "frozenset" [hashableMembers (.name "value")])],
     .result (.name "value")]⟩

theorem hashableFunction_eq : hashableFunction = .function hashable.signature none hashable.body := rfl

theorem function?_hashable (noLocal : σ.locals "_hashable" = none)
    (last : (bindings "_hashable" σ.home).getLast? = some hashableFunction) : σ.function? "_hashable" = some hashable := by
  rw [Frame.function?, noLocal, last, hashableFunction_eq]

/-- A module whose function for hashable values finds itself and the builtins that it reads. -/
structure Prepares (home : List Stmt) : Prop where
  unbound : ∀ name ∈ ["isinstance", "dict", "list", "tuple", "set", "frozenset"], bindings name home = []
  itself : (bindings "_hashable" home).getLast? = some hashableFunction

/-- The function stands in the module of a record that needs it. -/
theorem getLast?_hashable (free : "_hashable" ∉ r.name :: (recordUsage r).types) {f : ResolvedField} (inRecord : f ∈ r.fields)
    (unhashed : needsHashable f.type) :
    (bindings "_hashable" (recordModule enums r).value.body).getLast? = some hashableFunction := by
  have helper : hashableHelper r = [hashableFunction] := by
    rw [hashableHelper, if_pos (List.any_eq_true.mpr ⟨f, inRecord, unhashed⟩)]
  rw [recordModule_body, helper, List.append_assoc, List.singleton_append]
  refine Source.getLast?_bindings (by simp [hashableFunction, Stmt.binds]) fun t last => ?_
  obtain rfl := List.mem_singleton.mp last
  simpa [recordClass_body, Stmt.binds] using List.ne_of_not_mem_cons free

theorem recordModule_prepares (free : LeavesFree comparisonNames r) {f : ResolvedField} (inRecord : f ∈ r.fields) (unhashed : needsHashable f.type) :
    Prepares (recordModule enums r).value.body where
  unbound name read := by
    have listed : ∀ name ∈ ["isinstance", "dict", "list", "tuple", "set", "frozenset"],
        name ∈ comparisonNames ∧ name ≠ "_hashable" := by decide
    exact unbound_of_free (free name (listed name read).1) (listed name read).1 (listed name read).2
  itself := getLast?_hashable (free _ (by decide)) inRecord unhashed

/-- What the function of a module makes of a value. -/
def prepare (p : Program) (H : Hashing L) (home : List Stmt) (v : Datum L) : Outcome L (Datum L) :=
  answer p H home hashable [v]

def preparing (home : List Stmt) (v : Datum L) : Frame L := ⟨home, fun id => [("value", v)].lookup id⟩

theorem examine_value : examine p H (preparing home v) (.name "value") = pure v :=
  (Source.examine_name _).trans (Source.readName_local rfl)

theorem readName_preparing {name : String} (unbound : bindings name home = [])
    (read : name ∈ ["isinstance", "dict", "list", "tuple", "set", "frozenset"]) :
    readName p (preparing home v) name = pure (.builtin name) := by
  have listed : ∀ name ∈ ["isinstance", "dict", "list", "tuple", "set", "frozenset"],
      name ∈ builtins ∧ name ≠ "value" := by decide
  refine Source.readName_unbound ?_ unbound (listed name read).1
  exact (Datum.lookup_cons_ite _ _ _ _).trans (if_neg (listed name read).2)

/-- The test whether the value is an instance of some class. -/
theorem examine_isInstance (unbound : bindings "isinstance" home = []) {kind : Expr} {d : Datum L} {is : Bool}
    (evaluates : examine p H (preparing home v) kind = pure d)
    (tests : Source.useBuiltin p H "isinstance" [v, d] = pure (.bool is)) :
    examine p H (preparing home v) (Expr.apply "isinstance" [.name "value", kind]) = pure (.bool is) := by
  rw [← tests]
  refine Source.examine_builtin (Source.function?_unbound unbound) (readName_preparing unbound (by decide)) ?_
  rw [Source.examineAll_cons, examine_value, pure_bind, Source.examineAll_cons, evaluates, pure_bind,
    Source.examineAll_nil, pure_bind, pure_bind]

theorem examine_isEither (unbound : ∀ name ∈ ["isinstance", "list", "tuple", "set", "frozenset"], bindings name home = [])
    {one other : String} (listed : one ∈ ["list", "tuple", "set", "frozenset"])
    (listed' : other ∈ ["list", "tuple", "set", "frozenset"]) :
    examine p H (preparing home v) (Expr.apply "isinstance" [.name "value", .tuple [.name one, .name other]]) =
      pure (.bool (v.view.container? == some one || v.view.container? == some other)) := by
  have read : ∀ name ∈ ["list", "tuple", "set", "frozenset"],
      name ∈ ["isinstance", "list", "tuple", "set", "frozenset"] ∧
        name ∈ ["isinstance", "dict", "list", "tuple", "set", "frozenset"] ∧
          name ∈ ["dict", "list", "tuple", "set", "frozenset"] := by decide
  have first := read one listed
  have second := read other listed'
  refine examine_isInstance (d := .tuple [.builtin one, .builtin other]) (unbound _ (by decide)) ?_ ?_
  · simp [readName_preparing (unbound one first.1) first.2.1, readName_preparing (unbound other second.1) second.2.1]
  · rw [Source.Program.useBuiltin]
    simp only [List.mapM_cons, List.mapM_nil, Program.isOf?, if_pos first.2.2, if_pos second.2.2]
    simp

/-- What the function returns, by the builtin class of a container. -/
def hashableForm (isDict : Bool) (container : Option String) : Expr :=
  if isDict then Expr.apply "frozenset" [hashableMembers (Expr.method (.name "value") "items" [])]
  else if container == some "list" || container == some "tuple" then Expr.apply "tuple" [hashableMembers (.name "value")]
  else if container == some "set" || container == some "frozenset" then
    Expr.apply "frozenset" [hashableMembers (.name "value")]
  else .name "value"

/-- The function tells containers apart; what counts as a mapping is up to what its name stands for. -/
theorem prepare_tested (unbound : ∀ name ∈ ["isinstance", "list", "tuple", "set", "frozenset"], bindings name home = [])
    {is : Bool} (isDict : examine p H (preparing home v) (Expr.apply "isinstance" [.name "value", .name "dict"]) =
      pure (.bool is)) :
    prepare p H home v = examine p H (preparing home v) (hashableForm is v.view.container?) := by
  have body : prepare p H home v = conclude p H (preparing home v) hashable.body :=
    Source.answer_given home (by decide) rfl rfl
  rw [body, hashable, hashableForm]
  dsimp only
  rw [Source.conclude_ifThen isDict, Datum.truth]
  cases is with
  | true => simp
  | false =>
    rw [if_neg Bool.false_ne_true, Source.conclude_ifThen (examine_isEither unbound (by decide) (by decide)), Datum.truth,
      if_neg Bool.false_ne_true]
    cases v.view.container? == some "list" || v.view.container? == some "tuple" with
    | true => simp
    | false =>
      rw [if_neg Bool.false_ne_true, Source.conclude_ifThen (examine_isEither unbound (by decide) (by decide)), Datum.truth,
        if_neg Bool.false_ne_true]
      cases v.view.container? == some "set" || v.view.container? == some "frozenset" with
      | true => simp
      | false => simp

namespace Prepares

variable (prepares : Prepares home)
include prepares

theorem examine_recurse {source : Expr} {d : Datum L} {members : List (Datum L)}
    (evaluates : examine p H (preparing home v) source = pure d) (iterates : d.iterate? = some members) :
    examine p H (preparing home v) (hashableMembers source) = (do
      let items ← members.mapM (prepare p H home)
      pure (.generator items)) := by
  rw [hashableMembers, Source.examine_generator evaluates iterates]
  have each : (fun member => examine p H ((preparing home v).put "item" member)
      (Expr.apply "_hashable" [.name "item"])) = prepare p H home := by
    funext member
    have known : ((preparing home v).put "item" member).function? "_hashable" = some hashable :=
      function?_hashable rfl prepares.itself
    have item : readName p ((preparing home v).put "item" member) "item" = pure member :=
      Source.readName_local (Frame.put_locals_self _ _ _)
    exact Source.examine_function known (by simp [item])
  rw [each]

/-- In such a module the function tells containers apart. -/
theorem prepare_eq : prepare p H home v =
    examine p H (preparing home v) (hashableForm (v.view.container? == some "dict") v.view.container?) := by
  have unbound : ∀ name ∈ ["isinstance", "list", "tuple", "set", "frozenset"], bindings name home = [] :=
    fun name read => prepares.unbound name ((by decide : ["isinstance", "list", "tuple", "set", "frozenset"] ⊆ _) read)
  refine prepare_tested unbound (examine_isInstance (d := .builtin "dict") (unbound _ (by decide)) ?_ ?_)
  · rw [Source.examine_name, readName_preparing (prepares.unbound _ (by decide)) (by decide)]
  · rw [Source.Program.useBuiltin]
    · simp [Program.isOf?]
    · simp

theorem examine_container {name : String} (read : name ∈ ["tuple", "frozenset"]) {source : Expr} {d : Datum L}
    {members items : List (Datum L)} (evaluates : examine p H (preparing home v) source = pure d)
    (iterates : d.iterate? = some members) (prepared : members.mapM (prepare p H home) = pure items) :
    examine p H (preparing home v) (Expr.apply name [hashableMembers source]) =
      Source.useBuiltin p H name [.generator items] := by
  have listed : ∀ name ∈ ["tuple", "frozenset"],
      name ∈ ["isinstance", "dict", "list", "tuple", "set", "frozenset"] := by decide
  have unbound := prepares.unbound name (listed name read)
  refine Source.examine_builtin (Source.function?_unbound unbound) (readName_preparing unbound (listed name read)) ?_
  simp [prepares.examine_recurse evaluates iterates, prepared]

/-- A sequence becomes a tuple. -/
theorem prepare_sequence {members items : List (Datum L)} (is : v.view = .list members ∨ v.view = .tuple members)
    (prepared : members.mapM (prepare p H home) = pure items) : prepare p H home v = pure (.tuple items) := by
  have container : v.view.container? = some "list" ∨ v.view.container? = some "tuple" :=
    is.imp (fun list => by rw [list]; rfl) (fun tuple => by rw [tuple]; rfl)
  have made := prepares.examine_container (by decide : "tuple" ∈ _) examine_value (Datum.iterate?_sequence is) prepared
  rw [prepares.prepare_eq, ← Source.useBuiltin_tuple, ← made]
  rcases container with list | tuple
  · rw [list]; rfl
  · rw [tuple]; rfl

/-- A set becomes a frozen set. -/
theorem prepare_set {frozen : Bool} {members items : List (Datum L)} (is : v.view = .set frozen members)
    (prepared : members.mapM (prepare p H home) = pure items) : prepare p H home v = (do
      let members ← gather p H [] items
      pure (.frozenset members)) := by
  have made := prepares.examine_container (by decide : "frozenset" ∈ _) examine_value (Datum.iterate?_set is) prepared
  rw [prepares.prepare_eq, ← Source.useBuiltin_frozenset, ← made, is]
  cases frozen <;> rfl

/-- A mapping becomes a frozen set of its entries. -/
theorem prepare_dict {entries : List (Datum L × Datum L)} {items : List (Datum L)} (is : v.view = .dict entries)
    (prepared : (entries.map fun e => .tuple [e.1, e.2]).mapM (prepare p H home) = pure items) :
    prepare p H home v = (do
      let members ← gather p H [] items
      pure (.frozenset members)) := by
  have shape := v.view_shape
  rw [is] at shape
  obtain rfl := shape
  have made := prepares.examine_container (by decide : "frozenset" ∈ _) (Source.examine_items examine_value) rfl prepared
  rw [prepares.prepare_eq, ← Source.useBuiltin_frozenset, ← made]
  rfl

/-- What is no container is hashable as it is. -/
theorem prepare_plain (plain : v.view.container? = none) : prepare p H home v = pure v := by
  rw [prepares.prepare_eq, plain]
  exact examine_value

end Prepares

/-! ## The methods of a record class -/

def equalityFunction (r : Record) : Function :=
  ⟨⟨"__eq__", [], [Param.plain "self", Param.required "other" (.name "object")], none, some (.name "bool")⟩,
    [.ifThen (.not (Expr.apply "isinstance" [.name "other", .name r.name])) [.result (.name "NotImplemented")],
     .result (if r.fields.isEmpty then Expr.bool true
       else .compare (.tuple (r.fields.map (backingOf "self"))) .eq (.tuple (r.fields.map (backingOf "other"))))]⟩

def hashedValue (f : ResolvedField) : Expr :=
  if needsHashable f.type then Expr.apply "_hashable" [backingOf "self" f] else backingOf "self" f

def hashFunction (r : Record) : Function :=
  ⟨⟨"__hash__", [], [Param.plain "self"], none, some (.name "int")⟩,
    [.result (if r.fields.isEmpty then .constant (.int 0) else Expr.apply "hash" [.tuple (r.fields.map hashedValue)])]⟩

theorem equality_suffix (enums : List EnumType) (r : Record) :
    equality r :: [hash r, shown r, builderClass r] <:+ (recordCls enums r).body :=
  (((List.suffix_cons _ _).trans (List.suffix_cons _ _)).trans (List.suffix_cons _ _)).trans
    ((List.suffix_append _ _).trans ((List.suffix_cons _ _).trans (List.suffix_append _ _)))

theorem member_equality (enums : List EnumType) (r : Record) :
    (recordCls enums r).member? "__eq__" = some (.method (equalityFunction r)) := by
  have binds : "__eq__" ∈ (equality r).binds := List.mem_cons_self
  obtain ⟨earlier, found⟩ := Source.ClassDef.member?_last (equality_suffix enums r) binds
    (by simp [Stmt.binds, plainMethod, hash, shown, builderClass])
  rw [found]
  rfl

theorem member_hash (enums : List EnumType) (r : Record) :
    (recordCls enums r).member? "__hash__" = some (.method (hashFunction r)) := by
  have binds : "__hash__" ∈ (hash r).binds := List.mem_cons_self
  obtain ⟨earlier, found⟩ := Source.ClassDef.member?_last ((List.suffix_cons _ _).trans (equality_suffix enums r)) binds
    (by simp [Stmt.binds, plainMethod, shown, builderClass])
  rw [found]
  rfl

section

variable (emitted : p.module? r.name = some (recordModule enums r).value)
include emitted

theorem methodOf?_record {name : String} {f : Function}
    (method : (recordCls enums r).member? name = some (.method f)) (is : v.view = .object [r.name]) :
    p.methodOf? v name = some ((recordModule enums r).value.body, f) := by
  have shape := v.view_shape
  rw [is] at shape
  obtain ⟨attributes, rfl⟩ := shape
  simp only [Program.methodOf?, class_recordCls emitted, Option.bind_eq_bind, Option.bind_some, method]
  rfl

theorem isOf?_record (known : v.view.kind ≠ .other) :
    p.isOf? v (.cls [r.name]) = some (decide (v.view.kind = .object [r.name])) := by
  have noEnum : (recordCls enums r).isEnum = false := rfl
  rw [Program.isOf?, class_recordCls emitted, Option.bind_some, noEnum, if_neg Bool.false_ne_true]
  cases is : v.view with
  | other => exact absurd (is ▸ rfl) known
  | object path => simp [View.isInstanceOf?, View.kind]
  | _ => rfl

end

/-- The scope in which a record is compared. -/
def comparingWith (home : List Stmt) (v w : Datum L) : Frame L :=
  ⟨home, fun id => [("self", v), ("other", w)].lookup id⟩

/-- The scope in which a record is hashed. -/
def hashing (home : List Stmt) (v : Datum L) : Frame L := ⟨home, fun id => [("self", v)].lookup id⟩

/-- The values of the fields of an instance. -/
structure Instance (p : Program) (r : Record) (v : Datum L) (values : ResolvedField → Datum L) : Prop where
  is : v.view = .object [r.name]
  reads : ∀ f ∈ r.fields, getAttribute p v (backing f.identifier) = pure (values f)

variable {values others : ResolvedField → Datum L}

/-- An object with the backing attributes of the fields is an instance with their values. -/
theorem Instance.of_attributes (emitted : p.module? r.name = some (recordModule enums r).value) (usable : Usable r)
    (other : r.name ≠ "frozenset") {attributes : List (String × Datum L)}
    (has : ∀ f ∈ r.fields, attributes.lookup (backing f.identifier) = some (values f)) :
    Instance p r (.object [r.name] attributes) values where
  is := Datum.view_object (by simpa using other) attributes
  reads f inRecord := by
    refine Source.getAttribute_plain (has f inRecord) fun c cls getter setter property => ?_
    obtain rfl : recordCls enums r = c := Option.some.inj ((class_recordCls emitted).symm.trans cls)
    rw [usable.member_backing inRecord] at property
    cases property

theorem Instance.examineAll (inst : Instance p r v values) {owner : String}
    (known : σ.locals owner = some v) :
    Source.examineAll p H σ (r.fields.map (backingOf owner)) = pure (r.fields.map values) := by
  refine Source.examineAll_map fun f inRecord => ?_
  rw [backingOf, Source.examine_attr, Source.eval_attr, Source.eval_name, Source.readName_local known, pure_bind,
    inst.reads f inRecord]

section

variable (emitted : p.module? r.name = some (recordModule enums r).value)
  (free : LeavesFree comparisonNames r)
include emitted free

theorem examine_isOther (known : w.view.kind ≠ .other) :
    examine p H (comparingWith (recordModule enums r).value.body v w)
      (.not (Expr.apply "isinstance" [.name "other", .name r.name])) =
        pure (.bool (decide (w.view.kind ≠ .object [r.name]))) := by
  have noLocal : ∀ name ∉ ["self", "other"],
      (comparingWith (recordModule enums r).value.body v w).locals name = none := by
    intro name other
    simp only [List.mem_cons, List.not_mem_nil, or_false, not_or] at other
    simp [comparingWith, Datum.lookup_cons_ite, other]
  have other : r.name ∉ ["self", "other"] := fun taken =>
    free r.name ((by decide : ["self", "other"] ⊆ comparisonNames) taken) List.mem_cons_self
  have itself : readName p (comparingWith (recordModule enums r).value.body v w) r.name = pure (.cls [r.name]) :=
    readName_itself rfl (noLocal r.name other)
  have unbound : bindings "isinstance" (recordModule enums r).value.body = [] :=
    unbound_of_free (free _ (by decide)) (by decide) (by decide)
  have arguments : Source.examineAll p H (comparingWith (recordModule enums r).value.body v w)
      [.name "other", .name r.name] = pure [w, .cls [r.name]] := by
    have other : readName p (comparingWith (recordModule enums r).value.body v w) "other" = pure w :=
      Source.readName_local rfl
    simp [other, itself]
  have tests : Source.useBuiltin p H "isinstance" [w, .cls [r.name]] =
      pure (.bool (decide (w.view.kind = .object [r.name]))) := by
    rw [Source.Program.useBuiltin]
    · rw [isOf?_record emitted known]
      rfl
    · simp
  rw [Source.examine_not, Source.examine_builtin (Source.function?_unbound unbound)
    (Source.readName_unbound (noLocal _ (by decide)) unbound (by decide)) arguments, tests, pure_bind]
  simp [Datum.truth]

/-- A record leaves it to data of other kinds whether they are equal to it. -/
theorem answer_equality_apart (known : w.view.kind ≠ .other) (apart : w.view.kind ≠ .object [r.name]) :
    answer p H (recordModule enums r).value.body (equalityFunction r) [v, w] = pure (.builtin "NotImplemented") := by
  have unbound : bindings "NotImplemented" (recordModule enums r).value.body = [] :=
    unbound_of_free (free _ (by decide)) (by decide) (by decide)
  rw [Source.answer_given _ rfl rfl rfl, equalityFunction]
  refine (Source.conclude_ifThen (examine_isOther emitted free known) _ _).trans ?_
  rw [Datum.truth, decide_eq_true apart, if_pos rfl, List.singleton_append, Source.conclude_result, Source.examine_name]
  exact Source.readName_unbound rfl unbound (by decide)

/-- Two instances are equal if their fields are. -/
theorem answer_equality (inst : Instance p r v values) (inst' : Instance p r w others) :
    answer p H (recordModule enums r).value.body (equalityFunction r) [v, w] = (do
      let equal ← allAlike p H (r.fields.map values) (r.fields.map others)
      pure (.bool equal)) := by
  have same : w.view.kind = .object [r.name] := by rw [inst'.is]; rfl
  rw [Source.answer_given _ rfl rfl rfl, equalityFunction]
  refine (Source.conclude_ifThen (examine_isOther emitted free (by rw [same]; exact nofun)) _ _).trans ?_
  rw [Datum.truth, decide_eq_false (not_not.mpr same), if_neg Bool.false_ne_true, Source.conclude_result]
  by_cases none : r.fields.isEmpty
  · obtain none := List.isEmpty_iff.mp none
    rw [none, List.isEmpty_nil, if_pos rfl, Expr.bool, Source.examine_constant, List.map_nil, List.map_nil,
      Source.Program.allAlike]
    rfl
  · rw [if_neg none]
    refine Source.examine_compare ?_ ?_
    · rw [Source.examine_tuple, inst.examineAll rfl, pure_bind]
    · rw [Source.examine_tuple, inst'.examineAll rfl, pure_bind]

end

/-- The hash of an instance is that of its fields, after they have been made hashable where that is needed. -/
theorem hashOf_record (emitted : p.module? r.name = some (recordModule enums r).value)
    (free : LeavesFree ["hash", "_hashable"] r) (inst : Instance p r v values) {prepared : ResolvedField → Datum L}
    (prepares : ∀ f ∈ r.fields, if needsHashable f.type
      then prepare p H (recordModule enums r).value.body (values f) = pure (prepared f) else prepared f = values f) :
    hashOf p H v = if r.fields.isEmpty then pure 0 else hashOf p H (.tuple (r.fields.map prepared)) := by
  have unbound : bindings "hash" (recordModule enums r).value.body = [] :=
    unbound_of_free (free _ (by decide)) (by decide) (by decide)
  -- the fields are hashed as they are, or after the helper has made them hashable
  have each : Source.examineAll p H (hashing (recordModule enums r).value.body v) (r.fields.map hashedValue) =
      pure (r.fields.map prepared) := by
    refine Source.examineAll_map fun f inRecord => ?_
    have self : readName p (hashing (recordModule enums r).value.body v) "self" = pure v := Source.readName_local rfl
    have read : examine p H (hashing (recordModule enums r).value.body v) (backingOf "self" f) = pure (values f) := by
      rw [backingOf, Source.examine_attr, Source.eval_attr, Source.eval_name, self, pure_bind, inst.reads f inRecord]
    have becomes := prepares f inRecord
    rw [hashedValue]
    by_cases unhashed : needsHashable f.type
    · rw [if_pos unhashed] at becomes ⊢
      have known : (hashing (recordModule enums r).value.body v).function? "_hashable" = some hashable :=
        function?_hashable rfl (getLast?_hashable (free _ (by decide)) inRecord unhashed)
      have argument : Source.examineAll p H (hashing (recordModule enums r).value.body v) [backingOf "self" f] =
          pure [values f] := by simp [read]
      exact (Source.examine_function known argument).trans becomes
    · rw [if_neg unhashed] at becomes ⊢
      rw [read, becomes]
  -- a record without fields has a hash that is written down
  have answers : answer p H (recordModule enums r).value.body (hashFunction r) [v] =
      if r.fields.isEmpty then pure (.int 0) else (do
        let hash ← hashOf p H (.tuple (r.fields.map prepared))
        pure (.int hash)) := by
    rw [Source.answer_given _ rfl rfl rfl, hashFunction]
    refine (Source.conclude_result _ _).trans ?_
    by_cases none : r.fields.isEmpty
    · rw [if_pos none, if_pos none, Source.examine_constant]
      rfl
    · rw [if_neg none, if_neg none]
      have argument : Source.examineAll p H (hashing (recordModule enums r).value.body v)
          [.tuple (r.fields.map hashedValue)] = pure [.tuple (r.fields.map prepared)] := by
        rw [Source.examineAll_cons, Source.examine_tuple, each, pure_bind, pure_bind, Source.examineAll_nil, pure_bind]
      exact (Source.examine_builtin (Source.function?_unbound unbound)
        (Source.readName_unbound rfl unbound (by decide)) argument).trans (Source.useBuiltin_hash _)
  rw [Source.hashOf_object inst.is (methodOf?_record emitted (member_hash enums r) inst.is), answers]
  by_cases none : r.fields.isEmpty
  · rw [if_pos none, if_pos none, pure_bind]
  · rw [if_neg none, if_neg none, bind_assoc]
    simp

end Tablewright.Access
