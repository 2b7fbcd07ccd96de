import Tablewright.Proofs.Access.Instances

/-!
# Initial values

The initial values that schemas give to fields, as the constructors of records evaluate them.  A constructor
evaluates them among its own parameters, so a parameter can stand in the way of a name; then the constructor
fails where it is given nothing, and only there it is certain to be seen.

* `Initial`: an initial value that every call of the constructor evaluates to the same, and that comes back.
* `default?_initial`: what the constructor evaluates when it is given nothing is such a value.
-/

namespace Tablewright.Access

open Source (Expr Stmt Param Program Frame Entry Datum Library Outcome eval evalAll evalEntries readName send getAttribute
  call runAll bindParams suppliedTo)

variable {L : Library} {p : Program} {σ : Frame L} {enums : List EnumType} {r : Record} {e : Entity} {v : Datum L}

/-! ## Document values -/

mutual

/-- A document value reads no names, so it does not depend on the scope. -/
theorem eval_ofValue (p : Program) (σ τ : Frame L) : (v : Value) → eval p σ (Expr.ofValue v) = eval p τ (Expr.ofValue v)
  | .dict entries => by rw [Expr.ofValue, Source.eval_dict, Source.eval_dict, evalEntries_ofEntries p σ τ entries]
  | .list items => by rw [Expr.ofValue, Source.eval_list, Source.eval_list, evalAll_ofValues p σ τ items]
  | .tuple items => by rw [Expr.ofValue, Source.eval_list, Source.eval_list, evalAll_ofValues p σ τ items]
  | .null | .bool _ | .int _ | .float _ | .text _ | .set _ | .bytes _ | .date _ | .moment _ => by
    rw [Expr.ofValue, Source.eval_constant, Source.eval_constant]
    all_goals exact fun _ same => nomatch same

theorem evalAll_ofValues (p : Program) (σ τ : Frame L) :
    (items : List Value) → evalAll p σ (Expr.ofValues items) = evalAll p τ (Expr.ofValues items)
  | [] => by rw [Expr.ofValues, Source.evalAll_nil, Source.evalAll_nil]
  | v :: rest => by
    rw [Expr.ofValues, Source.evalAll_cons, Source.evalAll_cons, eval_ofValue p σ τ v, evalAll_ofValues p σ τ rest]

theorem evalEntries_ofEntries (p : Program) (σ τ : Frame L) :
    (entries : List (Value × Value)) → evalEntries p σ (Expr.ofEntries entries) = evalEntries p τ (Expr.ofEntries entries)
  | [] => by rw [Expr.ofEntries, Source.evalEntries_nil, Source.evalEntries_nil]
  | (k, v) :: rest => by
    rw [Expr.ofEntries, Source.evalEntries_cons, Source.evalEntries_cons, eval_ofValue p σ τ k, eval_ofValue p σ τ v,
      evalEntries_ofEntries p σ τ rest]

end

theorem eval_ofValue_list {items : List Value} (evaluates : eval p σ (Expr.ofValue (.list items)) = pure v) :
    ∃ data, v = .list data := by
  rw [Expr.ofValue, Source.eval_list] at evaluates
  obtain ⟨data, -, same⟩ := Outcome.bind_eq_pure evaluates
  exact ⟨data, (Outcome.pure_inj same).symm⟩

/-- A constant other than `null` does not stand for `None`. -/
theorem ofValue?_present {value : Value} (present : value ≠ .null) (given : Datum.ofValue? value = some v) :
    v ≠ .none := by
  rintro rfl
  cases value with
  | null => exact present rfl
  | set items =>
    rw [Datum.ofValue?] at given
    obtain ⟨members, -, set⟩ := Option.bind_eq_some_iff.mp given
    simp [Datum.setOf?] at set
  | dict entries =>
    rw [Datum.ofValue?] at given
    obtain ⟨members, -, dict⟩ := Option.bind_eq_some_iff.mp given
    simp [Datum.dictOf?] at dict
  | _ => simp [Datum.ofValue?] at given

/-- A document value other than `null` does not stand for `None`. -/
theorem eval_ofValue_present {value : Value} (present : value ≠ .null)
    (evaluates : eval p σ (Expr.ofValue value) = pure v) : v ≠ .none := by
  have constant : eval p σ (.constant value) = pure v → v ≠ .none := by
    intro evaluates
    rw [Source.eval_constant] at evaluates
    cases given : Datum.ofValue? (L := L) value with
    | none =>
      rw [given] at evaluates
      cases evaluates
    | some w =>
      rw [given, Outcome.given_some] at evaluates
      exact Outcome.pure_inj evaluates ▸ ofValue?_present present given
  cases value with
  | dict entries =>
    rw [Expr.ofValue, Source.eval_dict] at evaluates
    obtain ⟨data, -, same⟩ := Outcome.bind_eq_pure evaluates
    rintro rfl
    simp only [Datum.dictOf?] at same
    split at same
    · cases Outcome.pure_inj same
    · cases same
  | list items =>
    obtain ⟨data, rfl⟩ := eval_ofValue_list evaluates
    simp
  | tuple items =>
    have same : Expr.ofValue (.tuple items) = Expr.ofValue (.list items) := by simp only [Expr.ofValue]
    obtain ⟨data, rfl⟩ := eval_ofValue_list (same ▸ evaluates)
    simp
  | _ => exact constant evaluates

theorem evalAll_texts (texts : List String) :
    evalAll p σ (Expr.ofValues (texts.map Value.text)) = pure (texts.map Datum.text) := by
  induction texts with
  | nil => rw [List.map_nil, Expr.ofValues, Source.evalAll_nil, List.map_nil]
  | cons s rest ih =>
    rw [List.map_cons, Expr.ofValues, Source.evalAll_cons, ih]
    simp [Expr.ofValue, Datum.ofValue?]

/-! ## Initial values of fields -/

/-- An initial value of a field that comes back, and that the constructor gives to the field whatever else it is
given. -/
structure Initial (p : Program) (enums : List EnumType) (r : Record) (type : TypeRef) (default : Expr) (v : Datum L) :
    Prop where
  present : v ≠ .none
  returns : Returns p type v v
  set : ∀ element, type = .set element → ∃ items, v = .set items
  same : ∀ given σ, Receives enums r given σ → eval p σ default = pure v

/-- A default that reads one name first: where the constructor is given nothing, the name is no parameter, since
no default can be made of `None`. -/
theorem same_of_name {default : Expr} {name : String} {k : Datum L → Outcome L (Datum L)} {w : Datum L}
    (shape : ∀ τ, eval p τ default = readName p τ name >>= k) (fails : ∃ exception, k .none = throw exception)
    (other : name ≠ "self") (means : readName p (.top (recordModule enums r).value.body) name = pure w)
    (blank : Receives enums r (fun _ => .none) σ) (evaluates : eval p σ default = pure v) :
    k w = pure v ∧ ∀ given τ, Receives enums r given τ → eval p τ default = pure v := by
  rw [shape] at evaluates
  obtain ⟨w', reads, made⟩ := Outcome.bind_eq_pure evaluates
  have present : w' ≠ .none := by
    rintro rfl
    obtain ⟨exception, fails⟩ := fails
    exact Outcome.throw_ne_pure exception v (fails.symm.trans made)
  have free := blank.notParameter reads present
  rw [blank.readName_top other free, means] at reads
  obtain rfl := Outcome.pure_inj reads
  refine ⟨made, fun given τ receives => ?_⟩
  rw [shape, receives.readName_top other free, means, pure_bind, made]

/-- The call of a function by name, as something that is done with the function. -/
theorem eval_apply_shape {name : String} {arg : Expr} {a : Datum L} (argument : ∀ τ : Frame L, eval p τ arg = pure a)
    (τ : Frame L) : eval p τ (Expr.apply name [arg]) = readName p τ name >>= fun f => call p f [a] [] := by
  simp [Expr.apply, argument]

theorem eval_method_shape {name method : String} {arg : Expr} {a : Datum L}
    (argument : ∀ τ : Frame L, eval p τ arg = pure a) (τ : Frame L) :
    eval p τ (Expr.method (.name name) method [arg]) = readName p τ name >>= fun d => send p d method [a] := by
  simp [Expr.method, send, argument]

theorem call_none (args : List (Datum L)) (named : List (String × Datum L)) :
    ∃ exception, call p (.none : Datum L) args named = throw exception := by
  refine ⟨.object ["TypeError"] [], ?_⟩
  rw [call]
  rfl

theorem getAttribute_none (name : String) : ∃ exception, getAttribute p (.none : Datum L) name = throw exception := by
  refine ⟨.object ["AttributeError"] [], ?_⟩
  rw [getAttribute]
  rfl

theorem send_none (method : String) (args : List (Datum L)) :
    ∃ exception, send p (.none : Datum L) method args = throw exception := by
  obtain ⟨exception, fails⟩ := getAttribute_none (p := p) (L := L) method
  refine ⟨exception, ?_⟩
  rw [send, fails]
  rfl

/-- What evaluates to the same in every scope is an initial value as soon as it comes back from an item. -/
theorem Initial.of_every {type : TypeRef} {default : Expr} (every : ∀ τ : Frame L, eval p τ default = pure v)
    (present : v ≠ .none) (noSet : ∀ element, type ≠ .set element) (returns : Returns p type v v) :
    Initial p enums r type default v :=
  ⟨present, returns, fun element same => absurd same (noSet element), fun _ τ _ => every τ⟩

theorem initial_text {text : String} (evaluates : eval p σ (Expr.text text) = pure v) :
    Initial p enums r (.scalar .string) (Expr.text text) v := by
  obtain rfl := Outcome.pure_inj ((Source.eval_text text).symm.trans evaluates)
  exact .of_every (fun τ => Source.eval_text text) (by simp) (by simp) (returns_self (by simp) (fun _ _ => rfl) fun _ _ => rfl)

theorem initial_truth {b : Bool} (evaluates : eval p σ (Expr.bool b) = pure v) :
    Initial p enums r (.scalar .boolean) (Expr.bool b) v := by
  obtain rfl := Outcome.pure_inj ((Source.eval_bool b).symm.trans evaluates)
  exact .of_every (fun τ => Source.eval_bool b) (by simp) (by simp) (returns_self (by simp) (fun _ _ => rfl) fun _ _ => rfl)

theorem initial_untyped {value : Value} (present : value ≠ .null) (evaluates : eval p σ (Expr.ofValue value) = pure v) :
    Initial p enums r .any (Expr.ofValue value) v := by
  have some := eval_ofValue_present present evaluates
  exact .of_every (fun τ => (eval_ofValue p τ σ value).trans evaluates) some (by simp)
    (returns_self some (fun _ _ => rfl) fun _ _ => rfl)

theorem initial_list {element : TypeRef} {items : List Value} (plain : needsConversion element = false)
    (whole : readsElementwise element = false) (evaluates : eval p σ (Expr.ofValue (.list items)) = pure v) :
    Initial p enums r (.list element) (Expr.ofValue (.list items)) v := by
  obtain ⟨data, rfl⟩ := eval_ofValue_list evaluates
  exact .of_every (fun τ => (eval_ofValue p τ σ _).trans evaluates) (by simp) (by simp) (returns_whole plain whole)

theorem initial_number (faithful : L.Faithful) {text : String}
    (reads : Reads p (.top (recordModule enums r).value.body : Frame L) (.scalar .number))
    (blank : Receives enums r (fun _ => .none) σ) (evaluates : eval p σ (Expr.apply "Decimal" [Expr.text text]) = pure v) :
    Initial p enums r (.scalar .number) (Expr.apply "Decimal" [Expr.text text]) v := by
  obtain ⟨made, same⟩ := same_of_name (eval_apply_shape fun τ => Source.eval_text text) (call_none _ _)
    (by decide) (reads.decimal List.mem_cons_self) blank evaluates
  rw [Source.call_imported, Source.callImported] at made
  obtain ⟨d, -, made⟩ := Outcome.bind_eq_pure made
  obtain rfl := Outcome.pure_inj made
  exact ⟨by simp, returns_number faithful d, by simp, same⟩

theorem initial_timestamp (faithful : L.Faithful) {text : String}
    (reads : Reads p (.top (recordModule enums r).value.body : Frame L) (.scalar .timestamp))
    (blank : Receives enums r (fun _ => .none) σ)
    (evaluates : eval p σ (Expr.method (.name "datetime") "fromisoformat" [Expr.text text]) = pure v) :
    Initial p enums r (.scalar .timestamp) (Expr.method (.name "datetime") "fromisoformat" [Expr.text text]) v := by
  obtain ⟨made, same⟩ := same_of_name (eval_method_shape fun τ => Source.eval_text text) (send_none _ _)
    (by decide) (reads.datetime List.mem_cons_self) blank evaluates
  rw [Source.send_method (by simp [Datum.methods]), Source.callMethod] at made
  obtain ⟨t, -, made⟩ := Outcome.bind_eq_pure made
  obtain rfl := Outcome.pure_inj made
  exact ⟨by simp, returns_timestamp faithful t, by simp, same⟩

theorem initial_set (faithful : L.Faithful) {texts : List String}
    (reads : Reads p (.top (recordModule enums r).value.body : Frame L) (.set .string))
    (blank : Receives enums r (fun _ => .none) σ)
    (evaluates : eval p σ (Expr.apply "set" [Expr.ofValue (.list (texts.map .text))]) = pure v) :
    Initial p enums r (.set .string) (Expr.apply "set" [Expr.ofValue (.list (texts.map .text))]) v := by
  let items : List (Datum L) := texts.map .text
  have argument : ∀ τ : Frame L, eval p τ (Expr.ofValue (.list (texts.map .text))) = pure (.list items) := by
    intro τ
    rw [Expr.ofValue, Source.eval_list, evalAll_texts, pure_bind]
  obtain ⟨made, same⟩ := same_of_name (eval_apply_shape argument) (call_none _ _) (by decide) reads.set blank evaluates
  have areTexts : ∀ v ∈ items, v.isScalar := by simp [items, Datum.isScalar]
  have spec := Datum.distinct_spec items
  simp only [Source.call_builtin, Source.callBuiltin, Source.membersOf, Datum.members?, Outcome.given_some, pure_bind,
    Datum.setOf?, if_pos (List.all_eq_true.mpr areTexts)] at made
  obtain rfl := Outcome.pure_inj made
  have members : SetMembers .string (Datum.distinct items) :=
    ⟨fun v member => areTexts v (spec.1 v member), spec.2, by simp⟩
  exact ⟨by simp, returns_set faithful members, fun _ _ => ⟨_, rfl⟩, same⟩

/-- What is spelled out is an initial value, if the constructor evaluates it when it is given nothing. -/
theorem SpelledOut.initial (faithful : L.Faithful) {type : TypeRef} {value : Value} (present : value ≠ .null)
    {default : Expr} (spelled : SpelledOut type value default)
    (reads : Reads p (.top (recordModule enums r).value.body : Frame L) type)
    (blank : Receives enums r (fun _ => .none) σ) (evaluates : eval p σ default = pure v) :
    Initial p enums r type default v := by
  cases spelled with
  | text => exact initial_text evaluates
  | number => exact initial_number faithful reads blank evaluates
  | truth => exact initial_truth evaluates
  | time => exact initial_timestamp faithful reads blank evaluates
  | untyped => exact initial_untyped present evaluates
  | list plain => rcases plain with rfl | rfl | rfl <;> exact initial_list rfl rfl evaluates
  | @set _ items =>
    have texts : (items.map fun item => Value.text item.display) = (items.map Value.display).map .text := by simp
    rw [texts] at evaluates ⊢
    exact initial_set faithful reads blank evaluates

section

variable {s : Schema} (describes : Describes s e) (loads : Loads p e) (member : r ∈ e.record :: e.nested)
  (faithful : L.Faithful)
include describes loads member faithful

/-- What the constructor of a record makes of the initial value of a field when it is given nothing. -/
theorem default?_initial {f : ResolvedField} (inRecord : f ∈ r.fields) (present : f.field.default ≠ .null)
    {default : Expr} (given : default? e.enums f = some default) (blank : Receives e.enums r (fun _ => .none) σ)
    (evaluates : eval p σ default = pure v) : Initial p e.enums r f.type default v := by
  have reads : Reads p (.top (recordModule e.enums r).value.body : Frame L) f.type :=
    loads.reads describes member rfl (fun _ _ => rfl) inRecord
  rcases default?_cases given with ⟨t, isKnown, constant, isEnum, -, rfl⟩ | spelled
  · have known : t.name ∈ e.enums.map (·.name) := List.mem_map_of_mem isKnown
    have other : t.name ≠ "self" := fun same => loads.free "self" (List.mem_append_right _ (same ▸ known)) (by decide)
    rw [isEnum] at reads ⊢
    obtain ⟨made, same⟩ := same_of_name (fun τ => by rw [Source.eval_attr, Source.eval_name])
      (getAttribute_none constant) other (reads.types t.name (by simp [TypeRef.recordNames, TypeRef.enumNames])) blank
      evaluates
    obtain ⟨some, s, value, back⟩ := loads.constant_comesBack known made
    exact ⟨some, ⟨.text s, by simp, stores_enum value, restores_enum back⟩, by simp, same⟩
  · exact spelled.initial faithful present reads blank evaluates

end

/-! ## Constructors -/

/-- The initial value of a field as an expression, where the schema gives one that can be expressed. -/
def defaultOf (enums : List EnumType) (f : ResolvedField) : Option Expr :=
  if f.field.hasDefault then default? enums f else none

theorem defaultOf_some {f : ResolvedField} {default : Expr} (found : defaultOf enums f = some default) :
    f.field.default ≠ .null ∧ default? enums f = some default := by
  rw [defaultOf, Option.ite_none_right_eq_some] at found
  refine ⟨fun null => ?_, found.2⟩
  rw [Declaration.hasDefault, null] at found
  exact absurd found.1 Bool.false_ne_true

theorem initialValue_value (enums : List EnumType) (name : String) (f : ResolvedField) :
    (initialValue enums name f).value = match defaultOf enums f with
      | some default => .conditional (.name f.identifier) (Expr.isNotNone (.name f.identifier)) default
      | none => .name f.identifier := by
  unfold initialValue defaultOf
  split
  · cases default? enums f <;> rfl
  · rfl

/-- The values that a new instance of a record starts with. -/
def Starts (p : Program) (enums : List EnumType) (r : Record) (start : ResolvedField → Datum L) : Prop :=
  ∀ f ∈ r.fields, defaultOf enums f = none ∧ start f = .none ∨
    ∃ default, defaultOf enums f = some default ∧ Initial p enums r f.type default (start f)

theorem Starts.unset {start : ResolvedField → Datum L} (starts : Starts p enums r start) {f : ResolvedField}
    (inRecord : f ∈ r.fields) (noDefault : f.field.hasDefault = false) : start f = .none := by
  rcases starts f inRecord with ⟨-, nothing⟩ | ⟨default, some, -⟩
  · exact nothing
  · rw [defaultOf, noDefault] at some
    cases some

/-- What a field holds after the constructor was given some value for it. -/
def initially (start given : ResolvedField → Datum L) (f : ResolvedField) : Datum L :=
  if (given f).isNone then start f else given f

/-- The value of a parameter, or what the field starts with. -/
theorem Starts.eval_initialValue {start given : ResolvedField → Datum L} (starts : Starts p enums r start)
    (receives : Receives enums r given σ) {f : ResolvedField} (inRecord : f ∈ r.fields) (name : String) :
    eval p σ (initialValue enums name f).value = pure (initially start given f) := by
  have parameter : readName p σ f.identifier = pure (given f) := Source.readName_local (receives.fields f inRecord)
  rw [initialValue_value]
  rcases starts f inRecord with ⟨noDefault, nothing⟩ | ⟨default, some, initial⟩
  · rw [noDefault, Source.eval_name, parameter, initially, nothing]
    cases given f <;> rfl
  · rw [some]
    simp only [Source.eval_conditional, Source.eval_isNotNone, Source.eval_name, parameter, pure_bind, Datum.truth]
    cases absent : (given f).isNone with
    | true => simp [initially, absent, initial.same given σ receives]
    | false => simp [initially, absent]

/-- The scope of the constructor of a record that is called with some arguments. -/
def constructorScope (enums : List EnumType) (r : Record) (args : List (Datum L)) (named : List (String × Datum L)) :
    Frame L :=
  ⟨(recordModule enums r).value.body, fun id => (supplied named r.fields args).lookup id⟩

/-- The values that a call gives to fields, `None` where it gives none. -/
def givenBy (r : Record) (args : List (Datum L)) (named : List (String × Datum L)) (f : ResolvedField) : Datum L :=
  ((supplied named r.fields args).lookup f.identifier).getD .none

/-- The setters of a constructor only run to their end where every value can be evaluated. -/
theorem setters_return {fields : List ResolvedField} {value : ResolvedField → Expr} {σ τ : Frame L}
    (ran : runAll p σ (fields.map fun f => setBacking "self" f (value f)) = pure (.next τ))
    {scope : Frame L → Prop} (here : scope σ) (kept : ∀ σ d, scope σ → scope (σ.put "self" d)) :
    ∀ f ∈ fields, ∃ σ v, scope σ ∧ eval p σ (value f) = pure v := by
  induction fields generalizing σ with
  | nil => simp
  | cons f rest ih =>
    rw [List.map_cons, Source.runAll_cons, setBacking, Source.run_assign, bind_assoc] at ran
    obtain ⟨v, evaluates, ran⟩ := Outcome.bind_eq_pure ran
    obtain ⟨flow, assigned, ran⟩ := Outcome.bind_eq_pure ran
    intro g member
    rcases List.mem_cons.mp member with rfl | member
    · exact ⟨σ, v, here, evaluates⟩
    · -- the assignment changes the receiver and no other local
      rw [backingOf, Source.assign] at assigned
      obtain ⟨receiver, -, assigned⟩ := Outcome.bind_eq_pure assigned
      obtain ⟨changed, -, assigned⟩ := Outcome.bind_eq_pure assigned
      obtain rfl := Outcome.pure_inj assigned
      exact ih ran (kept σ changed here) g member

section

variable (usable : Usable r) {args : List (Datum L)} {named : List (String × Datum L)}
include usable

theorem Usable.constructorScope_receives (enums : List EnumType) (args : List (Datum L)) (named : List (String × Datum L)) :
    Receives enums r (givenBy r args named) (constructorScope enums r args named) := by
  refine ⟨rfl, fun f inRecord => ?_, fun name _ noParameter => supplied_lookup_none noParameter⟩
  obtain ⟨v, found, -⟩ := @supplied_lookup L named r.fields args usable.identifiers f inRecord
  simp [constructorScope, givenBy, found]

/-- What a call gives to a field stands among its arguments. -/
theorem Usable.givenBy_spec {f : ResolvedField} (inRecord : f ∈ r.fields) :
    givenBy r args named f = .none ∨ (f, givenBy r args named f) ∈ r.fields.zip args ∨
      (f.identifier, givenBy r args named f) ∈ named := by
  obtain ⟨v, found, place⟩ := @supplied_lookup L named r.fields args usable.identifiers f inRecord
  simpa [givenBy, found] using place

/-- A call without arguments gives nothing to any field. -/
theorem Usable.givenBy_nil {f : ResolvedField} (inRecord : f ∈ r.fields) :
    givenBy r [] [] f = (.none : Datum L) := by
  simpa using @Usable.givenBy_spec L r usable [] [] f inRecord

variable (loads : Loads p e) (member : r ∈ e.record :: e.nested)
include loads member

/-- A call of the class of a record runs the body of its constructor, if it fits the parameters. -/
theorem call_record : call p (.cls [r.name]) args named =
    if (initFunction e.enums r).signature.accepts (.object [r.name] [] :: args) named then (do
      match ← runAll p ((constructorScope e.enums r args named).put "self" (.object [r.name] []))
        (r.fields.map fun f => setBacking "self" f (initialValue e.enums r.name f).value) with
      | .next σ => .given (σ.locals "self")
      | .result _ => .stuck)
    else .raised "TypeError" := by
  have names : (initFunction e.enums r).signature.params.map (·.name) = "self" :: r.fields.map (·.identifier) := by
    simp [initFunction, Function.comp_def, Param.plain, Param.optional]
  have wellFormed : (initFunction e.enums r).signature.wellFormed := by
    have distinct : ("self" :: r.fields.map (·.identifier)).Nodup :=
      List.nodup_cons.mpr ⟨usable.notMem_identifiers (by decide), usable.identifiers⟩
    rw [Source.Signature.wellFormed, names]
    simpa [initFunction] using distinct
  rw [Source.call_class (loads.class_record member) rfl rfl usable.member_init, Source.update, Source.enter,
    if_pos wellFormed]
  split
  · rw [initFunction, suppliedTo, bindParams, bindParams_optional, pure_bind, pure_bind, pure_bind, runAll_orPass]
    simp only [Source.Signature.spread, Option.toList_none, List.map_nil, List.append_nil, Frame.scope_cons]
    rfl
  · rfl

variable {x : Datum L} (called : call p (.cls [r.name]) args named = pure x)

include called in
/-- A call of the class of a record runs the body of its constructor. -/
theorem call_runs : ∃ σ', runAll p ((constructorScope e.enums r args named).put "self" (.object [r.name] []))
      (r.fields.map fun f => setBacking "self" f (initialValue e.enums r.name f).value) = pure (.next σ') := by
  rw [call_record usable loads member] at called
  split at called
  · obtain ⟨flow, ran, ends⟩ := Outcome.bind_eq_pure called
    cases flow with
    | next σ' => exact ⟨σ', ran⟩
    | result value => cases ends
  · exact absurd called (Outcome.throw_ne_pure _ _)

variable {start : ResolvedField → Datum L} (starts : Starts p e.enums r start)
include starts

/-- A call that fits the parameters makes a new instance, whose fields hold what they are given, or else what they
start with. -/
theorem Starts.call_returns (accepts : (initFunction e.enums r).signature.accepts (.object [r.name] [] :: args) named) :
    ∃ x, call p (.cls [r.name]) args named = pure x ∧ Holds [r.name] r (initially start (givenBy r args named)) x := by
  have receives := usable.constructorScope_receives e.enums args named
  obtain ⟨x, set, holds⟩ := (loads.backs member usable).run_setters usable.backings fun f inRecord d =>
    starts.eval_initialValue (p := p) (receives.put_self usable d) inRecord r.name
  refine ⟨x, ?_, holds⟩
  rw [call_record usable loads member, if_pos accepts, set, pure_bind]
  simp

include called in
/-- The fields of a new instance hold what they are given, or else what they start with. -/
theorem Starts.call_holds : Holds [r.name] r (initially start (givenBy r args named)) x := by
  have accepts : (initFunction e.enums r).signature.accepts (.object [r.name] [] :: args) named := by
    by_contra refused
    rw [call_record usable loads member, if_neg refused] at called
    exact Outcome.throw_ne_pure _ _ called
  obtain ⟨y, made, holds⟩ := starts.call_returns usable loads member accepts
  exact Outcome.pure_inj (called.symm.trans made) ▸ holds

end

section

variable {s : Schema} (describes : Describes s e) (loads : Loads p e) (member : r ∈ e.record :: e.nested)
  (usable : Usable r) (faithful : L.Faithful)
include describes loads member usable faithful

/-- What the fields of a record start with, where its class can be called with nothing. -/
theorem exists_starts {x : Datum L} (blank : call p (.cls [r.name]) [] [] = pure x) :
    ∃ start, Starts p e.enums r start ∧ Holds [r.name] r start x := by
  obtain ⟨σ', ran⟩ := call_runs usable loads member blank
  have receives : Receives e.enums r (fun _ => .none) (constructorScope e.enums r ([] : List (Datum L)) []) :=
    (usable.constructorScope_receives e.enums [] []).congr fun f inRecord => usable.givenBy_nil inRecord
  have evaluated := setters_return ran (receives.put_self usable _) fun σ d receives => receives.put_self usable d
  have each : ∀ f, ∃ v : Datum L, f ∈ r.fields → defaultOf e.enums f = none ∧ v = .none ∨
      ∃ default, defaultOf e.enums f = some default ∧ Initial p e.enums r f.type default v := by
    intro f
    by_cases inRecord : f ∈ r.fields
    · cases found : defaultOf e.enums f with
      | none => exact ⟨.none, fun _ => .inl ⟨rfl, rfl⟩⟩
      | some default =>
        obtain ⟨σ, v, receives, evaluates⟩ := evaluated f inRecord
        rw [initialValue_value, found] at evaluates
        simp only [Source.eval_conditional, Source.eval_isNotNone, Source.eval_name,
          Source.readName_local (receives.fields f inRecord), pure_bind, Datum.truth, Datum.isNone] at evaluates
        obtain ⟨present, some⟩ := defaultOf_some found
        exact ⟨v, fun _ => .inr ⟨default, rfl, default?_initial describes loads member faithful inRecord present some
          receives evaluates⟩⟩
    · exact ⟨.none, fun inside => absurd inside inRecord⟩
  choose start starts using each
  have starts : Starts p e.enums r start := starts
  have holds := starts.call_holds usable loads member blank
  exact ⟨start, starts, holds.congr fun f inRecord => by simp [initially, usable.givenBy_nil inRecord, Datum.isNone]⟩

end

end Tablewright.Access
