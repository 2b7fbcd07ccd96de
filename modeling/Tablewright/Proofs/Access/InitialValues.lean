import Tablewright.Proofs.Access.Capture
import Tablewright.Proofs.Access.Items
import Tablewright.Proofs.Name.Constant
import Tablewright.Proofs.Schema.Identifiers
import Tablewright.Proofs.Schema.Nesting

/-!
# Initial values that fit

The constructor of a record evaluates the initial value of a field whenever it is not given a value for the field.  An
initial value that is left out is noticed.  One that is spelled out need not be a value of the type of the field: a text
is handed to the conversions of the type without being read before, the members of a list are taken as they are, and a
parameter can capture the name that the value reads.

* `Value.listed`, `eval_listed`: what source makes of a document value.
* `spelled`, `Spells.evaluates`: what an initial value evaluates to where its names mean what they are written for.
* `Fits`: the initial values that stand for a value of a type.
* `initialValues_suit`: which fields are initialized, and what is noticed of the others.
-/

namespace Tablewright

namespace Value

mutual

/-- A document value with lists for its tuples, which is how source spells it. -/
def listed : Value → Value
  | .dict entries => .dict (listedEntries entries)
  | .list items => .list (listedAll items)
  | .tuple items => .list (listedAll items)
  | v => v

def listedAll : List Value → List Value
  | [] => []
  | v :: rest => listed v :: listedAll rest

def listedEntries : List (Value × Value) → List (Value × Value)
  | [] => []
  | (k, v) :: rest => (listed k, listed v) :: listedEntries rest

end

end Value

namespace Access

open Source (Expr Stmt Program Frame Datum Library Outcome eval evalAll evalEntries readName send getAttribute call)

variable {L : Library} {p : Program} {σ : Frame L} {enums : List EnumType} {r : Record} {e : Entity} {f : ResolvedField}
  {type : TypeRef} {value : Value} {default : Expr}

/-! ## Document values -/

mutual

theorem eval_listed (p : Program) (σ : Frame L) :
    (v : Value) → eval p σ (Expr.ofValue v) = .given (Datum.ofValue? v.listed)
  | .dict entries => by
    rw [Expr.ofValue, Source.eval_dict, evalEntries_listed p σ entries, Value.listed, Datum.ofValue?]
    cases (Datum.ofEntries? (Value.listedEntries entries) : Option (List (Datum L × Datum L))) <;> rfl
  | .list items => by
    rw [Expr.ofValue, Source.eval_list, evalAll_listed p σ items, Value.listed, Datum.ofValue?]
    cases (Datum.ofValues? (Value.listedAll items) : Option (List (Datum L))) <;> rfl
  | .tuple items => by
    rw [Expr.ofValue, Source.eval_list, evalAll_listed p σ items, Value.listed, Datum.ofValue?]
    cases (Datum.ofValues? (Value.listedAll items) : Option (List (Datum L))) <;> rfl
  | .null | .bool _ | .int _ | .float _ | .text _ | .set _ | .bytes _ | .date _ | .moment _ => by
    rw [Expr.ofValue, Source.eval_constant, Value.listed]
    all_goals exact fun _ same => nomatch same

theorem evalAll_listed (p : Program) (σ : Frame L) :
    (items : List Value) → evalAll p σ (Expr.ofValues items) = .given (Datum.ofValues? (Value.listedAll items))
  | [] => by rw [Expr.ofValues, Source.evalAll_nil, Value.listedAll, Datum.ofValues?, Outcome.given_some]
  | v :: rest => by
    rw [Expr.ofValues, Source.evalAll_cons, eval_listed p σ v, evalAll_listed p σ rest, Value.listedAll, Datum.ofValues?]
    cases (Datum.ofValue? v.listed : Option (Datum L)) with
    | none => rfl
    | some d => cases (Datum.ofValues? (Value.listedAll rest) : Option (List (Datum L))) <;> rfl

theorem evalEntries_listed (p : Program) (σ : Frame L) : (entries : List (Value × Value)) →
    evalEntries p σ (Expr.ofEntries entries) = .given (Datum.ofEntries? (Value.listedEntries entries))
  | [] => by rw [Expr.ofEntries, Source.evalEntries_nil, Value.listedEntries, Datum.ofEntries?, Outcome.given_some]
  | (k, v) :: rest => by
    rw [Expr.ofEntries, Source.evalEntries_cons, eval_listed p σ k, eval_listed p σ v, evalEntries_listed p σ rest,
      Value.listedEntries, Datum.ofEntries?]
    cases (Datum.ofValue? k.listed : Option (Datum L)) with
    | none => rfl
    | some key =>
      cases (Datum.ofValue? v.listed : Option (Datum L)) with
      | none => rfl
      | some d => cases (Datum.ofEntries? (Value.listedEntries rest) : Option (List (Datum L × Datum L))) <;> rfl

end

/-! ## What initial values evaluate to -/

/-- The texts of the members of a sequence, as data. -/
def textData (items : List Value) : List (Datum L) := items.map fun item => .text item.display

/-- What the initial value of a type that is no enum evaluates to, where its names mean what they are written for. -/
def spelled (L : Library) : TypeRef → Value → Outcome L (Datum L)
  | .scalar .string, v => pure (.text v.display)
  | .scalar .number, v => .orRaise "InvalidOperation" ((L.decimal? v.display).map .decimal)
  | .scalar .boolean, v => .given ((truth? v).map .bool)
  | .scalar .timestamp, v => .orRaise "ValueError" ((L.time? v.display).map .time)
  | .set _, v => .given ((sequence? v).map fun items => .set (Datum.distinct (textData items)))
  | .list _, v | .any, v => .given (Datum.ofValue? v.listed)
  | _, _ => .stuck

/-- The names that the initial value of a type reads, with what they are written for. -/
def defaultReads : TypeRef → List (String × Datum L)
  | .scalar .number => [("Decimal", .imported "Decimal")]
  | .scalar .timestamp => [("datetime", .imported "datetime")]
  | .set _ => [("set", .builtin "set")]
  | .enum name => [(name, .cls [name])]
  | _ => []

theorem defaultReads_names (type : TypeRef) : (defaultReads (L := L) type).map (·.1) = defaultNames type := by
  cases type with
  | scalar kind => cases kind <;> rfl
  | _ => rfl

/-- The names that an initial value reads mean what they are written for. -/
def Spells (p : Program) (σ : Frame L) (type : TypeRef) : Prop :=
  ∀ name meaning, (name, meaning) ∈ defaultReads type → readName p σ name = pure meaning

theorem Reads.spells (reads : Reads p σ type) : Spells p σ type := by
  intro name meaning member
  cases type with
  | scalar kind =>
    cases kind with
    | number =>
      obtain ⟨rfl, rfl⟩ := Prod.mk.inj (List.mem_singleton.mp member)
      exact reads.decimal List.mem_cons_self
    | timestamp =>
      obtain ⟨rfl, rfl⟩ := Prod.mk.inj (List.mem_singleton.mp member)
      exact reads.datetime List.mem_cons_self
    | _ => cases member
  | set element =>
    obtain ⟨rfl, rfl⟩ := Prod.mk.inj (List.mem_singleton.mp member)
    exact reads.set
  | enum type =>
    obtain ⟨rfl, rfl⟩ := Prod.mk.inj (List.mem_singleton.mp member)
    exact reads.types name (by simp [TypeRef.recordNames, TypeRef.enumNames])
  | _ => cases member

theorem eval_texts (p : Program) (σ : Frame L) (items : List Value) :
    eval p σ (Expr.ofValue (.list (items.map fun item => .text item.display))) = pure (.list (textData items)) := by
  have mapped : (items.map fun item => Value.text item.display) = (items.map Value.display).map .text := by simp
  rw [mapped, Expr.ofValue, Source.eval_list, evalAll_texts, pure_bind, List.map_map]
  rfl

theorem listed_of_sequence {items : List Value} (sequence : sequence? value = some items) :
    value.listed = (Value.list items).listed := by
  cases value with
  | list _ =>
    obtain rfl := Option.some.inj sequence
    rfl
  | tuple _ =>
    obtain rfl := Option.some.inj sequence
    rw [Value.listed, Value.listed]
  | _ => cases sequence

/-- An initial value evaluates to what it spells. -/
theorem Spells.evaluates (spells : Spells p σ type) (written : SpelledOut type value default) :
    eval p σ default = spelled L type value := by
  -- three of the cases read a name, which `spells` gives its meaning
  cases written with
  | text => rw [Source.eval_text, spelled]
  | number =>
    rw [Source.eval_apply (spells _ _ List.mem_cons_self) (Source.eval_text value.display), Source.call_imported, spelled,
      Source.callImported]
    cases L.decimal? value.display <;> rfl
  | truth reads =>
    rw [Source.eval_bool, spelled, reads]
    rfl
  | time text =>
    have known : eval p σ (.name "datetime") = pure (.imported "datetime") := by
      rw [Source.eval_name]
      exact spells _ _ List.mem_cons_self
    rw [Source.eval_method_one known (Source.eval_text text), Source.send_method (by simp [Datum.methods]),
      Source.callMethod, spelled, Value.display]
    cases L.time? text <;> rfl
  | untyped => rw [eval_listed, spelled]
  | list _ sequence => rw [eval_listed, spelled, listed_of_sequence sequence]
  | @set _ items sequence =>
    have scalars : (textData (L := L) items).all Datum.isScalar := by simp [textData, Datum.isScalar]
    rw [Source.eval_apply (spells _ _ List.mem_cons_self) (eval_texts p σ items), Source.call_builtin, spelled, sequence]
    simp only [Source.callBuiltin, Source.membersOf, Datum.members?, Outcome.given_some, pure_bind, Datum.setOf?,
      if_pos scalars]
    rfl

/-! ## Initial values that fit -/

/-- What the initial value of a field has to be: a value of the type of the field.  For an enum it is the constant of the
value that the schema gives, and for a field without a type this value itself. -/
def Suits (p : Program) (value : Value) : TypeRef → Datum L → Prop
  | .any, v => Datum.ofValue? value = some v
  | .enum name, v => ∃ constant s, value = .text s ∧ v = .member name constant s ∧
      getAttribute p (.cls [name]) constant = pure v
  | type, v => Typed (fun _ _ => False) (Listed p) type v

/-- An initial value that is spelled out for a type stands for a value of it: a text that becomes a number or a point in
time has to spell one, and the members of a list have to be elements already. -/
def Fits (L : Library) : TypeRef → Value → Prop
  | .scalar .number, v => (L.decimal? v.display).isSome
  | .scalar .timestamp, v => (L.time? v.display).isSome
  | .list (.scalar .string), v => ∃ texts : List String, sequence? v = some (texts.map .text)
  | .list (.scalar .boolean), v => ∃ words : List Bool, sequence? v = some (words.map .bool)
  | .list .any, v => (Datum.ofValue? v.listed : Option (Datum L)).isSome
  | .any, v => ∃ d : Datum L, Datum.ofValue? v.listed = some d ∧ Datum.ofValue? v = some d
  | _, _ => True

theorem Outcome.given_eq_pure {α : Type} {found : Option α} {a : α} :
    (Outcome.given found : Outcome L α) = pure a ↔ found = some a := by
  cases found with
  | none => exact ⟨nofun, nofun⟩
  | some b => exact ⟨fun same => congrArg some (Outcome.pure_inj same), fun same => congrArg pure (Option.some.inj same)⟩

theorem Outcome.orRaise_eq_pure {α : Type} {exception : String} {found : Option α} {a : α} :
    (Outcome.orRaise exception found : Outcome L α) = pure a ↔ found = some a := by
  cases found with
  | none => exact ⟨fun same => absurd same (Outcome.throw_ne_pure _ _), nofun⟩
  | some b => exact ⟨fun same => congrArg some (Outcome.pure_inj same), fun same => congrArg pure (Option.some.inj same)⟩

/-- Truth values and texts are spelled as what they are, and nothing else is spelled as one of them. -/
theorem ofValue?_listed_cases {d : Datum L} (given : Datum.ofValue? value.listed = some d) :
    (∃ b, value = .bool b ∧ d = .bool b) ∨ (∃ s, value = .text s ∧ d = .text s) ∨ (∀ b, d ≠ .bool b) ∧ ∀ s, d ≠ .text s := by
  -- only truth values and texts become what they are; a container becomes a container of its own kind
  cases value with
  | bool b => exact .inl ⟨b, rfl, (Option.some.inj given).symm⟩
  | text s => exact .inr (.inl ⟨s, rfl, (Option.some.inj given).symm⟩)
  | list items | tuple items =>
    rw [Value.listed, Datum.ofValue?] at given
    obtain ⟨data, -, rfl⟩ := Option.map_eq_some_iff.mp given
    exact .inr (.inr (by simp))
  | set items =>
    rw [Value.listed, Datum.ofValue?, Option.bind_eq_some_iff] at given
    · obtain ⟨data, -, set⟩ := given
      rw [Datum.setOf?, Option.ite_none_right_eq_some] at set
      obtain rfl := Option.some.inj set.2
      exact .inr (.inr (by simp))
    all_goals simp
  | dict entries =>
    rw [Value.listed, Datum.ofValue?, Option.bind_eq_some_iff] at given
    obtain ⟨data, -, dict⟩ := given
    rw [Datum.dictOf?, Option.ite_none_right_eq_some] at dict
    obtain rfl := Option.some.inj dict.2
    exact .inr (.inr (by simp))
  | float x =>
    simp only [Value.listed, Datum.ofValue?, Option.ite_none_right_eq_some, Option.some.injEq] at given
    obtain rfl := given.2
    exact .inr (.inr (by simp))
  | date _ | moment _ => simp [Value.listed, Datum.ofValue?] at given
  | _ =>
    simp only [Value.listed, Datum.ofValue?, Option.some.injEq] at given
    obtain rfl := given
    exact .inr (.inr (by simp))

theorem ofValue?_listed_text {s : String} :
    (Datum.ofValue? value.listed : Option (Datum L)) = some (.text s) ↔ value = .text s := by
  refine ⟨fun given => ?_, ?_⟩
  · rcases ofValue?_listed_cases given with ⟨b, -, same⟩ | ⟨t, text, same⟩ | ⟨-, other⟩
    · cases same
    · cases same
      exact text
    · exact absurd rfl (other s)
  · rintro rfl
    rw [Value.listed, Datum.ofValue?]
    all_goals exact nofun

theorem ofValue?_listed_bool {b : Bool} :
    (Datum.ofValue? value.listed : Option (Datum L)) = some (.bool b) ↔ value = .bool b := by
  refine ⟨fun given => ?_, ?_⟩
  · rcases ofValue?_listed_cases given with ⟨c, bool, same⟩ | ⟨t, -, same⟩ | ⟨other, -⟩
    · cases same
      exact bool
    · cases same
    · exact absurd rfl (other b)
  · rintro rfl
    rw [Value.listed, Datum.ofValue?]
    all_goals exact nofun

/-- A sequence is spelled as a list of data of one kind, if its members are values of this kind. -/
theorem ofValues?_listedAll_iff {α : Type} {wrap : α → Value} {datum : α → Datum L}
    (exact : ∀ {v a}, Datum.ofValue? (Value.listed v) = some (datum a) ↔ v = wrap a) {items : List Value} {as : List α} :
    Datum.ofValues? (Value.listedAll items) = some (as.map datum) ↔ items = as.map wrap := by
  induction items generalizing as with
  | nil => cases as <;> simp [Value.listedAll, Datum.ofValues?]
  | cons v rest ih =>
    rw [Value.listedAll, Datum.ofValues?]
    cases as with
    | nil =>
      refine ⟨fun given => ?_, nofun⟩
      split at given <;> cases given
    | cons a as =>
      rw [List.map_cons, List.map_cons, List.cons.injEq, ← exact, ← ih]
      split
      · rename_i first rest
        rw [first, rest, Option.some.injEq, List.cons.injEq, Option.some.injEq, Option.some.injEq]
      · rename_i missing
        refine ⟨nofun, fun both => ?_⟩
        exact absurd both.2 (missing _ _ both.1)

/-- What a sequence is spelled as is a list of some kind, if and only if its members are of this kind. -/
theorem list_suits_iff {α : Type} {element : TypeRef} {wrap : α → Value} {datum : α → Datum L}
    (exact : ∀ {v a}, Datum.ofValue? (Value.listed v) = some (datum a) ↔ v = wrap a)
    (typed : ∀ {d}, Typed (fun _ _ => False) (Listed p) element d ↔ ∃ a, d = datum a) {items : List Value}
    (sequence : sequence? value = some items) :
    (∃ v, spelled L (.list element) value = pure v ∧ Typed (fun _ _ => False) (Listed p) (.list element) v) ↔
      ∃ as : List α, sequence? value = some (as.map wrap) := by
  have shown : spelled L (.list element) value = .given ((Datum.ofValues? (Value.listedAll items)).map .list) := by
    rw [spelled, listed_of_sequence sequence, Value.listed, Datum.ofValue?]
  rw [shown, sequence]
  constructor
  · rintro ⟨v, evaluates, all⟩
    obtain ⟨data, found, rfl⟩ := Option.map_eq_some_iff.mp (Outcome.given_eq_pure.mp evaluates)
    cases all with
    | list each =>
      have made : data ∈ Set.range (List.map datum) := by
        rw [Set.range_list_map]
        exact fun d member => (typed.mp (each d member)).imp fun _ => Eq.symm
      obtain ⟨as, rfl⟩ := made
      exact ⟨as, congrArg some ((ofValues?_listedAll_iff exact).mp found)⟩
  · rintro ⟨as, same⟩
    obtain rfl := Option.some.inj same
    refine ⟨.list (as.map datum), ?_, .list ?_⟩
    · rw [(ofValues?_listedAll_iff exact).mpr rfl]
      rfl
    · exact List.forall_mem_map.mpr fun a _ => typed.mpr ⟨a, rfl⟩

theorem typed_text_iff {instances members : String → Datum L → Prop} {d : Datum L} :
    Typed instances members (.scalar .string) d ↔ ∃ s, d = .text s := by
  constructor
  · intro typed
    cases typed with
    | string s => exact ⟨s, rfl⟩
  · rintro ⟨s, rfl⟩
    exact .string s

theorem typed_bool_iff {instances members : String → Datum L → Prop} {d : Datum L} :
    Typed instances members (.scalar .boolean) d ↔ ∃ b, d = .bool b := by
  constructor
  · intro typed
    cases typed with
    | boolean b => exact ⟨b, rfl⟩
  · rintro ⟨b, rfl⟩
    exact .boolean b

/-- A text that is read when the initial value is evaluated fits if it can be read. -/
theorem orRaise_suits_iff {α : Type} {exception : String} {found : Option α} {make : α → Datum L}
    (suits : ∀ a, Suits p value type (make a)) :
    (∃ v, Outcome.orRaise exception (found.map make) = (pure v : Outcome L (Datum L)) ∧ Suits p value type v) ↔
      found.isSome := by
  constructor
  · rintro ⟨v, evaluates, -⟩
    obtain ⟨a, found, -⟩ := Option.map_eq_some_iff.mp (Outcome.orRaise_eq_pure.mp evaluates)
    rw [found, Option.isSome_some]
  · intro some
    obtain ⟨a, rfl⟩ := Option.isSome_iff_exists.mp some
    exact ⟨make a, rfl, suits a⟩

/-- A sequence fits as a list of any values if it stands for a datum. -/
theorem anyList_suits_iff {items : List Value} (sequence : sequence? value = some items) :
    (∃ v, spelled L (.list .any) value = pure v ∧ Suits p value (.list .any) v) ↔ Fits L (.list .any) value := by
  rw [Fits, Option.isSome_iff_exists]
  refine exists_congr fun v => ?_
  rw [spelled, Outcome.given_eq_pure, and_iff_left_iff_imp]
  intro found
  rw [listed_of_sequence sequence, Value.listed, Datum.ofValue?] at found
  obtain ⟨data, -, rfl⟩ := Option.map_eq_some_iff.mp found
  exact .list fun d _ => .any d

/-- What is spelled out for a type is a value of it, if and only if it fits. -/
theorem SpelledOut.suits_iff (written : SpelledOut type value default) :
    (∃ v, spelled L type value = pure v ∧ Suits p value type v) ↔ Fits L type value := by
  -- texts, truth values and sets always fit; of numbers and times the text decides, of lists the members
  cases written with
  | text => exact ⟨fun _ => trivial, fun _ => ⟨_, rfl, .string _⟩⟩
  | number => exact orRaise_suits_iff Typed.number
  | @truth _ b reads =>
    refine ⟨fun _ => trivial, fun _ => ⟨.bool b, ?_, .boolean b⟩⟩
    rw [spelled, reads]
    rfl
  | time => exact orRaise_suits_iff Typed.timestamp
  | untyped => exact exists_congr fun v => and_congr_left' Outcome.given_eq_pure
  | list plain sequence =>
    rcases plain with rfl | rfl | rfl
    · exact anyList_suits_iff sequence
    · exact list_suits_iff ofValue?_listed_text typed_text_iff sequence
    · exact list_suits_iff ofValue?_listed_bool typed_bool_iff sequence
  | @set _ items sequence =>
    have texts : ∀ d ∈ textData (L := L) items, ∃ s, d = .text s :=
      List.forall_mem_map.mpr fun item _ => ⟨item.display, rfl⟩
    have spec := Datum.distinct_spec (textData (L := L) items)
    refine ⟨fun _ => trivial, fun _ => ⟨.set (Datum.distinct (textData items)), ?_, .set spec.2 fun d member => ?_⟩⟩
    · rw [spelled, sequence]
      rfl
    · exact typed_text_iff.mpr (texts d (spec.1 d member))

/-! ## Constructors -/

/-- No parameter captures a name that the initial value of a type reads. -/
def Uncaptured (r : Record) (type : TypeRef) : Prop := ∀ name ∈ defaultNames type, name ∉ r.fields.map (·.identifier)

/-- Whenever the constructor of a record is not given a value for a field, it finds one that suits the field. -/
def Initializes (L : Library) (p : Program) (e : Entity) (r : Record) (f : ResolvedField) : Prop :=
  ∀ (given : ResolvedField → Datum L) (σ : Frame L), Receives e.enums r given σ → given f = .none →
    ∃ v, eval p σ (initialValue e.enums r.name f).value = pure v ∧ Suits p f.field.default f.type v

/-- The initial value of a field is left out, with one warning that names the record and the field. -/
def LeftOut (enums : List EnumType) (r : Record) (f : ResolvedField) : Prop :=
  ∃ n, initialValue enums r.name f = ⟨.name f.identifier, [n]⟩ ∧ n.level = .warning ∧
    ∃ before after, n.text = before ++ (r.name ++ "." ++ f.identifier) ++ after

theorem leftOut (hasDefault : f.field.hasDefault) (missing : default? enums f = none) : LeftOut enums r f := by
  refine ⟨skippedDefault r.name f, ?_, ?_⟩
  · rw [initialValue, if_pos hasDefault, missing]
  · have joined (front shown middle ending : String) : front ++ shown ++ middle ++ r.name ++ "." ++ f.identifier ++ ending =
        (front ++ shown ++ middle) ++ (r.name ++ "." ++ f.identifier) ++ ending := by
      simp only [String.append_assoc]
    unfold skippedDefault
    split
    · exact ⟨rfl, _, _, joined "Default '" f.field.default.display "' of " " is not one of its enum values; skipping default"⟩
    · exact ⟨rfl, _, _, joined "Default " f.field.default.literal " of " " cannot be expressed as a literal; skipping default"⟩

theorem recordModule_notices (enums : List EnumType) (r : Record) :
    (recordModule enums r).notices = r.fields.flatMap fun f => (initialValue enums r.name f).notices := by
  have each : ∀ fields : List ResolvedField, (Noted.each (initialValue enums r.name) fields).notices =
      fields.flatMap fun f => (initialValue enums r.name f).notices := by
    intro fields
    induction fields with
    | nil => rfl
    | cons f rest ih => rw [Noted.each, List.flatMap_cons, ih]
  simp only [recordModule, recordClass, constructor, Noted.notices_bind, Noted.notices_pure, List.append_nil, each]

def blankScope (enums : List EnumType) (r : Record) : Frame L :=
  ⟨(recordModule enums r).value.body, fun id => if id ∈ r.fields.map (·.identifier) then some .none else none⟩

theorem blankScope_receives (enums : List EnumType) (r : Record) :
    Receives enums r (fun _ => .none) (blankScope enums r : Frame L) :=
  ⟨rfl, fun _ inRecord => if_pos (List.mem_map_of_mem inRecord), fun _ _ noParameter => if_neg noParameter⟩

theorem Receives.eval_default {given : ResolvedField → Datum L} (receives : Receives enums r given σ)
    (inRecord : f ∈ r.fields) (absent : given f = .none) (hasDefault : f.field.hasDefault)
    (emitted : default? enums f = some default) (name : String) :
    eval p σ (initialValue enums name f).value = eval p σ default := by
  have found : defaultOf enums f = some default := by rw [defaultOf, if_pos hasDefault, emitted]
  have parameter : readName p σ f.identifier = pure .none := by
    rw [Source.readName_local (receives.fields f inRecord), absent]
  rw [initialValue_value, found]
  simp [parameter, Datum.isNone, Datum.truth]

theorem SpelledOut.readsFirst (written : SpelledOut type value default) {name : String}
    (read : name ∈ defaultNames type) : ∃ k : Datum L → Outcome L (Datum L),
      (∀ τ, eval p τ default = readName p τ name >>= k) ∧ ∃ exception, k .none = throw exception := by
  cases written with
  | number =>
    obtain rfl := List.mem_singleton.mp read
    exact ⟨_, eval_apply_shape fun τ => Source.eval_text _, call_none _ _⟩
  | time =>
    obtain rfl := List.mem_singleton.mp read
    exact ⟨_, eval_method_shape fun τ => Source.eval_text _, send_none _ _⟩
  | @set _ items =>
    obtain rfl := List.mem_singleton.mp read
    exact ⟨_, eval_apply_shape fun τ => eval_texts p τ items, call_none _ _⟩
  -- the other initial values read no name
  | _ => cases read

/-- An initial value reads each of its names first, and can make nothing of `None`. -/
theorem default?_readsFirst (emitted : default? enums f = some default) {name : String}
    (read : name ∈ defaultNames f.type) : ∃ k : Datum L → Outcome L (Datum L),
      (∀ τ, eval p τ default = readName p τ name >>= k) ∧ ∃ exception, k .none = throw exception := by
  rcases default?_cases emitted with ⟨t, -, constant, isEnum, -, rfl⟩ | written
  · rw [isEnum] at read
    obtain rfl := List.mem_singleton.mp read
    exact ⟨_, fun τ => by rw [Source.eval_attr, Source.eval_name], getAttribute_none constant⟩
  · exact written.readsFirst read

section

variable {s : Schema} (describes : Describes s e) (loads : Loads p e) (member : r ∈ e.record :: e.nested)
include describes loads

/-- The constant of a value of an enum stands for the value. -/
theorem getAttribute_constantFor {t : EnumType} (known : t ∈ e.enums) {constant : String}
    (found : t.constantFor? value = some constant) : ∃ s, value = .text s ∧
      getAttribute p (.cls [t.name] : Datum L) constant = pure (.member t.name constant s) := by
  cases value with
  | text s =>
    obtain ⟨c, first, rfl⟩ := Option.map_eq_some_iff.mp found
    have distinct : (t.members.map (·.1)).Nodup := by
      rw [describes.enums] at known
      obtain ⟨g, -, owner, rfl⟩ := (forall₂_mem describes.collects.enums).2 t known
      rw [enumOf_constants]
      exact Name.memberNames_nodup _
    obtain rfl : c.2 = s := by simpa using List.find?_some first
    exact ⟨c.2, rfl, getAttribute_enumCls (loads.class_enum known) distinct (List.mem_of_find?_eq_some first) first⟩
  | _ => cases found

/-- An initial value that is spelled out suits its field where its names mean what they are written for, if it fits. -/
theorem default?_suits_iff (spells : Spells p σ f.type) (emitted : default? e.enums f = some default) :
    (∃ v, eval p σ default = pure v ∧ Suits p f.field.default f.type v) ↔ Fits L f.type f.field.default := by
  rcases default?_cases emitted with ⟨t, known, constant, isEnum, value, rfl⟩ | written
  · obtain ⟨s, text, gives⟩ := getAttribute_constantFor (p := p) (L := L) describes loads known value
    rw [isEnum] at spells ⊢
    refine ⟨fun _ => trivial, fun _ => ⟨.member t.name constant s, ?_, constant, s, text, rfl, gives⟩⟩
    rw [Source.eval_attr, Source.eval_name, spells _ _ List.mem_cons_self, pure_bind, gives]
  · rw [spells.evaluates written]
    exact written.suits_iff

variable (member : r ∈ e.record :: e.nested)
include member

/-- No name of an initial value is that of the receiver. -/
theorem defaultNames_ne_self (inRecord : f ∈ r.fields) : "self" ∉ defaultNames f.type := by
  intro read
  cases type : f.type with
  | enum name =>
    rw [type] at read
    obtain rfl := List.mem_singleton.mp read
    have known := (describes.provided member inRecord).enums "self" (by simp [type, TypeRef.enumNames])
    exact loads.free "self" (List.mem_append_right _ known) (by decide)
  | scalar kind =>
    rw [type] at read
    revert read
    cases kind <;> decide
  | _ => simp [type, defaultNames] at read

theorem Receives.spells {given : ResolvedField → Datum L} (receives : Receives e.enums r given σ) (inRecord : f ∈ r.fields)
    (uncaptured : Uncaptured r f.type) : Spells p σ f.type := by
  have top : Spells p (.top (recordModule e.enums r).value.body : Frame L) f.type :=
    (loads.reads describes member rfl (fun _ _ => rfl) inRecord).spells
  intro name meaning reads
  have read : name ∈ defaultNames f.type := by
    rw [← defaultReads_names (L := L)]
    exact List.mem_map_of_mem (f := (·.1)) reads
  have other : name ≠ "self" := by
    rintro rfl
    exact defaultNames_ne_self describes loads member inRecord read
  rw [receives.readName_top other (uncaptured name read)]
  exact top name meaning reads

/-- A field is initialized by a value that fits and that no parameter captures. -/
theorem initializes (inRecord : f ∈ r.fields) (hasDefault : f.field.hasDefault)
    (emitted : default? e.enums f = some default) (uncaptured : Uncaptured r f.type)
    (fits : Fits L f.type f.field.default) : Initializes L p e r f := by
  intro given σ receives absent
  rw [receives.eval_default inRecord absent hasDefault emitted]
  exact (default?_suits_iff describes loads (receives.spells describes loads member inRecord uncaptured) emitted).mpr fits

/-- A call without arguments shows what the initial value of a field needs. -/
theorem Initializes.needs (initializes : Initializes L p e r f) (inRecord : f ∈ r.fields) (hasDefault : f.field.hasDefault)
    (emitted : default? e.enums f = some default) : Uncaptured r f.type ∧ Fits L f.type f.field.default := by
  have blank : Receives e.enums r (fun _ => .none) (blankScope e.enums r : Frame L) := blankScope_receives e.enums r
  obtain ⟨v, evaluates, suits⟩ := initializes _ _ blank rfl
  rw [blank.eval_default inRecord rfl hasDefault emitted] at evaluates
  have uncaptured : Uncaptured r f.type := by
    intro name read
    obtain ⟨k, shape, exception, fails⟩ := default?_readsFirst (p := p) (L := L) emitted read
    rw [shape] at evaluates
    obtain ⟨w, reads, made⟩ := Outcome.bind_eq_pure evaluates
    refine blank.notParameter reads ?_
    rintro rfl
    exact Outcome.throw_ne_pure exception v (fails.symm.trans made)
  have spells := blank.spells describes loads member inRecord uncaptured
  exact ⟨uncaptured, (default?_suits_iff describes loads spells emitted).mp ⟨v, evaluates, suits⟩⟩

end

/-- Every initial value of a record is either spelled out without a notice, or left out with one warning, and the notices
about a record are those of its fields in order.  One that is spelled out initializes its field if it fits the type and
no parameter captures its names.  Both are needed; only for members and values without a type nothing is said about
what does not fit. -/
theorem initialValues_suit {s : Schema} (described : (describe s).value = .ok e) (loads : Loads p e)
    (member : r ∈ e.record :: e.nested) :
    (∀ f ∈ r.fields, f.field.hasDefault →
      (default? e.enums f = none → LeftOut e.enums r f) ∧
      ∀ default, default? e.enums f = some default → (initialValue e.enums r.name f).notices = [] ∧
        (Uncaptured r f.type → Fits L f.type f.field.default → Initializes L p e r f) ∧
        (Initializes L p e r f → Uncaptured r f.type ∧
          (f.type ≠ .any → f.type ≠ .list .any → Fits L f.type f.field.default))) ∧
    (recordModule e.enums r).notices = r.fields.flatMap fun f => (initialValue e.enums r.name f).notices := by
  have describes := describe_ok described
  refine ⟨fun f inRecord hasDefault => ⟨leftOut hasDefault, fun default emitted => ⟨?_, ?_, ?_⟩⟩,
    recordModule_notices e.enums r⟩
  · rw [initialValue, if_pos hasDefault, emitted]
    rfl
  · exact initializes describes loads member inRecord hasDefault emitted
  · intro initializes
    obtain ⟨uncaptured, fits⟩ := initializes.needs describes loads member inRecord hasDefault emitted
    exact ⟨uncaptured, fun _ _ => fits⟩

/-! ## Articles -/

def pricedArticle (price : Value) : Schema :=
  { shopArticle with fields := [skuField, { bareField "price" "number" with default := price }] }

def priceField (price : Value) : ResolvedField :=
  ⟨{ bareField "price" "number" with default := price }, "price", .scalar .number⟩

theorem pricedArticle_fields (price : Value) : (mapFields "Article" (pricedArticle price).fields).1 =
    [⟨skuField, "sku", .scalar .string⟩, priceField price] := by
  have sku : (⟨skuField, skuField.identifier, (mapField "Article" skuField).1⟩ : ResolvedField) =
      ⟨skuField, "sku", .scalar .string⟩ := rfl
  have identifier : (priceField price).field.identifier = "price" := by
    show (if Name.isFieldIdentifier "price" then "price" else Name.camelCase "price") = "price"
    decide
  have type : (mapField "Article" (priceField price).field).1 = .scalar .number := by
    rw [mapField.eq_def]
    rfl
  have price : (⟨(priceField price).field, (priceField price).field.identifier,
      (mapField "Article" (priceField price).field).1⟩ : ResolvedField) = priceField price := by
    rw [identifier, type]
    rfl
  rw [mapFields_fields]
  exact congrArg₂ (fun f g => [f, g]) sku price

theorem pricedArticle_described {price : Value} (accepted : (describe (pricedArticle price)).value.isOk) :
    ∃ e, (describe (pricedArticle price)).value = .ok e ∧ Loads (entityProgram e) e ∧
      e.record.fields = [⟨skuField, "sku", .scalar .string⟩, priceField price] := by
  cases outcome : (describe (pricedArticle price)).value with
  | error shared => simp [outcome, Except.isOk, Except.toBool] at accepted
  | ok e =>
    have describes := describe_ok outcome
    refine ⟨e, rfl, entityProgram_loads ?_ ?_ ?_, ?_⟩
    · rw [describes.nested]
      rfl
    · rw [describes.enums]
      rfl
    · rw [describes.name]
      show "Article" ∉ moduleNames
      decide
    · rw [describes.fields]
      exact pricedArticle_fields price

/-- A price that is a number is there in every article that is made without one. -/
theorem pricedArticle_initializes : ∃ e, (describe (pricedArticle (.int 5))).value = .ok e ∧ Loads (entityProgram e) e ∧
    priceField (.int 5) ∈ e.record.fields ∧
    Initializes Library.plain (entityProgram e) e e.record (priceField (.int 5)) := by
  have accepted : (describe (pricedArticle (.int 5))).value.isOk := by decide +kernel
  obtain ⟨e, described, loads, fields⟩ := pricedArticle_described accepted
  have inRecord : priceField (.int 5) ∈ e.record.fields := by simp [fields]
  have record := @initialValues_suit Library.plain _ e.record e _ described loads List.mem_cons_self
  have each := record.1 (priceField (.int 5)) inRecord rfl
  refine ⟨e, described, loads, inRecord, (each.2 _ rfl).2.1 ?_ ?_⟩
  · intro name read
    obtain rfl := List.mem_singleton.mp read
    rw [fields]
    decide
  · show (String.toInt? (Value.int 5).display).isSome
    cbv

/-- A price that is no number is neither left out nor there. -/
theorem pricedArticle_raises : ¬ ∀ s e p r f, checkCollisions s = .ok () → (describe s).value = .ok e → Loads p e →
    r ∈ e.record :: e.nested → f ∈ r.fields → f.field.hasDefault →
    LeftOut e.enums r f ∨ Initializes Library.plain p e r f := by
  intro always
  have accepted : (describe (pricedArticle (.text "abc"))).value.isOk := by decide +kernel
  obtain ⟨e, described, loads, fields⟩ := pricedArticle_described accepted
  have checked : checkCollisions (pricedArticle (.text "abc")) = .ok () := checkCollisions_ok.mpr (by decide +kernel)
  have inRecord : priceField (.text "abc") ∈ e.record.fields := by simp [fields]
  rcases always _ e (entityProgram e) e.record _ checked described loads List.mem_cons_self inRecord rfl with
    left | initializes
  · obtain ⟨n, left, -⟩ := left
    cases congrArg Noted.notices left
  · have needs := initializes.needs (describe_ok described) loads List.mem_cons_self inRecord rfl rfl
    have noNumber : (String.toInt? (Value.text "abc").display).isSome = false := by cbv
    exact absurd needs.2 (ne_true_of_eq_false noNumber)

end Access

end Tablewright
