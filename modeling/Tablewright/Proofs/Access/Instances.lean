import Tablewright.Proofs.Access.RecordClass

/-!
# Instances of records

The instances that the constructor and the builder of a record make.

* `Holds`: an instance and the values behind its fields.
* `Receives`: the scope of a constructor whose fields are given some values.
-/

namespace Tablewright.Access

open Source (Expr Stmt Param Program Frame Flow Function Datum Library Outcome ClassDef eval evalNamed readName
  send getAttribute call invoke update run runAll bindings bindParams suppliedTo)

variable {L : Library} {p : Program} {σ : Frame L} {enums : List EnumType} {r : Record} {e : Entity}

/-! ## Values behind fields -/

/-- An instance of a class whose attributes are the backing attributes of the fields of a record, with some
values. -/
def Holds (path : List String) (r : Record) (values : ResolvedField → Datum L) (x : Datum L) : Prop :=
  ∃ attributes, x = .object path attributes ∧
    (∀ f ∈ r.fields, attributes.lookup (backing f.identifier) = some (values f)) ∧
    ∀ name, name ∉ r.fields.map (fun f => backing f.identifier) → attributes.lookup name = none

theorem Holds.congr {path : List String} {values others : ResolvedField → Datum L} {x : Datum L}
    (holds : Holds path r values x) (same : ∀ f ∈ r.fields, values f = others f) : Holds path r others x := by
  obtain ⟨attributes, rfl, has, only⟩ := holds
  exact ⟨attributes, rfl, fun f inRecord => same f inRecord ▸ has f inRecord, only⟩

/-- A new value in a backing attribute is the value of that field alone, if no other one has the same attribute. -/
theorem Holds.put {path : List String} {values : ResolvedField → Datum L} {attributes : List (String × Datum L)}
    (holds : Holds path r values (.object path attributes))
    (backings : (r.fields.map fun f => backing f.identifier).Nodup) {f : ResolvedField} (inRecord : f ∈ r.fields)
    (v : Datum L) : Holds path r (fun g => if g.identifier = f.identifier then v else values g)
      (.object path (Datum.putAttribute attributes (backing f.identifier) v)) := by
  obtain ⟨_, same, has, only⟩ := holds
  cases same
  refine ⟨_, rfl, fun g inRecord' => ?_, fun name other => ?_⟩
  · rw [Datum.lookup_putAttribute, has g inRecord', ← apply_ite some]
    refine congrArg some (if_congr ⟨fun same => ?_, fun same => by rw [same]⟩ rfl rfl)
    exact congrArg _ (List.inj_on_of_nodup_map backings inRecord' inRecord same)
  · rw [Datum.lookup_putAttribute, if_neg, only name other]
    rintro rfl
    exact other (List.mem_map_of_mem inRecord)

/-- A class of a program that has no members of the names of backing attributes. -/
structure Backs (p : Program) (path : List String) (c : ClassDef) (r : Record) : Prop where
  cls : p.class? path = some c
  noEnum : c.isEnum = false
  noData : c.isData = false
  noMember : ∀ f ∈ r.fields, c.member? (backing f.identifier) = none

theorem Loads.backs (loads : Loads p e) (member : r ∈ e.record :: e.nested) (usable : Usable r) :
    Backs p [r.name] (recordCls e.enums r) r :=
  ⟨loads.class_record member, rfl, rfl, fun _ inRecord => usable.member_backing inRecord⟩

namespace Backs

variable {path : List String} {c : ClassDef} (backs : Backs p path c r)
include backs

theorem getAttribute {values : ResolvedField → Datum L} {x : Datum L} (holds : Holds path r values x)
    {f : ResolvedField} (inRecord : f ∈ r.fields) : Source.getAttribute p x (backing f.identifier) = pure (values f) := by
  obtain ⟨attributes, rfl, has, -⟩ := holds
  refine Source.getAttribute_plain (has f inRecord) fun d cls getter setter property => ?_
  obtain rfl : c = d := Option.some.inj (backs.cls.symm.trans cls)
  rw [backs.noMember f inRecord] at property
  cases property

theorem eval_backing {values : ResolvedField → Datum L} {x : Datum L} (holds : Holds path r values x) {owner : String}
    (known : readName p σ owner = pure x) {f : ResolvedField} (inRecord : f ∈ r.fields) :
    eval p σ (backingOf owner f) = pure (values f) := by
  rw [backingOf, Source.eval_attr, Source.eval_name, known, pure_bind, backs.getAttribute holds inRecord]

theorem run_setBacking {owner : String} {attributes : List (String × Datum L)}
    (known : σ.locals owner = some (.object path attributes)) {f : ResolvedField} (inRecord : f ∈ r.fields) (value : Expr) :
    run p σ (setBacking owner f value) = (do
      let v ← eval p σ value
      pure (.next (σ.put owner (.object path (Datum.putAttribute attributes (backing f.identifier) v))))) := by
  rw [setBacking, Source.run_assign]
  refine bind_congr fun v => ?_
  rw [backingOf, Source.assign_attr known,
    Source.setAttribute_plain backs.cls backs.noData (by simp [backs.noMember f inRecord]), pure_bind]

/-- A constructor that gives every backing attribute a value. -/
theorem run_setters (distinct : (r.fields.map fun f => backing f.identifier).Nodup) {value : ResolvedField → Expr}
    {values : ResolvedField → Datum L}
    (evaluates : ∀ f ∈ r.fields, ∀ d, eval p (σ.put "self" d) (value f) = pure (values f)) :
    ∃ x, runAll p (σ.put "self" (.object path [])) (r.fields.map fun f => setBacking "self" f (value f)) =
      pure (.next (σ.put "self" x)) ∧ Holds path r values x := by
  let step (attributes : List (String × Datum L)) (f : ResolvedField) : List (String × Datum L) :=
    (some (values f)).elim attributes (Datum.putAttribute attributes (backing f.identifier))
  have each : ∀ f ∈ r.fields, ∀ attributes, run p (σ.put "self" (.object path attributes))
      (setBacking "self" f (value f)) = pure (.next (σ.put "self" (.object path (step attributes f)))) := by
    intro f inRecord attributes
    rw [backs.run_setBacking (Frame.put_locals_self ..) inRecord, evaluates f inRecord, pure_bind, Frame.put_put]
    rfl
  have filled := @Source.lookup_foldl L ResolvedField (fun f => backing f.identifier) (fun f => some (values f))
    r.fields distinct []
  refine ⟨.object path (r.fields.foldl step []),
    Source.runAll_foldl (fun attributes => σ.put "self" (.object path attributes)) each [], _, rfl, ?_, ?_⟩
  · intro f inRecord
    exact (filled.1 f inRecord).trans (Option.some_or ..)
  · intro name other
    exact filled.2 name other

end Backs

theorem runAll_orPass (body : List Stmt) : runAll p σ (constructor.orPass body) = runAll p σ body := by
  unfold constructor.orPass
  split
  · rename_i empty
    rw [List.isEmpty_iff.mp empty, Source.runAll_single, Source.run_pass, Source.runAll_nil]
  · rfl

/-! ## The scope of a constructor -/

/-- The scope of a constructor whose parameters have some values. -/
structure Receives (enums : List EnumType) (r : Record) (given : ResolvedField → Datum L) (σ : Frame L) : Prop where
  home : σ.home = (recordModule enums r).value.body
  fields : ∀ f ∈ r.fields, σ.locals f.identifier = some (given f)
  others : ∀ name, name ≠ "self" → name ∉ r.fields.map (·.identifier) → σ.locals name = none

theorem Receives.congr {given others : ResolvedField → Datum L} (receives : Receives enums r given σ)
    (same : ∀ f ∈ r.fields, given f = others f) : Receives enums r others σ :=
  ⟨receives.home, fun f inRecord => same f inRecord ▸ receives.fields f inRecord, receives.others⟩

namespace Receives

variable {given : ResolvedField → Datum L} (receives : Receives enums r given σ)
include receives

theorem put_self (usable : Usable r) (d : Datum L) : Receives enums r given (σ.put "self" d) := by
  have noField : ∀ name ∈ r.fields.map (·.identifier), name ≠ "self" := by
    rintro name field rfl
    exact usable.notMem_identifiers (by decide) field
  refine ⟨receives.home, fun f inRecord => ?_, fun name other noParameter => ?_⟩
  · rw [Frame.put_locals, if_neg (noField _ (List.mem_map_of_mem inRecord)), receives.fields f inRecord]
  · rw [Frame.put_locals, if_neg other, receives.others name other noParameter]

/-- A name that is no parameter means what it means at the top level. -/
theorem readName_top {name : String} (other : name ≠ "self") (noParameter : name ∉ r.fields.map (·.identifier)) :
    readName p σ name = readName p (.top (recordModule enums r).value.body) name :=
  Source.readName_congr receives.home (receives.others name other noParameter)

end Receives

/-- In a constructor that is given nothing, a name that stands for something is no parameter. -/
theorem Receives.notParameter (blank : Receives enums r (fun _ => .none) σ) {name : String} {w : Datum L}
    (reads : readName p σ name = pure w) (present : w ≠ .none) : name ∉ r.fields.map (·.identifier) := by
  intro taken
  obtain ⟨f, inRecord, rfl⟩ := List.mem_map.mp taken
  rw [Source.readName_local (blank.fields f inRecord)] at reads
  exact present (Outcome.pure_inj reads).symm

/-! ## Parameters -/

/-- The values of parameters that may be left out, by name. -/
def supplied (named : List (String × Datum L)) : List ResolvedField → List (Datum L) → List (String × Datum L)
  | [], _ => []
  | f :: fields, a :: args => (f.identifier, a) :: supplied named fields args
  | f :: fields, [] => (f.identifier, (named.lookup f.identifier).getD .none) :: supplied named fields []

theorem bindParams_optional (home : List Stmt) (named : List (String × Datum L)) (fields : List ResolvedField)
    (args : List (Datum L)) :
    bindParams p home (suppliedTo named (fields.map fun f => Param.optional f.identifier (optionalHint f.type)) args) =
      pure (supplied named fields args) := by
  induction fields generalizing args with
  | nil => simp [suppliedTo, supplied, bindParams]
  | cons f rest ih =>
    cases args with
    | cons a args =>
      rw [List.map_cons, suppliedTo, bindParams, ih, pure_bind]
      rfl
    | nil =>
      have name : (Param.optional f.identifier (optionalHint f.type)).name = f.identifier := rfl
      have default : (Param.optional f.identifier (optionalHint f.type)).default = some Expr.none := rfl
      rw [List.map_cons, suppliedTo, supplied, name]
      cases found : named.lookup f.identifier with
      | some v =>
        rw [bindParams, ih, pure_bind]
        rfl
      | none =>
        rw [bindParams]
        simp only [default, Source.eval_none, pure_bind]
        rw [ih, pure_bind]
        rfl

theorem supplied_lookup_none {named : List (String × Datum L)} {fields : List ResolvedField} {args : List (Datum L)}
    {name : String} (other : name ∉ fields.map (·.identifier)) : (supplied named fields args).lookup name = none := by
  -- by induction on the fields, each of which takes one more argument as long as there are some
  induction fields generalizing args with
  | nil => simp [supplied]
  | cons f rest ih =>
    rw [List.map_cons, List.mem_cons, not_or] at other
    cases args with
    | cons a args => rw [supplied, Datum.lookup_cons_ite, if_neg other.1, ih other.2]
    | nil => rw [supplied, Datum.lookup_cons_ite, if_neg other.1, ih other.2]

/-- A parameter has the value that it is given by position or by name, or none. -/
theorem supplied_lookup {named : List (String × Datum L)} {fields : List ResolvedField} (args : List (Datum L))
    (distinct : (fields.map (·.identifier)).Nodup) {f : ResolvedField} (member : f ∈ fields) :
    ∃ v, (supplied named fields args).lookup f.identifier = some v ∧
      (v = .none ∨ (f, v) ∈ fields.zip args ∨ (f.identifier, v) ∈ named) := by
  have listed : ∀ {id v}, named.lookup id = some v → (id, v) ∈ named := by
    intro id v found
    obtain ⟨before, after, rfl, -⟩ := List.lookup_eq_some_iff.mp found
    exact List.mem_append_right _ List.mem_cons_self
  induction fields generalizing args with
  | nil => cases member
  | cons first rest ih =>
    obtain ⟨fresh, distinct⟩ := List.nodup_cons.mp distinct
    have later : f ∈ rest → f.identifier ≠ first.identifier :=
      fun member same => fresh (List.mem_map.mpr ⟨f, member, same⟩)
    cases args with
    | cons a args =>
      rw [supplied, Datum.lookup_cons_ite]
      rcases List.mem_cons.mp member with rfl | member
      · exact ⟨a, if_pos rfl, .inr (.inl List.mem_cons_self)⟩
      · rw [if_neg (later member)]
        obtain ⟨v, found, place⟩ := ih args distinct member
        refine ⟨v, found, place.imp_right (Or.imp_left (List.mem_cons_of_mem _))⟩
    | nil =>
      rw [supplied, Datum.lookup_cons_ite]
      rcases List.mem_cons.mp member with rfl | member
      · refine ⟨_, if_pos rfl, ?_⟩
        cases found : named.lookup f.identifier with
        | none => exact .inl rfl
        | some v => exact .inr (.inr (listed found))
      · rw [if_neg (later member)]
        obtain ⟨v, found, place⟩ := ih [] distinct member
        refine ⟨v, found, place.imp_right (Or.imp_left fun inside => ?_)⟩
        simp at inside

end Tablewright.Access
