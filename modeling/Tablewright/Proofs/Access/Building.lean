import Tablewright.Proofs.Access.Instances

/-!
# Builders

A builder takes the values of a record one call at a time and gives them to the constructor by name.

* `builderCls`, `Loads.class_builder`: the class of a builder, with a lemma for each of its members.
* `Loads.send_give`: the call that gives a builder the value of a field.
* `fluent`, `Loads.fluent_eq`: a chain of such calls, which ends in one call of the constructor.
-/

namespace Tablewright.Access

open Source (Expr Stmt Param Keyword Program Frame Function Datum Library Outcome ClassDef eval evalNamed readName send
  getAttribute call invoke runAll bindings)

variable {L : Library} {p : Program} {σ : Frame L} {enums : List EnumType} {r : Record} {e : Entity}

/-! ## Classes of builders -/

def builderInit (r : Record) : Function :=
  ⟨⟨"__init__", [], [Param.plain "self"], none, Source.noResult⟩,
    constructor.orPass (r.fields.map fun f => setBacking "self" f Expr.none)⟩

/-- The method of a builder that takes the value of a field. -/
def giveFunction (r : Record) (f : ResolvedField) : Function :=
  ⟨⟨f.identifier, [], [Param.plain "self", Param.required "value" (optionalHint f.type)], none, some (builderName r)⟩,
    [setBacking "self" f (.name "value"), .result (.name "self")]⟩

def buildFunction (r : Record) : Function :=
  ⟨⟨"build", [], [Param.plain "self"], none, some (Expr.text r.name)⟩,
    [.result (.call (.name r.name) [] (r.fields.map fun f => Keyword.mk (some f.identifier) (backingOf "self" f)))]⟩

def methodOf (f : Function) : Stmt := .function f.signature none f.body

def builderBody (r : Record) : List Stmt :=
  methodOf (builderInit r) :: (r.fields.map fun f => methodOf (giveFunction r f)) ++ [methodOf (buildFunction r)]

def builderCls (enums : List EnumType) (r : Record) : ClassDef :=
  ⟨(recordModule enums r).value.body, [], [], builderBody r⟩

theorem builderClass_body (r : Record) :
    builderClass r = .classDef "Builder" [] [] (some s!"Fluent builder for {r.name}.") (builderBody r) := by
  have init : (if r.fields.isEmpty then [.pass] else r.fields.map fun f => setBacking "self" f Expr.none) =
      constructor.orPass (r.fields.map fun f => setBacking "self" f Expr.none) := by
    simp [constructor.orPass]
  rw [builderClass, init]
  rfl

section

variable {name : String}

theorem bindings_gives_none {fields : List ResolvedField} (other : name ∉ fields.map (·.identifier)) :
    bindings name (fields.map fun f => methodOf (giveFunction r f)) = [] := by
  refine Source.bindings_eq_nil ?_
  rw [List.forall_mem_map]
  intro f inside binds
  exact other (List.mem_map.mpr ⟨f, inside, (List.mem_singleton.mp binds).symm⟩)

theorem bindings_gives {fields : List ResolvedField} (distinct : (fields.map (·.identifier)).Nodup) {f : ResolvedField}
    (member : f ∈ fields) :
    bindings f.identifier (fields.map fun f => methodOf (giveFunction r f)) = [methodOf (giveFunction r f)] := by
  induction fields with
  | nil => cases member
  | cons first rest ih =>
    obtain ⟨fresh, distinct⟩ := List.nodup_cons.mp distinct
    rw [List.map_cons, ← List.singleton_append, Source.bindings_append]
    rcases List.mem_cons.mp member with rfl | member
    · rw [bindings_gives_none fresh]
      simp [bindings, methodOf, giveFunction, Stmt.binds]
    · have other : f.identifier ≠ first.identifier := fun same => fresh (List.mem_map.mpr ⟨f, member, same⟩)
      rw [ih distinct member]
      simp [bindings, methodOf, giveFunction, Stmt.binds, other]

end

namespace Usable

variable (usable : Usable r)
include usable

theorem bindings_builder {name : String} (listed : name ∈ ["__init__", "build"]) :
    bindings name (builderBody r) = bindings name [methodOf (builderInit r)] ++ bindings name [methodOf (buildFunction r)] := by
  have known : ∀ name ∈ ["__init__", "build"], name ∈ memberNames := by decide
  rw [builderBody, ← List.singleton_append, Source.bindings_append, Source.bindings_append,
    bindings_gives_none (usable.notMem_identifiers (known name listed)), List.append_nil]

theorem builder_init : (builderCls enums r).member? "__init__" = some (.method (builderInit r)) := by
  refine Source.ClassDef.member?_one (s := methodOf (builderInit r)) ?_
  rw [builderCls, usable.bindings_builder (by decide)]
  rfl

theorem builder_build : (builderCls enums r).member? "build" = some (.method (buildFunction r)) := by
  refine Source.ClassDef.member?_one (s := methodOf (buildFunction r)) ?_
  rw [builderCls, usable.bindings_builder (by decide)]
  rfl

theorem builder_give {f : ResolvedField} (inRecord : f ∈ r.fields) :
    (builderCls enums r).member? f.identifier = some (.method (giveFunction r f)) := by
  have other : f.identifier ≠ "__init__" ∧ f.identifier ≠ "build" :=
    ⟨(usable.ne_member inRecord (by decide)).symm, (usable.ne_member inRecord (by decide)).symm⟩
  refine Source.ClassDef.member?_one (s := methodOf (giveFunction r f)) ?_
  rw [builderCls, builderBody, ← List.singleton_append, Source.bindings_append, Source.bindings_append,
    bindings_gives usable.identifiers inRecord]
  simp [bindings, methodOf, builderInit, buildFunction, Stmt.binds, other]

/-- No member of a builder is called like a backing attribute. -/
theorem builder_backing {f : ResolvedField} (inRecord : f ∈ r.fields) :
    (builderCls enums r).member? (backing f.identifier) = none := by
  have other : backing f.identifier ≠ "__init__" ∧ backing f.identifier ≠ "build" :=
    ⟨(backing_ne_of_mem (by decide) _).symm, (backing_ne_of_mem (by decide) _).symm⟩
  have noField : backing f.identifier ∉ r.fields.map (·.identifier) := by
    intro taken
    obtain ⟨g, inRecord', same⟩ := List.mem_map.mp taken
    exact usable.apart g inRecord' f inRecord same
  have unbound : bindings (backing f.identifier) (builderCls enums r).body = [] := by
    rw [builderCls, builderBody, ← List.singleton_append, Source.bindings_append, Source.bindings_append,
      bindings_gives_none noField]
    simp [bindings, methodOf, builderInit, buildFunction, Stmt.binds, other]
  rw [ClassDef.member?, unbound]
  rfl

end Usable

/-! ## Chains of calls -/

/-- A record that is built by a chain of calls, each of which gives one field a value. -/
def fluent (p : Program) (r : Record) (steps : List (ResolvedField × Datum L)) : Outcome L (Datum L) := do
  let builder ← send p (.cls [r.name]) "builder" []
  let builder ← steps.foldlM (fun builder step => send p builder step.1.identifier [step.2]) builder
  send p builder "build" []

namespace Loads

variable (loads : Loads p e) (member : r ∈ e.record :: e.nested) (usable : Usable r)
include loads member usable

theorem class_builder : p.class? [r.name, "Builder"] = some (builderCls e.enums r) := by
  have last : (bindings "Builder" (recordCls e.enums r).body).getLast? = some (builderClass r) := by
    rw [recordCls, usable.bindings_member (by decide), constructor_value]
    rfl
  refine Program.class?_inner (loads.class_record member) ?_
  rw [Source.classNamed?, last, builderClass_body]
  rfl

theorem builder_backs : Backs p [r.name, "Builder"] (builderCls e.enums r) r :=
  ⟨loads.class_builder member usable, rfl, rfl, fun _ inRecord => usable.builder_backing inRecord⟩

/-- A new builder has no values. -/
theorem send_builder : ∃ b : Datum L, send p (.cls [r.name]) "builder" [] = pure b ∧
    Holds [r.name, "Builder"] r (fun _ => .none) b := by
  have called : send p (.cls [r.name] : Datum L) "builder" [] = call p (.cls [r.name, "Builder"]) [] [] := by
    have inner : getAttribute p (.cls [r.name] : Datum L) "Builder" = pure (.cls [r.name, "Builder"]) :=
      Source.getAttribute_inner (loads.class_record member) rfl usable.member_inner
    rw [Source.send_classMethod (loads.class_record member) rfl usable.member_builder,
      Source.invoke_result _ rfl rfl rfl rfl,
      Source.eval_method ((Source.eval_name "cls").trans (Source.readName_local rfl)), send, inner, pure_bind]
  obtain ⟨b, set, holds⟩ := @Backs.run_setters L p (.top (recordModule e.enums r).value.body) r _ _
    (loads.builder_backs member usable) usable.backings (fun _ => Expr.none) (fun _ => .none)
    fun _ _ _ => Source.eval_none
  refine ⟨b, ?_, holds⟩
  rw [called, Source.call_class (loads.class_builder member usable) rfl rfl usable.builder_init]
  refine Source.update_alone rfl rfl ?_ (Frame.put_locals_self (.top (recordModule e.enums r).value.body) "self" b)
  rw [builderInit, runAll_orPass]
  exact set

variable {values : ResolvedField → Datum L} {b : Datum L} (holds : Holds [r.name, "Builder"] r values b)
include holds

theorem send_give {f : ResolvedField} (inRecord : f ∈ r.fields) (v : Datum L) :
    ∃ b', send p b f.identifier [v] = pure b' ∧
      Holds [r.name, "Builder"] r (fun g => if g.identifier = f.identifier then v else values g) b' := by
  obtain ⟨attributes, rfl, has, only⟩ := id holds
  have absent : attributes.lookup f.identifier = none := by
    refine only _ fun taken => ?_
    obtain ⟨g, inRecord', same⟩ := List.mem_map.mp taken
    exact usable.apart f inRecord g inRecord' same.symm
  let scope : Frame L := ⟨(recordModule e.enums r).value.body, fun id =>
    [("self", .object [r.name, "Builder"] attributes), ("value", v)].lookup id⟩
  have self : scope.locals "self" = some (.object [r.name, "Builder"] attributes) := rfl
  have value : eval p scope (.name "value") = pure v := (Source.eval_name "value").trans (Source.readName_local rfl)
  have ran := (loads.builder_backs member usable).run_setBacking self inRecord (.name "value")
  rw [value, pure_bind] at ran
  have invoked : invoke p (builderCls e.enums r).home (giveFunction r f) [.object [r.name, "Builder"] attributes, v] [] =
      (do
        let flow ← runAll p scope [setBacking "self" f (.name "value"), .result (.name "self")]
        pure flow.returned) := Source.invoke_given _ rfl rfl rfl
  refine ⟨.object [r.name, "Builder"] (Datum.putAttribute attributes (backing f.identifier) v), ?_,
    holds.put usable.backings inRecord v⟩
  rw [Source.send_instance (loads.class_builder member usable) (usable.builder_give inRecord) absent,
    invoked, Source.runAll_next ran]
  simp [Source.runAll_single, Source.readName_put, Source.Flow.returned]

/-- A builder calls the constructor with its values. -/
theorem send_build {s : Schema} (describes : Describes s e) : send p b "build" [] =
    call p (.cls [r.name]) [] (r.fields.map fun f => (f.identifier, values f)) := by
  obtain ⟨attributes, rfl, -, only⟩ := id holds
  have absent : attributes.lookup "build" = none := by
    refine only _ fun taken => ?_
    obtain ⟨g, inRecord, same⟩ := List.mem_map.mp taken
    exact backing_ne_of_mem (by decide) g.identifier same.symm
  let scope : Frame L := ⟨(recordModule e.enums r).value.body, fun id =>
    [("self", .object [r.name, "Builder"] attributes)].lookup id⟩
  have self : readName p scope "self" = pure (.object [r.name, "Builder"] attributes) := Source.readName_local rfl
  have invoked : invoke p (builderCls e.enums r).home (buildFunction r) [.object [r.name, "Builder"] attributes] [] =
      eval p scope (.call (.name r.name) [] (r.fields.map fun f =>
        Keyword.mk (some f.identifier) (backingOf "self" f))) := Source.invoke_result _ rfl rfl rfl rfl
  have others : ∀ name, name ∉ ["self", "cls", "item", "entity"] → scope.locals name = none := by
    intro name other
    simp only [List.mem_cons, not_or] at other
    simp [scope, Datum.lookup_cons_ite, other.1]
  have cls : readName p scope r.name = pure (.cls [r.name]) :=
    loads.readName_type describes member rfl others (.inl rfl) (recordModule_scope e.enums r).itself
  -- the fields are given by name, by induction on those that are left
  have keywords : ∀ fields ⊆ r.fields, evalNamed p scope (fields.map fun f =>
      Keyword.mk (some f.identifier) (backingOf "self" f)) = pure (fields.map fun f => (f.identifier, values f)) := by
    intro fields known
    induction fields with
    | nil => exact Source.evalNamed_nil
    | cons f rest ih =>
      obtain ⟨inRecord, known⟩ := List.cons_subset.mp known
      rw [List.map_cons, Source.evalNamed_cons, (loads.builder_backs member usable).eval_backing holds self inRecord,
        ih known]
      simp
  rw [Source.send_instance (loads.class_builder member usable) usable.builder_build absent,
    invoked, Source.eval_call, Source.eval_name, cls, keywords _ (List.Subset.refl _)]
  simp

/-- Calls that give a builder values leave it with some of these, and with what it had of the other fields. -/
theorem send_gives {steps : List (ResolvedField × Datum L)} (inRecord : ∀ step ∈ steps, step.1 ∈ r.fields) :
    ∃ b' values', steps.foldlM (fun b step => send p b step.1.identifier [step.2]) b = pure b' ∧
      Holds [r.name, "Builder"] r values' b' ∧ ∀ f ∈ r.fields, values' f = values f ∨ (f, values' f) ∈ steps := by
  induction steps generalizing b values with
  | nil => exact ⟨b, values, rfl, holds, fun _ _ => .inl rfl⟩
  | cons step rest ih =>
    obtain ⟨first, inRecord⟩ := List.forall_mem_cons.mp inRecord
    obtain ⟨b₁, sent, holds⟩ := loads.send_give member usable holds first step.2
    obtain ⟨b₂, values', chained, holds, source⟩ := ih holds inRecord
    refine ⟨b₂, values', by rw [List.foldlM_cons, sent, pure_bind, chained], holds, fun f member => ?_⟩
    rcases source f member with kept | given
    · by_cases same : f.identifier = step.1.identifier
      · rw [if_pos same] at kept
        obtain rfl := List.inj_on_of_nodup_map usable.identifiers member first same
        exact .inr (kept ▸ List.mem_cons_self)
      · exact .inl (kept.trans (if_neg same))
    · exact .inr (List.mem_cons_of_mem _ given)

omit holds

/-- A chain of calls comes to one call of the constructor, which gives each field one of the values of the chain, or
none. -/
theorem fluent_eq {s : Schema} (describes : Describes s e) {steps : List (ResolvedField × Datum L)}
    (inRecord : ∀ step ∈ steps, step.1 ∈ r.fields) : ∃ values : ResolvedField → Datum L,
      (∀ f ∈ r.fields, values f = .none ∨ (f, values f) ∈ steps) ∧
      fluent p r steps = call p (.cls [r.name]) [] (r.fields.map fun f => (f.identifier, values f)) := by
  obtain ⟨b, new, holds⟩ := loads.send_builder (p := p) (L := L) member usable
  obtain ⟨b', values, chained, holds, source⟩ := loads.send_gives member usable holds inRecord
  refine ⟨values, source, ?_⟩
  rw [fluent, new, pure_bind, chained, pure_bind, loads.send_build member usable holds describes]

end Loads

end Tablewright.Access
