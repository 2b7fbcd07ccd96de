import Tablewright.Proofs.Access.Building
import Tablewright.Proofs.Access.Defaults

/-!
# Records and their items

A record that is stored as an item and read back.  What is read back starts as a new record, so a field that is not
stored comes back as what the constructor puts there.

* `kept`: the values that are stored; `Written`: what is stored of a value.
* `Loads.send_toItem`, `Loads.send_fromItem`: what the two methods do, whatever the fields hold.
* `Made`: the records that the constructor and the builder make of values of the right types.
* `ReadsBack`: a record and what is read back of it.
* `fromItem_toItem`: every record that is made can be stored and is read back.
-/

namespace Tablewright.Access

open Source (Expr Stmt Param Program Frame Flow Function Datum Library Outcome eval readName send getAttribute call invoke
  run runAll)

variable {L : Library} {p : Program} {σ : Frame L} {enums : List EnumType} {r : Record} {e : Entity}

/-! ## Stored values -/

/-- Whether a value of a field is stored: `None` is not, and a field that holds a set stores no empty set. -/
def kept (type : TypeRef) (v : Datum L) : Bool :=
  match type with
  | .set _ => v.truth
  | _ => !v.isNone

/-- What is stored of a value, if anything is. -/
def Written (p : Program) (type : TypeRef) (v : Datum L) (stored : Option (Datum L)) : Prop :=
  (kept type v = false ∧ stored = none) ∨ ∃ d, kept type v ∧ d ≠ .none ∧ Stores p type v d ∧ stored = some d

/-- What is read of an entry; where there is none, the value stays that of a new record. -/
def Read (p : Program) (type : TypeRef) (stored : Option (Datum L)) (start after : Datum L) : Prop :=
  (stored = none ∧ after = start) ∨ ∃ d, stored = some d ∧ d ≠ .none ∧ Restores p type d after

theorem eval_storedTest {f : ResolvedField} {v : Datum L} (evaluates : eval p σ (backingOf "self" f) = pure v) :
    ∃ d, eval p σ (storedTest f) = pure d ∧ d.truth = kept f.type v := by
  have test : eval p σ (Expr.isNotNone (backingOf "self" f)) = pure (.bool !v.isNone) := by
    rw [Source.eval_isNotNone, evaluates, pure_bind]
  unfold storedTest
  cases f.type with
  | set element => exact ⟨v, evaluates, rfl⟩
  | _ => exact ⟨_, test, rfl⟩

/-! ## Entries -/

def writeEntry (f : ResolvedField) : Stmt :=
  .ifThen (storedTest f) [Stmt.put (.name "item") f.storageName (toStorage 0 f.type (backingOf "self" f))]

/-- A field whose value can be stored gets its entry. -/
theorem Loads.run_writeEntry {s : Schema} (describes : Describes s e) (loads : Loads p e)
    (member : r ∈ e.record :: e.nested) (home : σ.home = (recordModule e.enums r).value.body)
    (locals : ∀ name, name ∉ ["self", "cls", "item", "entity"] → σ.locals name = none) {item : List (Datum L × Datum L)}
    {f : ResolvedField} (inRecord : f ∈ r.fields) {v : Datum L}
    (value : eval p (σ.put "item" (.dict item)) (backingOf "self" f) = pure v) {stored : Option (Datum L)}
    (written : Written p f.type v stored) :
    run p (σ.put "item" (.dict item)) (writeEntry f) =
      pure (.next (σ.put "item" (.dict (stored.elim item (Datum.put item (.text f.storageName)))))) := by
  obtain ⟨test, evaluates, truth⟩ := eval_storedTest value
  rw [writeEntry, Source.run_ifThen, evaluates, pure_bind, truth]
  rcases written with ⟨absent, rfl⟩ | ⟨d, present, -, stores, rfl⟩
  · rw [absent, if_neg Bool.false_ne_true]
    rfl
  · have reads : Reads p (σ.put "item" (.dict item)) f.type := by
      refine loads.reads describes member (σ := σ.put "item" (.dict item)) home (fun name other => ?_) inRecord
      rw [Frame.put_locals, if_neg, locals name other]
      rintro rfl
      exact other (by simp)
    rw [if_pos present, Source.runAll_single, Source.run_put (Frame.put_locals_self ..), stores _ 0 _ reads value,
      pure_bind, Frame.put_put]
    rfl

/-- Whatever a field holds, it leaves the entries of other names alone. -/
theorem run_writeEntry_returns {item : List (Datum L × Datum L)} {f : ResolvedField} {flow : Flow L}
    (ran : run p (σ.put "item" (.dict item)) (writeEntry f) = pure flow) :
    ∃ item', flow = .next (σ.put "item" (.dict item')) ∧
      ∀ name, name ≠ f.storageName → Datum.get? item' (.text name) = Datum.get? item (.text name) := by
  rw [writeEntry, Source.run_ifThen] at ran
  obtain ⟨test, -, ran⟩ := Outcome.bind_eq_pure ran
  by_cases present : test.truth
  · rw [if_pos present, Source.runAll_single, Source.run_put (Frame.put_locals_self ..)] at ran
    obtain ⟨d, -, ran⟩ := Outcome.bind_eq_pure ran
    rw [Frame.put_put] at ran
    refine ⟨_, (Outcome.pure_inj ran).symm, fun name other => ?_⟩
    rw [Datum.get?_put, if_neg other]
  · rw [if_neg present] at ran
    exact ⟨item, (Outcome.pure_inj ran).symm, fun _ _ => rfl⟩

/-- Whatever fields hold, they leave the entries of other names alone. -/
theorem runAll_writeEntry_returns {fields : List ResolvedField} {rest : List Stmt} {item : List (Datum L × Datum L)}
    {flow : Flow L} (ran : runAll p (σ.put "item" (.dict item)) (fields.map writeEntry ++ rest) = pure flow) :
    ∃ item', runAll p (σ.put "item" (.dict item')) rest = pure flow ∧
      ∀ name, name ∉ fields.map (·.storageName) → Datum.get? item' (.text name) = Datum.get? item (.text name) := by
  induction fields generalizing item with
  | nil => exact ⟨item, ran, fun _ _ => rfl⟩
  | cons f fields ih =>
    rw [List.map_cons, List.cons_append, Source.runAll_cons] at ran
    obtain ⟨next, first, ran⟩ := Outcome.bind_eq_pure ran
    obtain ⟨between, rfl, kept⟩ := run_writeEntry_returns first
    obtain ⟨item', ran, keptRest⟩ := ih ran
    refine ⟨item', ran, fun name other => ?_⟩
    rw [List.map_cons, List.mem_cons, not_or] at other
    rw [keptRest name other.2, kept name other.1]

namespace Loads

variable {s : Schema} (describes : Describes s e) (loads : Loads p e) (member : r ∈ e.record :: e.nested)
  (usable : Usable r)
include loads member usable

/-- The property of a field gives what the field holds. -/
theorem getAttribute_field {values : ResolvedField → Datum L} {x : Datum L} (holds : Holds [r.name] r values x)
    {f : ResolvedField} (inRecord : f ∈ r.fields) : getAttribute p x f.identifier = pure (values f) := by
  obtain ⟨attributes, rfl, -, -⟩ := id holds
  rw [Source.getAttribute_property (loads.class_record member) (usable.member_field inRecord),
    Source.invoke_result _ rfl rfl rfl rfl]
  exact (loads.backs member usable).eval_backing holds (Source.readName_local rfl) inRecord

include describes

/-- The item of a record has the entries of the fields that are stored. -/
theorem send_toItem {values : ResolvedField → Datum L} {x : Datum L} (holds : Holds [r.name] r values x)
    {stored : ResolvedField → Option (Datum L)} (written : ∀ f ∈ r.fields, Written p f.type (values f) (stored f)) :
    ∃ item, send p x "to_item" [] = pure (.dict item) ∧
      ∀ f ∈ r.fields, Datum.get? item (.text f.storageName) = stored f := by
  obtain ⟨attributes, rfl, -, only⟩ := id holds
  have absent : attributes.lookup "to_item" = none := by
    refine only _ fun taken => ?_
    obtain ⟨g, inRecord, same⟩ := List.mem_map.mp taken
    exact backing_ne_of_mem (by decide) g.identifier same.symm
  have backs := loads.backs member usable
  let x : Datum L := .object [r.name] attributes
  let scope : Frame L := ⟨(recordModule e.enums r).value.body, fun id => [("self", x)].lookup id⟩
  -- each statement of the body puts one entry, or none, so that the body is a fold over the fields
  let step (item : List (Datum L × Datum L)) (f : ResolvedField) : List (Datum L × Datum L) :=
    (stored f).elim item (Datum.put item (.text f.storageName))
  have each : ∀ f ∈ r.fields, ∀ item, run p (scope.put "item" (.dict item)) (writeEntry f) =
      pure (.next (scope.put "item" (.dict (step item f)))) := by
    intro f inRecord item
    have value : eval p (scope.put "item" (.dict item)) (backingOf "self" f) = pure (values f) := by
      refine backs.eval_backing holds ?_ inRecord
      rw [Source.readName_put, if_neg (by decide), Source.readName_local rfl]
    refine loads.run_writeEntry describes member rfl (fun name other => ?_) inRecord value (written f inRecord)
    simp only [List.mem_cons, not_or] at other
    simp [scope, Datum.lookup_cons_ite, other]
  have ran := Source.runAll_foldl (fun item => scope.put "item" (.dict item)) each []
  have built := @Source.get?_foldl L ResolvedField (·.storageName) stored r.fields usable.storageNames []
  refine ⟨r.fields.foldl step [], ?_, fun f inRecord => (built f inRecord).trans (Option.or_none ..)⟩
  have invoked : invoke p (recordCls e.enums r).home (toItemFunction r) [x] [] = (do
      let flow ← runAll p scope (toItemFunction r).body
      pure flow.returned) := Source.invoke_given _ rfl rfl rfl
  have empty : run p scope (.annotated "item" itemType (some (.dict []))) = pure (.next (scope.put "item" (.dict []))) := by
    rw [Source.run_annotated, Source.eval_empty, pure_bind]
  have body : (toItemFunction r).body = .annotated "item" itemType (some (.dict []))
      :: (r.fields.map writeEntry ++ [.result (.name "item")]) := rfl
  rw [Source.send_instance (loads.class_record member) (member_toItem _ r) absent, invoked, body,
    Source.runAll_next empty, Source.runAll_append_next ran]
  simp [Source.runAll_single, Source.readName_put, Source.Flow.returned]

/-- A record that is read from an item holds what its entries give, and what a new record holds of the fields without
entries. -/
theorem send_fromItem {start : ResolvedField → Datum L} {blank : Datum L}
    (new : call p (.cls [r.name]) [] [] = pure blank) (holds : Holds [r.name] r start blank)
    {item : List (Datum L × Datum L)} {stored : ResolvedField → Option (Datum L)}
    (entries : ∀ f ∈ r.fields, Datum.get? item (.text f.storageName) = stored f) {after : ResolvedField → Datum L}
    (read : ∀ f ∈ r.fields, Read p f.type (stored f) (start f) (after f)) :
    ∃ y, send p (.cls [r.name]) "from_item" [.dict item] = pure y ∧ Holds [r.name] r after y := by
  obtain ⟨attributes, rfl, has, only⟩ := holds
  have backs := loads.backs member usable
  let scope : Frame L := ⟨(recordModule e.enums r).value.body, fun id =>
    [("cls", .cls [r.name]), ("item", .dict item)].lookup id⟩
  -- each statement sets one attribute, or leaves it as the constructor did
  let found (f : ResolvedField) : Option (Datum L) := (stored f).map fun _ => after f
  let step (attributes : List (String × Datum L)) (f : ResolvedField) : List (String × Datum L) :=
    (found f).elim attributes (Datum.putAttribute attributes (backing f.identifier))
  have each : ∀ f ∈ r.fields, ∀ attributes, run p (scope.put "entity" (.object [r.name] attributes))
      (.ifThen (Expr.isNotNone (Expr.method (.name "item") "get" [Expr.text f.storageName]))
        [setBacking "entity" f (fromStorage 0 f.type (.subscript (.name "item") (Expr.text f.storageName)))]) =
      pure (.next (scope.put "entity" (.object [r.name] (step attributes f)))) := by
    intro f inRecord attributes
    have known : readName p (scope.put "entity" (.object [r.name] attributes)) "item" = pure (.dict item) := by
      rw [Source.readName_put, if_neg (by decide), Source.readName_local rfl]
    rw [Source.run_ifThen, Source.eval_isNotNone, Source.eval_get known, entries f inRecord]
    rcases read f inRecord with ⟨nothing, -⟩ | ⟨d, some, present, restores⟩
    · simp [nothing, step, found, Datum.isNone, Datum.truth]
    · have reads : Reads p (scope.put "entity" (.object [r.name] attributes)) f.type := by
        refine loads.reads describes member rfl (fun name other => ?_) inRecord
        simp only [List.mem_cons, not_or] at other
        simp [scope, Datum.lookup_cons_ite, other]
      have isSome : d.isNone = false := Datum.isNone_eq_false_iff.mpr present
      have entry := Source.eval_entry known ((entries f inRecord).trans some)
      simp only [some, Option.getD_some, pure_bind, isSome, Datum.truth, Bool.not_false, if_true]
      rw [Source.runAll_single, backs.run_setBacking (Frame.put_locals_self ..) inRecord, restores _ 0 _ reads entry,
        pure_bind, Frame.put_put]
      simp [step, found, some]
  have ran := Source.runAll_foldl (fun attributes => scope.put "entity" (.object [r.name] attributes)) each attributes
  have filled := @Source.lookup_foldl L ResolvedField (fun f => backing f.identifier) found r.fields usable.backings
    attributes
  refine ⟨.object [r.name] (r.fields.foldl step attributes), ?_, _, rfl, fun f inRecord => ?_, fun name other => ?_⟩
  · have invoked : invoke p (recordCls e.enums r).home (fromItemFunction r) [.cls [r.name], .dict item] [] = (do
        let flow ← runAll p scope (fromItemFunction r).body
        pure flow.returned) := Source.invoke_given _ rfl rfl rfl
    have empty : run p scope (Stmt.bind "entity" (Expr.apply "cls" [])) =
        pure (.next (scope.put "entity" (.object [r.name] attributes))) := by
      rw [Source.run_bind, Expr.apply, Source.eval_call, Source.eval_name, Source.readName_local (σ := scope) rfl]
      simp [new]
    rw [Source.send_classMethod (loads.class_record member) rfl (member_fromItem e.enums r), invoked, fromItemFunction,
      List.cons_append, Source.runAll_next empty, Source.runAll_append_next ran]
    simp [Source.runAll_single, Source.readName_put, Source.Flow.returned]
  · rw [filled.1 f inRecord, has f inRecord]
    rcases read f inRecord with ⟨nothing, same⟩ | ⟨d, some, -, -⟩
    · simp [found, nothing, same]
    · simp [found, some]
  · exact (filled.2 name other).trans (only name other)

end Loads

/-! ## Records that are made and read back -/

def Listed (p : Program) (name : String) (m : Datum L) : Prop := ∃ constant, getAttribute p (.cls [name]) constant = pure m

/-- The records that the constructors and the builders of a description make of values of the right types. -/
inductive Made (p : Program) (e : Entity) : String → Datum L → Prop
  | called {r : Record} (member : r ∈ e.record :: e.nested) {args : List (Datum L)} {named : List (String × Datum L)}
      {x : Datum L} (positional : ∀ f v, (f, v) ∈ r.fields.zip args → v ≠ .none → Typed (Made p e) (Listed p) f.type v)
      (byName : ∀ f ∈ r.fields, ∀ v, (f.identifier, v) ∈ named → v ≠ .none → Typed (Made p e) (Listed p) f.type v)
      (called : call p (.cls [r.name]) args named = pure x) : Made p e r.name x
  | built {r : Record} (member : r ∈ e.record :: e.nested) {steps : List (ResolvedField × Datum L)} {x : Datum L}
      (inRecord : ∀ step ∈ steps, step.1 ∈ r.fields)
      (typed : ∀ step ∈ steps, step.2 ≠ .none → Typed (Made p e) (Listed p) step.1.type step.2)
      (built : fluent p r steps = pure x) : Made p e r.name x

/-- A field that holds an empty set; this is not stored. -/
def Emptied (type : TypeRef) (v : Datum L) : Prop := v = .set [] ∧ ∃ element, type = .set element

/-- A record and what is read back of it: every field comes back, and where it held an empty set it comes back as
what a new record holds, which is `None` unless the schema gives an initial value. -/
inductive ReadsBack (p : Program) (e : Entity) : String → Datum L → Datum L → Prop
  | fields {r : Record} (member : r ∈ e.record :: e.nested) {x y blank : Datum L}
      {before after start : ResolvedField → Datum L} (new : call p (.cls [r.name]) [] [] = pure blank)
      (started : ∀ f ∈ r.fields, getAttribute p blank f.identifier = pure (start f))
      (unset : ∀ f ∈ r.fields, f.field.hasDefault = false → start f = .none)
      (held : ∀ f ∈ r.fields, getAttribute p x f.identifier = pure (before f))
      (read : ∀ f ∈ r.fields, getAttribute p y f.identifier = pure (after f))
      (alike : ∀ f ∈ r.fields, ¬ Emptied f.type (before f) → Alike (ReadsBack p e) f.type (before f) (after f))
      (emptied : ∀ f ∈ r.fields, Emptied f.type (before f) → after f = start f) : ReadsBack p e r.name x y

/-- A record that can be stored as an item and is read back. -/
def ComesBack (p : Program) (e : Entity) (name : String) (x : Datum L) : Prop :=
  ∃ item y, send p x "to_item" [] = pure (.dict item) ∧ send p (.cls [name]) "from_item" [.dict item] = pure y ∧
    ReadsBack p e name x y

/-- What a value that is not kept is: nothing, or an empty set. -/
theorem not_kept {type : TypeRef} {v : Datum L} (shape : ∀ element, type = .set element → v = .none ∨ ∃ items, v = .set items)
    (absent : kept type v = false) : v = .none ∨ Emptied type v := by
  by_cases isSet : ∃ element, type = .set element
  · obtain ⟨element, rfl⟩ := isSet
    rcases shape element rfl with nothing | ⟨items, rfl⟩
    · exact .inl nothing
    · obtain rfl : items = [] := by simpa [kept, Datum.truth] using absent
      exact .inr ⟨rfl, element, rfl⟩
  · left
    have plain : kept type v = !v.isNone := by
      cases type with
      | set element => exact absurd ⟨element, rfl⟩ isSet
      | _ => rfl
    exact Datum.isNone_iff.mp (by simpa [plain] using absent)

/-- A field comes back where its values do. -/
theorem field_comesBack {type : TypeRef} {v start : Datum L} {related : String → Datum L → Datum L → Prop}
    (shape : ∀ element, type = .set element → v = .none ∨ ∃ items, v = .set items) (absent : v = .none → start = .none)
    (returns : v ≠ .none → ∃ w, Alike related type v w ∧ Returns p type v w) :
    ∃ stored after, Written p type v stored ∧ Read p type stored start after ∧
      (¬ Emptied type v → Alike related type v after) ∧ (Emptied type v → after = start) := by
  cases keeps : kept type v with
  | false =>
    refine ⟨none, start, .inl ⟨keeps, rfl⟩, .inl ⟨rfl, rfl⟩, fun other => ?_, fun _ => rfl⟩
    rcases not_kept shape keeps with rfl | empty
    · rw [absent rfl]
      exact .same _
    · exact absurd empty other
  | true =>
    have present : v ≠ .none := by
      rintro rfl
      cases type <;> cases keeps
    obtain ⟨w, alike, d, some, stores, restores⟩ := returns present
    refine ⟨d, w, .inr ⟨d, keeps, some, stores, rfl⟩, .inr ⟨d, rfl, some, restores⟩, fun _ => alike, ?_⟩
    rintro ⟨rfl, element, rfl⟩
    cases keeps

section

variable {s : Schema} (describes : Describes s e) (member : r ∈ e.record :: e.nested)
include describes member

theorem field_mapped {f : ResolvedField} (inRecord : f ∈ r.fields) : f.type.Mapped := by
  obtain ⟨scope, -, fields, -⟩ := describes.scope member
  rw [fields, mapFields_fields] at inRecord
  obtain ⟨g, -, rfl⟩ := List.mem_map.mp inRecord
  exact mapField_mapped r.name g

variable (loads : Loads p e) (faithful : L.Faithful)
include loads

theorem Loads.converts {f : ResolvedField} (inRecord : f ∈ r.fields) :
    Converts p (@ComesBack L p e) (Listed p) (ReadsBack p e) f.type := by
  refine ⟨fun name _ x back => back, fun name mentioned m listed => ?_⟩
  obtain ⟨constant, gives⟩ := listed
  exact (loads.constant_comesBack ((describes.provided member inRecord).enums name mentioned) gives).2

include faithful

/-- What a field holds of a new record comes back: what it is given, or else what it starts with. -/
theorem initially_comesBack {start given : ResolvedField → Datum L} (starts : Starts p e.enums r start)
    {f : ResolvedField} (inRecord : f ∈ r.fields)
    (typed : given f ≠ .none → Typed (ComesBack p e) (Listed p) f.type (given f)) :
    ∃ stored after, Written p f.type (initially start given f) stored ∧ Read p f.type stored (start f) after ∧
      (¬ Emptied f.type (initially start given f) → Alike (ReadsBack p e) f.type (initially start given f) after) ∧
      (Emptied f.type (initially start given f) → after = start f) := by
  by_cases absent : given f = .none
  · have same : initially start given f = start f := by simp [initially, absent, Datum.isNone]
    rw [same]
    rcases starts f inRecord with ⟨-, nothing⟩ | ⟨default, -, initial⟩
    · rw [nothing]
      exact field_comesBack (fun _ _ => .inl rfl) id fun present => absurd rfl present
    · exact field_comesBack (fun element isSet => .inr (initial.set element isSet)) id
        fun _ => ⟨start f, .same _, initial.returns⟩
  · have some : (given f).isNone = false := Datum.isNone_eq_false_iff.mpr absent
    have same : initially start given f = given f := by simp [initially, some]
    rw [same]
    refine field_comesBack (fun element isSet => ?_) (fun nothing => absurd nothing absent)
      fun present => (typed absent).returns faithful (field_mapped describes member inRecord) present
        (loads.converts describes member inRecord)
    have typed := typed absent
    generalize given f = v at typed
    rw [isSet] at typed
    cases typed with
    | set different each => exact .inr ⟨_, rfl⟩

/-- A call of a class with values that come back makes a record that comes back. -/
theorem call_comesBack (usable : Usable r) {blank x : Datum L} (new : call p (.cls [r.name]) [] [] = pure blank)
    {args : List (Datum L)} {named : List (String × Datum L)} (called : call p (.cls [r.name]) args named = pure x)
    (typed : ∀ f ∈ r.fields, givenBy r args named f ≠ .none →
      Typed (ComesBack p e) (Listed p) f.type (givenBy r args named f)) : ComesBack p e r.name x := by
  obtain ⟨start, starts, blankHolds⟩ := exists_starts describes loads member usable faithful new
  have holds := starts.call_holds usable loads member called
  let before := initially start (givenBy r args named)
  have each : ∀ f, ∃ stored after, f ∈ r.fields → Written p f.type (before f) stored ∧
      Read p f.type stored (start f) after ∧
      (¬ Emptied f.type (before f) → Alike (ReadsBack p e) f.type (before f) after) ∧
      (Emptied f.type (before f) → after = start f) := by
    intro f
    by_cases inRecord : f ∈ r.fields
    · obtain ⟨stored, after, back⟩ :=
        initially_comesBack describes member loads faithful starts inRecord (typed f inRecord)
      exact ⟨stored, after, fun _ => back⟩
    · exact ⟨none, .none, fun inside => absurd inside inRecord⟩
  choose stored after back using each
  obtain ⟨item, written, entries⟩ := loads.send_toItem describes member usable holds fun f inRecord => (back f inRecord).1
  obtain ⟨y, read, readHolds⟩ := loads.send_fromItem describes member usable new blankHolds entries
    fun f inRecord => (back f inRecord).2.1
  exact ⟨item, y, written, read, .fields member new
    (fun f inRecord => loads.getAttribute_field member usable blankHolds inRecord)
    (fun f inRecord noDefault => starts.unset inRecord noDefault)
    (fun f inRecord => loads.getAttribute_field member usable holds inRecord)
    (fun f inRecord => loads.getAttribute_field member usable readHolds inRecord)
    (fun f inRecord => (back f inRecord).2.2.1) (fun f inRecord => (back f inRecord).2.2.2)⟩

end

/-- A record that is made of values of the right types can be stored as an item, and what is read back of that holds
the same values; only the sets that were empty hold what they hold in a new record. -/
theorem fromItem_toItem {s : Schema} (uncollided : collisions s.fields = []) (described : (describe s).value = .ok e)
    (separate : ∀ r ∈ e.record :: e.nested, Separate r) (loads : Loads p e) (faithful : L.Faithful)
    (new : ∀ r ∈ e.record :: e.nested, ∃ blank : Datum L, call p (.cls [r.name]) [] [] = pure blank) {name : String}
    {x : Datum L} (made : Made p e name x) : ComesBack p e name x := by
  have describes := describe_ok described
  have usable : ∀ r ∈ e.record :: e.nested, Usable r :=
    fun r member => ⟨separate r member, describes.identifiers_nodup uncollided member⟩
  -- a record is made of values that contain records which are made before it
  refine Made.rec (motive_1 := fun name x _ => ComesBack p e name x)
    (motive_2 := fun type v _ => Typed (ComesBack p e) (Listed p) type v) ?called ?built .string .number .boolean .timestamp
    (fun _ each => .list each) (fun different _ each => .set different each) (fun _ made => .record made)
    (fun listed => .enum listed) .any made
  case called =>
    intro r member args named x _ _ called positional byName
    obtain ⟨blank, new⟩ := new r member
    refine call_comesBack describes member loads faithful (usable r member) new called fun f inRecord present => ?_
    rcases @Usable.givenBy_spec L r (usable r member) args named f inRecord with absent | given | given
    · exact absurd absent present
    · exact positional f _ given present
    · exact byName f inRecord _ given present
  case built =>
    intro r member steps x inRecord _ built typed
    obtain ⟨blank, new⟩ := new r member
    obtain ⟨values, source, same⟩ := @Loads.fluent_eq L p r e loads member (usable r member) s describes steps inRecord
    refine call_comesBack describes member loads faithful (usable r member) new (same.symm.trans built)
      fun f inRecord' present => ?_
    rcases @Usable.givenBy_spec L r (usable r member) [] _ f inRecord' with absent | given | given
    · exact absurd absent present
    · simp at given
    · obtain ⟨g, inRecord'', both⟩ := List.mem_map.mp given
      obtain ⟨sameName, sameValue⟩ := Prod.mk.inj both
      obtain rfl := List.inj_on_of_nodup_map (usable r member).identifiers inRecord'' inRecord' sameName
      rw [← sameValue] at present ⊢
      rcases source g inRecord' with absent | step
      · exact absurd absent present
      · exact typed (g, values g) step present

/-! ## Articles -/

def skuField : Field := { bareField "sku" "string" with required := true }

/-- The labels of an article; a new one has a label that says so. -/
def labelsField : Field := { bareField "labels" "string-set" with default := .list [.text "new"] }

def shopArticle : Schema :=
  { entityName := some "Article"
    primaryKey := ⟨"sku", none⟩
    fields := [skuField, labelsField]
    description := none
    schemaVersion := none }

/-- A program with the class of an entity that has no other types. -/
def entityProgram (e : Entity) : Program :=
  ⟨fun name => if name = e.record.name then some (recordModule e.enums e.record).value else none⟩

theorem entityProgram_loads (nested : e.nested = []) (enums : e.enums = []) (free : e.record.name ∉ moduleNames) :
    Loads (entityProgram e) e := by
  refine ⟨fun r member => ?_, fun t member => ?_, fun name member => ?_⟩
  · rw [nested] at member
    obtain rfl := List.mem_singleton.mp member
    exact if_pos rfl
  · rw [enums] at member
    cases member
  · simp only [nested, enums, List.map_cons, List.map_nil, List.append_nil, List.mem_singleton] at member
    rw [member]
    exact free

/-- The description of articles. -/
structure DescribesArticles (e : Entity) : Prop where
  described : (describe shopArticle).value = .ok e
  name : e.record.name = "Article"
  nested : e.nested = []
  enums : e.enums = []
  fields : e.record.fields = [⟨skuField, "sku", .scalar .string⟩, ⟨labelsField, "labels", .set .string⟩]

theorem shopArticle_described : ∃ e, DescribesArticles e := by
  have accepted : (describe shopArticle).value.isOk := by decide +kernel
  cases outcome : (describe shopArticle).value with
  | error shared => simp [outcome, Except.isOk, Except.toBool] at accepted
  | ok e =>
    have describes := describe_ok outcome
    refine ⟨e, outcome, describes.name, ?_, ?_, ?_⟩
    · rw [describes.nested]
      rfl
    · rw [describes.enums]
      rfl
    · rw [describes.fields]
      rfl

namespace DescribesArticles

variable (articles : DescribesArticles e)
include articles

theorem loads : Loads (entityProgram e) e :=
  entityProgram_loads articles.nested articles.enums (by rw [articles.name]; decide)

theorem separate : ∀ r ∈ e.record :: e.nested, Separate r := by
  rw [articles.nested]
  refine List.forall_mem_singleton.mpr ?_
  constructor <;> rw [articles.fields] <;> decide

theorem usable : Usable e.record :=
  ⟨articles.separate e.record List.mem_cons_self, by rw [articles.fields]; decide⟩

theorem labels : (⟨labelsField, "labels", .set .string⟩ : ResolvedField) ∈ e.record.fields := by
  simp [articles.fields]

/-- A new article has the label that says so. -/
theorem starts (faithful : L.Faithful) : Starts (entityProgram e) e.enums e.record
    (fun f => if f.identifier = "labels" then (.set [.text "new"] : Datum L) else .none) := by
  have new : ∀ (given : ResolvedField → Datum L) (σ : Frame L), Receives e.enums e.record given σ →
      eval (entityProgram e) σ (Expr.apply "set" [Expr.ofValue (.list [.text "new"])]) = pure (.set [.text "new"]) := by
    intro given σ receives
    have set : readName (entityProgram e) σ "set" = pure (.builtin "set") := by
      rw [receives.readName_top (by decide) (by rw [articles.fields]; decide)]
      exact articles.loads.readName_builtin (describe_ok articles.described) List.mem_cons_self rfl (fun _ _ => rfl)
        (by decide)
    have list : eval (entityProgram e) σ (Expr.ofValue (.list [.text "new"])) = pure (.list [.text "new"]) := by
      rw [Expr.ofValue, Source.eval_list]
      simp [Expr.ofValues, Expr.ofValue, Datum.ofValue?]
    rw [Source.eval_apply set list, Source.call_builtin]
    rfl
  have members : SetMembers .string [(.text "new" : Datum L)] :=
    ⟨by simp [Datum.isScalar], List.pairwise_singleton _ _, by simp⟩
  rw [Starts, articles.fields]
  refine List.forall_mem_cons.mpr ⟨.inl ⟨rfl, rfl⟩, List.forall_mem_singleton.mpr (.inr ⟨_, rfl, ?_⟩)⟩
  exact ⟨by simp, returns_set faithful members, fun _ _ => ⟨_, rfl⟩, new⟩

/-- An article can be made of nothing. -/
theorem blank (faithful : L.Faithful) : ∃ x : Datum L, call (entityProgram e) (.cls [e.record.name]) [] [] = pure x ∧
    Holds [e.record.name] e.record (fun f => if f.identifier = "labels" then .set [.text "new"] else .none) x := by
  have usable := articles.usable
  have accepts : (initFunction e.enums e.record).signature.accepts [(.object [e.record.name] [] : Datum L)] [] := by
    simp [Source.Signature.accepts, initFunction, articles.fields]
  obtain ⟨x, called, holds⟩ := (articles.starts faithful).call_returns usable articles.loads List.mem_cons_self accepts
  exact ⟨x, called, holds.congr fun f inRecord => by simp [initially, usable.givenBy_nil inRecord, Datum.isNone]⟩

/-- An article can be made without labels. -/
theorem unlabelled (faithful : L.Faithful) : ∃ x : Datum L,
    call (entityProgram e) (.cls [e.record.name]) [.text "7", .set []] [] = pure x ∧
      Made (entityProgram e) e e.record.name x ∧
      Holds [e.record.name] e.record (fun f => if f.identifier = "labels" then .set [] else .text "7") x := by
  have usable := articles.usable
  have accepts : (initFunction e.enums e.record).signature.accepts
      [(.object [e.record.name] [] : Datum L), .text "7", .set []] [] := by
    simp [Source.Signature.accepts, initFunction, articles.fields]
  obtain ⟨x, called, holds⟩ := (articles.starts faithful).call_returns usable articles.loads List.mem_cons_self accepts
  refine ⟨x, called, ?_, holds.congr ?_⟩
  · refine .called List.mem_cons_self (fun f v given present => ?_)
      (fun _ _ _ given => absurd given List.not_mem_nil) called
    rw [articles.fields] at given
    simp only [List.zip_cons_cons, List.zip_nil_left, List.mem_cons, List.not_mem_nil, or_false, Prod.mk.injEq] at given
    rcases given with ⟨rfl, rfl⟩ | ⟨rfl, rfl⟩
    · exact .string "7"
    · exact .set .nil (by simp)
  · simp [articles.fields, initially, givenBy, supplied, Datum.lookup_cons_ite, Datum.isNone]

end DescribesArticles

/-- An article without labels comes back. -/
theorem shopArticle_comesBack : ∃ e, (describe shopArticle).value = .ok e ∧ ∃ x : Datum Library.plain,
    call (entityProgram e) (.cls ["Article"]) [.text "7", .set []] [] = pure x ∧
      ComesBack (entityProgram e) e "Article" x := by
  obtain ⟨e, articles⟩ := shopArticle_described
  obtain ⟨x, called, made, -⟩ := articles.unlabelled Library.plain_faithful
  refine ⟨e, articles.described, x, articles.name ▸ called, ?_⟩
  rw [← articles.name]
  refine fromItem_toItem (by decide +kernel) articles.described articles.separate articles.loads Library.plain_faithful
    ?_ made
  rw [articles.nested]
  exact List.forall_mem_singleton.mpr ((articles.blank Library.plain_faithful).imp fun _ new => new.1)

/-- An article without labels comes back with the label of a new one. -/
theorem shopArticle_relabelled : ∃ e, (describe shopArticle).value = .ok e ∧ ∃ x y : Datum Library.plain, ∃ item,
    call (entityProgram e) (.cls ["Article"]) [.text "7", .set []] [] = pure x ∧ Made (entityProgram e) e "Article" x ∧
    send (entityProgram e) x "to_item" [] = pure (.dict item) ∧
    send (entityProgram e) (.cls ["Article"]) "from_item" [.dict item] = pure y ∧
    getAttribute (entityProgram e) x "labels" = pure (.set []) ∧
    getAttribute (entityProgram e) y "labels" = pure (.set [.text "new"]) := by
  obtain ⟨e, articles⟩ := shopArticle_described
  have describes := describe_ok articles.described
  have usable := articles.usable
  obtain ⟨x, called, made, holds⟩ := articles.unlabelled Library.plain_faithful
  obtain ⟨blank, new, blankHolds⟩ := articles.blank Library.plain_faithful
  let before (f : ResolvedField) : Datum Library.plain := if f.identifier = "labels" then .set [] else .text "7"
  let stored (f : ResolvedField) : Option (Datum Library.plain) :=
    if f.identifier = "labels" then none else some (.text "7")
  let start (f : ResolvedField) : Datum Library.plain := if f.identifier = "labels" then .set [.text "new"] else .none
  let after (f : ResolvedField) : Datum Library.plain :=
    if f.identifier = "labels" then .set [.text "new"] else .text "7"
  -- the empty set is not stored, and what is not stored is read as the default
  have writes : ∀ f ∈ e.record.fields, Written (entityProgram e) f.type (before f) (stored f) := by
    rw [articles.fields]
    refine List.forall_mem_cons.mpr ⟨.inr ⟨.text "7", rfl, by simp, stores_self (fun _ _ => rfl) _, rfl⟩, ?_⟩
    exact List.forall_mem_singleton.mpr (.inl ⟨rfl, rfl⟩)
  have restores : ∀ f ∈ e.record.fields, Read (entityProgram e) f.type (stored f) (start f) (after f) := by
    rw [articles.fields]
    refine List.forall_mem_cons.mpr ⟨.inr ⟨.text "7", rfl, by simp, restores_self (fun _ _ => rfl) _⟩, ?_⟩
    exact List.forall_mem_singleton.mpr (.inl ⟨rfl, rfl⟩)
  obtain ⟨item, written, entries⟩ := articles.loads.send_toItem describes List.mem_cons_self usable holds writes
  obtain ⟨y, read, readHolds⟩ :=
    articles.loads.send_fromItem describes List.mem_cons_self usable new blankHolds entries restores
  have reads {z : Datum Library.plain} {values : ResolvedField → Datum Library.plain}
      (holds : Holds [e.record.name] e.record values z) :=
    articles.loads.getAttribute_field List.mem_cons_self usable holds articles.labels
  refine ⟨e, articles.described, x, y, item, ?_⟩
  rw [← articles.name]
  exact ⟨called, made, written, read, reads holds, reads readHolds⟩

end Tablewright.Access
