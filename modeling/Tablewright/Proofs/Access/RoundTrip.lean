import Tablewright.Proofs.Access.Conversion
import Tablewright.Proofs.Lists
import Tablewright.Proofs.Source.Running

/-!
# Stored values come back

The stored form of a value and the reading of a stored form are two expressions, built from the type of a
field by two recursions that take different short cuts.  Run one after the other they give the value back.
This holds for the types that fields are given: a list of lists, say, is read without looking into it.

* `TypeRef.Mapped`: the types that fields are given.
* `Typed`: the values of a type; `Reads`: the names that conversions read mean what they are written for.
* `Stores`, `Restores`: what the two expressions come to, whatever scope they are run in.
* `fromStorage_toStorage`: the value comes back.
-/

namespace Tablewright

open Source (Expr Program Frame Datum Library Outcome eval readName send getAttribute call)

/-- The types that fields are given: a list holds the values of a kind, or records under a name of their own. -/
inductive TypeRef.Mapped : TypeRef → Prop
  | kind (kind : Kind) : Mapped (.ofKind kind)
  | enum (name : String) : Mapped (.enum name)
  | record (name : String) : Mapped (.record name)
  | kinds (kind : Kind) : Mapped (.list (.ofKind kind))
  | records (name : String) : Mapped (.list (.record (name ++ "Item")))

theorem mapField_mapped (owner : String) (f : Field) : (mapField owner f).1.Mapped := by
  obtain ⟨d, fields, itemType, itemFields⟩ := f
  rw [mapField.eq_def]
  by_cases isEnum : d.isEnum
  · simpa [isEnum] using TypeRef.Mapped.enum _
  · simp only [isEnum, Bool.false_eq_true, if_false]
    cases d.kind with
    | map =>
      by_cases empty : fields = []
      · simpa [empty, TypeRef.ofKind] using TypeRef.Mapped.kind .map
      · simpa [empty] using TypeRef.Mapped.record _
    | list =>
      cases itemType with
      | none => exact .kind .list
      | some itemType =>
        by_cases isRecord : Kind.ofName itemType = .map ∧ itemFields ≠ []
        · simpa [isRecord.1, isRecord.2] using TypeRef.Mapped.records _
        · simpa [isRecord, mapName, TypeRef.ofName] using TypeRef.Mapped.kinds (Kind.ofName itemType)
    | _ => exact .kind (Kind.ofName d.typeName)

namespace Access

variable {L : Library} {p : Program} {σ : Frame L} {type : TypeRef}

/-! ## Values and names -/

/-- The values of a type, for given instances of records and given members of enums. -/
inductive Typed (instances members : String → Datum L → Prop) : TypeRef → Datum L → Prop
  | string (s : String) : Typed instances members (.scalar .string) (.text s)
  | number (d : L.Decimal) : Typed instances members (.scalar .number) (.decimal d)
  | boolean (b : Bool) : Typed instances members (.scalar .boolean) (.bool b)
  | timestamp (t : L.Time) : Typed instances members (.scalar .timestamp) (.time t)
  | list {element : TypeRef} {items : List (Datum L)} (typed : ∀ v ∈ items, Typed instances members element v) :
      Typed instances members (.list element) (.list items)
  | set {element : Scalar} {items : List (Datum L)}
      (different : items.Pairwise fun v w => v.same w = false)
      (typed : ∀ v ∈ items, Typed instances members (.scalar element) v) :
      Typed instances members (.set element) (.set items)
  | record {name : String} {v : Datum L} (made : instances name v) : Typed instances members (.record name) v
  | enum {name : String} {v : Datum L} (listed : members name v) : Typed instances members (.enum name) v
  | any (v : Datum L) : Typed instances members .any v

def scalars : TypeRef → List Scalar
  | .scalar kind => [kind]
  | .list element => scalars element
  | .set element => [element]
  | _ => []

/-- The names that the conversions of a type read mean what they are written for. -/
structure Reads (p : Program) (σ : Frame L) (type : TypeRef) : Prop where
  list : readName p σ "list" = pure (.builtin "list")
  set : readName p σ "set" = pure (.builtin "set")
  str : readName p σ "str" = pure (.builtin "str")
  decimal : .number ∈ scalars type → readName p σ "Decimal" = pure (.imported "Decimal")
  datetime : .timestamp ∈ scalars type → readName p σ "datetime" = pure (.imported "datetime")
  types : ∀ name ∈ type.recordNames ++ type.enumNames, readName p σ name = pure (.cls [name])

/-- The variable of a comprehension is a word and digits. -/
theorem elementName_spelled (depth : Nat) :
    ∃ digits : List Char, (elementName depth).toList = "element".toList ++ digits ∧ ∀ c ∈ digits, c.isDigit := by
  unfold elementName
  split
  · exact ⟨[], by simp, by simp⟩
  · refine ⟨Nat.toDigits 10 depth, ?_, fun c member => Nat.isDigit_of_mem_toDigits (by omega) (by omega) member⟩
    change ("element" ++ toString depth).toList = _
    rw [String.toList_append, Nat.toString_eq_repr, Nat.toList_repr]

theorem ne_elementName {name : String} (other : ¬ "element".toList <+: name.toList) (depth : Nat) :
    name ≠ elementName depth := by
  rintro rfl
  obtain ⟨digits, spelled, -⟩ := elementName_spelled depth
  exact other (spelled ▸ List.prefix_append _ _)

/-- The records of a list are not called like the variable of a comprehension. -/
theorem item_ne_elementName (name : String) (depth : Nat) : name ++ "Item" ≠ elementName depth := by
  intro same
  obtain ⟨digits, spelled, areDigits⟩ := elementName_spelled depth
  have last : ("element".toList ++ digits).getLast? = some 'm' := by
    rw [← spelled, ← same, String.toList_append, List.getLast?_append_of_ne_nil _ (by decide)]
    decide
  rcases List.eq_nil_or_concat digits with rfl | ⟨rest, c, rfl⟩
  · exact absurd last (by decide)
  · rw [List.concat_eq_append, ← List.append_assoc, List.getLast?_concat] at last
    obtain rfl := Option.some.inj last
    exact absurd (areDigits 'm' (by simp)) (by decide)

/-! ## Conversions, run in any scope -/

/-- Running the stored form of a value gives a datum. -/
def Stores (p : Program) (type : TypeRef) (v d : Datum L) : Prop :=
  ∀ (σ : Frame L) (depth : Nat) (value : Expr), Reads p σ type → eval p σ value = pure v →
    eval p σ (toStorage depth type value) = pure d

def Restores (p : Program) (type : TypeRef) (d v : Datum L) : Prop :=
  ∀ (σ : Frame L) (depth : Nat) (stored : Expr), Reads p σ type → eval p σ stored = pure d →
    eval p σ (fromStorage depth type stored) = pure v

namespace Reads

/-- Another name does not change what the names mean. -/
theorem put (reads : Reads p σ type) {other : String} (v : Datum L)
    (fixed : other ∉ ["list", "set", "str", "Decimal", "datetime"]) (free : other ∉ type.recordNames ++ type.enumNames) :
    Reads p (σ.put other v) type := by
  have kept : ∀ {name : String}, name ≠ other → readName p (σ.put other v) name = readName p σ name := by
    intro name different
    rw [Source.readName_put, if_neg different]
  simp only [List.mem_cons, List.not_mem_nil, or_false, not_or] at fixed
  obtain ⟨list, set, str, decimal, datetime⟩ := fixed
  constructor
  · rw [kept (Ne.symm list), reads.list]
  · rw [kept (Ne.symm set), reads.set]
  · rw [kept (Ne.symm str), reads.str]
  · intro number
    rw [kept (Ne.symm decimal), reads.decimal number]
  · intro timestamp
    rw [kept (Ne.symm datetime), reads.datetime timestamp]
  · intro name mentioned
    rw [kept (ne_of_mem_of_not_mem mentioned free), reads.types name mentioned]

/-- Inside a comprehension the names mean what they mean outside of it. -/
theorem inside (reads : Reads p σ type) (depth : Nat) (v : Datum L)
    (other : ∀ name ∈ type.recordNames ++ type.enumNames, name ≠ elementName depth) :
    Reads p (σ.put (elementName depth) v) type := by
  have words : ∀ name ∈ ["list", "set", "str", "Decimal", "datetime"], ¬ "element".toList <+: name.toList := by decide
  refine reads.put v (fun fixed => ?_) (fun mentioned => other _ mentioned rfl)
  exact ne_elementName (words _ fixed) depth rfl

theorem element {element : TypeRef} (reads : Reads p σ (.list element)) : Reads p σ element :=
  ⟨reads.list, reads.set, reads.str, reads.decimal, reads.datetime, reads.types⟩

theorem call_list (reads : Reads p σ type) {value : Expr} {items : List (Datum L)}
    (evaluates : eval p σ value = pure (.list items)) :
    eval p σ (Expr.apply "list" [value]) = pure (.list items) := by
  simp [Source.eval_apply reads.list evaluates, Source.callBuiltin, Source.membersOf, Datum.members?]

/-- A set with different members is what `set` makes of it. -/
theorem call_set (reads : Reads p σ type) {value : Expr} {items : List (Datum L)}
    (evaluates : eval p σ value = pure (.set items)) (scalars : ∀ v ∈ items, v.isScalar)
    (different : items.Pairwise fun v w => v.same w = false) :
    eval p σ (Expr.apply "set" [value]) = pure (.set items) := by
  simp [Source.eval_apply reads.set evaluates, Source.callBuiltin, Source.membersOf, Datum.members?,
    Datum.setOf?_eq scalars different]

/-- The decimal of the text of a decimal is that decimal. -/
theorem eval_decimalOf (faithful : L.Faithful) (reads : Reads p σ type) (number : .number ∈ scalars type)
    {value : Expr} {d : L.Decimal} (evaluates : eval p σ value = pure (.decimal d)) :
    eval p σ (decimalOf value) = pure (.decimal d) := by
  have text : eval p σ (Expr.apply "str" [value]) = pure (.text (L.decimalText d)) := by
    simp [Source.eval_apply reads.str evaluates, Source.callBuiltin, Datum.shown?]
  simp [decimalOf, Source.eval_apply (reads.decimal number) text, Source.callImported, faithful.decimal d]

end Reads

/-! ## Values that come back -/

/-- A value comes back as another one: its stored form is a datum other than `None`, and reading that form
gives the other value. -/
def Returns (p : Program) (type : TypeRef) (v w : Datum L) : Prop :=
  ∃ d : Datum L, d ≠ .none ∧ Stores p type v d ∧ Restores p type d w

theorem stores_self (same : ∀ depth value, toStorage depth type value = value) (v : Datum L) : Stores p type v v := by
  intro σ depth value _ evaluates
  rw [same, evaluates]

theorem restores_self (same : ∀ depth value, fromStorage depth type value = value) (v : Datum L) :
    Restores p type v v := by
  intro σ depth value _ evaluates
  rw [same, evaluates]

/-- Values of a type that is stored and read without a conversion come back. -/
theorem returns_self {v : Datum L} (present : v ≠ .none) (stored : ∀ depth value, toStorage depth type value = value)
    (restored : ∀ depth value, fromStorage depth type value = value) : Returns p type v v :=
  ⟨v, present, stores_self stored v, restores_self restored v⟩

theorem stores_number (faithful : L.Faithful) (d : L.Decimal) :
    Stores p (.scalar .number) (.decimal d) (.decimal d) := by
  intro σ depth value reads evaluates
  exact reads.eval_decimalOf faithful (by simp [scalars]) evaluates

theorem eval_toStorage_timestamp {depth : Nat} {value : Expr} {t : L.Time} (evaluates : eval p σ value = pure (.time t)) :
    eval p σ (toStorage depth (.scalar .timestamp) value) = pure (.text (L.timeText t)) := by
  rw [toStorage, Source.eval_method evaluates, Source.send_method (by simp [Source.Datum.methods])]
  rfl

theorem stores_timestamp (t : L.Time) : Stores p (.scalar .timestamp) (.time t) (.text (L.timeText t)) :=
  fun _ _ _ _ evaluates => eval_toStorage_timestamp evaluates

theorem restores_timestamp (faithful : L.Faithful) (t : L.Time) :
    Restores p (.scalar .timestamp) (.text (L.timeText t)) (.time t) := by
  intro σ depth stored reads evaluates
  have datetime : eval p σ (.name "datetime") = pure (.imported "datetime") := by
    rw [Source.eval_name, reads.datetime (by simp [scalars])]
  rw [fromStorage, Source.eval_method_one datetime evaluates,
    Source.send_method (by simp [Source.Datum.methods])]
  simp [Source.callMethod, faithful.time t]

/-- What a stored set needs: different scalars, which are decimals in a set of numbers. -/
structure SetMembers (element : Scalar) (items : List (Datum L)) : Prop where
  scalars : ∀ v ∈ items, v.isScalar
  different : items.Pairwise fun v w => v.same w = false
  decimals : element = .number → ∀ v ∈ items, ∃ d, v = .decimal d

theorem stores_set (faithful : L.Faithful) {element : Scalar} {items : List (Datum L)}
    (members : SetMembers element items) : Stores p (.set element) (.set items) (.set items) := by
  intro σ depth value reads evaluates
  rw [toStorage]
  split
  · rename_i number
    subst number
    have each : List.Forall₂ (fun v w => eval p (σ.put (elementName depth) v)
        (decimalOf (.name (elementName depth))) = pure w) items items := by
      refine List.forall₂_same.mpr fun v member => ?_
      obtain ⟨d, rfl⟩ := members.decimals rfl v member
      refine (reads.inside depth _ (by simp [TypeRef.recordNames, TypeRef.enumNames])).eval_decimalOf faithful
        (by simp [scalars]) ?_
      rw [Source.eval_name, Source.readName_put, if_pos rfl]
    rw [Source.eval_comprehension_of evaluates rfl each, Source.Shape.collect,
      Datum.setOf?_eq members.scalars members.different, Outcome.given_some]
  · exact reads.call_set evaluates members.scalars members.different

theorem restores_set {element : Scalar} {items : List (Datum L)} (members : SetMembers element items) :
    Restores p (.set element) (.set items) (.set items) := by
  intro σ depth stored reads evaluates
  exact reads.call_set evaluates members.scalars members.different

theorem eval_toStorage_enum {depth : Nat} {name : String} {value : Expr} {v w : Datum L}
    (evaluates : eval p σ value = pure v) (gives : getAttribute p v "value" = pure w) :
    eval p σ (toStorage depth (.enum name) value) = pure w := by
  simp [toStorage, evaluates, gives]

theorem stores_enum {name : String} {v w : Datum L} (value : getAttribute p v "value" = pure w) :
    Stores p (.enum name) v w :=
  fun _ _ _ _ evaluates => eval_toStorage_enum evaluates value

theorem restores_enum {name : String} {v w : Datum L} (member : call p (.cls [name]) [w] [] = pure v) :
    Restores p (.enum name) w v := by
  intro σ depth stored reads evaluates
  rw [fromStorage, Source.eval_apply (reads.types name (by simp [TypeRef.recordNames, TypeRef.enumNames])) evaluates,
    member]

theorem stores_record {name : String} {v d : Datum L} (stored : send p v "to_item" [] = pure d) :
    Stores p (.record name) v d := by
  intro σ depth value _ evaluates
  rw [toStorage, Source.eval_method evaluates, stored]

theorem restores_record {name : String} {d v : Datum L} (read : send p (.cls [name]) "from_item" [d] = pure v) :
    Restores p (.record name) d v := by
  intro σ depth stored reads evaluates
  have cls : eval p σ (.name name) = pure (.cls [name]) := by
    rw [Source.eval_name, reads.types name (by simp [TypeRef.recordNames, TypeRef.enumNames])]
  rw [fromStorage, Source.eval_method_one cls evaluates, read]

/-! ### Lists -/

section

variable {element : TypeRef} {vs ws ds : List (Datum L)}

/-- The names of the elements of a list are not called like the variable of a comprehension. -/
def Clear (element : TypeRef) : Prop :=
  ∀ depth, ∀ name ∈ element.recordNames ++ element.enumNames, name ≠ elementName depth

theorem stores_each (clear : Clear element) (converts : needsConversion element)
    (each : List.Forall₂ (Stores p element) vs ds) : Stores p (.list element) (.list vs) (.list ds) := by
  intro σ depth value reads evaluates
  rw [toStorage, if_pos converts]
  refine Source.eval_comprehension_of evaluates rfl (each.imp fun v d stores => ?_)
  refine stores _ _ _ (reads.element.inside depth v (clear depth)) ?_
  rw [Source.eval_name, Source.readName_put, if_pos rfl]

theorem stores_whole (plain : needsConversion element = false) : Stores p (.list element) (.list vs) (.list vs) := by
  intro σ depth value reads evaluates
  rw [toStorage, if_neg (by simp [plain])]
  exact reads.call_list evaluates

theorem restores_each (clear : Clear element) (elementwise : readsElementwise element)
    (each : List.Forall₂ (Restores p element) ds ws) : Restores p (.list element) (.list ds) (.list ws) := by
  intro σ depth stored reads evaluates
  rw [fromStorage, if_pos elementwise]
  refine Source.eval_comprehension_of evaluates rfl (each.imp fun d w restores => ?_)
  refine restores _ _ _ (reads.element.inside depth d (clear depth)) ?_
  rw [Source.eval_name, Source.readName_put, if_pos rfl]

theorem restores_whole (whole : readsElementwise element = false) :
    Restores p (.list element) (.list ds) (.list ds) := by
  intro σ depth stored reads evaluates
  rw [fromStorage, if_neg (by simp [whole])]
  exact reads.call_list evaluates

/-- A list comes back where both conversions go through its elements, and these come back. -/
theorem returns_each (clear : Clear element) (converts : needsConversion element)
    (elementwise : readsElementwise element) (each : List.Forall₂ (Returns p element) vs ws) :
    Returns p (.list element) (.list vs) (.list ws) := by
  have stored : ∃ ds, List.Forall₂ (Stores p element) vs ds ∧ List.Forall₂ (Restores p element) ds ws := by
    induction each with
    | nil => exact ⟨[], .nil, .nil⟩
    | cons first _ ih =>
      obtain ⟨d, -, stores, restores⟩ := first
      obtain ⟨ds, storesAll, restoresAll⟩ := ih
      exact ⟨d :: ds, .cons stores storesAll, .cons restores restoresAll⟩
  obtain ⟨ds, stores, restores⟩ := stored
  exact ⟨.list ds, by simp, stores_each clear converts stores, restores_each clear elementwise restores⟩

/-- A list comes back where neither conversion looks into it. -/
theorem returns_whole (plain : needsConversion element = false) (whole : readsElementwise element = false) :
    Returns p (.list element) (.list vs) (.list vs) :=
  ⟨.list vs, by simp, stores_whole plain, restores_whole whole⟩

end

/-! ## Typed values come back -/

/-- Values of a type that differ at most in the records in them, where these are related. -/
inductive Alike (related : String → Datum L → Datum L → Prop) : TypeRef → Datum L → Datum L → Prop
  | same {type : TypeRef} (v : Datum L) : Alike related type v v
  | record {name : String} {v w : Datum L} (relates : related name v w) : Alike related (.record name) v w
  | list {element : TypeRef} {vs ws : List (Datum L)} (length : vs.length = ws.length)
      (each : ∀ v w, (v, w) ∈ vs.zip ws → Alike related element v w) :
      Alike related (.list element) (.list vs) (.list ws)

theorem Alike.eq {related : String → Datum L → Datum L → Prop} (same : ∀ name v w, related name v w → v = w)
    {v w : Datum L} (alike : Alike related type v w) : v = w := by
  induction alike with
  | same v => rfl
  | record relates => exact same _ _ _ relates
  | list length _ ih =>
    have equal := List.forall₂_iff_zip.mpr ⟨length, fun {v w} => ih v w⟩
    rw [List.forall₂_eq_eq_eq] at equal
    rw [equal]

theorem alike_records {related : String → Datum L → Datum L → Prop} {name : String} {vs ws : List (Datum L)}
    (each : List.Forall₂ (related name) vs ws) : Alike related (.list (.record name)) (.list vs) (.list ws) := by
  obtain ⟨length, each⟩ := List.forall₂_iff_zip.mp each
  exact .list length fun v w both => .record (each both)

section

variable {instances members : String → Datum L → Prop}

theorem Typed.setMembers {element : Scalar} {items : List (Datum L)}
    (typed : Typed instances members (.set element) (.set items)) (kind : element = .string ∨ element = .number) :
    SetMembers element items := by
  cases typed with
  | set different typed =>
    refine ⟨fun v member => ?_, different, fun number v member => ?_⟩
    · rcases kind with rfl | rfl
      · cases typed v member
        rfl
      · cases typed v member
        rfl
    · subst number
      cases typed v member with
      | number d => exact ⟨d, rfl⟩

/-- What conversions rely on in generated types: the items of records can be read back, to related records,
and the values of enum constants lead back to them. -/
structure Converts (p : Program) (instances members : String → Datum L → Prop)
    (related : String → Datum L → Datum L → Prop) (type : TypeRef) : Prop where
  records : ∀ name ∈ type.recordNames, ∀ x, instances name x → ∃ item y,
    send p x "to_item" [] = pure (.dict item) ∧ send p (.cls [name]) "from_item" [.dict item] = pure y ∧
      related name x y
  enums : ∀ name ∈ type.enumNames, ∀ m, members name m → ∃ s,
    getAttribute p m "value" = pure (.text s) ∧ call p (.cls [name]) [.text s] [] = pure m

variable {related : String → Datum L → Datum L → Prop}

theorem Converts.returns_record (converts : Converts p instances members related type) {name : String}
    (mentioned : name ∈ type.recordNames) {x : Datum L} (made : instances name x) :
    ∃ y, related name x y ∧ Returns p (.record name) x y := by
  obtain ⟨item, y, stored, read, relates⟩ := converts.records name mentioned x made
  exact ⟨y, relates, .dict item, by simp, stores_record stored, restores_record read⟩

theorem returns_number (faithful : L.Faithful) (d : L.Decimal) :
    Returns p (.scalar .number) (.decimal d) (.decimal d) :=
  ⟨.decimal d, by simp, stores_number faithful d, restores_self (fun _ _ => rfl) _⟩

theorem returns_timestamp (faithful : L.Faithful) (t : L.Time) :
    Returns p (.scalar .timestamp) (.time t) (.time t) :=
  ⟨_, by simp, stores_timestamp t, restores_timestamp faithful t⟩

theorem returns_set (faithful : L.Faithful) {element : Scalar} {items : List (Datum L)}
    (members : SetMembers element items) : Returns p (.set element) (.set items) (.set items) :=
  ⟨_, by simp, stores_set faithful members, restores_set members⟩

/-- A value of a kind comes back. -/
theorem Typed.returns_kind (faithful : L.Faithful) (kind : Kind) {v : Datum L}
    (typed : Typed instances members (.ofKind kind) v) (present : v ≠ .none) : Returns p (.ofKind kind) v v := by
  cases kind with
  | number =>
    cases typed with
    | number d => exact returns_number faithful d
  | timestamp =>
    cases typed with
    | timestamp t => exact returns_timestamp faithful t
  | list =>
    cases typed with
    | list typed => exact returns_whole rfl rfl
  | stringSet =>
    cases typed with
    | set different each => exact returns_set faithful ((Typed.set different each).setMembers (.inl rfl))
  | numberSet =>
    cases typed with
    | set different each => exact returns_set faithful ((Typed.set different each).setMembers (.inr rfl))
  | string | boolean | map | unknown =>
    exact returns_self present (fun _ _ => rfl) fun _ _ => rfl

/-- A list of values of a kind comes back. The two conversions do not always go through its elements both:
numbers are read as they are stored, and sets of texts are stored as they are. -/
theorem returns_kinds (faithful : L.Faithful) (kind : Kind) {vs : List (Datum L)}
    (typed : ∀ v ∈ vs, Typed instances members (.ofKind kind) v) :
    Returns p (.list (.ofKind kind)) (.list vs) (.list vs) := by
  have clear : Clear (.ofKind kind) := by
    cases kind <;> simp [Clear, TypeRef.ofKind, TypeRef.recordNames, TypeRef.enumNames]
  cases kind with
  | number =>
    refine ⟨.list vs, by simp, stores_each clear rfl (List.forall₂_same.mpr fun v member => ?_), restores_whole rfl⟩
    cases typed v member with
    | number d => exact stores_number faithful d
  | stringSet =>
    refine ⟨.list vs, by simp, stores_whole rfl, restores_each clear rfl (List.forall₂_same.mpr fun v member => ?_)⟩
    cases typed v member with
    | set different each => exact restores_set ((Typed.set different each).setMembers (.inl rfl))
  | timestamp | numberSet =>
    refine returns_each clear rfl rfl (List.forall₂_same.mpr fun v member => ?_)
    refine (typed v member).returns_kind faithful _ ?_
    cases typed v member
    simp
  | string | boolean | list | map | unknown => exact returns_whole rfl rfl

/-- Values of the types that fields are given come back. -/
theorem Typed.returns (faithful : L.Faithful) (mapped : type.Mapped) {v : Datum L}
    (typed : Typed instances members type v) (present : v ≠ .none)
    (converts : Converts p instances members related type) :
    ∃ w, Alike related type v w ∧ Returns p type v w := by
  -- a mapped type is a kind, an enum or a record, or a list of kinds or of records
  cases mapped with
  | kind kind => exact ⟨v, .same v, typed.returns_kind faithful kind present⟩
  | enum name =>
    cases typed with
    | enum listed =>
      obtain ⟨s, value, member⟩ := converts.enums name (by simp [TypeRef.enumNames]) v listed
      exact ⟨v, .same v, .text s, by simp, stores_enum value, restores_enum member⟩
  | record name =>
    cases typed with
    | record made =>
      obtain ⟨y, relates, returns⟩ := converts.returns_record (by simp [TypeRef.recordNames]) made
      exact ⟨y, .record relates, returns⟩
  | kinds kind =>
    cases typed with
    | list typed => exact ⟨_, .same _, returns_kinds faithful kind typed⟩
  | records name =>
    cases typed with
    | @list _ items typed =>
      have each : ∀ x ∈ items, ∃ y, related (name ++ "Item") x y ∧ Returns p (.record (name ++ "Item")) x y := by
        intro x member
        cases typed x member with
        | record made => exact converts.returns_record (by simp [TypeRef.recordNames]) made
      obtain ⟨ws, each⟩ := exists_forall₂ each
      refine ⟨.list ws, alike_records (each.imp fun x y both => both.1), ?_⟩
      refine returns_each (fun depth => ?_) rfl rfl (each.imp fun x y both => both.2)
      simpa [TypeRef.recordNames, TypeRef.enumNames] using item_ne_elementName name depth

/-- The value of a field comes back when its stored form is read: if the items of the records that its type
mentions give the records back, and the values of enum constants the constants. The two expressions may be
run in different scopes and at different depths. -/
theorem fromStorage_toStorage (faithful : L.Faithful) (owner : String) (f : Field)
    (instances members : String → Datum L → Prop)
    (records : ∀ name ∈ (mapField owner f).1.recordNames, ∀ x, instances name x → ∃ item,
      send p x "to_item" [] = pure (.dict item) ∧ send p (.cls [name]) "from_item" [.dict item] = pure x)
    (enums : ∀ name ∈ (mapField owner f).1.enumNames, ∀ m, members name m → ∃ s,
      getAttribute p m "value" = pure (.text s) ∧ call p (.cls [name]) [.text s] [] = pure m)
    {v : Datum L} (typed : Typed instances members (mapField owner f).1 v) (present : v ≠ .none)
    {σ : Frame L} (reads : Reads p σ (mapField owner f).1) (depth : Nat) {value : Expr}
    (evaluates : eval p σ value = pure v) :
    ∃ d, eval p σ (toStorage depth (mapField owner f).1 value) = pure d ∧
      ∀ (σ' : Frame L) (depth' : Nat) (stored : Expr), Reads p σ' (mapField owner f).1 →
        eval p σ' stored = pure d → eval p σ' (fromStorage depth' (mapField owner f).1 stored) = pure v := by
  have converts : Converts p instances members (fun _ x y => x = y) (mapField owner f).1 := by
    refine ⟨fun name mentioned x made => ?_, enums⟩
    obtain ⟨item, stored, read⟩ := records name mentioned x made
    exact ⟨item, x, stored, read, rfl⟩
  obtain ⟨w, alike, d, -, stores, restores⟩ := typed.returns faithful (mapField_mapped owner f) present converts
  obtain rfl : v = w := alike.eq fun _ _ _ same => same
  exact ⟨d, stores σ depth value reads evaluates, restores⟩

def shopState : Field := { bareField "state" "string" with enumValues := ["open", "paid"] }

def statesProgram : Program :=
  ⟨fun name => if name = "OrderState" then some (enumModule (enumOf "Order" shopState.toDeclaration)) else none⟩

theorem statesProgram_constantOf (s : String) : call statesProgram (.cls ["OrderState"]) [.text s] [] =
    (.orRaise "ValueError" ((([("OPEN", "open"), ("PAID", "paid")] : List (String × String)).find? (·.2 == s)).map
      fun constant => .member "OrderState" constant.1 constant.2) : Outcome L (Datum L)) := by
  have cls : statesProgram.class? ["OrderState"] = some ⟨(enumModule (enumOf "Order" shopState.toDeclaration)).body,
      [], [.name "str", .name "Enum"],
      [Source.Stmt.bind "OPEN" (Expr.text "open"), Source.Stmt.bind "PAID" (Expr.text "paid")]⟩ := by
    rfl
  rw [call, cls]
  rfl

/-- The state of an order that is paid comes back. -/
theorem shopState_comesBack :
    let paid : Datum Library.plain := .member "OrderState" "PAID" "paid"
    let σ : Frame Library.plain := .top [.importFrom ".nested.order_state" ["OrderState"]]
    (mapField "Order" shopState).1 = .enum "OrderState" ∧
    ∃ d, eval statesProgram (σ.put "value" paid) (toStorage 0 (.enum "OrderState") (.name "value")) = pure d ∧
      eval statesProgram (σ.put "stored" d) (fromStorage 0 (.enum "OrderState") (.name "stored")) = pure paid := by
  intro paid σ
  have type : (mapField "Order" shopState).1 = .enum "OrderState" := by decide +kernel
  have reads : ∀ name v, name ∉ ["list", "set", "str", "OrderState"] →
      Reads statesProgram (σ.put name v) (mapField "Order" shopState).1 := by
    intro name v free
    rw [type]
    simp only [List.mem_cons, List.not_mem_nil, or_false, not_or] at free
    -- a variable hides none of the names that a conversion reads
    have kept : ∀ other, other ≠ name → readName statesProgram (σ.put name v) other = readName statesProgram σ other :=
      fun other different => by rw [Source.readName_put, if_neg different]
    refine ⟨?_, ?_, ?_, by simp [scalars], by simp [scalars], fun other mentioned => ?_⟩
    · rw [kept _ (Ne.symm free.1), readName]
      rfl
    · rw [kept _ (Ne.symm free.2.1), readName]
      rfl
    · rw [kept _ (Ne.symm free.2.2.1), readName]
      rfl
    · obtain rfl := List.mem_singleton.mp mentioned
      rw [kept _ (Ne.symm free.2.2.2), readName]
      rfl
  have enums : ∀ name ∈ (mapField "Order" shopState).1.enumNames, ∀ m, m = paid → ∃ s,
      getAttribute statesProgram m "value" = pure (.text s) ∧ call statesProgram (.cls [name]) [.text s] [] = pure m := by
    rintro name mentioned m rfl
    rw [type] at mentioned
    obtain rfl := List.mem_singleton.mp mentioned
    refine ⟨"paid", ?_, statesProgram_constantOf "paid"⟩
    rw [getAttribute]
    rfl
  obtain ⟨d, stored, restores⟩ := fromStorage_toStorage Library.plain_faithful "Order" shopState
    (fun _ _ => False) (fun _ m => m = paid) (fun _ _ _ made => made.elim) enums (by rw [type]; exact .enum rfl)
    (by simp [paid]) (reads "value" paid (by decide)) 0
    (Source.eval_name "value" |>.trans (Source.readName_local rfl))
  rw [type] at stored
  rw [type] at restores
  refine ⟨type, d, stored, ?_⟩
  exact restores _ 0 _ (type ▸ reads "stored" d (by decide)) (Source.eval_name "stored" |>.trans (Source.readName_local rfl))

end

end Access

end Tablewright
