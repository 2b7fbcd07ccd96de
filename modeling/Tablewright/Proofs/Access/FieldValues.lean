import Tablewright.Proofs.Access.Comparison

/-!
# Values of fields

Fields hold nested lists, tuples, sets, mappings, scalars and records, and comparing goes down through all of them.  It
only needs to be known how members compare, so what holds of values up to some depth holds one layer above them.

* `Layer`, `Held`: values, layer by layer.
* `Settled`: what is known of values up to some depth.
* `Matches`: what makes two values equal, given equality of their members; `Layer.alike_decides`: comparing finds out.
* `Layer.compared`: values one layer above can be compared, which is symmetric and transitive.
-/

namespace Tablewright.Access

open Source (Program Datum Library Hashing Key View Compared Hashed Equal UnderSame KeyedByText Outcome Stmt getAttribute
  alike ruling)

variable {L : Library} {p : Program} {H : Hashing L} {records : List Record} {C : Bool → Datum L → Prop} {hashed : Bool}
  {u v w : Datum L} {a b c : View L}

/-! ## Values of fields -/

/-- One layer of a value over members of some classes: those that can be hashed, and all of them.  Sets hold no two members
that are equal, mappings have different texts as keys, and fields whose values are not made hashable hold hashable ones. -/
inductive Layer (p : Program) (H : Hashing L) (records : List Record) (C : Bool → Datum L → Prop) (hashed : Bool)
    (v : Datum L) : View L → Prop
  | key {k : Key L} {hash : Int} (hashes : H.key? k = some hash) : Layer p H records C hashed v (.key k)
  | list {items : List (Datum L)} (mutable : hashed = false) (each : ∀ w ∈ items, C false w) :
      Layer p H records C hashed v (.list items)
  | tuple {items : List (Datum L)} (each : ∀ w ∈ items, C hashed w) : Layer p H records C hashed v (.tuple items)
  | set {frozen : Bool} {items : List (Datum L)} (mutable : frozen = false → hashed = false) (each : ∀ w ∈ items, C true w)
      (distinct : items.Pairwise fun v w => alike p H v w ≠ pure true) : Layer p H records C hashed v (.set frozen items)
  | dict {entries : List (Datum L × Datum L)} (mutable : hashed = false) (texts : ∀ e ∈ entries, ∃ s, e.1.text? = some s)
      (distinct : (entries.map (·.1.text?)).Nodup) (each : ∀ e ∈ entries, C false (.tuple [e.1, e.2])) :
      Layer p H records C hashed v (.dict entries)
  | record {path : List String} {r : Record} {values : ResolvedField → Datum L} (known : r ∈ records)
      (named : path = [r.name]) (reads : ∀ f ∈ r.fields, getAttribute p v (backing f.identifier) = pure (values f))
      (each : ∀ f ∈ r.fields, C (!needsHashable f.type) (values f)) : Layer p H records C hashed v (.object path)

/-- A value of at most some depth, which can be hashed as it is or after it has been made hashable. -/
def Held (p : Program) (H : Hashing L) (records : List Record) : Nat → Bool → Datum L → Prop
  | 0 => fun _ _ => False
  | depth + 1 => fun hashed v => Layer p H records (Held p H records depth) hashed v v.view

theorem Layer.mono {C' : Bool → Datum L → Prop} (more : ∀ {hashed v}, C hashed v → C' hashed v)
    (layer : Layer p H records C hashed v a) : Layer p H records C' hashed v a := by
  cases layer with
  | key hashes => exact .key hashes
  | list mutable each => exact .list mutable fun w member => more (each w member)
  | tuple each => exact .tuple fun w member => more (each w member)
  | set mutable each distinct => exact .set mutable (fun w member => more (each w member)) distinct
  | dict mutable texts distinct each => exact .dict mutable texts distinct fun e member => more (each e member)
  | record known named reads each => exact .record known named reads fun f inRecord => more (each f inRecord)

/-- What can be hashed as it is need not be. -/
theorem Layer.loosen (looser : ∀ {v}, C true v → C false v) (layer : Layer p H records C true v a) :
    Layer p H records C false v a := by
  cases layer with
  | key hashes => exact .key hashes
  | list mutable each => cases mutable
  | tuple each => exact .tuple fun w member => looser (each w member)
  | set mutable each distinct => exact .set (fun _ => rfl) each distinct
  | dict mutable texts distinct each => cases mutable
  | record known named reads each => exact .record known named reads each

theorem Layer.known (layer : Layer p H records C hashed v a) : a.kind ≠ .other := by
  cases layer <;> exact nofun

theorem Held.succ {depth : Nat} (held : Held p H records depth hashed v) : Held p H records (depth + 1) hashed v := by
  induction depth generalizing hashed v with
  | zero => cases held
  | succ depth ih => exact Layer.mono ih held

theorem Held.mono {m n : Nat} (bound : m ≤ n) (held : Held p H records m hashed v) : Held p H records n hashed v := by
  induction bound with
  | refl => exact held
  | step _ ih => exact ih.succ

/-- The members of a tuple are no deeper than the tuple. -/
theorem Held.inside {depth : Nat} {items : List (Datum L)} (held : Held p H records depth hashed (.tuple items)) :
    ∀ w ∈ items, Held p H records depth hashed w := by
  cases depth with
  | zero => cases held
  | succ depth =>
    have layer : Layer p H records (Held p H records depth) hashed (.tuple items) (.tuple items) := held
    cases layer with
    | tuple each => exact fun w member => (each w member).succ

/-! ## Equal values -/

/-- What makes two values equal, given equality of their members: members of sets can be hashed. -/
inductive Matches (p : Program) (H : Hashing L) (records : List Record) (C : Bool → Datum L → Prop) (v w : Datum L) :
    View L → View L → Prop
  | keys {k l : Key L} (same : k.same H l) : Matches p H records C v w (.key k) (.key l)
  | lists {items others : List (Datum L)} (each : List.Forall₂ (Equal p H (C false)) items others) :
      Matches p H records C v w (.list items) (.list others)
  | tuples {items others : List (Datum L)} (each : List.Forall₂ (Equal p H (C false)) items others) :
      Matches p H records C v w (.tuple items) (.tuple others)
  | sets {frozen frozen' : Bool} {items others : List (Datum L)}
      (each : Multiset.Rel (Equal p H (C true)) (items : Multiset (Datum L)) others) :
      Matches p H records C v w (.set frozen items) (.set frozen' others)
  | dicts {entries rivals : List (Datum L × Datum L)}
      (each : Multiset.Rel (UnderSame (Equal p H (C false))) (entries : Multiset (Datum L × Datum L)) rivals) :
      Matches p H records C v w (.dict entries) (.dict rivals)
  | records {path : List String} {r : Record} {values others : ResolvedField → Datum L} (known : r ∈ records)
      (named : path = [r.name]) (reads : ∀ f ∈ r.fields, getAttribute p v (backing f.identifier) = pure (values f))
      (reads' : ∀ f ∈ r.fields, getAttribute p w (backing f.identifier) = pure (others f))
      (each : ∀ f ∈ r.fields, Equal p H (C false) (values f) (others f)) :
      Matches p H records C v w (.object path) (.object path)

@[simp] theorem matches_keys {k l : Key L} : Matches p H records C v w (.key k) (.key l) ↔ k.same H l :=
  ⟨fun | .keys same => same, .keys⟩

@[simp] theorem matches_lists {items others : List (Datum L)} :
    Matches p H records C v w (.list items) (.list others) ↔ List.Forall₂ (Equal p H (C false)) items others :=
  ⟨fun | .lists each => each, .lists⟩

@[simp] theorem matches_tuples {items others : List (Datum L)} :
    Matches p H records C v w (.tuple items) (.tuple others) ↔ List.Forall₂ (Equal p H (C false)) items others :=
  ⟨fun | .tuples each => each, .tuples⟩

@[simp] theorem matches_sets {frozen frozen' : Bool} {items others : List (Datum L)} :
    Matches p H records C v w (.set frozen items) (.set frozen' others) ↔
      Multiset.Rel (Equal p H (C true)) (items : Multiset (Datum L)) others :=
  ⟨fun | .sets each => each, .sets⟩

@[simp] theorem matches_dicts {entries rivals : List (Datum L × Datum L)} :
    Matches p H records C v w (.dict entries) (.dict rivals) ↔
      Multiset.Rel (UnderSame (Equal p H (C false))) (entries : Multiset (Datum L × Datum L)) rivals :=
  ⟨fun | .dicts each => each, .dicts⟩

theorem matches_records (comparing : Comparing p records) {r : Record} (known : r ∈ records)
    {values others : ResolvedField → Datum L}
    (reads : ∀ f ∈ r.fields, getAttribute p v (backing f.identifier) = pure (values f))
    (reads' : ∀ f ∈ r.fields, getAttribute p w (backing f.identifier) = pure (others f)) :
    Matches p H records C v w (.object [r.name]) (.object [r.name]) ↔
      ∀ f ∈ r.fields, Equal p H (C false) (values f) (others f) := by
  refine ⟨fun matched f inRecord => ?_, .records known rfl reads reads'⟩
  cases matched with
  | @records _ other values' others' known' named reads₁ reads₂ each =>
    obtain rfl : r = other := comparing.eq_of_path known known' named
    rw [Outcome.pure_inj ((reads f inRecord).symm.trans (reads₁ f inRecord)),
      Outcome.pure_inj ((reads' f inRecord).symm.trans (reads₂ f inRecord))]
    exact each f inRecord

theorem Matches.kind_eq (matched : Matches p H records C v w a b) : a.kind = b.kind := by
  cases matched <;> rfl

/-- What is known of values of some classes: they can be compared, hashed, and made hashable, and what is made of equal
values is equal. -/
structure Settled (p : Program) (H : Hashing L) (C : Bool → Datum L → Prop) : Prop where
  loosens : ∀ {v}, C true v → C false v
  compared : Compared p H (C false)
  hashed : Hashed p H (C true)
  prepares : ∀ {home v}, Prepares home → C false v → ∃ x, prepare p H home v = pure x ∧ C true x
  keeps : ∀ {home v}, Prepares home → C true v → prepare p H home v = pure v
  carries : ∀ {home v w x y}, Prepares home → Equal p H (C false) v w → prepare p H home v = pure x →
    prepare p H home w = pure y → alike p H x y = pure true

theorem Settled.looser (settled : Settled p H C) {f : ResolvedField} (held : C (!needsHashable f.type) v) : C false v := by
  cases unhashed : needsHashable f.type with
  | true => rwa [unhashed] at held
  | false => exact settled.loosens (by rwa [unhashed] at held)

theorem Matches.symm (settled : Settled p H C) (lawful : H.Lawful) (matched : Matches p H records C v w a b) :
    Matches p H records C w v b a := by
  have turn (v w : Datum L) : Equal p H (C false) v w → Equal p H (C false) w v := settled.compared.equal_symm
  have flip {items others : List (Datum L)} (each : List.Forall₂ (Equal p H (C false)) items others) :
      List.Forall₂ (Equal p H (C false)) others items := (each.imp turn).flip
  cases matched with
  | keys same => exact .keys (lawful.symm same)
  | lists each => exact .lists (flip each)
  | tuples each => exact .tuples (flip each)
  | sets each =>
    exact .sets (Multiset.rel_flip.mp (each.mono fun _ _ _ _ equal => settled.hashed.equal_symm equal))
  | dicts each => exact .dicts (Multiset.rel_flip.mp (each.mono fun _ _ _ _ under => under.symm turn))
  | records known named reads reads' each =>
    exact .records known named reads' reads fun f inRecord => turn _ _ (each f inRecord)

theorem Matches.trans (settled : Settled p H C) (lawful : H.Lawful) (comparing : Comparing p records)
    (first : Matches p H records C u v a b) (second : Matches p H records C v w b c) :
    Matches p H records C u w a c := by
  have join (u v w : Datum L) : Equal p H (C false) u v → Equal p H (C false) v w → Equal p H (C false) u w :=
    settled.compared.equal_trans
  cases first with
  | keys same => cases second with
    | keys same' => exact .keys (lawful.trans same same')
  | lists each => cases second with
    | lists each' => exact .lists (forall₂_trans join each each')
  | tuples each => cases second with
    | tuples each' => exact .tuples (forall₂_trans join each each')
  | sets each => cases second with
    | sets each' =>
      have : IsTrans (Datum L) (Equal p H (C true)) := ⟨fun _ _ _ => settled.hashed.equal_trans⟩
      exact .sets (each.trans _ each')
  | dicts each => cases second with
    | dicts each' =>
      have : IsTrans (Datum L × Datum L) (UnderSame (Equal p H (C false))) := ⟨fun _ _ _ first => first.trans join⟩
      exact .dicts (each.trans _ each')
  | @records path r values others known isPath reads reads₁ each => cases second with
    | @records _ r' values' others' known' isPath' reads₂ reads' each' =>
      obtain rfl : r = r' := comparing.eq_of_path known known' (isPath.symm.trans isPath')
      refine .records known isPath reads reads' fun f inRecord => ?_
      have middle : others f = values' f := Outcome.pure_inj ((reads₁ f inRecord).symm.trans (reads₂ f inRecord))
      exact join _ _ _ (each f inRecord) (middle ▸ each' f inRecord)

/-! ## Comparing -/

/-- An instance leaves it to others whether they are equal to it, unless they are of its class. -/
theorem ruling_apart (comparing : Comparing p records) (layer : Layer p H records C hashed v a) (is : v.view = a)
    (known : w.view.kind ≠ .other) (apart : a.kind ≠ w.view.kind) : ruling p H v w = pure none := by
  cases layer with
  | @record path r values inRecords named reads each =>
    obtain rfl := named
    obtain ⟨enums, emitted⟩ := comparing.modules r inRecords
    rw [Source.ruling_object is (methodOf?_record emitted (member_equality enums r) is),
      answer_equality_apart emitted (comparing.free r inRecords) known apart.symm]
    rfl
  | _ =>
    refine Source.ruling_none fun path isObject => ?_
    cases is.symm.trans isObject

/-- Two instances of a record are compared field by field. -/
theorem alike_instances (settled : Settled p H C) (comparing : Comparing p records) {r : Record} (known : r ∈ records)
    {values others : ResolvedField → Datum L} (inst : Instance p r v values) (inst' : Instance p r w others)
    (each : ∀ f ∈ r.fields, C false (values f)) (each' : ∀ f ∈ r.fields, C false (others f)) :
    ∃ equal, alike p H v w = pure equal ∧
      (equal = true ↔ ∀ f ∈ r.fields, Equal p H (C false) (values f) (others f)) := by
  obtain ⟨enums, emitted⟩ := comparing.modules r known
  obtain ⟨equal, compares, meaning⟩ := Source.allAlike_decides settled.compared (List.forall_mem_map.mpr each)
    (List.forall_mem_map.mpr each')
  rw [List.forall₂_map_left_iff, List.forall₂_map_right_iff, List.forall₂_same] at meaning
  have rules : ruling p H v w = pure (some equal) := by
    rw [Source.ruling_object inst.is (methodOf?_record emitted (member_equality enums r) inst.is),
      answer_equality emitted (comparing.free r known) inst inst', compares, pure_bind, pure_bind]
    rfl
  have kind : v.view.kind = .object [r.name] := inst.is ▸ rfl
  have kind' : w.view.kind = .object [r.name] := inst'.is ▸ rfl
  refine ⟨equal, ?_, meaning⟩
  rw [Source.alike_asked (kind ▸ nofun) (kind' ▸ nofun) (.inr ⟨_, kind⟩), rules]
  rfl

section

variable (settled : Settled p H C) (lawful : H.Lawful) (comparing : Comparing p records)
  (inside : ∀ {hashed items}, C hashed (.tuple items) → ∀ w ∈ items, C hashed w)
include settled lawful comparing inside

/-- Comparing two values finds out whether they match. -/
theorem Layer.alike_decides (layer : Layer p H records C false v a) (is : v.view = a)
    (layer' : Layer p H records C false w b) (is' : w.view = b) :
    ∃ equal, alike p H v w = pure equal ∧ (equal = true ↔ Matches p H records C v w a b) := by
  -- values of one kind are compared by their members, and others ask each other, where neither rules
  by_cases same : a.kind = b.kind
  · cases layer with
    | @key k => cases layer' with
      | @key l => exact ⟨k.same H l, Source.alike_keys is is', matches_keys.symm⟩
      | _ => cases same
    | list _ each => cases layer' with
      | list _ each' =>
        obtain ⟨equal, compares, meaning⟩ := Source.lists_decide settled.compared each each'
        exact ⟨equal, (Source.alike_lists is is').trans compares, meaning.trans matches_lists.symm⟩
      | _ => cases same
    | tuple each => cases layer' with
      | tuple each' =>
        obtain ⟨equal, compares, meaning⟩ := Source.allAlike_decides settled.compared each each'
        exact ⟨equal, (Source.alike_tuples is is').trans compares, meaning.trans matches_tuples.symm⟩
      | _ => cases same
    | set _ each distinct => cases layer' with
      | set _ each' _ =>
        obtain ⟨equal, compares, meaning⟩ := Source.sets_decide settled.hashed each each' distinct
        exact ⟨equal, (Source.alike_sets is is').trans compares, meaning.trans matches_sets.symm⟩
      | _ => cases same
    | dict _ texts distinct each => cases layer' with
      | dict _ texts' distinct' each' =>
        -- entries are held as pairs, and a value is inside its pair
        have keyed {entries : List (Datum L × Datum L)} (texts : ∀ e ∈ entries, ∃ s, e.1.text? = some s)
            (distinct : (entries.map (·.1.text?)).Nodup) (each : ∀ e ∈ entries, C false (.tuple [e.1, e.2])) :
            KeyedByText (C false) entries := ⟨texts, distinct, fun e member => inside (each e member) e.2 (by simp)⟩
        obtain ⟨equal, compares, meaning⟩ := Source.dicts_decide lawful settled.compared (keyed texts distinct each)
          (keyed texts' distinct' each')
        exact ⟨equal, (Source.alike_dicts is is').trans compares, meaning.trans matches_dicts.symm⟩
      | _ => cases same
    | @record path r values known named reads each => cases layer' with
      | @record path' r' others known' named' reads' each' =>
        obtain rfl : path = path' := by injection same
        obtain rfl := named
        obtain rfl : r = r' := comparing.eq_of_path known known' named'
        obtain ⟨equal, compares, meaning⟩ := alike_instances settled comparing known ⟨is, reads⟩ ⟨is', reads'⟩
          (fun f inRecord => settled.looser (each f inRecord)) (fun f inRecord => settled.looser (each' f inRecord))
        exact ⟨equal, compares, meaning.trans (matches_records comparing known reads reads').symm⟩
      | _ => cases same
  · have known : v.view.kind ≠ .other := is ▸ layer.known
    have known' : w.view.kind ≠ .other := is' ▸ layer'.known
    have rules : ruling p H v w = pure none := ruling_apart comparing layer is known' (is' ▸ same)
    have rules' : ruling p H w v = pure none := ruling_apart comparing layer' is' known (is ▸ Ne.symm same)
    have asks : v.view.kind ≠ w.view.kind := is ▸ is' ▸ same
    refine ⟨false, ?_, iff_of_false Bool.false_ne_true fun matched => absurd matched.kind_eq same⟩
    rw [Source.alike_asked known known' (.inl asks), rules, rules']
    rfl

theorem Layer.alike_iff (layer : Layer p H records C false v v.view) (layer' : Layer p H records C false w w.view) :
    alike p H v w = pure true ↔ Matches p H records C v w v.view w.view := by
  obtain ⟨equal, compares, meaning⟩ := layer.alike_decides settled lawful comparing inside rfl layer' rfl
  rw [compares, ← meaning]
  exact ⟨fun same => Outcome.pure_inj same, fun holds => congrArg pure holds⟩

theorem Layer.compared : Compared p H fun v => Layer p H records C false v v.view where
  decides layer layer' := by
    obtain ⟨equal, compares, -⟩ := layer.alike_decides settled lawful comparing inside rfl layer' rfl
    exact ⟨equal, compares⟩
  symm layer layer' equal := by
    have matched := (layer.alike_iff settled lawful comparing inside layer').mp equal
    exact (layer'.alike_iff settled lawful comparing inside layer).mpr (matched.symm settled lawful)
  trans layer middle layer' first second := by
    have matched := (layer.alike_iff settled lawful comparing inside middle).mp first
    have matched' := (middle.alike_iff settled lawful comparing inside layer').mp second
    exact (layer.alike_iff settled lawful comparing inside layer').mpr (matched.trans settled lawful comparing matched')

end

end Tablewright.Access
