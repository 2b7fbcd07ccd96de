import Tablewright.Proofs.Access.FieldValues
import Tablewright.Proofs.Access.Items
import Tablewright.Proofs.Plan.Layout
import Tablewright.Proofs.Schema.Identifiers

/-!
# Equal records have equal hashes

Hashing a record makes hashable what the types of its fields do not promise to be hashable.  As for comparing, both only
need to be known of the members of a value.

* `hashOf_instances`, `Matches.hashOf_eq`: hashes of equal values, given those of their members.
* `reshaped`, `Layer.prepare_eq`: the hashable value that is made of a value; `Matches.reshaped`: equal ones of equal values.
* `Settled.step`, `Held.settled`: what is known of members is known of values, and so of values of any depth.
* `hash_agrees`: equal records have equal hashes, and no hash is refused.
* `prepare_unrecognized`: the hashable value of a mapping where a record is called like the class of mappings.
-/

namespace Tablewright.Access

open Source (Program Module Datum Library Outcome Hashing Key View Compared Hashed Equal HashAgree Stmt bindings getAttribute
  alike hashOf)

variable {L : Library} {p : Program} {H : Hashing L} {records : List Record} {home : List Stmt}
  {C : Bool → Datum L → Prop} {hashed : Bool} {v w : Datum L} {a b : View L}

/-! ## Hashes -/

section

variable (settled : Settled p H C) (comparing : Comparing p records)
include settled comparing

/-- What a field of a record is hashed with can be hashed. -/
theorem exists_prepared {r : Record} (known : r ∈ records) (enums : List EnumType) {values : ResolvedField → Datum L}
    (each : ∀ f ∈ r.fields, C (!needsHashable f.type) (values f)) : ∃ prepared : ResolvedField → Datum L,
      ∀ f ∈ r.fields, (if needsHashable f.type
        then prepare p H (recordModule enums r).value.body (values f) = pure (prepared f)
        else prepared f = values f) ∧ C true (prepared f) := by
  have one : ∀ f ∈ r.fields, ∃ x, (if needsHashable f.type
      then prepare p H (recordModule enums r).value.body (values f) = pure x else x = values f) ∧ C true x := by
    intro f inRecord
    have held := each f inRecord
    cases unhashed : needsHashable f.type with
    | true =>
      rw [unhashed] at held
      have prepares : Prepares (recordModule enums r).value.body :=
        recordModule_prepares (comparing.free r known) inRecord unhashed
      obtain ⟨x, prepared, hashable⟩ := settled.prepares prepares held
      exact ⟨x, by rw [if_pos rfl]; exact prepared, hashable⟩
    | false =>
      rw [unhashed] at held
      exact ⟨values f, by rw [if_neg Bool.false_ne_true], held⟩
  choose! prepared becomes using one
  exact ⟨prepared, becomes⟩

theorem Layer.hashes (layer : Layer p H records C true v a) (is : v.view = a) : ∃ hash, hashOf p H v = pure hash := by
  obtain ⟨hash, hashes⟩ := settled.hashed.exists_hash
  cases layer with
  | @key k own known => exact ⟨own, by rw [Source.hashOf_key is, known, Outcome.orRaise_some]⟩
  | list mutable _ => cases mutable
  | @tuple items each =>
    exact ⟨H.ofTuple (items.map hash), by rw [Source.hashOf_tuple is, Source.mapM_hashOf hashes each, pure_bind]⟩
  | @set frozen items mutable each distinct =>
    cases frozen with
    | false => cases mutable rfl
    | true =>
      exact ⟨H.ofSet (items.map hash), by rw [Source.hashOf_frozenset is, Source.mapM_hashOf hashes each, pure_bind]⟩
  | dict mutable _ _ _ => cases mutable
  | @record path r values known named reads each =>
    obtain rfl := named
    obtain ⟨enums, emitted⟩ := comparing.modules r known
    obtain ⟨prepared, becomes⟩ := exists_prepared settled comparing known enums each
    rw [hashOf_record emitted ((comparing.free r known).fewer (by decide)) ⟨is, reads⟩ fun f inRecord => (becomes f inRecord).1]
    split
    · exact ⟨0, rfl⟩
    · have hashable : ∀ w ∈ r.fields.map prepared, C true w :=
        List.forall_mem_map.mpr fun f inRecord => (becomes f inRecord).2
      exact ⟨H.ofTuple ((r.fields.map prepared).map hash), by
        rw [Source.hashOf_tuple rfl, Source.mapM_hashOf hashes hashable, pure_bind]⟩

/-- Instances whose fields are equal have equal hashes. -/
theorem hashOf_instances {r : Record} (known : r ∈ records) {values others : ResolvedField → Datum L}
    (inst : Instance p r v values) (inst' : Instance p r w others)
    (each : ∀ f ∈ r.fields, C (!needsHashable f.type) (values f))
    (each' : ∀ f ∈ r.fields, C (!needsHashable f.type) (others f))
    (equal : ∀ f ∈ r.fields, Equal p H (C false) (values f) (others f)) : hashOf p H v = hashOf p H w := by
  obtain ⟨enums, emitted⟩ := comparing.modules r known
  obtain ⟨prepared, becomes⟩ := exists_prepared settled comparing known enums each
  obtain ⟨prepared', becomes'⟩ := exists_prepared settled comparing known enums each'
  -- what equal fields are hashed with is equal, whether it had to be made hashable or not
  have same : ∀ f ∈ r.fields, alike p H (prepared f) (prepared' f) = pure true := by
    intro f inRecord
    have becomes := (becomes f inRecord).1
    have becomes' := (becomes' f inRecord).1
    cases unhashed : needsHashable f.type with
    | true =>
      rw [unhashed, if_pos rfl] at becomes becomes'
      exact settled.carries (recordModule_prepares (comparing.free r known) inRecord unhashed) (equal f inRecord) becomes
        becomes'
    | false =>
      rw [unhashed, if_neg Bool.false_ne_true] at becomes becomes'
      rw [becomes, becomes']
      exact (equal f inRecord).equal
  have hashes : (r.fields.map prepared).mapM (fun item => hashOf p H item) =
      (r.fields.map prepared').mapM fun item => hashOf p H item := by
    refine settled.hashed.mapM_congr (List.forall_mem_map.mpr fun f inRecord => (becomes f inRecord).2)
      (List.forall_mem_map.mpr fun f inRecord => (becomes' f inRecord).2) ?_
    rw [List.forall₂_map_left_iff, List.forall₂_map_right_iff, List.forall₂_same]
    exact same
  have free : LeavesFree ["hash", "_hashable"] r := (comparing.free r known).fewer (by decide)
  rw [hashOf_record emitted free inst fun f inRecord => (becomes f inRecord).1,
    hashOf_record emitted free inst' fun f inRecord => (becomes' f inRecord).1,
    Source.hashOf_tuple rfl, Source.hashOf_tuple rfl, hashes]

theorem Matches.hashOf_eq (lawful : H.Lawful) (matched : Matches p H records C v w a b) (is : v.view = a)
    (is' : w.view = b) (layer : Layer p H records C true v a) (layer' : Layer p H records C true w b) :
    hashOf p H v = hashOf p H w := by
  -- both values have the same kind, since they match; lists, mutable sets and mappings are not hashed
  cases layer with
  | key _ => cases layer' with
    | key _ => rw [Source.hashOf_key is, Source.hashOf_key is', lawful.agrees (matches_keys.mp matched)]
    | _ => cases matched
  | list mutable _ => cases mutable
  | tuple each => cases layer' with
    | tuple each' =>
      have equal := (matches_tuples.mp matched).imp fun _ _ equal => equal.equal
      rw [Source.hashOf_tuple is, Source.hashOf_tuple is', settled.hashed.mapM_congr each each' equal]
    | _ => cases matched
  | @set frozen _ mutable each _ => cases layer' with
    | @set frozen' _ mutable' each' _ =>
      cases frozen with
      | false => cases mutable rfl
      | true => cases frozen' with
        | false => cases mutable' rfl
        | true =>
          obtain ⟨hashes, hashes', hashed, hashed', perm⟩ := settled.hashed.mapM_rel each each' (matches_sets.mp matched)
          rw [Source.hashOf_frozenset is, Source.hashOf_frozenset is', hashed, hashed', pure_bind, pure_bind,
            lawful.ofSet_perm perm]
    | _ => cases matched
  | dict mutable _ _ _ => cases mutable
  | @record path r values known named reads each => cases layer' with
    | @record path' r' others known' named' reads' each' =>
      obtain rfl : path = path' := by
        cases matched
        rfl
      obtain rfl := named
      obtain rfl : r = r' := comparing.eq_of_path known known' named'
      exact hashOf_instances settled comparing known ⟨is, reads⟩ ⟨is', reads'⟩ each each'
        ((matches_records comparing known reads reads').mp matched)
    | _ => cases matched

end

/-! ## Hashable values -/

/-- The hashable value that is made of a value, given what is made of its members. -/
def reshaped (q : Datum L → Datum L) (v : Datum L) : View L → Datum L
  | .list items | .tuple items => .tuple (items.map q)
  | .set _ items => .frozenset items
  | .dict entries => .frozenset (entries.map fun e => .tuple [e.1, q e.2])
  | _ => v

variable {q : Datum L → Datum L}

theorem map_kept (keeps : ∀ v, C true v → q v = v) {items : List (Datum L)} (each : ∀ w ∈ items, C true w) :
    items.map q = items :=
  (List.map_congr_left fun w member => keeps w (each w member)).trans (List.map_id _)

/-- What can be hashed as it is stays as it is. -/
theorem Layer.reshaped_eq (keeps : ∀ v, C true v → q v = v) (layer : Layer p H records C true v a) (is : v.view = a) :
    reshaped q v a = v := by
  have shape := v.view_shape
  rw [is] at shape
  cases layer with
  | list mutable _ | dict mutable _ _ _ => cases mutable
  | tuple each =>
    obtain rfl := shape
    exact congrArg _ (map_kept keeps each)
  | @set frozen items mutable _ _ =>
    cases frozen with
    | false => cases mutable rfl
    | true => exact shape.symm
  | key | record => rfl

/-- Entries under different texts stay different. -/
theorem entries_distinct {entries : List (Datum L × Datum L)} (texts : ∀ e ∈ entries, ∃ s, e.1.text? = some s)
    (distinct : (entries.map (·.1.text?)).Nodup) (q : Datum L → Datum L) :
    (entries.map fun e => (.tuple [e.1, q e.2] : Datum L)).Pairwise fun v w => alike p H v w ≠ pure true := by
  rw [List.pairwise_map]
  refine (List.pairwise_map.mp distinct).imp_of_mem fun {e f} member member' differs => Source.alike_ne ?_
  obtain ⟨s, text⟩ := texts e member
  obtain ⟨t, text'⟩ := texts f member'
  rw [text, text', ne_eq, Option.some.injEq] at differs
  rw [Source.alike_tuples rfl rfl, Source.Program.allAlike,
    Source.alike_keys (Source.view_of_text text) (Source.view_of_text text'), pure_bind, Key.same,
    beq_eq_false_iff_ne.mpr differs, if_neg Bool.false_ne_true]

/-- Some function makes the members of values hashable. -/
theorem Settled.exists_preparation (settled : Settled p H C) (prepares : Prepares home) : ∃ q : Datum L → Datum L,
    (∀ v, C false v → prepare p H home v = pure (q v) ∧ C true (q v)) ∧ ∀ v, C true v → q v = v := by
  choose! q becomes using fun v (held : C false v) => settled.prepares prepares held
  refine ⟨q, becomes, fun v held => ?_⟩
  exact Outcome.pure_inj ((becomes v (settled.loosens held)).1.symm.trans (settled.keeps prepares held))

section

variable (settled : Settled p H C) (inside : ∀ {hashed items}, C hashed (.tuple items) → ∀ w ∈ items, C hashed w)
  (prepares : Prepares home) (becomes : ∀ v, C false v → prepare p H home v = pure (q v) ∧ C true (q v))
include settled inside prepares becomes

/-- An entry of a mapping keeps its key. -/
theorem entry_prepared {entries : List (Datum L × Datum L)} (texts : ∀ e ∈ entries, ∃ s, e.1.text? = some s)
    (each : ∀ e ∈ entries, C false (.tuple [e.1, e.2])) : ∀ e ∈ entries,
      prepare p H home (.tuple [e.1, e.2]) = pure (.tuple [e.1, q e.2]) ∧ C true (.tuple [e.1, q e.2]) := by
  intro e member
  obtain ⟨s, text⟩ := texts e member
  have kept : prepare p H home e.1 = pure e.1 := prepares.prepare_plain (by rw [Source.view_of_text text]; rfl)
  have members : [e.1, e.2].mapM (prepare p H home) = pure [e.1, q e.2] := by
    simp [kept, (becomes e.2 (inside (each e member) e.2 (by simp))).1]
  have isTuple : (.tuple [e.1, e.2] : Datum L).view = .tuple [e.1, e.2] := rfl
  have made := prepares.prepare_sequence (.inr isTuple) members
  obtain ⟨x, same, hashable⟩ := settled.prepares prepares (each e member)
  obtain rfl := Outcome.pure_inj (made.symm.trans same)
  exact ⟨made, hashable⟩

theorem Layer.prepare_eq (keeps : ∀ v, C true v → q v = v) (layer : Layer p H records C false v a) (is : v.view = a) :
    prepare p H home v = pure (reshaped q v a) ∧ Layer p H records C true (reshaped q v a) (reshaped q v a).view := by
  have members {items : List (Datum L)} (each : ∀ w ∈ items, C false w) :
      items.mapM (prepare p H home) = pure (items.map q) ∧ ∀ w ∈ items.map q, C true w := by
    refine ⟨Outcome.mapM_of_forall₂ ?_, List.forall_mem_map.mpr fun w member => (becomes w (each w member)).2⟩
    rw [List.forall₂_map_right_iff, List.forall₂_same]
    exact fun w member => (becomes w (each w member)).1
  cases layer with
  | key hashes =>
    refine ⟨prepares.prepare_plain (by rw [is]; rfl), ?_⟩
    change Layer p H records C true v v.view
    rw [is]
    exact .key hashes
  | list _ each => exact ⟨prepares.prepare_sequence (.inl is) (members each).1, .tuple (members each).2⟩
  | tuple each => exact ⟨prepares.prepare_sequence (.inr is) (members each).1, .tuple (members each).2⟩
  | @set frozen items _ each distinct =>
    -- members of a set can be hashed, so they are kept, and stay different
    have prepared := (members fun w member => settled.loosens (each w member)).1
    rw [map_kept keeps each] at prepared
    rw [prepares.prepare_set is prepared, Source.gather_distinct settled.hashed each distinct]
    exact ⟨rfl, .set nofun each distinct⟩
  | @dict entries _ texts distinct each =>
    have entry := entry_prepared settled inside prepares becomes texts each
    have prepared : (entries.map fun e => .tuple [e.1, e.2]).mapM (prepare p H home) =
        pure (entries.map fun e => .tuple [e.1, q e.2]) := by
      refine Outcome.mapM_of_forall₂ ?_
      rw [List.forall₂_map_left_iff, List.forall₂_map_right_iff, List.forall₂_same]
      exact fun e member => (entry e member).1
    have hashable : ∀ w ∈ entries.map fun e => (.tuple [e.1, q e.2] : Datum L), C true w :=
      List.forall_mem_map.mpr fun e member => (entry e member).2
    -- keys are kept, so no two entries become equal whatever becomes of their values
    have apart := @entries_distinct L p H entries texts distinct q
    rw [prepares.prepare_dict is prepared, Source.gather_distinct settled.hashed hashable apart]
    exact ⟨rfl, .set nofun hashable apart⟩
  | record known named reads each =>
    refine ⟨prepares.prepare_plain (by rw [is]; rfl), ?_⟩
    change Layer p H records C true v v.view
    rw [is]
    exact .record known named reads each

/-- What is made of equal values is equal. -/
theorem Matches.reshaped (matched : Matches p H records C v w a b) (is : v.view = a) (is' : w.view = b)
    (equal : alike p H v w = pure true) (layer : Layer p H records C false v a)
    (layer' : Layer p H records C false w b) : alike p H (reshaped q v a) (reshaped q w b) = pure true := by
  have carry (v w : Datum L) (equal : Equal p H (C false) v w) : alike p H (q v) (q w) = pure true :=
    settled.carries prepares equal (becomes v equal.left).1 (becomes w equal.right).1
  have sequence {items others : List (Datum L)} (each : List.Forall₂ (Equal p H (C false)) items others) :
      alike p H (.tuple (items.map q)) (.tuple (others.map q)) = pure true := by
    rw [Source.alike_tuples rfl rfl]
    refine Source.allAlike_true ?_
    rw [List.forall₂_map_left_iff, List.forall₂_map_right_iff]
    exact each.imp carry
  cases matched with
  | keys same => exact equal
  | lists each => exact sequence each
  | tuples each => exact sequence each
  | @sets frozen frozen' items others _ =>
    have frozenset : alike p H (.frozenset items) (.frozenset others) = alike p H v w :=
      (Source.alike_sets rfl rfl).trans (Source.alike_sets is is').symm
    exact frozenset.trans equal
  | @dicts entries rivals all => cases layer with
    | dict _ texts distinct each => cases layer' with
      | dict _ texts' _ each' =>
        have entry := entry_prepared settled inside prepares becomes texts each
        have entry' := entry_prepared settled inside prepares becomes texts' each'
        -- entries are members of a set now, where each one is searched for by its hash
        obtain ⟨holds, compares, meaning⟩ := Source.sets_decide settled.hashed
          (List.forall_mem_map.mpr fun e member => (entry e member).2)
          (List.forall_mem_map.mpr fun f member => (entry' f member).2) (entries_distinct texts distinct q)
        refine (Source.alike_sets rfl rfl).trans (compares.trans (congrArg pure (meaning.mpr ?_)))
        rw [← Multiset.map_coe, ← Multiset.map_coe, Multiset.rel_map]
        refine all.mono fun e member f member' under => ⟨(entry e member).2, (entry' f member').2, ?_⟩
        obtain ⟨⟨s, text, text'⟩, equal⟩ := under
        have keys : alike p H e.1 f.1 = pure true := by
          rw [Source.alike_keys (Source.view_of_text text) (Source.view_of_text text'), Key.same, beq_self_eq_true]
        exact (Source.alike_tuples rfl rfl).trans (Source.allAlike_true (.cons keys (.cons (carry _ _ equal) .nil)))
  | records => exact equal

end

/-! ## All values -/

/-- What is known of the members of values is known of the values. -/
theorem Settled.step (settled : Settled p H C) (lawful : H.Lawful) (comparing : Comparing p records)
    (inside : ∀ {hashed items}, C hashed (.tuple items) → ∀ w ∈ items, C hashed w) :
    Settled p H fun hashed v => Layer p H records C hashed v v.view := by
  have looser {v : Datum L} (layer : Layer p H records C true v v.view) : Layer p H records C false v v.view :=
    layer.loosen settled.loosens
  have compared : Compared p H fun v => Layer p H records C false v v.view :=
    Layer.compared settled lawful comparing inside
  refine ⟨looser, compared, ⟨compared.mono looser, fun layer => layer.hashes settled comparing rfl, ?_⟩, ?_, ?_, ?_⟩
  · intro v w layer layer' equal
    have matched := ((looser layer).alike_iff settled lawful comparing inside (looser layer')).mp equal
    exact matched.hashOf_eq settled comparing lawful rfl rfl layer layer'
  · intro home v prepares layer
    obtain ⟨q, becomes, keeps⟩ := settled.exists_preparation prepares
    exact ⟨_, layer.prepare_eq settled inside prepares becomes keeps rfl⟩
  · intro home v prepares layer
    obtain ⟨q, becomes, keeps⟩ := settled.exists_preparation prepares
    have made := ((looser layer).prepare_eq settled inside prepares becomes keeps rfl).1
    rwa [layer.reshaped_eq keeps rfl] at made
  · -- what is made of a value is the reshaped value, since there is no other result
    intro home v w x y prepares equal made made'
    obtain ⟨q, becomes, keeps⟩ := settled.exists_preparation prepares
    obtain rfl := Outcome.pure_inj ((equal.left.prepare_eq settled inside prepares becomes keeps rfl).1.symm.trans made)
    obtain rfl := Outcome.pure_inj ((equal.right.prepare_eq settled inside prepares becomes keeps rfl).1.symm.trans made')
    have matched := (equal.left.alike_iff settled lawful comparing inside equal.right).mp equal.equal
    exact matched.reshaped settled inside prepares becomes rfl rfl equal.equal equal.left equal.right

theorem Held.settled (lawful : H.Lawful) (comparing : Comparing p records) (depth : Nat) :
    Settled p H (Held p H records depth) := by
  induction depth with
  | zero =>
    -- nothing is held without a layer
    refine ⟨nofun, ⟨nofun, nofun, nofun⟩, ⟨⟨nofun, nofun, nofun⟩, nofun, nofun⟩, fun _ => nofun, fun _ => nofun, ?_⟩
    exact fun _ equal => nomatch equal.left
  | succ depth ih => exact ih.step lawful comparing Held.inside

/-- A value of any depth. -/
def Valued (p : Program) (H : Hashing L) (records : List Record) (hashed : Bool) (v : Datum L) : Prop :=
  ∃ depth, Held p H records depth hashed v

/-- The values of finitely many fields have a common depth. -/
theorem exists_depth {fields : List ResolvedField} {hashed : ResolvedField → Bool} {values : ResolvedField → Datum L}
    (each : ∀ f ∈ fields, Valued p H records (hashed f) (values f)) :
    ∃ depth, ∀ f ∈ fields, Held p H records depth (hashed f) (values f) := by
  induction fields with
  | nil => exact ⟨0, nofun⟩
  | cons f rest ih =>
    obtain ⟨⟨m, here⟩, later⟩ := List.forall_mem_cons.mp each
    obtain ⟨n, there⟩ := ih later
    exact ⟨max m n, List.forall_mem_cons.mpr
      ⟨here.mono (le_max_left m n), fun g inRest => (there g inRest).mono (le_max_right m n)⟩⟩

theorem Instance.held {r : Record} {values : ResolvedField → Datum L} (inst : Instance p r v values) (known : r ∈ records)
    {depth : Nat} (each : ∀ f ∈ r.fields, Held p H records depth (!needsHashable f.type) (values f)) :
    Held p H records (depth + 1) true v := by
  change Layer p H records (Held p H records depth) true v v.view
  rw [inst.is]
  exact .record known rfl inst.reads each

/-- Equality and hashes of records agree, and no hash is refused: whatever their fields hold, two instances can be compared
and hashed, and if they are equal so are their hashes.  The function that a module has for fields of lists, of sets and
of no declared type makes values hashable, and equal ones equal. -/
theorem hash_agrees (lawful : H.Lawful) (comparing : Comparing p records) {r : Record} (known : r ∈ records) {m : Module}
    (emitted : p.module? r.name = some m) :
    (∀ {v w : Datum L} {values others : ResolvedField → Datum L}, Instance p r v values → Instance p r w others →
      (∀ f ∈ r.fields, Valued p H records (!needsHashable f.type) (values f)) →
        (∀ f ∈ r.fields, Valued p H records (!needsHashable f.type) (others f)) → HashAgree p H v w) ∧
    ((∃ f ∈ r.fields, needsHashable f.type) →
      ∀ {v w : Datum L}, Valued p H records false v → Valued p H records false w →
        ∃ equal x y, alike p H v w = pure equal ∧ prepare p H m.body v = pure x ∧ prepare p H m.body w = pure y ∧
          HashAgree p H x y ∧ (equal = true → alike p H x y = pure true)) := by
  constructor
  · intro v w values others inst inst' each each'
    obtain ⟨m, held⟩ := exists_depth each
    obtain ⟨n, held'⟩ := exists_depth each'
    have here := (inst.held known held).mono (Nat.succ_le_succ (le_max_left m n))
    have here' := (inst'.held known held').mono (Nat.succ_le_succ (le_max_right m n))
    exact (Held.settled lawful comparing (max m n + 1)).hashed.hashAgree here here'
  · rintro ⟨f, inRecord, unhashed⟩ v w ⟨i, held⟩ ⟨j, held'⟩
    obtain ⟨enums, module⟩ := comparing.modules r known
    obtain rfl : m = (recordModule enums r).value := Option.some.inj (emitted.symm.trans module)
    have prepares : Prepares (recordModule enums r).value.body :=
      recordModule_prepares (comparing.free r known) inRecord unhashed
    have settled := Held.settled lawful comparing (max i j)
    have here := held.mono (le_max_left i j)
    have here' := held'.mono (le_max_right i j)
    obtain ⟨equal, compares⟩ := settled.compared.decides here here'
    obtain ⟨x, made, hashable⟩ := settled.prepares prepares here
    obtain ⟨y, made', hashable'⟩ := settled.prepares prepares here'
    refine ⟨equal, x, y, compares, made, made', settled.hashed.hashAgree hashable hashable', fun holds => ?_⟩
    exact settled.carries prepares ⟨here, here', holds ▸ compares⟩ made made'

/-! ### Baskets -/

def lineRecord : Record := ⟨"Line", [⟨bareField "sku" "string", "sku", .scalar .string⟩], none, .nested⟩

/-- A basket with lines, labels and whatever else belongs to it. -/
def basketRecord : Record :=
  ⟨"Basket", [⟨bareField "lines" "list", "lines", .list (.record "Line")⟩,
    ⟨bareField "labels" "string-set", "labels", .set .string⟩, ⟨bareField "extra" "map", "extra", .any⟩], none, .nested⟩

def basketProgram : Program :=
  ⟨fun name => ([lineRecord, basketRecord].find? (·.name = name)).map fun r => (recordModule [] r).value⟩

theorem basketProgram_comparing : Comparing basketProgram [lineRecord, basketRecord] where
  modules := by
    simp only [List.forall_mem_cons]
    exact ⟨⟨[], rfl⟩, ⟨[], rfl⟩, List.forall_mem_nil _⟩
  free := by decide
  plain := by decide
  named := by simp [lineRecord, basketRecord]

def basketLine (sku : String) : Datum Library.plain := .object ["Line"] [("_sku", .text sku)]

/-- The values of a basket: two lines, some labels, and sizes under a text. -/
def basketValues (labels : List String) (f : ResolvedField) : Datum Library.plain :=
  match f.identifier with
  | "lines" => .list [basketLine "7", basketLine "8"]
  | "labels" => .set (labels.map .text)
  | _ => .dict [(.text "sizes", .list [.int 1, .int 2])]

def basketWith (labels : List String) : Datum Library.plain :=
  .object ["Basket"] [("_lines", .list [basketLine "7", basketLine "8"]), ("_labels", .set (labels.map .text)),
    ("_extra", .dict [(.text "sizes", .list [.int 1, .int 2])])]

theorem basketWith_instance (labels : List String) :
    Instance basketProgram basketRecord (basketWith labels) (basketValues labels) := by
  have usable : Usable basketRecord := by
    refine ⟨?_, by decide⟩
    constructor <;> decide
  have emitted : basketProgram.module? basketRecord.name = some (recordModule [] basketRecord).value := rfl
  refine Instance.of_attributes emitted usable (by decide) ?_
  simp only [basketRecord, List.forall_mem_cons]
  exact ⟨rfl, rfl, rfl, List.forall_mem_nil _⟩

theorem basketLine_held (sku : String) :
    Held basketProgram Hashing.plain [lineRecord, basketRecord] 2 true (basketLine sku) := by
  have usable : Usable lineRecord := by
    refine ⟨?_, by decide⟩
    constructor <;> decide
  have emitted : basketProgram.module? lineRecord.name = some (recordModule [] lineRecord).value := rfl
  have inst : Instance basketProgram lineRecord (basketLine sku) fun _ => .text sku :=
    Instance.of_attributes emitted usable (by decide) (List.forall_mem_singleton.mpr rfl)
  exact inst.held (by simp) (List.forall_mem_singleton.mpr (.key rfl))

theorem basketValues_valued {labels : List String} (distinct : labels.Nodup) : ∀ f ∈ basketRecord.fields,
    Valued basketProgram Hashing.plain [lineRecord, basketRecord] (!needsHashable f.type) (basketValues labels f) := by
  have settled := Held.settled Hashing.plain_lawful basketProgram_comparing 2
  have lines : Valued basketProgram Hashing.plain [lineRecord, basketRecord] false
      (.list [basketLine "7", basketLine "8"]) := by
    refine ⟨3, .list rfl ?_⟩
    simp only [List.forall_mem_cons]
    exact ⟨settled.loosens (basketLine_held "7"), settled.loosens (basketLine_held "8"), List.forall_mem_nil _⟩
  have labels : Valued basketProgram Hashing.plain [lineRecord, basketRecord] false (.set (labels.map .text)) := by
    refine ⟨2, .set (fun _ => rfl) (List.forall_mem_map.mpr fun label _ => .key rfl) ?_⟩
    refine List.pairwise_map.mpr (distinct.imp fun differs => Source.alike_ne ?_)
    rw [Source.alike_keys rfl rfl, Key.same, beq_eq_false_iff_ne.mpr differs]
  have extra : Valued basketProgram Hashing.plain [lineRecord, basketRecord] false
      (.dict [(.text "sizes", .list [.int 1, .int 2])]) := by
    refine ⟨4, .dict rfl (List.forall_mem_singleton.mpr ⟨_, rfl⟩) (List.nodup_singleton _) ?_⟩
    refine List.forall_mem_singleton.mpr (.tuple ?_)
    have sizes : ∀ w ∈ [.int 1, .int 2], Held basketProgram Hashing.plain [lineRecord, basketRecord] 1 false w := by
      simp only [List.forall_mem_cons]
      exact ⟨.key rfl, .key rfl, List.forall_mem_nil _⟩
    simp only [List.forall_mem_cons]
    exact ⟨.key rfl, .list rfl sizes, List.forall_mem_nil _⟩
  simp only [basketRecord, List.forall_mem_cons]
  exact ⟨lines, labels, extra, List.forall_mem_nil _⟩

/-- Two baskets that list their labels in different orders, and the hashable forms of these labels. -/
theorem hash_agrees_baskets :
    HashAgree basketProgram Hashing.plain (basketWith ["new", "big"]) (basketWith ["big", "new"]) ∧
      ∃ x y, prepare basketProgram Hashing.plain (recordModule [] basketRecord).value.body
          (basketValues ["new", "big"] basketRecord.fields[1]) = pure x ∧
        prepare basketProgram Hashing.plain (recordModule [] basketRecord).value.body
          (basketValues ["big", "new"] basketRecord.fields[1]) = pure y ∧ HashAgree basketProgram Hashing.plain x y := by
  have emitted : basketProgram.module? basketRecord.name = some (recordModule [] basketRecord).value := rfl
  have valued := basketValues_valued (by decide : ["new", "big"].Nodup)
  have valued' := basketValues_valued (by decide : ["big", "new"].Nodup)
  have labels : basketRecord.fields[1] ∈ basketRecord.fields := List.getElem_mem (by decide)
  obtain ⟨agrees, prepared⟩ := hash_agrees Hashing.plain_lawful basketProgram_comparing (by simp) emitted
  obtain ⟨-, x, y, -, made, made', agree, -⟩ := prepared ⟨_, labels, rfl⟩ (valued _ labels) (valued' _ labels)
  exact ⟨agrees (basketWith_instance _) (basketWith_instance _) valued valued', x, y, made, made', agree⟩

/-! ### Mappings that are not recognized -/

/-- Where a record is called like the class of mappings, a mapping is no mapping in its module. -/
theorem prepare_unrecognized {enums : List EnumType} {r : Record}
    (emitted : p.module? r.name = some (recordModule enums r).value) (named : r.name = "dict")
    (free : LeavesFree ["isinstance", "list", "tuple", "set", "frozenset"] r) (entries : List (Datum L × Datum L)) :
    prepare p H (recordModule enums r).value.body (.dict entries) = pure (.dict entries) := by
  have unbound : ∀ name ∈ ["isinstance", "list", "tuple", "set", "frozenset"],
      bindings name (recordModule enums r).value.body = [] := fun name read =>
    unbound_of_free (free name read) ((by decide : ["isinstance", "list", "tuple", "set", "frozenset"] ⊆ _) read)
      (fun same => absurd (same ▸ read) (by decide))
  have itself : Source.examine p H (preparing (recordModule enums r).value.body (.dict entries)) (.name "dict") =
      pure (.cls ["dict"]) := by
    rw [Source.examine_name, ← named]
    refine readName_itself rfl ?_
    rw [named]
    rfl
  have tests : Source.useBuiltin p H "isinstance" [.dict entries, .cls ["dict"]] = pure (.bool false) := by
    rw [Source.Program.useBuiltin]
    · have known : (.dict entries : Datum L).view.kind ≠ .other := by
        change Source.Kind.dict ≠ .other
        decide
      rw [← named, isOf?_record emitted known]
      rfl
    · simp
  rw [prepare_tested unbound (examine_isInstance (unbound _ (by decide)) itself tests)]
  exact examine_value

/-- An article that is called like the class of mappings, with whatever else belongs to it. -/
def dictArticle : Schema :=
  { shopArticle with entityName := some "dict", fields := [skuField, bareField "extra" "map"] }

theorem dictArticle_unhashed : ¬ ∀ (s : Schema) (e : Entity) (p : Program) (v : Datum Library.plain)
    (values : ResolvedField → Datum Library.plain), checkCollisions s = .ok () → (describe s).value = .ok e →
      checkTypeNames [e] = .ok () → Loads p e → Usable e.record → Instance p e.record v values →
        (∀ f ∈ e.record.fields, Valued p Hashing.plain [e.record] (!needsHashable f.type) (values f)) →
          ∃ hash, hashOf p Hashing.plain v = pure hash := by
  intro always
  -- the name is no import and has a module of its own, so it is accepted
  obtain ⟨e, described, checked⟩ := exists_described (s := dictArticle) (P := fun e =>
    decide (e.nested = [] ∧ e.enums = [] ∧ e.record.name = "dict") && (checkTypeNames [e]).isOk) (by decide +kernel)
  rw [Bool.and_eq_true] at checked
  obtain ⟨nested, enums, named⟩ := of_decide_eq_true checked.1
  obtain ⟨⟨⟩, typesChecked⟩ := exists_ok_of_isOk checked.2
  have loads := entityProgram_loads nested enums (by rw [named]; decide)
  have collisions : checkCollisions dictArticle = .ok () := checkCollisions_ok.mpr (by decide +kernel)
  have describes := describe_ok described
  have fields : e.record.fields =
      [⟨skuField, "sku", .scalar .string⟩, ⟨bareField "extra" "map", "extra", .any⟩] := by
    rw [describes.fields]
    rfl
  have usable : Usable e.record := by
    refine ⟨?_, by rw [fields]; decide⟩
    constructor <;> rw [fields] <;> decide
  let values (f : ResolvedField) : Datum Library.plain := if f.identifier = "sku" then .text "7" else .dict []
  -- the mapping is empty, and the other field holds a text
  have inst : Instance (entityProgram e) e.record
      (.object [e.record.name] [("_sku", .text "7"), ("_extra", .dict [])]) values := by
    refine Instance.of_attributes (loads.records _ List.mem_cons_self) usable (by rw [named]; decide) ?_
    rw [fields]
    exact List.forall_mem_cons.mpr ⟨rfl, List.forall_mem_singleton.mpr rfl⟩
  have valued : ∀ f ∈ e.record.fields,
      Valued (entityProgram e) Hashing.plain [e.record] (!needsHashable f.type) (values f) := by
    rw [fields]
    refine List.forall_mem_cons.mpr ⟨⟨1, .key rfl⟩, List.forall_mem_singleton.mpr ⟨1, ?_⟩⟩
    exact .dict rfl (List.forall_mem_nil _) .nil (List.forall_mem_nil _)
  obtain ⟨hash, hashes⟩ := always _ e _ _ values collisions described typesChecked loads usable inst valued
  have free : LeavesFree ["isinstance", "list", "tuple", "set", "frozenset", "hash", "_hashable"] e.record := by
    have types : (recordUsage e.record).types = [] := by
      rw [recordUsage, fields]
      rfl
    rw [LeavesFree, types, named]
    decide
  have emitted := loads.records _ List.mem_cons_self
  have prepares : ∀ f ∈ e.record.fields, if needsHashable f.type
      then prepare (entityProgram e) Hashing.plain (recordModule e.enums e.record).value.body (values f) = pure (values f)
      else values f = values f := by
    rw [fields]
    refine List.forall_mem_cons.mpr ⟨rfl, List.forall_mem_singleton.mpr ?_⟩
    exact prepare_unrecognized emitted named (free.fewer (by decide)) []
  have nonempty : e.record.fields.isEmpty = false := by rw [fields]; rfl
  rw [hashOf_record emitted (free.fewer (by decide)) inst prepares, nonempty, if_neg Bool.false_ne_true] at hashes
  obtain ⟨own, hashes⟩ := Source.hashOf_member rfl hashes (.dict []) (by rw [fields]; simp [values])
  rw [Source.hashOf_dict rfl] at hashes
  exact Outcome.throw_ne_pure _ _ hashes

end Tablewright.Access
