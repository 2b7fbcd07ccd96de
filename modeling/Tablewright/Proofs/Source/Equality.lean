import Tablewright.Proofs.Lists
import Tablewright.Proofs.Source.Comparing

/-!
# Equality of containers

Containers are equal if their members are, one by one or in some order.  That holds for members that can be compared,
and hashed where sets search for them, since equal members that had other hashes would be passed over.

* `Compared`, `Hashed`: data that can be compared, and hashed, among each other; `Equal`: equal data.
* `HashAgree`: equal data with equal hashes.
* `allAlike_decides`, `lists_decide`, `sets_decide`, `dicts_decide`: what comparisons of containers come to.
* `gather_distinct`: a set that is made of different members keeps them all.
-/

namespace Tablewright.Source

variable {L : Library} {p : Program} {H : Hashing L} {v w : Datum L}

/-! ## Members that can be compared -/

/-- Data of a class can be compared with each other, which is symmetric and transitive. -/
structure Compared (p : Program) (H : Hashing L) (C : Datum L → Prop) : Prop where
  decides : ∀ {v w}, C v → C w → ∃ equal, alike p H v w = pure equal
  symm : ∀ {v w}, C v → C w → alike p H v w = pure true → alike p H w v = pure true
  trans : ∀ {u v w}, C u → C v → C w → alike p H u v = pure true → alike p H v w = pure true →
    alike p H u w = pure true

/-- Data of a class can be compared and hashed, and equal data have equal hashes. -/
structure Hashed (p : Program) (H : Hashing L) (C : Datum L → Prop) : Prop extends Compared p H C where
  hashes : ∀ {v}, C v → ∃ hash, hashOf p H v = pure hash
  agrees : ∀ {v w}, C v → C w → alike p H v w = pure true → hashOf p H v = hashOf p H w

/-- Data of a class that are equal. -/
structure Equal (p : Program) (H : Hashing L) (C : Datum L → Prop) (v w : Datum L) : Prop where
  left : C v
  right : C w
  equal : alike p H v w = pure true

variable {C : Datum L → Prop} {items others : List (Datum L)}

theorem Compared.mono {C' : Datum L → Prop} (compared : Compared p H C) (fewer : ∀ {v}, C' v → C v) : Compared p H C' where
  decides here here' := compared.decides (fewer here) (fewer here')
  symm here here' := compared.symm (fewer here) (fewer here')
  trans first second third := compared.trans (fewer first) (fewer second) (fewer third)

theorem alike_ne (compares : alike p H v w = pure false) : alike p H v w ≠ pure true := by
  rw [compares]
  exact fun same => Bool.false_ne_true (Outcome.pure_inj same)

theorem Compared.equal_symm (compared : Compared p H C) (equal : Equal p H C v w) : Equal p H C w v :=
  ⟨equal.right, equal.left, compared.symm equal.left equal.right equal.equal⟩

theorem Compared.equal_trans (compared : Compared p H C) {u : Datum L} (first : Equal p H C u v)
    (second : Equal p H C v w) : Equal p H C u w :=
  ⟨first.left, second.right, compared.trans first.left first.right second.right first.equal second.equal⟩

theorem allAlike_decides (compared : Compared p H C) (each : ∀ v ∈ items, C v) (each' : ∀ w ∈ others, C w) :
    ∃ equal, allAlike p H items others = pure equal ∧ (equal = true ↔ List.Forall₂ (Equal p H C) items others) := by
  induction items generalizing others with
  | nil => cases others with
    | nil => exact ⟨true, by rw [allAlike], by simp⟩
    | cons w others => exact ⟨false, by rw [allAlike] <;> simp, by simp⟩
  | cons v items ih => cases others with
    | nil => exact ⟨false, by rw [allAlike] <;> simp, by simp⟩
    | cons w others =>
      obtain ⟨here, later⟩ := List.forall_mem_cons.mp each
      obtain ⟨here', later'⟩ := List.forall_mem_cons.mp each'
      obtain ⟨first, compares⟩ := compared.decides here here'
      rw [allAlike, compares, pure_bind]
      cases first with
      | true =>
        obtain ⟨equal, rest, meaning⟩ := ih later later'
        refine ⟨equal, rest, ?_⟩
        rw [List.forall₂_cons, meaning]
        exact ⟨fun all => ⟨⟨here, here', compares⟩, all⟩, fun all => all.2⟩
      | false =>
        refine ⟨false, rfl, ?_⟩
        rw [List.forall₂_cons]
        exact iff_of_false Bool.false_ne_true fun all => absurd all.1.equal (alike_ne compares)

theorem allAlike_true (equal : List.Forall₂ (fun v w => alike p H v w = pure true) items others) :
    allAlike p H items others = pure true := by
  induction equal with
  | nil => rw [allAlike]
  | cons first _ ih => rw [allAlike, first, pure_bind, if_pos rfl, ih]

theorem lists_decide (compared : Compared p H C) (each : ∀ v ∈ items, C v) (each' : ∀ w ∈ others, C w) :
    ∃ equal, (if items.length = others.length then allAlike p H items others else pure false) = pure equal ∧
      (equal = true ↔ List.Forall₂ (Equal p H C) items others) := by
  by_cases length : items.length = others.length
  · rw [if_pos length]
    exact allAlike_decides compared each each'
  · rw [if_neg length]
    exact ⟨false, rfl, iff_of_false Bool.false_ne_true fun all => absurd all.length_eq length⟩

theorem isAmong_decides (hashed : Hashed p H C) (here : C v) {hash : Int} (hashes : hashOf p H v = pure hash)
    (each : ∀ w ∈ others, C w) :
    ∃ among, isAmong p H hash v others = pure among ∧ (among = true ↔ ∃ w ∈ others, Equal p H C v w) := by
  induction others with
  | nil => exact ⟨false, by rw [isAmong], by simp⟩
  | cons w others ih =>
    obtain ⟨here', later⟩ := List.forall_mem_cons.mp each
    obtain ⟨among, rest, meaning⟩ := ih later
    obtain ⟨other, hashes'⟩ := hashed.hashes here'
    obtain ⟨equal, compares⟩ := hashed.decides here here'
    rw [isAmong, hashes', pure_bind]
    -- an equal member has the same hash, so members with another hash may be passed over
    have passed (differs : alike p H v w ≠ pure true) : (among = true ↔ ∃ u ∈ w :: others, Equal p H C v u) := by
      rw [List.exists_mem_cons_iff, meaning]
      exact ⟨.inr, fun either => either.resolve_left fun equal => differs equal.equal⟩
    by_cases same : hash = other
    · rw [if_pos same, compares, pure_bind]
      cases equal with
      | true => exact ⟨true, rfl, fun _ => ⟨w, List.mem_cons_self, here, here', compares⟩, fun _ => rfl⟩
      | false => exact ⟨among, rest, passed (alike_ne compares)⟩
    · rw [if_neg same]
      refine ⟨among, rest, passed fun holds => same ?_⟩
      exact Outcome.pure_inj (hashes.symm.trans ((hashed.agrees here here' holds).trans hashes'))

theorem allAmong_decides (hashed : Hashed p H C) (each : ∀ v ∈ items, C v) (each' : ∀ w ∈ others, C w) :
    ∃ all, allAmong p H items others = pure all ∧ (all = true ↔ ∀ v ∈ items, ∃ w ∈ others, Equal p H C v w) := by
  induction items with
  | nil => exact ⟨true, by rw [allAmong], by simp⟩
  | cons v items ih =>
    obtain ⟨here, later⟩ := List.forall_mem_cons.mp each
    obtain ⟨hash, hashes⟩ := hashed.hashes here
    obtain ⟨among, found, meaning⟩ := isAmong_decides hashed here hashes each'
    rw [allAmong, hashes, pure_bind, found, pure_bind]
    simp only [List.forall_mem_cons, ← meaning]
    cases among with
    | true =>
      obtain ⟨all, rest, meaning⟩ := ih later
      exact ⟨all, rest, by simp [meaning]⟩
    | false => exact ⟨false, rfl, by simp⟩

/-- Where there are no more of the ones than of the others, a search for partners relates all of them. -/
theorem rel_decides {α : Type} {R : α → α → Prop} (join : ∀ x y z, R x z → R y z → R x y) {xs ys : List α}
    (distinct : xs.Pairwise fun x y => ¬ R x y) {search : Outcome L Bool}
    (decides : ∃ all, search = pure all ∧ (all = true ↔ ∀ x ∈ xs, ∃ y ∈ ys, R x y)) :
    ∃ equal, (if xs.length = ys.length then search else pure false) = pure equal ∧
      (equal = true ↔ Multiset.Rel R (xs : Multiset α) ys) := by
  obtain ⟨all, searched, meaning⟩ := decides
  by_cases length : xs.length = ys.length
  · rw [if_pos length]
    refine ⟨all, searched, meaning.trans ⟨rel_of_exists join distinct length, fun related x member => ?_⟩⟩
    simpa using Multiset.exists_mem_of_rel_of_mem related (by simpa using member)
  · rw [if_neg length]
    refine ⟨false, rfl, iff_of_false Bool.false_ne_true fun related => absurd ?_ length⟩
    simpa using Multiset.card_eq_card_of_rel related

/-- Two sets are equal if their members are, in some order. -/
theorem sets_decide (hashed : Hashed p H C) (each : ∀ v ∈ items, C v) (each' : ∀ w ∈ others, C w)
    (distinct : items.Pairwise fun v w => alike p H v w ≠ pure true) :
    ∃ equal, (if items.length = others.length then allAmong p H items others else pure false) = pure equal ∧
      (equal = true ↔ Multiset.Rel (Equal p H C) (items : Multiset (Datum L)) others) :=
  rel_decides (R := Equal p H C) (fun _ _ _ first second => hashed.equal_trans first (hashed.equal_symm second))
    (distinct.imp fun differs equal => differs equal.equal) (allAmong_decides hashed each each')

theorem gather_append (hashed : Hashed p H C) {seen : List (Datum L)} (each : ∀ v ∈ seen ++ items, C v)
    (distinct : (seen ++ items).Pairwise fun v w => alike p H v w ≠ pure true) :
    gather p H seen items = pure (seen ++ items) := by
  induction items generalizing seen with
  | nil => rw [gather, List.append_nil]
  | cons item items ih =>
    have here : C item := each item (by simp)
    have each' : ∀ v ∈ seen, C v := fun v member => each v (List.mem_append_left _ member)
    obtain ⟨hash, hashes⟩ := hashed.hashes here
    obtain ⟨among, found, meaning⟩ := isAmong_decides hashed here hashes each'
    have new : among = false := by
      rw [Bool.eq_false_iff, ne_eq, meaning]
      rintro ⟨v, member, equal⟩
      have differs := (List.pairwise_append.mp distinct).2.2 v member item List.mem_cons_self
      exact differs (hashed.symm here (each' v member) equal.equal)
    have split : seen ++ item :: items = (seen ++ [item]) ++ items := by simp
    rw [gather, hashes, pure_bind, found, pure_bind, new, if_neg Bool.false_ne_true, split]
    exact ih (split ▸ each) (split ▸ distinct)

/-- A set that is made of different members keeps them all. -/
theorem gather_distinct (hashed : Hashed p H C) (each : ∀ v ∈ items, C v)
    (distinct : items.Pairwise fun v w => alike p H v w ≠ pure true) : gather p H [] items = pure items :=
  gather_append hashed each distinct

/-! ## Hashes -/

/-- Two data can be compared and hashed, and if they are equal so are their hashes. -/
def HashAgree (p : Program) (H : Hashing L) (v w : Datum L) : Prop :=
  ∃ equal k l, alike p H v w = pure equal ∧ hashOf p H v = pure k ∧ hashOf p H w = pure l ∧ (equal = true → k = l)

theorem Hashed.hashAgree (hashed : Hashed p H C) (here : C v) (here' : C w) : HashAgree p H v w := by
  obtain ⟨equal, compares⟩ := hashed.decides here here'
  obtain ⟨k, hashes⟩ := hashed.hashes here
  obtain ⟨l, hashes'⟩ := hashed.hashes here'
  refine ⟨equal, k, l, compares, hashes, hashes', fun holds => Outcome.pure_inj (L := L) ?_⟩
  rw [← hashes, ← hashes', hashed.agrees here here' (holds ▸ compares)]

theorem mapM_hashOf {hash : Datum L → Int} (hashes : ∀ v, C v → hashOf p H v = pure (hash v)) (each : ∀ v ∈ items, C v) :
    items.mapM (fun item => hashOf p H item) = pure (items.map hash) := by
  refine Outcome.mapM_of_forall₂ ?_
  rw [List.forall₂_map_right_iff, List.forall₂_same]
  exact fun v member => hashes v (each v member)

namespace Hashed

variable (hashed : Hashed p H C)
include hashed

theorem exists_hash : ∃ hash : Datum L → Int, ∀ v, C v → hashOf p H v = pure (hash v) := by
  choose! hash hashes using fun v (held : C v) => hashed.hashes held
  exact ⟨hash, hashes⟩

/-- Sequences of equal members have the same hashes of members. -/
theorem mapM_congr (each : ∀ v ∈ items, C v) (each' : ∀ w ∈ others, C w)
    (equal : List.Forall₂ (fun v w => alike p H v w = pure true) items others) :
    items.mapM (fun item => hashOf p H item) = others.mapM fun item => hashOf p H item := by
  induction equal with
  | nil => rfl
  | cons first _ ih =>
    obtain ⟨here, later⟩ := List.forall_mem_cons.mp each
    obtain ⟨here', later'⟩ := List.forall_mem_cons.mp each'
    rw [List.mapM_cons, List.mapM_cons, hashed.agrees here here' first, ih later later']

/-- Equal sets have the same hashes of members, in some order. -/
theorem mapM_rel (each : ∀ v ∈ items, C v) (each' : ∀ w ∈ others, C w)
    (related : Multiset.Rel (Equal p H C) (items : Multiset (Datum L)) others) :
    ∃ hashes hashes', items.mapM (fun item => hashOf p H item) = pure hashes ∧
      others.mapM (fun item => hashOf p H item) = pure hashes' ∧ hashes.Perm hashes' := by
  obtain ⟨hash, hashes⟩ := hashed.exists_hash
  refine ⟨items.map hash, others.map hash, mapM_hashOf hashes each, mapM_hashOf hashes each', ?_⟩
  have same : Multiset.Rel (fun v w => hash v = hash w) (items : Multiset (Datum L)) others := by
    refine related.mono fun v _ w _ equal => Outcome.pure_inj (L := L) ?_
    rw [← hashes v equal.left, ← hashes w equal.right, hashed.agrees equal.left equal.right equal.equal]
  rw [← Multiset.coe_eq_coe, ← Multiset.map_coe, ← Multiset.map_coe]
  exact Multiset.rel_eq.mp (Multiset.rel_map.mpr same)

end Hashed

/-! ## Entries under texts -/

theorem view_of_text {s : String} (text : v.text? = some s) : v.view = .key (.text s) := by
  cases v with
  | text _ | member _ _ _ =>
    obtain rfl := Option.some.inj text
    rfl
  | _ => cases text

theorem Hashing.Lawful.text (lawful : H.Lawful) (s : String) : ∃ hash, H.key? (.text s) = some hash := by
  cases hashes : H.key? (.text s) with
  | some hash => exact ⟨hash, rfl⟩
  | none =>
    obtain ⟨d, number⟩ := lawful.refused hashes
    cases number

def UnderSame (R : Datum L → Datum L → Prop) (e f : Datum L × Datum L) : Prop :=
  (∃ s, e.1.text? = some s ∧ f.1.text? = some s) ∧ R e.2 f.2

theorem UnderSame.symm {R : Datum L → Datum L → Prop} (turn : ∀ v w, R v w → R w v) {e f : Datum L × Datum L}
    (under : UnderSame R e f) : UnderSame R f e := by
  obtain ⟨⟨s, text, text'⟩, related⟩ := under
  exact ⟨⟨s, text', text⟩, turn _ _ related⟩

theorem UnderSame.trans {R : Datum L → Datum L → Prop} (join : ∀ u v w, R u v → R v w → R u w)
    {e f g : Datum L × Datum L} (first : UnderSame R e f) (second : UnderSame R f g) : UnderSame R e g := by
  obtain ⟨⟨s, text, middle⟩, related⟩ := first
  obtain ⟨⟨t, middle', text'⟩, related'⟩ := second
  obtain rfl : s = t := Option.some.inj (middle.symm.trans middle')
  exact ⟨⟨s, text, text'⟩, join _ _ _ related related'⟩

/-- A mapping with texts as keys, which are different, and with values of a class. -/
structure KeyedByText (C : Datum L → Prop) (entries : List (Datum L × Datum L)) : Prop where
  texts : ∀ e ∈ entries, ∃ s, e.1.text? = some s
  distinct : (entries.map (·.1.text?)).Nodup
  values : ∀ e ∈ entries, C e.2

variable {entries rivals : List (Datum L × Datum L)}

theorem entryUnder_text (lawful : H.Lawful) {key : Datum L} {s : String} (text : key.text? = some s) {hash : Int}
    (hashes : hashOf p H key = pure hash) (texts : ∀ f ∈ rivals, ∃ t, f.1.text? = some t) :
    entryUnder p H hash key rivals = pure ((rivals.find? (·.1.text? == some s)).map (·.2)) := by
  induction rivals with
  | nil => rw [entryUnder]; rfl
  | cons f rest ih =>
    obtain ⟨⟨t, text'⟩, later⟩ := List.forall_mem_cons.mp texts
    obtain ⟨other, hashes'⟩ := lawful.text t
    have compares : alike p H key f.1 = pure (s == t) := alike_keys (view_of_text text) (view_of_text text')
    rw [entryUnder, hashOf_key (view_of_text text'), hashes', Outcome.orRaise_some, pure_bind, compares, pure_bind, ih later,
      List.find?_cons, text']
    by_cases same : s = t
    · subst same
      rw [hashOf_key (view_of_text text), hashes', Outcome.orRaise_some] at hashes
      rw [if_pos (Outcome.pure_inj hashes).symm]
      simp
    · have differs : (some t == some s) = false := by simpa using Ne.symm same
      rw [differs, beq_eq_false_iff_ne.mpr same]
      simp

/-- What is found under a text is the only entry under it. -/
theorem find?_text (keyed : KeyedByText C rivals) {f : Datum L × Datum L} (member : f ∈ rivals) {s : String}
    (text : f.1.text? = some s) : rivals.find? (·.1.text? == some s) = some f := by
  cases found : rivals.find? (·.1.text? == some s) with
  | none =>
    have other := List.find?_eq_none.mp found f member
    exact absurd text (by simpa using other)
  | some g =>
    have same : g.1.text? = f.1.text? := by simpa [text] using List.find?_some found
    exact congrArg some (List.inj_on_of_nodup_map keyed.distinct (List.mem_of_find?_eq_some found) member same)

theorem allEntries_decides (lawful : H.Lawful) (compared : Compared p H C) (each : ∀ e ∈ entries, C e.2)
    (texts : ∀ e ∈ entries, ∃ s, e.1.text? = some s) (keyed : KeyedByText C rivals) :
    ∃ all, allEntries p H entries rivals = pure all ∧
      (all = true ↔ ∀ e ∈ entries, ∃ f ∈ rivals, UnderSame (Equal p H C) e f) := by
  induction entries with
  | nil => exact ⟨true, by rw [allEntries], by simp⟩
  | cons e rest ih =>
    obtain ⟨here, later⟩ := List.forall_mem_cons.mp each
    obtain ⟨⟨s, text⟩, texts⟩ := List.forall_mem_cons.mp texts
    obtain ⟨all, rest, meaning⟩ := ih later texts
    obtain ⟨hash, hashes⟩ := lawful.text s
    have hashes : hashOf p H e.1 = pure hash := by
      rw [hashOf_key (view_of_text text), hashes, Outcome.orRaise_some]
    obtain ⟨key, value⟩ := e
    rw [allEntries, hashes, pure_bind, entryUnder_text lawful text hashes keyed.texts, pure_bind]
    simp only [List.forall_mem_cons, ← meaning]
    cases found : rivals.find? (·.1.text? == some s) with
    | none =>
      refine ⟨false, rfl, iff_of_false Bool.false_ne_true fun both => ?_⟩
      obtain ⟨⟨f, member, ⟨t, same, same'⟩, -⟩, -⟩ := both
      have other := List.find?_eq_none.mp found f member
      rw [same'] at other
      exact absurd (Option.some.inj (same.symm.trans text)) (by simpa using other)
    | some f =>
      have member := List.mem_of_find?_eq_some found
      have text' : f.1.text? = some s := by simpa using List.find?_some found
      obtain ⟨equal, compares⟩ := compared.decides here (keyed.values f member)
      simp only [Option.map_some, compares, pure_bind]
      cases equal with
      | true =>
        have under : ∃ f ∈ rivals, UnderSame (Equal p H C) (key, value) f :=
          ⟨f, member, ⟨s, text, text'⟩, here, keyed.values f member, compares⟩
        exact ⟨all, rest, fun holds => ⟨under, holds⟩, fun both => both.2⟩
      | false =>
        refine ⟨false, rfl, iff_of_false Bool.false_ne_true fun both => ?_⟩
        obtain ⟨⟨g, member', ⟨t, same, same'⟩, equal⟩, -⟩ := both
        obtain rfl : t = s := Option.some.inj (same.symm.trans text)
        -- the entry that is found is the only one under this text
        obtain rfl : f = g := Option.some.inj (found.symm.trans (find?_text keyed member' same'))
        exact absurd equal.equal (alike_ne compares)

/-- Two mappings are equal if their entries are, in some order. -/
theorem dicts_decide (lawful : H.Lawful) (compared : Compared p H C) (keyed : KeyedByText C entries)
    (keyed' : KeyedByText C rivals) :
    ∃ equal, (if entries.length = rivals.length then allEntries p H entries rivals else pure false) = pure equal ∧
      (equal = true ↔
        Multiset.Rel (UnderSame (Equal p H C)) (entries : Multiset (Datum L × Datum L)) rivals) := by
  have symm (v w : Datum L) : Equal p H C v w → Equal p H C w v := compared.equal_symm
  have trans (u v w : Datum L) : Equal p H C u v → Equal p H C v w → Equal p H C u w := compared.equal_trans
  refine rel_decides (fun _ _ _ first second => first.trans trans (second.symm symm)) ?_
    (allEntries_decides lawful compared keyed.values keyed.texts keyed')
  refine (List.pairwise_map.mp keyed.distinct).imp fun differs under => ?_
  obtain ⟨⟨s, text, text'⟩, -⟩ := under
  exact differs (text.trans text'.symm)

end Tablewright.Source
