import Mathlib.Data.List.Forall2
import Mathlib.Data.Multiset.ZeroCons

/-!
# Related lists

Lists that are related item by item, or in some order: what such a relation says about members, and how it is found.
Lists of entries: what is found under a name, also once an entry has been set.
-/

namespace Tablewright

variable {α β γ : Type} {R : α → β → Prop} {as : List α} {bs : List β}

theorem exists_forall₂ (each : ∀ a ∈ as, ∃ b, R a b) : ∃ bs, List.Forall₂ R as bs := by
  induction as with
  | nil => exact ⟨[], .nil⟩
  | cons a rest ih =>
    obtain ⟨here, there⟩ := List.forall_mem_cons.mp each
    obtain ⟨b, related⟩ := here
    obtain ⟨bs, relatedRest⟩ := ih there
    exact ⟨b :: bs, .cons related relatedRest⟩

theorem forall₂_mem (all : List.Forall₂ R as bs) :
    (∀ a ∈ as, ∃ b ∈ bs, R a b) ∧ ∀ b ∈ bs, ∃ a ∈ as, R a b := by
  induction all with
  | nil => simp
  | cons here _ ih =>
    refine ⟨List.forall_mem_cons.mpr ⟨⟨_, List.mem_cons_self, here⟩, fun a member => ?_⟩,
      List.forall_mem_cons.mpr ⟨⟨_, List.mem_cons_self, here⟩, fun b member => ?_⟩⟩
    · obtain ⟨b, inBs, related⟩ := ih.1 a member
      exact ⟨b, List.mem_cons_of_mem _ inBs, related⟩
    · obtain ⟨a, inAs, related⟩ := ih.2 b member
      exact ⟨a, List.mem_cons_of_mem _ inAs, related⟩

/-- Lists are related if they agree in some respect, and all of their members that agree are related. -/
theorem forall₂_of_map_eq {f : α → γ} {g : β → γ} (same : as.map f = bs.map g)
    (each : ∀ a ∈ as, ∀ b ∈ bs, f a = g b → R a b) : List.Forall₂ R as bs := by
  induction as generalizing bs with
  | nil =>
    obtain rfl := List.map_eq_nil_iff.mp same.symm
    exact .nil
  | cons a as ih =>
    obtain ⟨b, bs, rfl, first, rest⟩ := List.map_eq_cons_iff.mp same.symm
    refine .cons (each a List.mem_cons_self b List.mem_cons_self first.symm) (ih rest.symm ?_)
    exact fun a inAs b inBs => each a (List.mem_cons_of_mem _ inAs) b (List.mem_cons_of_mem _ inBs)

theorem forall₂_trans {R : α → α → Prop} (trans : ∀ x y z, R x y → R y z → R x z) {xs ys zs : List α}
    (first : List.Forall₂ R xs ys) (second : List.Forall₂ R ys zs) : List.Forall₂ R xs zs := by
  induction first generalizing zs with
  | nil => exact second
  | cons here _ ih =>
    obtain ⟨z, zs, here', rest, rfl⟩ := List.forall₂_cons_left_iff.mp second
    exact .cons (trans _ _ _ here here') (ih rest)

/-- Different members that each have a partner among as many others have different partners. -/
theorem rel_of_exists {R : α → α → Prop} (join : ∀ x y z, R x z → R y z → R x y) {xs ys : List α}
    (distinct : xs.Pairwise fun x y => ¬ R x y) (length : xs.length = ys.length) (each : ∀ x ∈ xs, ∃ y ∈ ys, R x y) :
    Multiset.Rel R (xs : Multiset α) ys := by
  induction xs generalizing ys with
  | nil =>
    obtain rfl := List.length_eq_zero_iff.mp length.symm
    exact .zero
  | cons x xs ih =>
    obtain ⟨different, distinct⟩ := List.pairwise_cons.mp distinct
    obtain ⟨⟨y, member, partner⟩, each⟩ := List.forall_mem_cons.mp each
    obtain ⟨before, after, rfl⟩ := List.append_of_mem member
    have turned : ((before ++ y :: after : List α) : Multiset α) = y ::ₘ ((before ++ after : List α) : Multiset α) := by
      rw [Multiset.cons_coe, Multiset.coe_eq_coe]
      exact List.perm_middle
    rw [turned, ← Multiset.cons_coe]
    have shorter : xs.length = (before ++ after).length := by
      rw [List.length_cons, List.length_append, List.length_cons] at length
      rw [List.length_append]
      omega
    refine .cons partner (ih distinct shorter fun x' inside => ?_)
    obtain ⟨z, member, partner'⟩ := each x' inside
    rcases List.mem_append.mp member with left | right
    · exact ⟨z, List.mem_append_left _ left, partner'⟩
    · rcases List.mem_cons.mp right with rfl | right
      · exact absurd (join _ _ _ partner partner') (different x' inside)
      · exact ⟨z, List.mem_append_right _ right, partner'⟩

/-- Nothing is found under a name, if and only if no entry has this name. -/
theorem lookup_eq_none_iff {ν : Type} {entries : List (String × ν)} {name : String} :
    entries.lookup name = none ↔ name ∉ entries.map (·.1) := by
  rw [List.lookup_eq_none_iff, List.mem_map]
  constructor
  · rintro absent ⟨entry, member, rfl⟩
    simpa using absent entry member
  · exact fun absent entry member => bne_iff_ne.mpr fun same => absent ⟨entry, member, same.symm⟩

theorem mem_of_lookup {ν : Type} {entries : List (String × ν)} {name : String} {value : ν}
    (found : entries.lookup name = some value) : name ∈ entries.map (·.1) := by
  by_contra absent
  rw [lookup_eq_none_iff.mpr absent] at found
  cases found

/-- An entry of one name takes a new value in its place, or goes to the end.  The new value is found under this name, and
under other names there is what there was. -/
theorem find?_setEntry {κ ν : Type} (hits : String → κ → Bool) (apart : ∀ s t k, hits s k → hits t k = decide (s = t))
    {s : String} {key : κ} (own : hits s key) (v : ν) (entries : List (κ × ν)) (t : String) :
    ((if entries.any (hits s ·.1) then entries.map fun entry => if hits s entry.1 then (entry.1, v) else entry
      else entries ++ [(key, v)]).find? (hits t ·.1)).map (·.2) =
        if s = t then some v else (entries.find? (hits t ·.1)).map (·.2) := by
  by_cases there : entries.any (hits s ·.1)
  · -- the entries keep their keys, so the same one is found
    let change : κ × ν → κ × ν := fun entry => if hits s entry.1 then (entry.1, v) else entry
    have keys : ∀ entry, (change entry).1 = entry.1 := fun entry => by
      simp only [change]
      split <;> rfl
    have found : ((entries.map change).find? (hits t ·.1)).map (·.2) =
        (entries.find? (hits t ·.1)).map fun entry => (change entry).2 := by
      rw [List.find?_map, Option.map_map]
      simp only [Function.comp_def, keys]
    rw [if_pos there]
    refine found.trans ?_
    cases first : entries.find? (hits t ·.1) with
    | none =>
      have other : s ≠ t := by
        rintro rfl
        obtain ⟨entry, member, hit⟩ := List.any_eq_true.mp there
        exact List.find?_eq_none.mp first entry member hit
      rw [if_neg other, Option.map_none, Option.map_none]
    | some entry =>
      have hit : hits t entry.1 = true := by simpa using List.find?_some first
      by_cases same : s = t
      · simp [change, same, hit]
      · simp [change, same, apart t s entry.1 hit, Ne.symm same]
  · rw [if_neg there, List.find?_append, Option.map_or]
    by_cases same : s = t
    · subst same
      have absent : entries.find? (hits s ·.1) = none := by simpa using there
      simp [absent, own]
    · have other : hits t key = false := by simpa [same] using apart s t key own
      simp [other, same]

end Tablewright
