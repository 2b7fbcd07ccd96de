import Mathlib
import Tablewright.Name.Fresh

/-!
# Fresh names are free

The search for a free name looks at one candidate more than there are taken names.  If the numbered
candidates are different, one of those is free, and the search stops at it.

* `fresh_notMem`: a fresh name is not taken.
* `fresh_isFirstFree`: the search ends at the first name that is free.
* `fresh_cases`, `freshAll_cases`: fresh names are wished or numbered.
* `freshAll_append`: later wishes do not change earlier names.
* `freshAll_nodup`: names that are made fresh one after the other are different.
-/

namespace Tablewright.Name

variable {taken : List String} {candidate : Nat → String}

/-- Where the search ends at a taken name, every candidate that it looked at is taken. -/
theorem candidates_mem_of_firstFree_mem {tries start : Nat} (found : firstFree taken candidate tries start ∈ taken) :
    ∀ k ≤ tries, candidate (start + k) ∈ taken := by
  induction tries generalizing start with
  | zero =>
    intro k bound
    obtain rfl : k = 0 := by omega
    exact found
  | succ tries ih =>
    rw [firstFree] at found
    by_cases first : taken.contains (candidate start)
    · rw [if_pos first] at found
      intro k bound
      cases k with
      | zero => simpa using first
      | succ k =>
        have later := ih found k (by omega)
        rwa [show start + 1 + k = start + (k + 1) by omega] at later
    · rw [if_neg first] at found
      exact absurd found (by simpa using first)

/-- Different candidates cannot all be taken. -/
theorem firstFree_notMem (different : candidate.Injective) (start : Nat) :
    firstFree taken candidate taken.length start ∉ taken := by
  intro found
  have all := candidates_mem_of_firstFree_mem found
  have nodup : ((List.range (taken.length + 1)).map fun k => candidate (start + k)).Nodup := by
    refine List.nodup_range.map fun j k same => ?_
    have := different same
    omega
  have inside : ((List.range (taken.length + 1)).map fun k => candidate (start + k)) ⊆ taken := by
    intro name member
    obtain ⟨k, bound, rfl⟩ := List.mem_map.mp member
    exact all k (by simpa [Nat.lt_succ_iff] using List.mem_range.mp bound)
  have bound := (nodup.subperm inside).length_le
  simp at bound

/-- The search ends at one of the candidates, and all before that one are taken. -/
theorem firstFree_least (tries start : Nat) : ∃ k, start ≤ k ∧ firstFree taken candidate tries start = candidate k ∧
    ∀ m, start ≤ m → m < k → candidate m ∈ taken := by
  induction tries generalizing start with
  | zero => exact ⟨start, le_rfl, rfl, fun m from' below => absurd below (by omega)⟩
  | succ tries ih =>
    rw [firstFree]
    by_cases here : taken.contains (candidate start)
    · rw [if_pos here]
      obtain ⟨k, bound, ends, before⟩ := ih (start + 1)
      refine ⟨k, by omega, ends, fun m from' below => ?_⟩
      rcases Nat.eq_or_lt_of_le from' with rfl | later
      · simpa using here
      · exact before m later below
    · rw [if_neg here]
      exact ⟨start, le_rfl, rfl, fun m from' below => absurd below (by omega)⟩

/-- A fresh name is the wished one or a numbered one. -/
theorem fresh_cases (taken : List String) (base : String) (numbered : Nat → String) :
    fresh taken base numbered = base ∨ ∃ k, fresh taken base numbered = numbered k := by
  unfold fresh
  split
  · obtain ⟨k, -, ends, -⟩ := @firstFree_least taken numbered taken.length 2
    exact .inr ⟨k, ends⟩
  · exact .inl rfl

/-- The first free name for a wish: the wish itself, or else it with the least number from two on that is free. -/
def IsFirstFree (taken : List String) (base : String) (numbered : Nat → String) (name : String) : Prop :=
  (base ∉ taken ∧ name = base) ∨
    (base ∈ taken ∧ ∃ n, 2 ≤ n ∧ name = numbered n ∧ numbered n ∉ taken ∧ ∀ m, 2 ≤ m → m < n → numbered m ∈ taken)

/-- A fresh name is not taken. -/
theorem fresh_notMem {base : String} {numbered : Nat → String} (different : numbered.Injective) :
    fresh taken base numbered ∉ taken := by
  unfold fresh
  split
  · exact firstFree_notMem different 2
  · rename_i free
    simpa using free

theorem fresh_isFirstFree {base : String} {numbered : Nat → String} (different : numbered.Injective) :
    IsFirstFree taken base numbered (fresh taken base numbered) := by
  have free : fresh taken base numbered ∉ taken := fresh_notMem different
  unfold fresh at free ⊢
  by_cases wished : taken.contains base
  · rw [if_pos wished] at free ⊢
    obtain ⟨n, bound, ends, before⟩ := @firstFree_least taken numbered taken.length 2
    rw [ends] at free ⊢
    exact .inr ⟨by simpa using wished, n, bound, rfl, free, before⟩
  · rw [if_neg wished] at free ⊢
    exact .inl ⟨free, rfl⟩

theorem IsFirstFree.congr {taken' : List String} {base name : String} {numbered : Nat → String}
    (isFirst : IsFirstFree taken base numbered name) (same : ∀ other, other ∈ taken ↔ other ∈ taken') :
    IsFirstFree taken' base numbered name := by
  simpa only [IsFirstFree, same] using isFirst

/-- Later wishes do not change the names of the earlier ones. -/
theorem freshAll_append (numbered : String → Nat → String) (taken first later : List String) :
    freshAll numbered taken (first ++ later) = freshAll numbered taken first ++
      freshAll numbered ((freshAll numbered taken first).reverse ++ taken) later := by
  induction first generalizing taken with
  | nil => rfl
  | cons base rest ih =>
    rw [List.cons_append, freshAll, freshAll, ih, List.cons_append, List.reverse_cons, List.append_assoc]
    rfl

/-- Names that are made fresh one after the other are wished ones or numbered ones. -/
theorem freshAll_cases {numbered : String → Nat → String} {wishes : List String} {name : String}
    (member : name ∈ freshAll numbered taken wishes) : ∃ base ∈ wishes, name = base ∨ ∃ k, name = numbered base k := by
  induction wishes generalizing taken with
  | nil => cases member
  | cons base rest ih =>
    rw [freshAll] at member
    rcases List.mem_cons.mp member with rfl | later
    · exact ⟨base, List.mem_cons_self, fresh_cases taken base (numbered base)⟩
    · obtain ⟨base, inRest, cases⟩ := ih later
      exact ⟨base, List.mem_cons_of_mem _ inRest, cases⟩

theorem length_freshAll (numbered : String → Nat → String) (taken wishes : List String) :
    (freshAll numbered taken wishes).length = wishes.length := by
  induction wishes generalizing taken with
  | nil => rfl
  | cons base rest ih => rw [freshAll, List.length_cons, List.length_cons, ih]

theorem freshAll_nodup {numbered : String → Nat → String} (different : ∀ base, (numbered base).Injective)
    (taken wishes : List String) :
    (freshAll numbered taken wishes).Nodup ∧ ∀ name ∈ freshAll numbered taken wishes, name ∉ taken := by
  induction wishes generalizing taken with
  | nil => exact ⟨.nil, nofun⟩
  | cons base rest ih =>
    rw [freshAll]
    -- the names after the first avoid it, because it is taken when they are chosen
    obtain ⟨distinct, free⟩ := ih (fresh taken base (numbered base) :: taken)
    refine ⟨List.nodup_cons.mpr ⟨fun again => free _ again List.mem_cons_self, distinct⟩, ?_⟩
    intro name member
    rcases List.mem_cons.mp member with rfl | later
    · exact fresh_notMem (different base)
    · exact fun known => free name later (List.mem_cons_of_mem _ known)

end Tablewright.Name
