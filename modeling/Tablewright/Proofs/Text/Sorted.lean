import Mathlib
import Tablewright.Text.Sorted

/-!
# Sorted names

A sorted list of names holds the same names as the list it was made from, each once, in increasing order.
-/

namespace Tablewright.Text

theorem mem_insertName {name other : String} {names : List String} :
    other ∈ insertName name names ↔ other = name ∨ other ∈ names := by
  induction names with
  | nil => simp [insertName]
  | cons first rest ih =>
    rw [insertName]
    split
    · rw [List.mem_cons]
    · split
      · rename_i same
        simp [same]
      · rw [List.mem_cons, ih, List.mem_cons]
        tauto

@[simp] theorem mem_sortNames {name : String} {names : List String} : name ∈ sortNames names ↔ name ∈ names := by
  induction names with
  | nil => simp [sortNames]
  | cons first rest ih =>
    rw [sortNames, List.foldr_cons, mem_insertName, List.mem_cons]
    exact or_congr_right ih

theorem insertName_pairwise {name : String} {names : List String} (sorted : names.Pairwise (· < ·)) :
    (insertName name names).Pairwise (· < ·) := by
  induction names with
  | nil => simp [insertName]
  | cons first rest ih =>
    obtain ⟨least, sortedRest⟩ := List.pairwise_cons.mp sorted
    rw [insertName]
    split
    · rename_i before
      refine List.pairwise_cons.mpr ⟨?_, sorted⟩
      intro other member
      rcases List.mem_cons.mp member with rfl | member
      · exact before
      · exact lt_trans before (least other member)
    · split
      · exact sorted
      · rename_i notBefore different
        refine List.pairwise_cons.mpr ⟨?_, ih sortedRest⟩
        intro other member
        rcases mem_insertName.mp member with rfl | member
        · exact lt_of_le_of_ne (not_lt.mp notBefore) (Ne.symm different)
        · exact least other member

theorem sortNames_pairwise (names : List String) : (sortNames names).Pairwise (· < ·) := by
  induction names with
  | nil => exact List.Pairwise.nil
  | cons first rest ih => exact insertName_pairwise ih

theorem sortNames_nodup (names : List String) : (sortNames names).Nodup :=
  (sortNames_pairwise names).imp fun before => ne_of_lt before

theorem sortNames_perm {names : List String} (distinct : names.Nodup) : (sortNames names).Perm names :=
  (List.perm_ext_iff_of_nodup (sortNames_nodup names) distinct).mpr fun _ => mem_sortNames

end Tablewright.Text
