import Mathlib
import Tablewright.Files.Path

/-!
# The order of paths

Paths are ordered name by name, which is the lexicographic order of lists of texts.  Sorting by it
rearranges the items and leaves no item before one whose path precedes its own; items with different
paths end up strictly increasing.
-/

namespace Tablewright.Path

theorem namesPrecede_iff_lt (as bs : List String) : namesPrecede as bs ↔ as < bs := by
  induction as generalizing bs with
  | nil => cases bs <;> simp [namesPrecede]
  | cons a as ih =>
    cases bs with
    | nil => simp [namesPrecede]
    | cons b bs => simp [namesPrecede, ih, List.cons_lt_cons_iff]

theorem precedes_iff_lt (p q : Path) : p.precedes q ↔ p.orderNames < q.orderNames :=
  namesPrecede_iff_lt _ _

theorem namesPrecede_append_left (common as bs : List String) :
    namesPrecede (common ++ as) (common ++ bs) = namesPrecede as bs := by
  induction common with
  | nil => rfl
  | cons name rest ih => simp [namesPrecede, ih]

/-- Paths below one directory are in the order that they have from there. -/
theorem below_precedes (base : Path) (names names' : List String) :
    (base.below (.ofNames names)).precedes (base.below (.ofNames names')) =
      (Path.ofNames names).precedes (.ofNames names') := by
  have order : ∀ names, (base.below (.ofNames names)).orderNames = base.orderNames ++ names := by
    intro names
    change (if base.root.isEmpty then base.names ++ names else base.root :: (base.names ++ names)) = _
    rw [orderNames]
    split <;> rfl
  rw [precedes, order, order, namesPrecede_append_left]
  rfl

section

variable {α : Type} (path : α → Path)

theorem insertBy_perm (item : α) (items : List α) : (insertBy path item items).Perm (item :: items) := by
  induction items with
  | nil => exact List.Perm.refl _
  | cons first rest ih =>
    rw [insertBy]
    split
    · exact (ih.cons first).trans (List.Perm.swap item first rest)
    · exact List.Perm.refl _

theorem sortBy_perm (items : List α) : (sortBy path items).Perm items := by
  induction items with
  | nil => exact List.Perm.refl _
  | cons first rest ih => exact (insertBy_perm path first _).trans (ih.cons first)

/-- No item of the list stands before one whose path precedes its own. -/
def Sorted (items : List α) : Prop :=
  items.Pairwise fun a b => (path a).orderNames ≤ (path b).orderNames

theorem insertBy_sorted {item : α} {items : List α} (sorted : Sorted path items) :
    Sorted path (insertBy path item items) := by
  induction items with
  | nil => simp [insertBy, Sorted]
  | cons first rest ih =>
    obtain ⟨least, sortedRest⟩ := List.pairwise_cons.mp sorted
    rw [insertBy]
    split
    · -- the item goes further down, so that the first one has to be least of all, the item included
      rename_i before
      refine List.pairwise_cons.mpr ⟨?_, ih sortedRest⟩
      intro other member
      rcases List.mem_cons.mp ((insertBy_perm path item rest).mem_iff.mp member) with rfl | member
      · exact le_of_lt ((precedes_iff_lt _ _).mp before)
      · exact least other member
    · rename_i notBefore
      have here : (path item).orderNames ≤ (path first).orderNames :=
        not_lt.mp (mt (precedes_iff_lt _ _).mpr notBefore)
      refine List.pairwise_cons.mpr ⟨?_, sorted⟩
      intro other member
      rcases List.mem_cons.mp member with rfl | member
      · exact here
      · exact le_trans here (least other member)

theorem sortBy_sorted (items : List α) : Sorted path (sortBy path items) := by
  induction items with
  | nil => exact List.Pairwise.nil
  | cons first rest ih => exact insertBy_sorted path ih

theorem insertBy_forall₂ {β : Type} {path' : β → Path} {R : α → β → Prop}
    (samePath : ∀ a b, R a b → path' b = path a) {a : α} {b : β} {as : List α} {bs : List β}
    (related : R a b) (all : List.Forall₂ R as bs) :
    List.Forall₂ R (insertBy path a as) (insertBy path' b bs) := by
  induction all with
  | nil => exact .cons related .nil
  | @cons first first' rest rest' here there ih =>
    rw [insertBy, insertBy, samePath _ _ here, samePath _ _ related]
    split
    · exact .cons here ih
    · exact .cons related (.cons here there)

/-- Related items with the same paths are related after sorting too. -/
theorem sortBy_forall₂ {β : Type} {path' : β → Path} {R : α → β → Prop}
    (samePath : ∀ a b, R a b → path' b = path a) {as : List α} {bs : List β}
    (all : List.Forall₂ R as bs) : List.Forall₂ R (sortBy path as) (sortBy path' bs) := by
  induction all with
  | nil => exact .nil
  | cons here there ih => exact insertBy_forall₂ path samePath here ih

/-- Items with different order names are strictly increasing once they are sorted. -/
theorem sortBy_pairwise_precedes {items : List α} (distinct : (items.map fun a => (path a).orderNames).Nodup) :
    (sortBy path items).Pairwise fun a b => (path a).precedes (path b) := by
  have sortedDistinct := (((sortBy_perm path items).map fun a => (path a).orderNames).nodup_iff).mpr distinct
  refine (sortBy_sorted path items).imp₂ ?_ (List.pairwise_map.mp sortedDistinct)
  intro a b before different
  exact (precedes_iff_lt _ _).mpr (lt_of_le_of_ne before different)

end

end Tablewright.Path
