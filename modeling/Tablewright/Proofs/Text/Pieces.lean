import Mathlib
import Tablewright.Text.Pieces

/-!
# Parts of a text

Cutting a text at a character: a part without the character is cut off whole.
-/

namespace Tablewright.Text

variable {mark : Char}

theorem splitAtChar_ne_nil (cs : List Char) : splitAtChar mark cs ≠ [] := by
  induction cs with
  | nil => simp [splitAtChar]
  | cons c rest ih =>
    rw [splitAtChar]
    cases parts : splitAtChar mark rest with
    | nil => exact absurd parts ih
    | cons part parts =>
      dsimp only
      split <;> simp

theorem splitAtChar_append {part : List Char} (unmarked : mark ∉ part) (cs : List Char) :
    splitAtChar mark (part ++ mark :: cs) = part :: splitAtChar mark cs := by
  induction part with
  | nil =>
    rw [List.nil_append, splitAtChar]
    cases parts : splitAtChar mark cs with
    | nil => exact absurd parts (splitAtChar_ne_nil cs)
    | cons first rest => simp
  | cons c part ih =>
    obtain ⟨different, unmarked⟩ := List.ne_and_not_mem_of_not_mem_cons unmarked
    rw [List.cons_append, splitAtChar, ih unmarked]
    simp [Ne.symm different]

theorem splitAtChar_of_notMem {part : List Char} (unmarked : mark ∉ part) : splitAtChar mark part = [part] := by
  induction part with
  | nil => rfl
  | cons c part ih =>
    obtain ⟨different, unmarked⟩ := List.ne_and_not_mem_of_not_mem_cons unmarked
    rw [splitAtChar, ih unmarked]
    simp [Ne.symm different]

theorem split_ne_nil (s : String) : split mark s ≠ [] := by
  simp [split, splitAtChar_ne_nil]

theorem split_of_notMem {s : String} (unmarked : mark ∉ s.toList) : split mark s = [s] := by
  simp [split, splitAtChar_of_notMem unmarked]

theorem split_append {part s : String} (unmarked : mark ∉ part.toList) :
    split mark (part ++ String.singleton mark ++ s) = part :: split mark s := by
  have chars : (part ++ String.singleton mark ++ s).toList = part.toList ++ mark :: s.toList := by simp
  rw [split, chars, splitAtChar_append unmarked]
  simp [split]

end Tablewright.Text
