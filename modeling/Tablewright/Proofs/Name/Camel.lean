import Tablewright.Name.Camel
import Tablewright.Proofs.Name.Snake

/-!
# The shape of camel case

Camel case brings no underscores into a name but the guards at its ends, whatever letters of whatever script the name
is made of.

* `underscore_notMem_camelWords`: joined words hold no underscores.
* `camelCase_unreserved`, `camelCase_plain`: what the guards of camel case make sure of.
-/

namespace Tablewright.Name

open Text (CaseRun upperChar lowerChar upper lower upperExpansions upperRuns lowerExpansions lowerRuns)

/-! ## Letter case -/

/-- A run of a case table that takes no code point to the underscore. -/
def avoidsUnderscore (run : CaseRun) : Bool :=
  0x5f < (run.first : Int) + run.shift || (run.last : Int) + run.shift < 0x5f

theorem ofNat_ne_underscore {n : Nat} (other : n ≠ 0x5f) : Char.ofNat n ≠ '_' := by
  intro same
  have code := congrArg Char.toNat same
  rw [Char.toNat_ofNat] at code
  split at code
  · exact other code
  · exact absurd code (by decide)

theorem underscore_notMem_mapped {expansions : List (Nat × List Nat)} {runs : List CaseRun}
    (several : ∀ entry ∈ expansions, 0x5f ∉ entry.2) (single : ∀ run ∈ runs, avoidsUnderscore run) {c : Char}
    (other : c ≠ '_') :
    '_' ∉ (match expansions.lookup c.toNat with
      | some codes => codes.map Char.ofNat
      | none => [((CaseRun.image? runs c.toNat).map Char.ofNat).getD c]) := by
  -- both case mappings look in a table of texts first and in a table of runs then
  cases found : expansions.lookup c.toNat with
  | some codes =>
    obtain ⟨before, after, rfl, -⟩ := List.lookup_eq_some_iff.mp found
    have free : 0x5f ∉ codes := several (c.toNat, codes) (by simp)
    simp only [List.mem_map, not_exists, not_and]
    intro code member
    exact ofNat_ne_underscore (ne_of_mem_of_not_mem member free)
  | none =>
    rw [List.mem_singleton]
    cases image : CaseRun.image? runs c.toNat with
    | none => exact Ne.symm other
    | some code =>
      simp only [CaseRun.image?, Option.map_eq_some_iff] at image
      obtain ⟨run, inRun, rfl⟩ := image
      have avoids := single run (List.mem_of_find?_eq_some inRun)
      have range := List.find?_some inRun
      simp only [avoidsUnderscore, Bool.or_eq_true, decide_eq_true_eq, Bool.and_eq_true] at avoids range
      -- the image lies on the same side of the underscore as the whole run
      exact Ne.symm (ofNat_ne_underscore (by omega))

/-- No code point beyond ASCII has an underscore for its other case. -/
theorem tables_avoidUnderscore :
    ((∀ entry ∈ upperExpansions, 0x5f ∉ entry.2) ∧ ∀ run ∈ upperRuns, avoidsUnderscore run) ∧
      (∀ entry ∈ lowerExpansions, 0x5f ∉ entry.2) ∧ ∀ run ∈ lowerRuns, avoidsUnderscore run := by
  decide +kernel

theorem toUpper_ne_underscore {c : Char} (other : c ≠ '_') : c.toUpper ≠ '_' := by
  intro same
  by_cases lower : c.isLower
  · have letter : c.toUpper.isAlpha := by simp [Char.isAlpha, lower]
    rw [same] at letter
    exact absurd letter (by decide)
  · exact other (Char.toUpper_eq_of_not_isLower lower ▸ same)

theorem toLower_ne_underscore_of_ne {c : Char} (other : c ≠ '_') : c.toLower ≠ '_' := by
  intro same
  by_cases upper : c.isUpper
  · exact toLower_ne_underscore (isWordChar_of_isUpper upper) same
  · exact other (Char.toLower_eq_of_not_isUpper upper ▸ same)

theorem underscore_notMem_upperChar {c : Char} (other : c ≠ '_') : '_' ∉ upperChar c := by
  rw [upperChar]
  split
  · rw [List.mem_singleton]
    exact (toUpper_ne_underscore other).symm
  · exact underscore_notMem_mapped tables_avoidUnderscore.1.1 tables_avoidUnderscore.1.2 other

theorem underscore_notMem_lowerChar {c : Char} (other : c ≠ '_') : '_' ∉ lowerChar c := by
  rw [lowerChar]
  split
  · rw [List.mem_singleton]
    exact (toLower_ne_underscore_of_ne other).symm
  · exact underscore_notMem_mapped tables_avoidUnderscore.2.1 tables_avoidUnderscore.2.2 other

theorem underscore_notMem_lower {cs : List Char} (none : '_' ∉ cs) : '_' ∉ lower cs := by
  induction cs with
  | nil => simp
  | cons c rest ih =>
    obtain ⟨first, none⟩ := List.ne_and_not_mem_of_not_mem_cons none
    rw [Text.lower_cons, List.mem_append, not_or]
    exact ⟨underscore_notMem_lowerChar first.symm, ih none⟩

theorem underscore_notMem_capitalizeChars {cs : List Char} (none : '_' ∉ cs) : '_' ∉ Text.capitalizeChars cs := by
  cases cs with
  | nil => exact none
  | cons c rest =>
    obtain ⟨first, none⟩ := List.ne_and_not_mem_of_not_mem_cons none
    rw [Text.capitalizeChars, List.mem_append, not_or]
    exact ⟨underscore_notMem_upperChar first.symm, none⟩

theorem underscore_notMem_firstWord {part : List Char} (none : '_' ∉ part) : '_' ∉ firstWord part := by
  rw [firstWord]
  split
  · exact underscore_notMem_lower none
  · cases part with
    | nil => exact none
    | cons c rest =>
      obtain ⟨first, none⟩ := List.ne_and_not_mem_of_not_mem_cons none
      rw [uncapitalizeChars, List.mem_append, not_or]
      exact ⟨underscore_notMem_lowerChar first.symm, none⟩

/-! ## Joined words -/

theorem notMem_piecesFrom {isBreak : Char → Bool} {current cs piece : List Char}
    (clean : ∀ c ∈ current, isBreak c = false) (member : piece ∈ Text.piecesFrom isBreak current cs) :
    ∀ c ∈ piece, isBreak c = false := by
  -- the piece that is under way grows by characters that are no breaks
  induction cs generalizing current with
  | nil =>
    rw [Text.piecesFrom] at member
    split at member
    · cases member
    · obtain rfl := List.mem_singleton.mp member
      exact clean
  | cons c rest ih =>
    rw [Text.piecesFrom] at member
    by_cases isEnd : isBreak c
    · simp only [isEnd, if_true] at member
      split at member
      · exact ih (by simp) member
      · rcases List.mem_cons.mp member with rfl | later
        · exact clean
        · exact ih (by simp) later
    · simp only [isEnd, Bool.false_eq_true, if_false] at member
      refine ih ?_ member
      intro d inside
      rcases List.mem_append.mp inside with before | here
      · exact clean d before
      · rw [List.mem_singleton.mp here]
        exact Bool.eq_false_iff.mpr isEnd

theorem underscore_notMem_segment {cs segment : List Char} (member : segment ∈ segments cs) : '_' ∉ segment := by
  intro inside
  have separator := notMem_piecesFrom (by simp) member '_' inside
  exact absurd separator (by decide)

theorem underscore_notMem_camelWords (cs : List Char) : '_' ∉ camelWords cs := by
  rw [camelWords]
  split
  · rename_i whole
    refine underscore_notMem_lower fun inside => ?_
    have separator := List.all_eq_true.mp whole.2.2 '_' inside
    exact absurd separator (by decide)
  · have none : ∀ segment ∈ segments cs, '_' ∉ segment := fun _ member => underscore_notMem_segment member
    cases cut : segments cs with
    | nil => simp
    | cons first rest =>
      rw [cut, List.forall_mem_cons] at none
      simp only [List.mem_append, List.mem_flatMap, not_or, not_exists, not_and]
      exact ⟨underscore_notMem_firstWord none.1,
        fun part member => underscore_notMem_capitalizeChars (none.2 part member)⟩

/-! ## Guards -/

/-- No reserved name ends in an underscore. -/
theorem isReserved_append_underscore (name : String) : isReserved (name ++ "_") = false := by
  have last : ∀ word ∈ reserved, word.toList.getLast? ≠ some '_' := by decide
  rw [Bool.eq_false_iff]
  intro taken
  refine last (name ++ "_") (by simpa [isReserved] using taken) ?_
  simp

theorem guardReserved_unreserved (cs : List Char) : isReserved (guardReserved cs) = false := by
  have guarded : ∀ chars : List Char, isReserved (if isReserved (String.ofList chars)
      then String.ofList (chars ++ ['_']) else String.ofList chars) = false := by
    intro chars
    split
    · rw [String.ofList_append]
      exact isReserved_append_underscore _
    · rename_i free
      exact Bool.eq_false_iff.mpr free
  exact guarded _

theorem guardReserved_plain {cs : List Char} (none : '_' ∉ cs) : ¬ "__".toList <+: (guardReserved cs).toList := by
  rintro ⟨rest, spelled⟩
  cases cs with
  | nil =>
    have alone : guardReserved [] = "_" := by decide
    rw [alone] at spelled
    cases spelled
  | cons c cs =>
    obtain ⟨first, none⟩ := List.ne_and_not_mem_of_not_mem_cons none
    unfold guardReserved at spelled
    by_cases digit : c.isDigit
    · -- the underscore in front of a digit is not followed by another one
      simp only [digit, if_true] at spelled
      split at spelled <;> simp [first] at spelled
    · simp only [digit, Bool.false_eq_true, if_false] at spelled
      split at spelled <;> simp [first] at spelled

theorem camelCase_unreserved (name : String) : isReserved (camelCase name) = false := by
  rw [camelCase]
  split
  · rename_i empty
    rw [String.isEmpty_iff.mp empty]
    decide
  · exact guardReserved_unreserved _

theorem camelCase_plain (name : String) : ¬ "__".toList <+: (camelCase name).toList := by
  rw [camelCase]
  split
  · rename_i empty
    rw [String.isEmpty_iff.mp empty]
    decide
  · refine guardReserved_plain fun inside => ?_
    exact underscore_notMem_camelWords _ (List.mem_filter.mp inside).1

theorem isIdentifierChar_of_mem_guardReserved {cs : List Char} (clean : ∀ c ∈ cs, isIdentifierChar c) :
    ∀ c ∈ (guardReserved cs).toList, isIdentifierChar c := by
  have underscore : isIdentifierChar '_' := by decide
  -- the guards only add underscores
  have guarded : ∀ name : List Char, (∀ c ∈ name, isIdentifierChar c) → ∀ c ∈ (if isReserved (String.ofList name)
      then String.ofList (name ++ ['_']) else String.ofList name).toList, isIdentifierChar c := by
    intro name clean
    split
    · rw [String.toList_ofList]
      exact List.forall_mem_append.mpr ⟨clean, List.forall_mem_singleton.mpr underscore⟩
    · rwa [String.toList_ofList]
  refine guarded _ ?_
  cases cs with
  | nil => exact List.forall_mem_singleton.mpr underscore
  | cons c rest =>
    dsimp only
    split
    · exact List.forall_mem_cons.mpr ⟨underscore, clean⟩
    · exact clean

/-- Camel case keeps nothing but ASCII letters, digits and underscores. -/
theorem isIdentifierChar_of_mem_camelCase {name : String} : ∀ c ∈ (camelCase name).toList, isIdentifierChar c := by
  rw [camelCase]
  split
  · rename_i empty
    simp [String.isEmpty_iff.mp empty]
  · exact isIdentifierChar_of_mem_guardReserved fun c member => (List.mem_filter.mp member).2

end Tablewright.Name
