import Tablewright.Name.Constant
import Tablewright.Proofs.Name.Camel
import Tablewright.Proofs.Name.Fresh

/-!
# The shape of constants

Constants are written in capitals, digits and underscores, so they are never keywords.  The constant of a secondary index
is its snake case in capitals, which loses nothing of it.

* `IsConstant`: names of this shape; `IsConstant.isPackagePart`: they are identifiers and no keywords.
* `lowered_constantCase`: snake case can be read back from constant case.
* `toList_indexConstant`, `indexConstant_inj`: two indexes have one constant exactly if they have one snake case.
* `isConstant_of_mem_memberNames`, `memberNames_nodup`: the values of an enum have different names of this shape.
* `memberNames_split`, `memberNames_append`: a value is named after those before it, whatever comes behind it.
* `head?_ne_underscore_of_mem_memberNames`: the names do not start with underscores.
-/

namespace Tablewright.Name

open Text (isWordChar)

/-- Capitals, digits and underscores: what constants are named with. -/
def isConstantChar (c : Char) : Bool := c.isUpper || c.isDigit || c == '_'

/-- A name of capitals, digits and underscores that does not start with a digit. -/
def IsConstant (name : String) : Prop :=
  ∃ c rest, name.toList = c :: rest ∧ (c.isUpper ∨ c = '_') ∧ rest.all isConstantChar

/-! ## Characters -/

theorem isConstantChar_of_isDigit {c : Char} (digit : c.isDigit) : isConstantChar c := by
  simp [isConstantChar, digit]

theorem isIdentifierContinue_of_isConstantChar {c : Char} (constant : isConstantChar c) :
    Text.isIdentifierContinue c := by
  simp only [isConstantChar, Bool.or_eq_true, beq_iff_eq] at constant
  rcases constant with (upper | digit) | rfl
  · exact isIdentifierContinue_of_isWordChar (isWordChar_of_isUpper upper)
  · exact isIdentifierContinue_of_isWordChar (isWordChar_of_isDigit digit)
  · decide

/-- In capitals a letter or digit can stand in a constant. -/
theorem isConstantChar_toUpper_of_isWordChar {c : Char} (word : isWordChar c) : isConstantChar c.toUpper := by
  by_cases letter : c.isAlpha
  · simp [isConstantChar, letter]
  · have digit : c.isDigit := by simpa [isWordChar, Char.isAlphanum, letter] using word
    have noLetter : ¬ c.isLower := fun lower => letter (by simp [Char.isAlpha, lower])
    rw [Char.toUpper_eq_of_not_isLower noLetter]
    exact isConstantChar_of_isDigit digit

theorem isConstantChar_toUpper {c : Char} (module : isModuleChar c) : isConstantChar c.toUpper := by
  simp only [isModuleChar, Bool.or_eq_true, beq_iff_eq] at module
  rcases module with (lower | digit) | rfl
  · exact isConstantChar_toUpper_of_isWordChar (isWordChar_of_isLower lower)
  · exact isConstantChar_toUpper_of_isWordChar (isWordChar_of_isDigit digit)
  · decide

theorem toLower_toUpper {c : Char} (module : isModuleChar c) : c.toUpper.toLower = c := by
  simp only [isModuleChar, Bool.or_eq_true, beq_iff_eq] at module
  rw [Char.toLower_toUpper_eq_toLower]
  refine Char.toLower_eq_of_not_isUpper (Bool.eq_false_iff.mp ?_)
  rcases module with (lower | digit) | rfl
  · exact isUpper_eq_false_of_isLower lower
  · exact isUpper_eq_false_of_isDigit digit
  · decide

/-! ## Constants are identifiers -/

/-- Every keyword has a letter that no constant has. -/
theorem keyword_spelled : ∀ word ∈ keywords, word.toList.all isConstantChar = false := by decide

theorem IsConstant.isConstantChar {name : String} (constant : IsConstant name) :
    ∀ c ∈ name.toList, Name.isConstantChar c := by
  obtain ⟨c, rest, spelled, start, continues⟩ := constant
  rw [spelled]
  refine List.forall_mem_cons.mpr ⟨?_, List.all_eq_true.mp continues⟩
  rcases start with upper | rfl
  · simp [Name.isConstantChar, upper]
  · decide

theorem IsConstant.isPackagePart {name : String} (constant : IsConstant name) : Name.isPackagePart name := by
  have noKeyword : isKeyword name = false := by
    rw [Bool.eq_false_iff]
    intro keyword
    have other := keyword_spelled name (by simpa [isKeyword] using keyword)
    rw [List.all_eq_true.mpr constant.isConstantChar] at other
    cases other
  obtain ⟨c, rest, spelled, start, continues⟩ := constant
  have starts : Text.isIdentifierStart c := by
    rcases start with upper | rfl
    · exact isIdentifierStart_of_isAlpha (by simp [Char.isAlpha, upper])
    · decide
  rw [Name.isPackagePart, noKeyword, Text.isIdentifier, spelled, Text.isIdentifierChars, starts]
  simpa using fun d member => isIdentifierContinue_of_isConstantChar (List.all_eq_true.mp continues d member)

/-- What follows a name of this shape may be made of all its characters. -/
theorem IsConstant.append {name : String} (constant : IsConstant name) {ending : List Char}
    (continues : ∀ c ∈ ending, Name.isConstantChar c) : IsConstant (name ++ String.ofList ending) := by
  obtain ⟨c, rest, spelled, start, inside⟩ := constant
  refine ⟨c, rest ++ ending, ?_, start, ?_⟩
  · rw [String.toList_append, spelled, String.toList_ofList, List.cons_append]
  · rw [List.all_append, inside, List.all_eq_true.mpr continues]
    rfl

/-! ## Constants of indexes -/

/-- The words of a name in capitals are its snake case in capitals. -/
theorem joinWords_toUpper (cs : List Char) :
    (joinWords (words cs)).map Char.toUpper = (snakeChars cs).map Char.toUpper := by
  rw [snakeChars, List.map_map]
  exact List.map_congr_left fun c _ => (Char.toUpper_toLower_eq_toUpper c).symm

/-- Behind the guard, constant case is snake case in capitals. -/
theorem dropWhile_constantCase (name : String) :
    (constantCase name).toList.dropWhile (· == '_') = (snakeChars name.toList).map Char.toUpper := by
  have first := head?_snakeChars_ne_underscore name.toList
  rw [constantCase, joinWords_toUpper]
  cases spelled : snakeChars name.toList with
  | nil => decide
  | cons c rest =>
    -- only the guard in front of a digit is an underscore
    have module : isModuleChar c := isModuleChar_of_mem_snakeChars (spelled ▸ List.mem_cons_self)
    have other : c.toUpper ≠ '_' := by
      intro same
      rw [spelled, List.head?_cons, ← toLower_toUpper module, same] at first
      exact first (by decide)
    rw [List.map_cons]
    dsimp only
    split
    · simp [other]
    · simp [other]

/-- So snake case can be read back from it. -/
theorem lowered_constantCase (name : String) :
    ((constantCase name).toList.dropWhile (· == '_')).map Char.toLower = snakeChars name.toList := by
  rw [dropWhile_constantCase, List.map_map]
  exact (List.map_congr_left fun c member => toLower_toUpper (isModuleChar_of_mem_snakeChars member)).trans
    (List.map_id _)

/-- The constant of an index is its snake case in capitals. -/
theorem toList_indexConstant (indexName : String) :
    (indexConstant indexName).toList = "INDEX_".toList ++ (snakeChars indexName.toList).map Char.toUpper := by
  rw [indexConstant, String.toList_append, dropWhile_constantCase]
  exact congrArg _ String.toList_ofList

theorem indexConstant_inj {a b : String} : indexConstant a = indexConstant b ↔ snakeCase a = snakeCase b := by
  rw [← String.toList_inj, ← String.toList_inj, toList_indexConstant, toList_indexConstant, toList_snakeCase,
    toList_snakeCase, List.append_cancel_left_eq]
  refine ⟨fun same => ?_, congrArg _⟩
  rw [← lowered_constantCase, ← lowered_constantCase, dropWhile_constantCase, dropWhile_constantCase, same]

/-- Constant case consists of capitals, digits and underscores. -/
theorem isConstantChar_of_mem_constantCase {name : String} : ∀ c ∈ (constantCase name).toList, isConstantChar c := by
  have each : ∀ c ∈ (snakeChars name.toList).map Char.toUpper, isConstantChar c :=
    List.forall_mem_map.mpr fun c member => isConstantChar_toUpper (isModuleChar_of_mem_snakeChars member)
  have guard : isConstantChar '_' := by decide
  rw [constantCase, joinWords_toUpper]
  generalize (snakeChars name.toList).map Char.toUpper = chars at each ⊢
  cases chars with
  | nil => exact List.forall_mem_singleton.mpr guard
  | cons c rest =>
    dsimp only
    rw [String.toList_ofList]
    split
    · exact List.forall_mem_cons.mpr ⟨guard, each⟩
    · exact each

theorem isConstant_indexConstant (indexName : String) : IsConstant (indexConstant indexName) := by
  refine ⟨'I', "NDEX_".toList ++ (snakeChars indexName.toList).map Char.toUpper, toList_indexConstant indexName,
    .inl (by decide), ?_⟩
  rw [List.all_append, List.all_map, Bool.and_eq_true, List.all_eq_true, List.all_eq_true]
  refine ⟨List.all_eq_true.mp (by decide), fun c member => ?_⟩
  exact isConstantChar_toUpper (isModuleChar_of_mem_snakeChars member)

/-! ## Constants of enum values -/

theorem isConstant_memberBase (value : String) : IsConstant (memberBase value) := by
  have each : ∀ c ∈ (joinWords (runs value.toList)).map Char.toUpper, isConstantChar c := by
    refine List.forall_mem_map.mpr fun c member => ?_
    rcases mem_joinWords member with rfl | ⟨run, inRuns, inRun⟩
    · decide
    · have isWord : isWordChar c := by
        simpa using notMem_piecesFrom (by simp) inRuns c inRun
      exact isConstantChar_toUpper_of_isWordChar isWord
  rw [memberBase]
  cases spelled : (joinWords (runs value.toList)).map Char.toUpper with
  | nil => exact ⟨'V', "ALUE".toList, by decide, .inl (by decide), by decide⟩
  | cons c rest =>
    rw [spelled] at each
    obtain ⟨first, others⟩ := List.forall_mem_cons.mp each
    dsimp only
    split
    · exact IsConstant.append ⟨'V', "ALUE_".toList, by decide, .inl (by decide), by decide⟩ each
    · rename_i noDigit
      refine ⟨c, rest, String.toList_ofList, ?_, List.all_eq_true.mpr others⟩
      simpa [isConstantChar, noDigit] using first

theorem isConstant_numbered {base : String} (constant : IsConstant base) (n : Nat) : IsConstant s!"{base}_{n}" := by
  have digits : ∀ c ∈ Nat.toDigits 10 n, c.isDigit :=
    fun c member => Nat.isDigit_of_mem_toDigits (by omega) (by omega) member
  have spelled : s!"{base}_{n}" = base ++ String.ofList ('_' :: Nat.toDigits 10 n) := by
    change base ++ "_" ++ toString n = _
    rw [← String.toList_inj]
    simp [String.toList_append, Nat.toString_eq_repr, Nat.toList_repr]
  rw [spelled]
  exact constant.append (List.forall_mem_cons.mpr ⟨by decide, fun c member => isConstantChar_of_isDigit (digits c member)⟩)

/-- The constants of an enum are named in capitals. -/
theorem isConstant_of_mem_memberNames {values : List String} {name : String} (member : name ∈ memberNames values) :
    IsConstant name := by
  obtain ⟨base, inWishes, same⟩ := freshAll_cases member
  obtain ⟨value, -, rfl⟩ := List.mem_map.mp inWishes
  rcases same with rfl | ⟨n, rfl⟩
  · exact isConstant_memberBase value
  · exact isConstant_numbered (isConstant_memberBase value) n

theorem numbered_injective (base : String) : (fun n : Nat => s!"{base}_{n}").Injective := by
  intro m n same
  have spelled : base ++ "_" ++ toString m = base ++ "_" ++ toString n := same
  exact Nat.repr_injective ((String.append_right_inj (base ++ "_")).mp spelled)

theorem memberNames_nodup (values : List String) : (memberNames values).Nodup :=
  (freshAll_nodup numbered_injective [] (values.map memberBase)).1

/-- A value is named after those before it, whatever comes behind it. -/
theorem memberNames_split (before : List String) (value : String) (after : List String) :
    ∃ name, memberNames before ++ [name] <+: memberNames (before ++ value :: after) ∧
      IsFirstFree (memberNames before) (memberBase value) (fun n => s!"{memberBase value}_{n}") name := by
  rw [memberNames, memberNames, List.map_append, List.map_cons, freshAll_append, freshAll, List.append_nil]
  refine ⟨_, ?_, (fresh_isFirstFree (numbered_injective _)).congr fun other => List.mem_reverse⟩
  exact (List.prefix_append_right_inj _).mpr (List.prefix_append [_] _)

theorem memberNames_append (values later : List String) : memberNames values <+: memberNames (values ++ later) := by
  rw [memberNames, memberNames, List.map_append, freshAll_append]
  exact List.prefix_append ..

theorem length_memberNames (values : List String) : (memberNames values).length = values.length := by
  rw [memberNames, length_freshAll, List.length_map]

/-! ## The first character -/

theorem ne_nil_of_mem_piecesFrom {isBreak : Char → Bool} {current cs piece : List Char}
    (member : piece ∈ Text.piecesFrom isBreak current cs) : piece ≠ [] := by
  induction cs generalizing current with
  | nil =>
    rw [Text.piecesFrom] at member
    split at member
    · cases member
    · rename_i nonempty
      obtain rfl := List.mem_singleton.mp member
      simpa using nonempty
  | cons c rest ih =>
    rw [Text.piecesFrom] at member
    split at member
    · split at member
      · exact ih member
      · rename_i nonempty
        rcases List.mem_cons.mp member with rfl | later
        · simpa using nonempty
        · exact ih later
    · exact ih member

/-- The constant of a value does not start with an underscore, as its runs have letters and digits only. -/
theorem head?_memberBase_ne_underscore (value : String) : (memberBase value).toList.head? ≠ some '_' := by
  have letters : ∀ c ∈ (runs value.toList).flatten, c ≠ '_' := by
    rintro c member rfl
    obtain ⟨run, inRuns, inRun⟩ := List.mem_flatten.mp member
    exact absurd (notMem_piecesFrom (by simp) inRuns '_' inRun) (by decide)
  have start : (joinWords (runs value.toList)).head? = (runs value.toList).flatten.head? :=
    head?_joinWords fun run member => ne_nil_of_mem_piecesFrom member
  have word : "VALUE".toList.head? ≠ some '_' ∧ "VALUE_".toList.head? = some 'V' := by decide
  rw [memberBase]
  cases joined : joinWords (runs value.toList) with
  | nil => exact word.1
  | cons c rest =>
    rw [joined, List.head?_cons] at start
    have other : c.toUpper ≠ '_' := toUpper_ne_underscore (letters c (List.mem_of_mem_head? start.symm))
    rw [List.map_cons]
    dsimp only
    split
    · rw [String.toList_append, List.head?_append, word.2]
      exact fun same => absurd (Option.some.inj same) (by decide)
    · simp [other]

/-- The constants of an enum do not start with underscores. -/
theorem head?_ne_underscore_of_mem_memberNames {values : List String} {name : String} (member : name ∈ memberNames values) :
    name.toList.head? ≠ some '_' := by
  obtain ⟨base, inWishes, same⟩ := freshAll_cases member
  obtain ⟨value, -, rfl⟩ := List.mem_map.mp inWishes
  have letter := head?_memberBase_ne_underscore value
  rcases same with rfl | ⟨n, rfl⟩
  · exact letter
  · obtain ⟨c, rest, spelled, -⟩ := isConstant_memberBase value
    have plain : toString (memberBase value) = memberBase value := rfl
    rw [spelled] at letter
    rw [plain, String.toList_append, String.toList_append, spelled]
    exact letter

end Tablewright.Name
