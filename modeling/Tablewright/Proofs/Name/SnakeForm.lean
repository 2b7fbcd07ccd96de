import Tablewright.Proofs.Name.Constant

/-!
# Snake case is a canonical form

Snake case only keeps the letters and digits of a name and where its words are cut.  What is in this form already is
cut at its underscores alone, so it stays as it is.  Constant case writes the same form in capitals and can be read back.

* `words_joinWords`: small words that are joined are cut apart again.
* `snakeChars_snakeChars`: snake case stays as it is.
* `constantCase_inj`: two names have one constant case exactly if they have one snake case.
* `snakeCase_canonical`: all of this for every name.
-/

namespace Tablewright.Name

open Text (isWordChar)

def isSmall (c : Char) : Bool := c.isLower || c.isDigit

theorem isWordChar_of_isSmall {c : Char} (small : isSmall c) : isWordChar c := by
  rw [isSmall, Bool.or_eq_true] at small
  cases small with
  | inl lower => exact isWordChar_of_isLower lower
  | inr digit => exact isWordChar_of_isDigit digit

theorem isUpper_eq_false_of_isSmall {c : Char} (small : isSmall c) : c.isUpper = false := by
  rw [isSmall, Bool.or_eq_true] at small
  cases small with
  | inl lower => exact isUpper_eq_false_of_isLower lower
  | inr digit => exact isUpper_eq_false_of_isDigit digit

theorem toLower_of_isSmall {c : Char} (small : isSmall c) : c.toLower = c :=
  Char.toLower_eq_of_not_isUpper (by simp [isUpper_eq_false_of_isSmall small])

theorem isSmall_toLower {c : Char} (word : isWordChar c) : isSmall c.toLower := by
  have module := isModuleChar_toLower word
  rw [isModuleChar, Bool.or_eq_true] at module
  cases module with
  | inl small => exact small
  | inr underscore => exact absurd (by simpa using underscore) (toLower_ne_underscore word)

/-! ## Words that are joined and cut -/

/-- Small characters go on with the word that they stand in, as only capitals start another one. -/
theorem wordsFrom_small {current run : List Char} (small : ∀ c ∈ run, isSmall c) (rest : List Char) :
    wordsFrom current (run ++ rest) = wordsFrom (current ++ run) rest := by
  induction run generalizing current with
  | nil => simp
  | cons c run ih =>
    obtain ⟨here, later⟩ := List.forall_mem_cons.mp small
    have goesOn : wordsFrom current (c :: (run ++ rest)) = wordsFrom (current ++ [c]) (run ++ rest) := by
      rw [wordsFrom]
      cases last : current.getLast? with
      | none =>
        obtain rfl := List.getLast?_eq_none_iff.mp last
        simp [isWordChar_of_isSmall here]
      | some before => simp [isWordChar_of_isSmall here, startsWord, isUpper_eq_false_of_isSmall here]
    rw [List.cons_append, goesOn, ih later, List.append_assoc]
    rfl

theorem wordsFrom_underscore {current : List Char} (some : current ≠ []) (rest : List Char) :
    wordsFrom current ('_' :: rest) = current :: wordsFrom [] rest := by
  have separator : isWordChar '_' = false := by decide
  rw [wordsFrom, separator]
  simp [some]

theorem words_joinWords {ws : List (List Char)} (small : ∀ word ∈ ws, word ≠ [] ∧ ∀ c ∈ word, isSmall c) :
    words (joinWords ws) = ws := by
  induction ws with
  | nil => rfl
  | cons word rest ih =>
    obtain ⟨⟨some, here⟩, others⟩ := List.forall_mem_cons.mp small
    cases rest with
    | nil =>
      have alone : joinWords [word] = word ++ [] := by simp [joinWords]
      rw [words, alone, wordsFrom_small here, List.nil_append, wordsFrom]
      simp [some]
    | cons next rest =>
      have joined : joinWords (word :: next :: rest) = word ++ '_' :: joinWords (next :: rest) := by
        simp [joinWords, List.intercalate_cons_cons]
      -- the underscore ends the first word, and what follows is cut on its own
      rw [words, joined, wordsFrom_small here, List.nil_append, wordsFrom_underscore some]
      exact congrArg _ (ih others)

theorem map_joinWords {f : Char → Char} (underscore : f '_' = '_') (ws : List (List Char)) :
    (joinWords ws).map f = joinWords (ws.map (List.map f)) := by
  induction ws with
  | nil => rfl
  | cons word rest ih =>
    cases rest with
    | nil => simp [joinWords]
    | cons next rest =>
      simp only [joinWords, List.map_cons] at ih ⊢
      rw [List.intercalate_cons_cons, List.intercalate_cons_cons, List.map_append, List.map_append, ih]
      simp [underscore]

theorem filter_joinWords {ws : List (List Char)} (clean : ∀ word ∈ ws, '_' ∉ word) :
    (joinWords ws).filter (· ≠ '_') = ws.flatten := by
  induction ws with
  | nil => rfl
  | cons word rest ih =>
    obtain ⟨here, others⟩ := List.forall_mem_cons.mp clean
    have kept : word.filter (· ≠ '_') = word :=
      List.filter_eq_self.mpr fun c member => decide_eq_true (ne_of_mem_of_not_mem member here)
    cases rest with
    | nil => simpa [joinWords] using kept
    | cons next rest =>
      simp only [joinWords, List.flatten_cons] at ih ⊢
      rw [List.intercalate_cons_cons, List.filter_append, List.filter_append, kept, ih others]
      simp

/-! ## Snake case -/

def smallWords (cs : List Char) : List (List Char) := (words cs).map (List.map Char.toLower)

theorem smallWords_small {cs word : List Char} (member : word ∈ smallWords cs) :
    word ≠ [] ∧ ∀ c ∈ word, isSmall c := by
  obtain ⟨cut, inWords, rfl⟩ := List.mem_map.mp member
  obtain ⟨some, word⟩ := mem_words inWords
  exact ⟨by simpa using some, List.forall_mem_map.mpr fun c inCut => isSmall_toLower (word c inCut)⟩

theorem snakeChars_eq (cs : List Char) : snakeChars cs = joinWords (smallWords cs) :=
  map_joinWords (by decide) (words cs)

theorem snakeChars_snakeChars (cs : List Char) : snakeChars (snakeChars cs) = snakeChars cs := by
  have small : ∀ word ∈ smallWords cs, word ≠ [] ∧ ∀ c ∈ word, isSmall c := fun _ member => smallWords_small member
  have again : smallWords (snakeChars cs) = smallWords cs := by
    rw [smallWords, snakeChars_eq cs, words_joinWords small]
    refine (List.map_congr_left fun word member => ?_).trans (List.map_id _)
    exact (List.map_congr_left fun c inside => toLower_of_isSmall ((small word member).2 c inside)).trans (List.map_id _)
  rw [snakeChars_eq (snakeChars cs), again, snakeChars_eq]

/-- Without its underscores snake case holds the letters and digits of the name. -/
theorem filter_snakeChars (cs : List Char) :
    (snakeChars cs).filter (· ≠ '_') = (cs.filter isWordChar).map Char.toLower := by
  have clean : ∀ word ∈ smallWords cs, '_' ∉ word := fun word member inside =>
    absurd ((smallWords_small member).2 '_' inside) (by decide)
  have flat : (words cs).flatten = cs.filter isWordChar := flatten_wordsFrom [] cs
  rw [snakeChars_eq, filter_joinWords clean, smallWords, ← List.map_flatten, flat]

/-! ## Constant case -/

theorem isConstant_constantCase (name : String) : IsConstant (constantCase name) := by
  have all : ∀ c ∈ (constantCase name).toList, isConstantChar c := isConstantChar_of_mem_constantCase
  have noDigit : ∃ c rest, (constantCase name).toList = c :: rest ∧ c.isDigit = false := by
    rw [constantCase]
    cases (joinWords (words name.toList)).map Char.toUpper with
    | nil => exact ⟨'_', [], rfl, rfl⟩
    | cons c rest =>
      dsimp only
      rw [String.toList_ofList]
      -- a digit in front gets the underscore
      cases digit : c.isDigit with
      | true => exact ⟨'_', c :: rest, rfl, rfl⟩
      | false => exact ⟨c, rest, rfl, digit⟩
  obtain ⟨c, rest, spelled, noDigit⟩ := noDigit
  rw [spelled] at all
  obtain ⟨first, others⟩ := List.forall_mem_cons.mp all
  exact ⟨c, rest, spelled, by simpa [isConstantChar, noDigit] using first, List.all_eq_true.mpr others⟩

theorem constantCase_inj {a b : String} : constantCase a = constantCase b ↔ snakeCase a = snakeCase b := by
  have spelled : snakeCase a = snakeCase b ↔ (snakeCase a).toList = (snakeCase b).toList := String.toList_inj.symm
  rw [spelled, toList_snakeCase, toList_snakeCase]
  constructor
  · intro same
    rw [← lowered_constantCase, ← lowered_constantCase, same]
  · intro same
    rw [constantCase, constantCase, joinWords_toUpper, joinWords_toUpper, same]

/-! ## Every name -/

/-- Snake case is empty or joins words of small letters and digits by single underscores, it holds exactly the letters
and digits of the name, and it stays as it is.  Constant case is an identifier in capitals, digits and underscores, and
two names share it exactly if they share their snake case. -/
theorem snakeCase_canonical (name : String) :
    (snakeCase name = "" ∨ ∃ ws : List (List Char), ws ≠ [] ∧ (snakeCase name).toList = List.intercalate ['_'] ws ∧
      ∀ word ∈ ws, word ≠ [] ∧ ∀ c ∈ word, c.isLower ∨ c.isDigit) ∧
    (snakeCase name).toList.filter (· ≠ '_') = (name.toList.filter Char.isAlphanum).map Char.toLower ∧
    snakeCase (snakeCase name) = snakeCase name ∧
    (constantCase name ≠ "" ∧ isPackagePart (constantCase name) ∧
      ∀ c ∈ (constantCase name).toList, c.isUpper ∨ c.isDigit ∨ c = '_') ∧
    ∀ other, constantCase name = constantCase other ↔ snakeCase name = snakeCase other := by
  have constant := isConstant_constantCase name
  refine ⟨?_, ?_, ?_, ⟨?_, constant.isPackagePart, fun c member => ?_⟩, fun other => constantCase_inj⟩
  · by_cases none : smallWords name.toList = []
    · refine .inl (String.toList_inj.mp ?_)
      rw [toList_snakeCase, snakeChars_eq, none]
      rfl
    · refine .inr ⟨smallWords name.toList, none, ?_, fun word member => ?_⟩
      · rw [toList_snakeCase, snakeChars_eq]
        rfl
      · simpa [isSmall] using smallWords_small member
  · rw [toList_snakeCase]
    exact filter_snakeChars name.toList
  · rw [← String.toList_inj, toList_snakeCase, toList_snakeCase, snakeChars_snakeChars]
  · obtain ⟨c, rest, spelled, -⟩ := constant
    rintro empty
    rw [empty] at spelled
    cases spelled
  · simpa [isConstantChar, or_assoc] using constant.isConstantChar c member

end Tablewright.Name
