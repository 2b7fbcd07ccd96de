import Mathlib
import Tablewright.Name.Reserved
import Tablewright.Name.Snake

/-!
# The shape of snake case

Snake case is made of small letters, digits and single underscores between words, whatever the name
holds.  A capitalised ending such as `Keys` is always a word of its own: `snakeCase_append` splits it
off, so that suffixed names share a module only if the names without suffix do.
-/

namespace Tablewright.Name

open Text (isWordChar)

/-- A capital, then small letters only, at least one. -/
def Capitalised (cs : List Char) : Prop :=
  ∃ first second rest, cs = first :: second :: rest ∧ first.isUpper ∧ ∀ c ∈ second :: rest, c.isLower

/-- Small letters, digits and underscores: what modules are named with. -/
def isModuleChar (c : Char) : Bool := c.isLower || c.isDigit || c == '_'

/-! ## Characters -/

theorem isWordChar_of_isUpper {c : Char} (upper : c.isUpper) : isWordChar c := by
  simp [isWordChar, Char.isAlphanum, Char.isAlpha, upper]

theorem isWordChar_of_isLower {c : Char} (lower : c.isLower) : isWordChar c := by
  simp [isWordChar, Char.isAlphanum, Char.isAlpha, lower]

theorem isWordChar_of_isDigit {c : Char} (digit : c.isDigit) : isWordChar c := by
  simp [isWordChar, Char.isAlphanum, digit]

theorem isWordChar_of_isAlpha {c : Char} (letter : c.isAlpha) : isWordChar c := by
  simp [isWordChar, Char.isAlphanum, letter]

theorem isUpper_eq_false_of_isLower {c : Char} (lower : c.isLower) : c.isUpper = false :=
  Bool.eq_false_iff.mpr (Char.not_isUpper_of_isLower lower)

theorem isLower_eq_false_of_isUpper {c : Char} (upper : c.isUpper) : c.isLower = false :=
  Bool.eq_false_iff.mpr (Char.not_isLower_of_isUpper upper)

theorem isUpper_eq_false_of_isDigit {c : Char} (digit : c.isDigit) : c.isUpper = false := by
  simp only [Char.isDigit, Char.isUpper, ge_iff_le, UInt32.le_iff_toNat_le, Bool.and_eq_true,
    decide_eq_true_eq, Char.reduceVal, UInt32.reduceToNat, Char.toNat_val, Bool.decide_and,
    Bool.and_eq_false_iff, decide_eq_false_iff_not] at digit ⊢
  omega

/-- In small letters a letter or digit can stand in the name of a module. -/
theorem isModuleChar_toLower {c : Char} (word : isWordChar c) : isModuleChar c.toLower := by
  simp only [isWordChar, Char.isAlphanum, Bool.or_eq_true] at word
  rcases word with letter | digit
  · simp [isModuleChar, Char.isLower_toLower_eq_isAlpha, letter]
  · rw [Char.toLower_eq_of_not_isUpper (by simp [isUpper_eq_false_of_isDigit digit])]
    simp [isModuleChar, digit]

theorem toLower_ne_underscore {c : Char} (word : isWordChar c) : c.toLower ≠ '_' := by
  simp only [isWordChar, Char.isAlphanum, Bool.or_eq_true] at word
  intro same
  rcases word with letter | digit
  · rw [← Char.isLower_toLower_eq_isAlpha, same] at letter
    exact absurd letter (by decide)
  · rw [Char.toLower_eq_of_not_isUpper (by simp [isUpper_eq_false_of_isDigit digit])] at same
    subst same
    exact absurd digit (by decide)

theorem ascii_of_isWordChar {c : Char} (word : isWordChar c) : c.toNat < 0x80 := by
  simp only [isWordChar, Char.isAlphanum, Char.isAlpha, Char.isUpper, Char.isLower, Char.isDigit, ge_iff_le,
    UInt32.le_iff_toNat_le, Bool.or_eq_true, Bool.and_eq_true, decide_eq_true_eq, Char.reduceVal, UInt32.reduceToNat,
    Char.toNat_val] at word
  omega

theorem ascii_of_isModuleChar {c : Char} (module : isModuleChar c) : c.toNat < 0x80 := by
  simp only [isModuleChar, Bool.or_eq_true, beq_iff_eq] at module
  rcases module with (lower | digit) | rfl
  · exact ascii_of_isWordChar (isWordChar_of_isLower lower)
  · exact ascii_of_isWordChar (isWordChar_of_isDigit digit)
  · decide

theorem isIdentifierContinue_of_isWordChar {c : Char} (word : isWordChar c) : Text.isIdentifierContinue c := by
  rw [Text.isIdentifierContinue, if_pos (ascii_of_isWordChar word), ← isWordChar, word]
  rfl

theorem isIdentifierStart_of_isAlpha {c : Char} (letter : c.isAlpha) : Text.isIdentifierStart c := by
  rw [Text.isIdentifierStart, if_pos (ascii_of_isWordChar (isWordChar_of_isAlpha letter)), letter]
  rfl

/-- What can stand in the name of a module can stand in an identifier. -/
theorem isIdentifierContinue_of_isModuleChar {c : Char} (module : isModuleChar c) : Text.isIdentifierContinue c := by
  simp only [isModuleChar, Bool.or_eq_true, beq_iff_eq] at module
  rcases module with (lower | digit) | rfl
  · exact isIdentifierContinue_of_isWordChar (isWordChar_of_isLower lower)
  · exact isIdentifierContinue_of_isWordChar (isWordChar_of_isDigit digit)
  · decide

theorem isIdentifierStart_toLower {c : Char} (word : isWordChar c) : Text.isIdentifierStart c.toLower = c.isAlpha := by
  have ascii := ascii_of_isModuleChar (isModuleChar_toLower word)
  have other : (c.toLower == '_') = false := beq_false_of_ne (toLower_ne_underscore word)
  rw [Text.isIdentifierStart, if_pos ascii, other, Bool.or_false, Char.isAlpha_toLower_eq_isAlpha]

/-! ## Words -/

/-- Every word is a non-empty run of letters and digits. -/
theorem mem_wordsFrom {current cs word : List Char} (runs : ∀ c ∈ current, isWordChar c)
    (mem : word ∈ wordsFrom current cs) : word ≠ [] ∧ ∀ c ∈ word, isWordChar c := by
  fun_induction wordsFrom current cs with
  | case1 current empty => cases mem
  | case2 current nonempty =>
    obtain rfl := List.mem_singleton.mp mem
    exact ⟨by simpa using nonempty, runs⟩
  | case3 current c rest separator empty ih => exact ih (by simp) mem
  | case4 current c rest separator nonempty ih =>
    rcases List.mem_cons.mp mem with rfl | mem
    · exact ⟨by simpa using nonempty, runs⟩
    · exact ih (by simp) mem
  | case5 current c rest wordChar before last starts ih =>
    -- a run with a last character is not empty
    rcases List.mem_cons.mp mem with rfl | mem
    · exact ⟨by rintro rfl; simp at last, runs⟩
    · exact ih (by simpa using wordChar) mem
  | case6 current c rest wordChar before last continues ih =>
    refine ih ?_ mem
    intro d member
    rcases List.mem_append.mp member with member | member
    · exact runs d member
    · obtain rfl := List.mem_singleton.mp member
      simpa using wordChar
  | case7 current c rest wordChar none ih =>
    exact ih (by simpa using wordChar) mem

theorem mem_words {cs word : List Char} (mem : word ∈ words cs) : word ≠ [] ∧ ∀ c ∈ word, isWordChar c :=
  mem_wordsFrom (by simp) mem

/-- Words lose nothing of a name but what separates them. -/
theorem flatten_wordsFrom (current cs : List Char) :
    (wordsFrom current cs).flatten = current ++ cs.filter isWordChar := by
  fun_induction wordsFrom current cs with
  | case1 current empty => simpa using empty
  | case2 current nonempty => simp
  | case3 current c rest separator empty ih => simp_all
  | case4 current c rest separator nonempty ih => simp_all
  | case5 current c rest wordChar before last starts ih => simp_all
  | case6 current c rest wordChar before last continues ih => simp_all
  | case7 current c rest wordChar last ih => simp_all

/-! ## Capitalised endings -/

/-- Small letters never start a word. -/
theorem wordsFrom_lower {current cs : List Char} (nonempty : current ≠ []) (lower : ∀ c ∈ cs, c.isLower) :
    wordsFrom current cs = [current ++ cs] := by
  induction cs generalizing current with
  | nil => simp [wordsFrom, nonempty]
  | cons c rest ih =>
    have here : c.isLower := lower c List.mem_cons_self
    have last := List.getLast?_eq_some_getLast nonempty
    have continues : startsWord (current.getLast nonempty) c rest.head? = false := by
      simp [startsWord, isUpper_eq_false_of_isLower here]
    rw [wordsFrom, last]
    simp only [isWordChar_of_isLower here, Bool.not_true, Bool.false_eq_true, if_false, continues]
    rw [ih (by simp) fun d member => lower d (List.mem_cons_of_mem _ member), List.append_assoc]
    rfl

/-- What follows a character decides on small letters only, so a capital after the end changes nothing. -/
theorem any_isLower_head?_append {suffix : List Char} (capitalised : Capitalised suffix) (rest : List Char) :
    (rest ++ suffix).head?.any Char.isLower = rest.head?.any Char.isLower := by
  obtain ⟨first, second, tail, rfl, upper, _⟩ := capitalised
  cases rest with
  | nil => simp [isLower_eq_false_of_isUpper upper]
  | cons c rest => rfl

theorem startsWord_append {suffix : List Char} (capitalised : Capitalised suffix) (before here : Char)
    (rest : List Char) : startsWord before here (rest ++ suffix).head? = startsWord before here rest.head? := by
  rw [startsWord, any_isLower_head?_append capitalised, startsWord]

/-- A capitalised ending is the last word. -/
theorem wordsFrom_append {suffix : List Char} (capitalised : Capitalised suffix) (current cs : List Char) :
    wordsFrom current (cs ++ suffix) = wordsFrom current cs ++ [suffix] := by
  fun_induction wordsFrom current cs with
  | case1 current empty =>
    obtain ⟨first, second, rest, rfl, upper, lower⟩ := capitalised
    obtain rfl : current = [] := by simpa using empty
    rw [List.nil_append, wordsFrom, List.getLast?_nil]
    simp only [isWordChar_of_isUpper upper, Bool.not_true, Bool.false_eq_true, if_false]
    exact wordsFrom_lower (List.cons_ne_nil first []) lower
  | case2 current nonempty =>
    -- the capital starts a word because a small letter follows it
    obtain ⟨first, second, rest, rfl, upper, lower⟩ := capitalised
    have present : current ≠ [] := by simpa using nonempty
    have starts : startsWord (current.getLast present) first (second :: rest).head? := by
      simp [startsWord, upper, lower second List.mem_cons_self]
    rw [List.nil_append, wordsFrom, List.getLast?_eq_some_getLast present]
    simp only [isWordChar_of_isUpper upper, Bool.not_true, Bool.false_eq_true, if_false, starts, if_true]
    rw [wordsFrom_lower (List.cons_ne_nil first []) lower]
    rfl
  | case3 current c rest separator empty ih =>
    rw [List.cons_append, wordsFrom, if_pos separator, if_pos empty, ih]
  | case4 current c rest separator nonempty ih =>
    rw [List.cons_append, wordsFrom, if_pos separator, if_neg nonempty, ih, List.cons_append]
  | case5 current c rest wordChar before last starts ih =>
    rw [List.cons_append, wordsFrom, if_neg wordChar, last]
    simp only [startsWord_append capitalised, starts, if_true, ih, List.cons_append]
  | case6 current c rest wordChar before last continues ih =>
    rw [List.cons_append, wordsFrom, if_neg wordChar, last]
    simp only [startsWord_append capitalised, continues, Bool.false_eq_true, if_false, ih]
  | case7 current c rest wordChar last ih =>
    rw [List.cons_append, wordsFrom, if_neg wordChar, last]
    exact ih

theorem joinWords_append_singleton (ws : List (List Char)) (word : List Char) :
    joinWords (ws ++ [word]) = if ws = [] then word else joinWords ws ++ '_' :: word := by
  induction ws with
  | nil => simp [joinWords]
  | cons first rest ih =>
    cases rest with
    | nil => simp [joinWords, List.intercalate]
    | cons second rest =>
      simp only [joinWords, reduceCtorEq, if_false, List.cons_append] at ih ⊢
      rw [List.intercalate_cons_cons, ih, List.intercalate_cons_cons]
      simp

/-! ## Snake case -/

def snakeChars (cs : List Char) : List Char := (joinWords (words cs)).map Char.toLower

theorem toList_snakeCase (name : String) : (snakeCase name).toList = snakeChars name.toList := by
  simp [snakeCase, snakeChars]

theorem mem_joinWords {ws : List (List Char)} {c : Char} (mem : c ∈ joinWords ws) :
    c = '_' ∨ ∃ word ∈ ws, c ∈ word := by
  induction ws with
  | nil => simp [joinWords] at mem
  | cons first rest ih =>
    cases rest with
    | nil => exact .inr ⟨first, by simp, by simpa [joinWords] using mem⟩
    | cons second rest =>
      rw [joinWords, List.intercalate_cons_cons, List.mem_append, List.mem_append] at mem
      rcases mem with (mem | mem) | mem
      · exact .inr ⟨first, by simp, mem⟩
      · exact .inl (by simpa using mem)
      · refine (ih mem).imp_right ?_
        rintro ⟨word, member, holds⟩
        exact ⟨word, List.mem_cons_of_mem _ member, holds⟩

/-- Snake case holds small letters, digits and underscores only. -/
theorem isModuleChar_of_mem_snakeChars {cs : List Char} {c : Char} (mem : c ∈ snakeChars cs) :
    isModuleChar c := by
  obtain ⟨d, member, rfl⟩ := List.mem_map.mp mem
  rcases mem_joinWords member with rfl | ⟨word, inWords, inWord⟩
  · decide
  · exact isModuleChar_toLower ((mem_words inWords).2 d inWord)

theorem head?_joinWords {ws : List (List Char)} (nonempty : ∀ word ∈ ws, word ≠ []) :
    (joinWords ws).head? = ws.flatten.head? := by
  cases ws with
  | nil => rfl
  | cons first rest =>
    obtain ⟨c, tail, rfl⟩ := List.exists_cons_of_ne_nil (nonempty first List.mem_cons_self)
    cases rest <;> simp [joinWords]

/-- Snake case starts with the first letter or digit of the name. -/
theorem head?_snakeChars (cs : List Char) : (snakeChars cs).head? = (cs.find? isWordChar).map Char.toLower := by
  have flat : (words cs).flatten = cs.filter isWordChar := flatten_wordsFrom [] cs
  rw [snakeChars, List.head?_map, head?_joinWords fun word member => (mem_words member).1, flat, List.head?_filter]

theorem head?_snakeChars_ne_underscore (cs : List Char) : (snakeChars cs).head? ≠ some '_' := by
  rw [head?_snakeChars]
  intro underscore
  obtain ⟨c, first, same⟩ := Option.map_eq_some_iff.mp underscore
  exact toLower_ne_underscore (List.find?_some first) same

theorem snakeChars_eq_nil {cs : List Char} : snakeChars cs = [] ↔ words cs = [] := by
  unfold snakeChars
  cases cut : words cs with
  | nil => simp [joinWords]
  | cons first rest =>
    have nonempty := (mem_words (cut ▸ List.mem_cons_self : first ∈ words cs)).1
    cases rest <;> simp [joinWords, nonempty]

/-- A capitalised ending is set off by an underscore, unless nothing stands before it. -/
theorem snakeChars_append {suffix : List Char} (capitalised : Capitalised suffix) (cs : List Char) :
    snakeChars (cs ++ suffix) =
      if snakeChars cs = [] then suffix.map Char.toLower
      else snakeChars cs ++ '_' :: suffix.map Char.toLower := by
  have cut : words (cs ++ suffix) = words cs ++ [suffix] := wordsFrom_append capitalised [] cs
  rw [snakeChars, cut, joinWords_append_singleton]
  by_cases empty : words cs = []
  · rw [if_pos empty, if_pos (snakeChars_eq_nil.mpr empty)]
  · rw [if_neg empty, if_neg (mt snakeChars_eq_nil.mp empty), List.map_append]
    rfl

/-- A common capitalised ending can be taken off names in snake case. -/
theorem snakeCase_append_inj {suffix : String} (capitalised : Capitalised suffix.toList) {a b : String}
    (same : snakeCase (a ++ suffix) = snakeCase (b ++ suffix)) : snakeCase a = snakeCase b := by
  have chars := congrArg String.toList same
  simp only [toList_snakeCase, String.toList_append, snakeChars_append capitalised] at chars
  apply String.toList_inj.mp
  rw [toList_snakeCase, toList_snakeCase]
  -- a name that is empty in snake case leaves the ending alone, which is shorter than with an underscore
  split at chars <;> split at chars
  · simp_all
  · have lengths := congrArg List.length chars
    simp at lengths
    omega
  · have lengths := congrArg List.length chars
    simp at lengths
    omega
  · exact List.append_cancel_right chars

/-! ## Identifiers in snake case -/

/-- A name in snake case is an identifier if the name has a letter, and no digit before it. -/
theorem isIdentifier_snakeCase (name : String) :
    Text.isIdentifier (snakeCase name) = (name.toList.find? isWordChar).any Char.isAlpha := by
  have start := head?_snakeChars name.toList
  rw [Text.isIdentifier, toList_snakeCase]
  cases chars : snakeChars name.toList with
  | nil =>
    rw [chars, List.head?_nil, eq_comm, Option.map_eq_none_iff] at start
    rw [start]
    rfl
  | cons c rest =>
    rw [chars, List.head?_cons, eq_comm] at start
    obtain ⟨d, first, rfl⟩ := Option.map_eq_some_iff.mp start
    have continues : rest.all Text.isIdentifierContinue := List.all_eq_true.mpr fun c member =>
      isIdentifierContinue_of_isModuleChar
        (isModuleChar_of_mem_snakeChars (chars ▸ List.mem_cons_of_mem _ member : c ∈ snakeChars name.toList))
    rw [Text.isIdentifierChars, continues, Bool.and_true, first, isIdentifierStart_toLower (List.find?_some first)]
    rfl

theorem isKeyword_of_underscore {name : String} (underscore : '_' ∈ name.toList) : isKeyword name = false := by
  have none : ∀ word ∈ keywords, '_' ∉ word.toList := by decide
  rw [Bool.eq_false_iff]
  intro keyword
  exact none name (by simpa [isKeyword] using keyword) underscore

/-- With a capitalised ending a name that can be part of a package stays one. -/
theorem isPackagePart_append {suffix : String} (capitalised : Capitalised suffix.toList) {name : String}
    (part : isPackagePart (snakeCase name)) : isPackagePart (snakeCase (name ++ suffix)) := by
  rw [isPackagePart, Bool.and_eq_true, isIdentifier_snakeCase] at part ⊢
  obtain ⟨first, found, letter⟩ := (Option.any_eq_true _ _).mp part.1
  have start := head?_snakeChars name.toList
  rw [found, Option.map_some] at start
  refine ⟨?_, ?_⟩
  · rw [String.toList_append, List.find?_append, found]
    exact letter
  · -- the ending is set off by an underscore, and no keyword has one
    have some : snakeChars name.toList ≠ [] := by
      intro empty
      rw [empty] at start
      cases start
    rw [isKeyword_of_underscore, Bool.not_false]
    rw [toList_snakeCase, String.toList_append, snakeChars_append capitalised, if_neg some]
    simp

end Tablewright.Name
