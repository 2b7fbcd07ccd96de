import Tablewright.Proofs.Name.SnakeForm

/-!
# Snake case as passes over the text

Snake case can be had by one replacement after another, each of which goes through the text once and takes its matches
from left to right without overlap.  A match may use up the character that another one would have begun with, and the
first pass sees no line breaks; the passes together still cut a name exactly where a word starts.

* `markWords`, `markCapitals`: set underscores before words that are capitalised, and before capitals.
* `separate`, `mergeUnderscores`, `stripUnderscores`: leave single underscores between runs of letters and digits.
* `wordsFrom_markWords`, `wordsFrom_markCapitals`: marking does not change the words.
* `unbroken_markCapitals`: after both passes every word that starts within a run has its underscore.
* `snakeCase_eq_passes`: the passes make snake case.
-/

namespace Tablewright.Name

open Text (isWordChar)

/-! ## The passes -/

/-- Sets an underscore between a character other than a line break and a capitalised word. -/
def markWords : List Char → List Char
  | before :: capital :: rest =>
    if before != '\n' && capital.isUpper && rest.head?.any Char.isLower then
      before :: '_' :: capital :: (rest.takeWhile Char.isLower ++ markWords (rest.dropWhile Char.isLower))
    else before :: markWords (capital :: rest)
  | cs => cs
termination_by cs => cs.length
decreasing_by
  · have := (List.dropWhile_suffix Char.isLower (l := rest)).length_le
    simp only [List.length_cons]
    omega
  · simp

/-- Sets an underscore between a small letter or digit and a capital. -/
def markCapitals : List Char → List Char
  | before :: capital :: rest =>
    if isSmall before && capital.isUpper then before :: '_' :: capital :: markCapitals rest
    else before :: markCapitals (capital :: rest)
  | cs => cs

/-- Anything but a letter or digit. -/
def isGap (c : Char) : Bool := !isWordChar c

/-- Replaces every run of other characters than letters and digits by an underscore. -/
def separate : List Char → List Char
  | [] => []
  | c :: rest =>
    if isWordChar c then c :: separate rest else '_' :: separate (rest.dropWhile isGap)
termination_by cs => cs.length
decreasing_by
  · simp
  · have := (List.dropWhile_suffix isGap (l := rest)).length_le
    simp only [List.length_cons]
    omega

/-- Replaces every run of underscores by one. -/
def mergeUnderscores : List Char → List Char
  | [] => []
  | c :: rest =>
    if c == '_' then '_' :: mergeUnderscores (rest.dropWhile (· == '_')) else c :: mergeUnderscores rest
termination_by cs => cs.length
decreasing_by
  · have := (List.dropWhile_suffix (· == '_') (l := rest)).length_le
    simp only [List.length_cons]
    omega
  · simp

/-- Takes the underscores off both ends. -/
def stripUnderscores (cs : List Char) : List Char :=
  Text.dropTrailing (· == '_') (cs.dropWhile (· == '_'))

/-! ## Marks do not change the words -/

theorem wordsFrom_separator {c : Char} (separator : isWordChar c = false) (current rest : List Char) :
    wordsFrom current (c :: rest) = if current = [] then wordsFrom [] rest else current :: wordsFrom [] rest := by
  rw [wordsFrom, separator]
  simp

theorem wordsFrom_nil_wordChar {c : Char} (word : isWordChar c) (rest : List Char) :
    wordsFrom [] (c :: rest) = wordsFrom [c] rest := by
  rw [wordsFrom]
  simp [word]

theorem wordsFrom_append_wordChar {c : Char} (word : isWordChar c) (before : Char) (run rest : List Char) :
    wordsFrom (run ++ [before]) (c :: rest) =
      if startsWord before c rest.head? then (run ++ [before]) :: wordsFrom [c] rest
      else wordsFrom (run ++ [before] ++ [c]) rest := by
  rw [wordsFrom]
  simp [word]

/-- The words of a text depend on what follows a character by the words of it and by whether it starts with a small
letter. -/
theorem wordsFrom_cons_congr {xs ys : List Char} (c : Char)
    (head : xs.head?.any Char.isLower = ys.head?.any Char.isLower)
    (same : ∀ current, wordsFrom current xs = wordsFrom current ys) (current : List Char) :
    wordsFrom current (c :: xs) = wordsFrom current (c :: ys) := by
  have starts : ∀ before, startsWord before c xs.head? = startsWord before c ys.head? := by
    intro before
    rw [startsWord, startsWord, head]
  rw [wordsFrom, wordsFrom, same]
  cases current.getLast? with
  | none => simp only [same]
  | some before => simp only [same, starts]

/-- Where a word starts, an underscore changes nothing. -/
theorem wordsFrom_mark {before capital : Char} {rest : List Char} (starts : startsWord before capital rest.head?)
    (current : List Char) :
    wordsFrom current (before :: '_' :: capital :: rest) = wordsFrom current (before :: capital :: rest) := by
  have underscore : isWordChar '_' = false := by decide
  have upper : capital.isUpper := by
    rw [startsWord, Bool.and_eq_true] at starts
    exact starts.1
  have word := isWordChar_of_isUpper upper
  -- either way the word ends with the character before, as a run that ends with it is cut off
  have cut : ∀ run, wordsFrom (run ++ [before]) ('_' :: capital :: rest) =
      wordsFrom (run ++ [before]) (capital :: rest) := by
    intro run
    rw [wordsFrom_separator underscore, if_neg (by simp), wordsFrom_nil_wordChar word,
      wordsFrom_append_wordChar word, if_pos starts]
  cases here : isWordChar before with
  | false =>
    rw [wordsFrom_separator here, wordsFrom_separator here, wordsFrom_separator underscore, if_pos rfl]
  | true =>
    have cutAlone := cut []
    rw [List.nil_append] at cutAlone
    rcases List.eq_nil_or_concat current with rfl | ⟨run, last, rfl⟩
    · rw [wordsFrom_nil_wordChar here, wordsFrom_nil_wordChar here, cutAlone]
    · have neither : startsWord last before ('_' :: capital :: rest).head? =
          startsWord last before (capital :: rest).head? := by
        simp [startsWord, isLower_eq_false_of_isUpper upper]
      rw [List.concat_eq_append, wordsFrom_append_wordChar here, wordsFrom_append_wordChar here, neither, cut, cutAlone]

theorem head?_markWords (cs : List Char) : (markWords cs).head? = cs.head? := by
  fun_cases markWords cs <;> rfl

theorem head?_markCapitals (cs : List Char) : (markCapitals cs).head? = cs.head? := by
  fun_cases markCapitals cs <;> rfl

theorem isSmall_of_mem_takeWhile {cs : List Char} : ∀ c ∈ cs.takeWhile Char.isLower, isSmall c := by
  intro c member
  rw [isSmall, List.mem_takeWhile_imp member]
  rfl

theorem wordsFrom_markWords (current cs : List Char) : wordsFrom current (markWords cs) = wordsFrom current cs := by
  fun_induction markWords cs generalizing current with
  | case1 before capital rest found ih =>
    simp only [Bool.and_eq_true] at found
    obtain ⟨⟨-, upper⟩, lower⟩ := found
    have starts : startsWord before capital rest.head? := by simp [startsWord, upper, lower]
    -- the capital and its small letters go on as they are
    have later : ∀ current, wordsFrom current (rest.takeWhile Char.isLower ++ markWords (rest.dropWhile Char.isLower)) =
        wordsFrom current rest := by
      intro current
      rw [wordsFrom_small isSmall_of_mem_takeWhile, ih, ← wordsFrom_small isSmall_of_mem_takeWhile,
        List.takeWhile_append_dropWhile]
    have head : (rest.takeWhile Char.isLower ++ markWords (rest.dropWhile Char.isLower)).head? = rest.head? := by
      rw [List.head?_append, head?_markWords, ← List.head?_append, List.takeWhile_append_dropWhile]
    rw [wordsFrom_mark (head.symm ▸ starts)]
    refine wordsFrom_cons_congr before ?_ (wordsFrom_cons_congr capital (by rw [head]) later) current
    rfl
  | case2 before capital rest none ih =>
    exact wordsFrom_cons_congr before (by rw [head?_markWords]) ih current
  | case3 cs => rfl

theorem wordsFrom_markCapitals (current cs : List Char) :
    wordsFrom current (markCapitals cs) = wordsFrom current cs := by
  fun_induction markCapitals cs generalizing current with
  | case1 before capital rest found ih =>
    simp only [Bool.and_eq_true] at found
    have starts : ∀ after, startsWord before capital after := by
      intro after
      simp [startsWord, found.2, isUpper_eq_false_of_isSmall found.1]
    rw [wordsFrom_mark (starts _)]
    refine wordsFrom_cons_congr before ?_ (wordsFrom_cons_congr capital (by rw [head?_markCapitals]) ih) current
    rfl
  | case2 before capital rest none ih =>
    exact wordsFrom_cons_congr before (by rw [head?_markCapitals]) ih current
  | case3 cs => rfl

/-! ## What the marks leave -/

/-- Whether a word starts at the front of a text that follows a character. -/
def startsAfter (before : Char) : List Char → Bool
  | [] => false
  | here :: rest => startsWord before here rest.head?

/-- No word starts right after a character of a kind. -/
def Unbroken (p : Char → Bool) : List Char → Prop
  | [] => True
  | c :: rest => (p c → startsAfter c rest = false) ∧ Unbroken p rest

theorem startsAfter_of_not_isUpper {before here : Char} (small : here.isUpper = false) (rest : List Char) :
    startsAfter before (here :: rest) = false := by
  simp [startsAfter, startsWord, small]

/-- An underscore after a character does not make it the start of a word. -/
theorem startsAfter_underscore {before here : Char} {rest rest' : List Char}
    (starts : startsAfter before (here :: '_' :: rest)) : startsAfter before (here :: rest') := by
  simp only [startsAfter, startsWord, List.head?_cons, Option.any_some, Bool.and_eq_true, Bool.or_eq_true] at starts ⊢
  exact ⟨starts.1, .inl (starts.2.resolve_right (by decide))⟩

/-- Marks only take away places where a word starts. -/
theorem startsAfter_markWords {before : Char} {cs : List Char} (starts : startsAfter before (markWords cs)) :
    startsAfter before cs := by
  revert starts
  fun_cases markWords cs with
  | case1 here capital rest found => exact startsAfter_underscore
  | case2 here capital rest none => simp [startsAfter, head?_markWords]
  | case3 cs => exact id

theorem startsAfter_markCapitals {before : Char} {cs : List Char} (starts : startsAfter before (markCapitals cs)) :
    startsAfter before cs := by
  revert starts
  fun_cases markCapitals cs with
  | case1 here capital rest found => exact startsAfter_underscore
  | case2 here capital rest none => simp [startsAfter, head?_markCapitals]
  | case3 cs => exact id

/-- Small letters may stand before anything as long as only capitals count. -/
theorem unbroken_lower {run cs : List Char} (lower : ∀ c ∈ run, c.isLower) (unbroken : Unbroken Char.isUpper cs) :
    Unbroken Char.isUpper (run ++ cs) := by
  induction run with
  | nil => exact unbroken
  | cons c run ih =>
    obtain ⟨here, later⟩ := List.forall_mem_cons.mp lower
    exact ⟨fun upper => absurd upper (by simp [isUpper_eq_false_of_isLower here]), ih later⟩

theorem unbroken_of_short {p : Char → Bool} {cs : List Char} (short : ∀ c d rest, cs ≠ c :: d :: rest) :
    Unbroken p cs := by
  cases cs with
  | nil => trivial
  | cons c rest =>
    cases rest with
    | nil => exact ⟨fun _ => rfl, trivial⟩
    | cons d rest => exact absurd rfl (short c d rest)

/-- After the first pass no word starts right after a capital. -/
theorem unbroken_markWords (cs : List Char) : Unbroken Char.isUpper (markWords cs) := by
  fun_induction markWords cs with
  | case1 before capital rest found ih =>
    simp only [Bool.and_eq_true] at found
    refine ⟨fun _ => startsAfter_of_not_isUpper (by decide) _, fun upper => absurd upper (by decide), fun _ => ?_,
      unbroken_lower (fun c member => List.mem_takeWhile_imp member) ih⟩
    -- the match takes in the small letter after the capital
    cases rest with
    | nil => simp at found
    | cons c rest =>
      have lower : c.isLower := by simpa using found.2
      rw [List.takeWhile_cons_of_pos lower]
      exact startsAfter_of_not_isUpper (isUpper_eq_false_of_isLower lower) _
  | case2 before capital rest none ih =>
    refine ⟨fun upper => Bool.eq_false_iff.mpr fun starts => none ?_, ih⟩
    have starts := startsAfter_markWords starts
    have lineBreak : before ≠ '\n' := by
      rintro rfl
      exact absurd upper (by decide)
    simpa [startsAfter, startsWord, upper, lineBreak] using starts
  | case3 cs short => exact unbroken_of_short short

/-- After the second pass no word starts right after a letter or digit. -/
theorem unbroken_markCapitals {cs : List Char} (unbroken : Unbroken Char.isUpper cs) :
    Unbroken isWordChar (markCapitals cs) := by
  fun_induction markCapitals cs with
  | case1 before capital rest found ih =>
    simp only [Bool.and_eq_true] at found
    obtain ⟨-, capitalUnbroken, restUnbroken⟩ := unbroken
    refine ⟨fun _ => startsAfter_of_not_isUpper (by decide) _, fun word => absurd word (by decide), fun _ => ?_,
      ih restUnbroken⟩
    exact Bool.eq_false_iff.mpr fun starts =>
      Bool.eq_false_iff.mp (capitalUnbroken found.2) (startsAfter_markCapitals starts)
  | case2 before capital rest none ih =>
    refine ⟨fun word => Bool.eq_false_iff.mpr fun starts => ?_, ih unbroken.2⟩
    have starts := startsAfter_markCapitals starts
    cases upper : before.isUpper with
    | true => exact Bool.eq_false_iff.mp (unbroken.1 upper) starts
    | false =>
      -- what is no capital is small, and a capital after it is marked
      have small : isSmall before := by
        simpa [isWordChar, Char.isAlphanum, Char.isAlpha, upper, isSmall] using word
      rw [startsAfter, startsWord, Bool.and_eq_true] at starts
      exact none (by simp [small, starts.1])
  | case3 cs short => exact unbroken_of_short short

/-! ## Words between underscores -/

theorem isWordChar_of_mem_head?_dropWhile {cs : List Char} {c : Char} (first : c ∈ (cs.dropWhile isGap).head?) :
    isWordChar c := by
  have := List.head?_dropWhile_not isGap cs
  rw [Option.mem_def.mp first] at this
  simpa [isGap] using this

theorem Unbroken.dropWhile {p q : Char → Bool} {cs : List Char} (unbroken : Unbroken p cs) :
    Unbroken p (cs.dropWhile q) := by
  induction cs with
  | nil => exact unbroken
  | cons c rest ih =>
    rw [List.dropWhile_cons]
    split
    · exact ih unbroken.2
    · exact unbroken

theorem dropTrailing_cons {p : Char → Bool} (c : Char) (cs : List Char) :
    Text.dropTrailing p (c :: cs) =
      if Text.dropTrailing p cs = [] ∧ p c then [] else c :: Text.dropTrailing p cs := by
  simp only [Text.dropTrailing, List.reverse_cons, List.dropWhile_append, List.reverse_eq_nil_iff]
  cases left : cs.reverse.dropWhile p with
  | nil => cases holds : p c <;> simp [holds]
  | cons d rest => simp

theorem beq_underscore {c : Char} (word : isWordChar c) : (c == '_') = false := by
  rw [beq_eq_false_iff_ne]
  rintro rfl
  exact absurd word (by decide)

/-- What comes before a word does not matter when no word is open. -/
theorem wordsFrom_nil_dropWhile (cs : List Char) : wordsFrom [] (cs.dropWhile isGap) = wordsFrom [] cs := by
  induction cs with
  | nil => rfl
  | cons c rest ih =>
    cases word : isWordChar c with
    | true => rw [List.dropWhile_cons_of_neg (by simp [isGap, word])]
    | false => rw [List.dropWhile_cons_of_pos (by simp [isGap, word]), ih, wordsFrom_separator word, if_pos rfl]

theorem joinWords_cons (word : List Char) (ws : List (List Char)) :
    joinWords (word :: ws) = if ws = [] then word else word ++ '_' :: joinWords ws := by
  cases ws with
  | nil => simp [joinWords]
  | cons next rest => simp [joinWords, List.intercalate_cons_cons]

theorem joinWords_wordsFrom_nil_eq_nil {cs : List Char} : joinWords (wordsFrom [] cs) = [] ↔ wordsFrom [] cs = [] := by
  have same : snakeChars cs = [] ↔ words cs = [] := snakeChars_eq_nil
  rwa [snakeChars, List.map_eq_nil_iff] at same

/-- In a text without breaks the words are what stands between the underscores.  The induction takes a run of separators
in one step, after which no word is open and a letter or digit comes first. -/
theorem joinWords_wordsFrom {current cs : List Char} (unbroken : Unbroken isWordChar cs)
    (first : current = [] → ∀ c ∈ cs.head?, isWordChar c)
    (goesOn : ∀ before ∈ current.getLast?, startsAfter before cs = false) :
    joinWords (wordsFrom current cs) = current ++ Text.dropTrailing (· == '_') (separate cs) := by
  -- `current` is the word that is being read; a separator ends it, a character goes on with it
  fun_induction separate cs generalizing current with
  | case1 =>
    cases current with
    | nil => rfl
    | cons c run => simp [wordsFrom, joinWords, Text.dropTrailing]
  | case2 c rest word ih =>
    have later : ∀ run, joinWords (wordsFrom (run ++ [c]) rest) =
        run ++ [c] ++ Text.dropTrailing (· == '_') (separate rest) := by
      intro run
      apply ih unbroken.2 (by simp)
      intro before last
      obtain rfl : c = before := by simpa using last
      exact unbroken.1 word
    rw [dropTrailing_cons, if_neg (by simp [beq_underscore word])]
    rcases List.eq_nil_or_concat current with rfl | ⟨run, before, rfl⟩
    · rw [wordsFrom_nil_wordChar word]
      exact later []
    · have continues : startsWord before c rest.head? = false := goesOn before (by simp)
      rw [List.concat_eq_append, wordsFrom_append_wordChar word, if_neg (by simp [continues]), later]
      simp
  | case3 c rest separator ih =>
    have separator : isWordChar c = false := by simpa using separator
    have open_ : current ≠ [] := fun empty => absurd (first empty c (by simp)) (by simp [separator])
    have later := @ih [] unbroken.2.dropWhile
      (fun _ d member => isWordChar_of_mem_head?_dropWhile member) (by simp)
    rw [List.nil_append] at later
    rw [wordsFrom_separator separator, if_neg open_, ← wordsFrom_nil_dropWhile, joinWords_cons, dropTrailing_cons,
      ← later]
    by_cases none : wordsFrom [] (rest.dropWhile isGap) = []
    · rw [if_pos none, if_pos ⟨joinWords_wordsFrom_nil_eq_nil.mpr none, by decide⟩, List.append_nil]
    · rw [if_neg none, if_neg fun both => none (joinWords_wordsFrom_nil_eq_nil.mp both.1)]

theorem dropWhile_separate_self {cs : List Char} (first : ∀ c ∈ cs.head?, isWordChar c) :
    (separate cs).dropWhile (· == '_') = separate cs := by
  fun_cases separate cs with
  | case1 => rfl
  | case2 c rest word => rw [List.dropWhile_cons_of_neg (by simp [beq_underscore word])]
  | case3 c rest gap => exact absurd (first c (by simp)) gap

theorem dropWhile_separate (cs : List Char) :
    (separate cs).dropWhile (· == '_') = separate (cs.dropWhile isGap) := by
  have stays : (separate (cs.dropWhile isGap)).dropWhile (· == '_') = separate (cs.dropWhile isGap) :=
    dropWhile_separate_self fun c member => isWordChar_of_mem_head?_dropWhile member
  cases cs with
  | nil => rw [List.dropWhile_nil, separate, List.dropWhile_nil]
  | cons c rest =>
    cases word : isWordChar c with
    | true =>
      rw [List.dropWhile_cons_of_neg (by simp [isGap, word])] at stays ⊢
      exact stays
    | false =>
      rw [List.dropWhile_cons_of_pos (by simp [isGap, word])] at stays ⊢
      rw [separate, if_neg (by simp [word]), List.dropWhile_cons_of_pos (by rfl), stays]

/-- Runs are separated by single underscores already. -/
theorem mergeUnderscores_separate (cs : List Char) : mergeUnderscores (separate cs) = separate cs := by
  fun_induction separate cs with
  | case1 => rw [mergeUnderscores]
  | case2 c rest word ih => rw [mergeUnderscores, beq_underscore word, ih, if_neg (by simp)]
  | case3 c rest gap ih =>
    rw [mergeUnderscores, if_pos (by rfl), dropWhile_separate_self, ih]
    exact fun d member => isWordChar_of_mem_head?_dropWhile member

theorem joinWords_words {cs : List Char} (unbroken : Unbroken isWordChar cs) :
    joinWords (words cs) = stripUnderscores (separate cs) := by
  rw [words, ← wordsFrom_nil_dropWhile, stripUnderscores, dropWhile_separate]
  exact joinWords_wordsFrom unbroken.dropWhile (fun _ c member => isWordChar_of_mem_head?_dropWhile member) (by simp)

/-- Snake case is what the passes make of a name, one after another. -/
theorem snakeCase_eq_passes (name : String) :
    snakeCase name = String.ofList ((stripUnderscores (mergeUnderscores (separate (markCapitals
      (markWords name.toList))))).map Char.toLower) := by
  have same : words (markCapitals (markWords name.toList)) = words name.toList := by
    rw [words, wordsFrom_markCapitals, wordsFrom_markWords, words]
  rw [snakeCase, mergeUnderscores_separate, ← joinWords_words (unbroken_markCapitals (unbroken_markWords _)), same]

-- The first pass uses up the letter that `Bar` would need before it, which leaves this word to the second pass.
example : markWords "aFooBar".toList = "a_FooBar".toList ∧ markCapitals "a_FooBar".toList = "a_Foo_Bar".toList := by
  constructor <;> cbv

end Tablewright.Name
