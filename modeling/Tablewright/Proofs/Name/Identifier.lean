import Tablewright.Proofs.Name.Camel
import Tablewright.Text.CaseTable

/-!
# Identifiers that are put together

Generated names are put together from identifiers, fixed words and numbers.  What follows an identifier only has to
continue one, and a keyword cannot come about, because no keyword has an underscore, or a capital behind its first letter.

* `isIdentifier_append`, `isPackagePart_extend`: a longer name is an identifier, and no keyword.
* `isPackagePart_capitalize`: an identifier in upper case at the front can follow another one.
* `isFieldIdentifier_camelCase`: camel case makes an identifier of every name that is not empty.
-/

namespace Tablewright.Name

open Text (CaseRun upperChar isIdentifierStart isIdentifierContinue isIdentifier inRanges identifierStarts
  identifierContinues upperRuns upperExpansions)

variable {name ending : String}

/-! ## Longer names -/

theorem isIdentifierContinue_of_isIdentifierStart {c : Char} (start : isIdentifierStart c) : isIdentifierContinue c := by
  rw [isIdentifierStart] at start
  rw [isIdentifierContinue]
  split
  · rename_i ascii
    rw [if_pos ascii, Bool.or_eq_true] at start
    rw [Char.isAlphanum, Bool.or_eq_true, Bool.or_eq_true]
    exact start.imp_left .inl
  · rename_i beyond
    rw [if_neg beyond] at start
    rw [start]
    rfl

theorem exists_of_isIdentifier (identifier : isIdentifier name) :
    ∃ c rest, name.toList = c :: rest ∧ isIdentifierStart c ∧ ∀ d ∈ rest, isIdentifierContinue d := by
  rw [isIdentifier] at identifier
  cases spelled : name.toList with
  | nil =>
    rw [spelled] at identifier
    cases identifier
  | cons c rest =>
    rw [spelled, Text.isIdentifierChars, Bool.and_eq_true, List.all_eq_true] at identifier
    exact ⟨c, rest, rfl, identifier⟩

/-- Every character of an identifier can continue one. -/
theorem isIdentifierContinue_of_mem (identifier : isIdentifier name) : ∀ c ∈ name.toList, isIdentifierContinue c := by
  obtain ⟨c, rest, spelled, start, continues⟩ := exists_of_isIdentifier identifier
  rw [spelled]
  exact List.forall_mem_cons.mpr ⟨isIdentifierContinue_of_isIdentifierStart start, continues⟩

theorem isIdentifier_append (identifier : isIdentifier name) (continues : ∀ c ∈ ending.toList, isIdentifierContinue c) :
    isIdentifier (name ++ ending) := by
  obtain ⟨c, rest, spelled, start, inside⟩ := exists_of_isIdentifier identifier
  rw [isIdentifier, String.toList_append, spelled, List.cons_append, Text.isIdentifierChars, start, Bool.true_and,
    List.all_append, List.all_eq_true.mpr inside, List.all_eq_true.mpr continues]
  rfl

theorem isIdentifier_of_isPackagePart (part : isPackagePart name) : isIdentifier name := by
  rw [isPackagePart, Bool.and_eq_true] at part
  exact part.1

theorem isPackagePart_of_underscore (identifier : isIdentifier name) (underscore : '_' ∈ name.toList) :
    isPackagePart name := by
  rw [isPackagePart, identifier, isKeyword_of_underscore underscore]
  rfl

/-- A keyword goes on in small letters. -/
theorem isPackagePart_of_tail (identifier : isIdentifier name) {c : Char} (inside : c ∈ name.toList.tail)
    (other : c.isLower = false) : isPackagePart name := by
  have small : ∀ word ∈ keywords, word.toList.tail.all Char.isLower := by decide
  have noKeyword : isKeyword name = false := by
    rw [Bool.eq_false_iff]
    intro keyword
    have lower := List.all_eq_true.mp (small name (by simpa [isKeyword] using keyword)) c inside
    rw [lower] at other
    cases other
  rw [isPackagePart, identifier, noKeyword]
  rfl

/-- An identifier with an ending that is not in small letters. -/
theorem isPackagePart_extend (identifier : isIdentifier name) (continues : ∀ c ∈ ending.toList, isIdentifierContinue c)
    {c : Char} (inside : c ∈ ending.toList) (other : c.isLower = false) : isPackagePart (name ++ ending) := by
  refine isPackagePart_of_tail (isIdentifier_append identifier continues) (c := c) ?_ other
  obtain ⟨first, rest, spelled, -⟩ := exists_of_isIdentifier identifier
  rw [String.toList_append, spelled]
  exact List.mem_append_right rest inside

/-! ## Upper case -/

/-- The runs of identifier characters that letters have their upper case in: the capitals of ASCII, and what else there is
beyond ASCII. -/
def capitalRanges : List (Nat × Nat) := [
  (0x41, 0x5a), (0xc0, 0xd6), (0xd8, 0xf6), (0xf8, 0x2c1), (0x370, 0x374), (0x376, 0x377), (0x37f, 0x37f),
  (0x386, 0x386), (0x388, 0x38a), (0x38c, 0x38c), (0x38e, 0x3a1), (0x3a3, 0x3f5), (0x3f7, 0x481), (0x48a, 0x52f),
  (0x531, 0x556), (0x10a0, 0x10c5), (0x10c7, 0x10c7), (0x10cd, 0x10cd), (0x13a0, 0x13f5), (0x1c90, 0x1cba),
  (0x1cbd, 0x1cbf), (0x1e00, 0x1f15), (0x1f18, 0x1f1d), (0x1f20, 0x1f45), (0x1f48, 0x1f4d), (0x1f59, 0x1f59),
  (0x1f5b, 0x1f5b), (0x1f5d, 0x1f5d), (0x1f5f, 0x1f7d), (0x1fb6, 0x1fbc), (0x1fc6, 0x1fcc), (0x1fd6, 0x1fdb),
  (0x1fe0, 0x1fec), (0x1ff6, 0x1ffc), (0x212a, 0x2139), (0x2160, 0x2188), (0x2c00, 0x2ce4), (0x2ceb, 0x2cee),
  (0x2cf2, 0x2cf3), (0xa640, 0xa66e), (0xa67f, 0xa69d), (0xa722, 0xa788), (0xa78b, 0xa7ca), (0xa7d0, 0xa7d1),
  (0xa7d5, 0xa7d9), (0xa7f2, 0xa801), (0xff21, 0xff3a), (0x10400, 0x1049d), (0x104b0, 0x104d3), (0x10570, 0x1057a),
  (0x1057c, 0x1058a), (0x1058c, 0x10592), (0x10594, 0x10595), (0x10c80, 0x10cb2), (0x118a0, 0x118df),
  (0x16e40, 0x16e7f), (0x1e900, 0x1e943), (0x300, 0x36f)]

/-- The ranges are found among those of identifier characters; they hold code points of characters only, and none of ASCII
but the capitals. -/
theorem capitalRanges_valid :
    capitalRanges.Sublist ((0x41, 0x5a) :: (identifierStarts ++ identifierContinues)) ∧
      ∀ range ∈ capitalRanges, (range = (0x41, 0x5a) ∨ 0x80 ≤ range.1) ∧
        (range.2 < 0xd800 ∨ 0xdfff < range.1 ∧ range.2 < 0x110000) := by
  decide +kernel

def imageOf (run : CaseRun) (code : Nat) : Nat := ((code : Int) + run.shift).toNat

/-- A run of a case table takes what identifiers may start with into these ranges: the run goes into one of them, or none
of it may start an identifier, or its code points go into some of them one by one. -/
def keepsIdentifiers (run : CaseRun) : Bool :=
  (capitalRanges.any fun range => range.1.ble (imageOf run run.first) && (imageOf run run.last).ble range.2)
    || (identifierStarts.all fun range => run.last.blt range.1 || range.2.blt run.first)
    || (List.range (run.last + 1 - run.first)).all fun k =>
      k % run.stride != 0 || inRanges capitalRanges (imageOf run (run.first + k))

/-- Both tables of upper case lead into these ranges. -/
theorem upperTables_capital : upperRuns.all keepsIdentifiers ∧
    upperExpansions.all fun entry => !entry.2.isEmpty && entry.2.all (inRanges capitalRanges) := by
  decide +kernel

theorem inRanges_iff {ranges : List (Nat × Nat)} {code : Nat} :
    inRanges ranges code ↔ ∃ range ∈ ranges, range.1 ≤ code ∧ code ≤ range.2 := by
  simp [inRanges]

/-- The images of the code points of a run that may start an identifier. -/
theorem inRanges_imageOf {run : CaseRun} (keeps : keepsIdentifiers run) {code : Nat} (first : run.first ≤ code)
    (last : code ≤ run.last) (stride : (code - run.first) % run.stride = 0) (start : inRanges identifierStarts code) :
    inRanges capitalRanges (imageOf run code) := by
  simp only [keepsIdentifiers, Bool.or_eq_true, List.any_eq_true, List.all_eq_true, Bool.and_eq_true, Nat.ble_eq,
    Nat.blt_eq] at keeps
  rcases keeps with (⟨range, known, lower, upper⟩ | apart) | each
  · refine inRanges_iff.mpr ⟨range, known, ?_, ?_⟩
    · refine le_trans lower ?_
      rw [imageOf, imageOf]
      omega
    · refine le_trans ?_ upper
      rw [imageOf, imageOf]
      omega
  · obtain ⟨range, known, lower, upper⟩ := inRanges_iff.mp start
    have outside := apart range known
    omega
  · have here := each (code - run.first) (List.mem_range.mpr (by omega))
    rw [Nat.add_sub_cancel' first, stride] at here
    simpa using here

theorem inRanges_ofNat {code : Nat} (inside : inRanges capitalRanges code) :
    inRanges capitalRanges (Char.ofNat code).toNat := by
  obtain ⟨range, known, lower, upper⟩ := inRanges_iff.mp inside
  have valid := (capitalRanges_valid.2 range known).2
  have isChar : code.isValidChar := by
    rw [Nat.isValidChar]
    omega
  rwa [Char.toNat_ofNat, if_pos isChar]

/-- Beyond ASCII nothing counts as a small letter. -/
theorem isLower_eq_false_of_beyond {c : Char} (beyond : ¬ c.toNat < 0x80) : c.isLower = false :=
  Bool.eq_false_iff.mpr fun small => beyond (ascii_of_isWordChar (isWordChar_of_isLower small))

/-- In these ranges lie characters that continue identifiers and are no small letters. -/
theorem isIdentifierContinue_of_capital {c : Char} (inside : inRanges capitalRanges c.toNat) :
    isIdentifierContinue c ∧ c.isLower = false := by
  obtain ⟨range, known, lower, upper⟩ := inRanges_iff.mp inside
  rcases (capitalRanges_valid.2 range known).1 with rfl | high
  · have capital : c.isUpper := by
      simp only [Char.isUpper, ge_iff_le, UInt32.le_iff_toNat_le, decide_eq_true_eq]
      exact ⟨lower, upper⟩
    exact ⟨isIdentifierContinue_of_isWordChar (isWordChar_of_isUpper capital), isLower_eq_false_of_isUpper capital⟩
  · have beyond : ¬ c.toNat < 0x80 := by omega
    refine ⟨?_, isLower_eq_false_of_beyond beyond⟩
    rw [isIdentifierContinue, if_neg beyond, Bool.or_eq_true]
    rcases List.mem_cons.mp (capitalRanges_valid.1.subset known) with rfl | classed
    · exact absurd high (by decide)
    · exact (List.mem_append.mp classed).imp (fun starts => inRanges_iff.mpr ⟨range, starts, lower, upper⟩)
        (fun continues => inRanges_iff.mpr ⟨range, continues, lower, upper⟩)

/-- Upper case takes what an identifier may start with to characters that continue one and are no small letters. -/
theorem upperChar_capital {c : Char} (start : isIdentifierStart c) :
    upperChar c ≠ [] ∧ ∀ d ∈ upperChar c, isIdentifierContinue d ∧ d.isLower = false := by
  rw [upperChar]
  split
  · rename_i ascii
    refine ⟨by simp, List.forall_mem_singleton.mpr ?_⟩
    rw [isIdentifierStart, if_pos ascii, Bool.or_eq_true, beq_iff_eq] at start
    refine ⟨?_, Char.isLower_toUpper_eq_false c⟩
    rcases start with letter | rfl
    · exact isIdentifierContinue_of_isWordChar (isWordChar_of_isAlpha (by rwa [Char.isAlpha_toUpper_eq_isAlpha]))
    · decide
  · rename_i beyond
    have inside : inRanges identifierStarts c.toNat := by rwa [isIdentifierStart, if_neg beyond] at start
    -- beyond ASCII a table decides: one with several characters, one with runs, or none
    cases found : upperExpansions.lookup c.toNat with
    | some codes =>
      obtain ⟨before, after, split, -⟩ := List.lookup_eq_some_iff.mp found
      have entry := List.all_eq_true.mp upperTables_capital.2 (c.toNat, codes) (by simp [split])
      simp only [Bool.and_eq_true, Bool.not_eq_true', List.isEmpty_eq_false_iff, List.all_eq_true] at entry
      refine ⟨by simpa using entry.1, List.forall_mem_map.mpr fun code member => ?_⟩
      exact isIdentifierContinue_of_capital (inRanges_ofNat (entry.2 code member))
    | none =>
      refine ⟨by simp, List.forall_mem_singleton.mpr ?_⟩
      cases image : CaseRun.image? upperRuns c.toNat with
      | none => exact ⟨isIdentifierContinue_of_isIdentifierStart start, isLower_eq_false_of_beyond beyond⟩
      | some code =>
        simp only [CaseRun.image?, Option.map_eq_some_iff] at image
        obtain ⟨run, inRun, rfl⟩ := image
        have keeps := List.all_eq_true.mp upperTables_capital.1 run (List.mem_of_find?_eq_some inRun)
        have range := List.find?_some inRun
        simp only [Bool.and_eq_true, decide_eq_true_eq, beq_iff_eq] at range
        exact isIdentifierContinue_of_capital
          (inRanges_ofNat (inRanges_imageOf keeps range.1.1 range.1.2 range.2 inside))

/-- An identifier with its first letter in upper case, behind another one. -/
theorem isPackagePart_capitalize {identifier : String} (front : isIdentifier name) (back : isIdentifier identifier) :
    isPackagePart (name ++ Text.capitalize identifier) := by
  obtain ⟨c, rest, spelled, start, continues⟩ := exists_of_isIdentifier back
  obtain ⟨some, capital⟩ := upperChar_capital start
  obtain ⟨d, first⟩ := List.exists_mem_of_ne_nil _ some
  have chars : (Text.capitalize identifier).toList = upperChar c ++ rest := by
    rw [Text.capitalize, String.toList_ofList, spelled, Text.capitalizeChars]
  refine isPackagePart_extend front ?_ (c := d) ?_ (capital d first).2
  · rw [chars]
    exact List.forall_mem_append.mpr ⟨fun d member => (capital d member).1, continues⟩
  · rw [chars]
    exact List.mem_append_left _ first

/-! ## Camel case -/

/-- The guards make an identifier of any letters, digits and underscores of ASCII. -/
theorem isIdentifier_guardReserved {cs : List Char} (clean : ∀ c ∈ cs, isIdentifierChar c) :
    isIdentifier (guardReserved cs) := by
  have continues {c : Char} (clean : isIdentifierChar c) : isIdentifierContinue c := by
    rw [isIdentifierChar, Bool.or_eq_true, beq_iff_eq] at clean
    rcases clean with word | rfl
    · exact isIdentifierContinue_of_isWordChar word
    · decide
  have starts {c : Char} (clean : isIdentifierChar c) (noDigit : ¬ c.isDigit) : isIdentifierStart c := by
    rw [isIdentifierChar, Bool.or_eq_true, beq_iff_eq] at clean
    rcases clean with word | rfl
    · refine isIdentifierStart_of_isAlpha ?_
      simpa [Text.isWordChar, Char.isAlphanum, noDigit] using word
    · decide
  have spelled {c : Char} {rest : List Char} (start : isIdentifierStart c) (inside : ∀ d ∈ rest, isIdentifierChar d) :
      isIdentifier (String.ofList (c :: rest)) := by
    rw [isIdentifier, String.toList_ofList, Text.isIdentifierChars, start, Bool.true_and, List.all_eq_true]
    exact fun d member => continues (inside d member)
  -- the underscore behind a reserved name continues it
  have guarded {c : Char} {rest : List Char} (start : isIdentifierStart c) (inside : ∀ d ∈ rest, isIdentifierChar d) :
      isIdentifier (if isReserved (String.ofList (c :: rest)) then String.ofList ((c :: rest) ++ ['_'])
        else String.ofList (c :: rest)) := by
    split
    · exact spelled start (List.forall_mem_append.mpr ⟨inside, List.forall_mem_singleton.mpr (by decide)⟩)
    · exact spelled start inside
  cases cs with
  | nil => exact guarded (by decide) (List.forall_mem_nil _)
  | cons c rest =>
    obtain ⟨first, others⟩ := List.forall_mem_cons.mp clean
    rw [guardReserved]
    by_cases digit : c.isDigit
    · rw [if_pos digit]
      exact guarded (by decide) clean
    · rw [if_neg digit]
      exact guarded (starts first digit) others

/-- Camel case makes a name that a field can have, unless there is nothing to make it of. -/
theorem isFieldIdentifier_camelCase (some : name ≠ "") : isFieldIdentifier (camelCase name) := by
  rw [isFieldIdentifier, camelCase_unreserved, Bool.not_false, Bool.and_true, camelCase, if_neg (by simpa using some)]
  exact isIdentifier_guardReserved fun c member => (List.mem_filter.mp member).2

theorem isPackagePart_of_isFieldIdentifier (valid : isFieldIdentifier name) : isPackagePart name := by
  rw [isFieldIdentifier, Bool.and_eq_true, Bool.not_eq_true'] at valid
  have noKeyword : isKeyword name = false := by
    rw [Bool.eq_false_iff]
    intro keyword
    have reserved : isReserved name := by
      simp only [isKeyword, List.contains_iff_mem] at keyword
      simp [isReserved, Name.reserved, keyword]
    rw [valid.2] at reserved
    cases reserved
  rw [isPackagePart, valid.1, noKeyword]
  rfl

/-! ## Snake case -/

/-- With an ending that is set off by an underscore, snake case is an identifier unless a digit comes first. -/
theorem isPackagePart_snakeCase_append {underscored : String} (identifier : isPackagePart underscored)
    (underscore : '_' ∈ underscored.toList) : isPackagePart (snakeCase name ++ underscored) ↔
      (name.toList.find? Text.isWordChar).all Char.isAlpha := by
  have start := head?_snakeChars name.toList
  have spelled : (snakeCase name ++ underscored).toList = snakeChars name.toList ++ underscored.toList := by
    rw [String.toList_append, toList_snakeCase]
  have inside : '_' ∈ (snakeCase name ++ underscored).toList := spelled ▸ List.mem_append_right _ underscore
  have shape : isPackagePart (snakeCase name ++ underscored) ↔ isIdentifier (snakeCase name ++ underscored) :=
    ⟨isIdentifier_of_isPackagePart, fun identifier => isPackagePart_of_underscore identifier inside⟩
  rw [shape, isIdentifier, spelled]
  cases chars : snakeChars name.toList with
  | nil =>
    rw [chars, List.head?_nil, eq_comm, Option.map_eq_none_iff] at start
    rw [start, List.nil_append, ← isIdentifier, isIdentifier_of_isPackagePart identifier]
    simp
  | cons c rest =>
    rw [chars, List.head?_cons, eq_comm] at start
    obtain ⟨d, first, rfl⟩ := Option.map_eq_some_iff.mp start
    have continues : (rest ++ underscored.toList).all isIdentifierContinue := by
      refine List.all_eq_true.mpr (List.forall_mem_append.mpr ⟨fun c member => ?_, ?_⟩)
      · exact isIdentifierContinue_of_isModuleChar
          (isModuleChar_of_mem_snakeChars (chars ▸ List.mem_cons_of_mem _ member : c ∈ snakeChars name.toList))
      · exact isIdentifierContinue_of_mem (isIdentifier_of_isPackagePart identifier)
    rw [List.cons_append, Text.isIdentifierChars, continues, Bool.and_true,
      isIdentifierStart_toLower (List.find?_some first), first]
    simp

end Tablewright.Name
