import Tablewright.Proofs.Document.Portable
import Tablewright.Proofs.Yaml.Places
import Tablewright.Yaml.Scalar

/-!
# Words and numerals of JSON as YAML

Portable words and numerals are plain scalars, which end where they end in JSON, and their form implies the same value.

* `Plain.scalar_bare`: a plain scalar between brackets.
* `implied_integer`, `implied_number`: what the forms of numerals imply.
* `scalarValue?_numeral`, `scalarValue?_word`: the values.
-/

namespace Tablewright.Yaml

/-- A character that ends no plain scalar between brackets. -/
def IsBare (ch : Char) : Prop := endsWord (some ch) = false ∧ ch ∉ [':', ',', '?', '[', ']', '\x7b', '\x7d', '#']

instance (ch : Char) : Decidable (IsBare ch) := inferInstanceAs (Decidable (_ ∧ _))

/-- A text that goes on with a comma or a closing bracket. -/
def Closes (rest : List Char) : Prop := ∃ ch tail, rest = ch :: tail ∧ (ch = ',' ∨ ch = ']' ∨ ch = '\x7d')

theorem Closes.solid {rest : List Char} (closes : Closes rest) : Solid rest := by
  obtain ⟨ch, tail, rfl, close⟩ := closes
  intro first head
  obtain rfl := Option.some.inj head
  rcases close with rfl | rfl | rfl <;> decide

namespace Plain

variable {c : Cursor} {word blanks rest : List Char}

theorem run_closes (closes : Closes rest) : run true rest = [] := by
  obtain ⟨ch, tail, rfl, close⟩ := closes
  rw [run, if_pos]
  rcases close with rfl | rfl | rfl <;> simp [stops]

/-- A word of a plain scalar ends at white space and at a closing bracket. -/
theorem run_bare (bare : ∀ ch ∈ word, IsBare ch) (blank : ∀ ch ∈ blanks, IsBlank ch) (closes : Closes rest) :
    run true (word ++ (blanks ++ rest)) = word := by
  induction word with
  | nil =>
    cases blanks with
    | nil => exact run_closes closes
    | cons ch blanks =>
      rw [List.nil_append, List.cons_append, run, if_pos]
      rcases blank ch List.mem_cons_self with rfl | rfl | rfl <;> simp [stops, endsWord, isSpace, isBreak]
  | cons ch word ih =>
    rw [List.forall_mem_cons] at bare
    have goes : stops true ch (word ++ (blanks ++ rest)).head? = false := by
      obtain ⟨unspaced, other⟩ := bare.1
      simp only [List.mem_cons, List.not_mem_nil, or_false, not_or] at other
      simp [stops, unspaced, other]
    rw [List.cons_append, run, goes]
    exact congrArg (ch :: ·) (ih bare.2)

/-- No marker of a document stands where blanks lead to a closing bracket. -/
theorem atMarker_blank (at_ : c.rest = blanks ++ rest) (blank : ∀ ch ∈ blanks, IsBlank ch) (closes : Closes rest) :
    c.atMarker = false := by
  have first : ∀ ch ∈ c.rest.head?, ch ≠ '-' ∧ ch ≠ '.' := by
    intro ch head
    rw [at_] at head
    cases blanks with
    | nil =>
      obtain ⟨d, tail, rfl, close⟩ := closes
      obtain rfl := Option.some.inj head
      rcases close with rfl | rfl | rfl <;> decide
    | cons d blanks =>
      obtain rfl := Option.some.inj head
      rcases blank d List.mem_cons_self with rfl | rfl | rfl <;> decide
  rw [Cursor.atMarker, Cursor.atTriple_of_head fun ch head => (first ch head).1,
    Cursor.atTriple_of_head fun ch head => (first ch head).2]
  rfl

/-- Blanks before a closing bracket are passed line by line. -/
theorem emptyLines_blank (at_ : c.rest = blanks ++ rest) (blank : ∀ ch ∈ blanks, IsBlank ch) (closes : Closes rest)
    (fuel : Nat) (enough : blanks.length < fuel) :
    ∃ lines after, emptyLines fuel c = (some lines, after) ∧ after.rest = rest := by
  induction fuel generalizing c blanks with
  | zero => simp at enough
  | succ fuel ih =>
    obtain ⟨k, within, skipped, -, ended | ⟨n, within', further, taken⟩⟩ :=
      Cursor.skipBlanks_blank at_ blank closes.solid
    · refine ⟨[], c.forward k, ?_, by rw [ended.1]; exact Cursor.rest_forward_append at_⟩
      rw [emptyLines]
      simp only [skipped, ended.2]
    · have next := Cursor.rest_forward_of_le at_ within'
      have blank' : ∀ ch ∈ blanks.drop n, IsBlank ch := fun ch member => blank ch (List.mem_of_mem_drop member)
      obtain ⟨lines, after, read, there⟩ := ih next blank' (by rw [List.length_drop]; omega)
      refine ⟨'\n' :: lines, after, ?_, there⟩
      rw [emptyLines]
      simp only [skipped, taken, atMarker_blank next blank' closes, read]
      rfl

theorem gap_blank (at_ : c.rest = blanks ++ rest) (blank : ∀ ch ∈ blanks, IsBlank ch) (closes : Closes rest) :
    (gap c).after.rest = rest := by
  obtain ⟨k, within, skipped, -, ended | ⟨n, within', further, taken⟩⟩ :=
    Cursor.skipBlanks_blank at_ blank closes.solid
  · rw [Cursor.skipBlanks, Cursor.skip] at skipped
    rw [gap]
    simp only [skipped, ended.2]
    rw [ended.1]
    exact Cursor.rest_forward_append at_
  · rw [Cursor.skipBlanks, Cursor.skip] at skipped
    have next := Cursor.rest_forward_of_le at_ within'
    have blank' : ∀ ch ∈ blanks.drop n, IsBlank ch := fun ch member => blank ch (List.mem_of_mem_drop member)
    obtain ⟨lines, after, read, there⟩ := emptyLines_blank next blank' closes ((c.forward n).rest.length + 1) (by
      rw [next, List.length_append]
      omega)
    rw [gap]
    simp only [skipped, taken, atMarker_blank next blank' closes, read]
    exact there

/-- No further word follows before a closing bracket. -/
theorem words_closes {before : Gap} (closes : Closes before.after.rest) (indent : Int) (fuel : Nat) :
    words true indent fuel before = ⟨[], before.after, before.broken⟩ := by
  cases fuel with
  | zero => rfl
  | succ fuel =>
    rw [words]
    simp [run_closes closes]

/-- A plain scalar between brackets, and what is left after it and the white space that follows. -/
theorem scalar_bare (indent : Int) (at_ : c.rest = word ++ (blanks ++ rest)) (some_word : word ≠ [])
    (bare : ∀ ch ∈ word, IsBare ch) (blank : ∀ ch ∈ blanks, IsBlank ch) (closes : Closes rest) :
    (scalar true indent c).text = word ∧ (scalar true indent c).after.rest = rest := by
  obtain ⟨first, tail, rfl⟩ := List.exists_cons_of_ne_nil some_word
  have after := gap_blank (Cursor.rest_forward_append at_) blank closes
  have here : (c.peek == some '#') = false := by
    rw [Cursor.peek, at_]
    have other := (bare first List.mem_cons_self).2
    simp only [List.mem_cons, List.not_mem_nil, or_false, not_or] at other
    simp [other]
  have taken : run true c.rest = first :: tail := by rw [at_, run_bare bare blank closes]
  rw [scalar, words]
  simp only [taken, here, Bool.false_or, List.isEmpty_cons, Bool.false_eq_true, if_false, List.nil_append]
  split
  · exact ⟨rfl, after⟩
  · rw [words_closes (after ▸ closes)]
    exact ⟨List.append_nil _, after⟩

end Plain

/-! ## Characters of numerals -/

open Json (Numeral Exponent Word)

def numeralChars : List Char :=
  ['0', '1', '2', '3', '4', '5', '6', '7', '8', '9', '+', '-', '.', 'e', 'E']

theorem forall_numeralChars {p : Char → Bool} (all : numeralChars.all p) : ∀ c ∈ numeralChars, p c :=
  List.all_eq_true.mp all

theorem mem_numeralChars_of_isDigit {d : Char} (digit : d.isDigit) : d ∈ numeralChars := by
  have bounds := Char.isDigit_iff_toNat.mp digit
  have zero : '0'.toNat = 48 := rfl
  have nine : '9'.toNat = 57 := rfl
  have known : d.toNat ∈ numeralChars.map Char.toNat := by
    have all : (List.range' 48 10).all (numeralChars.map Char.toNat).contains := by decide
    simpa using List.all_eq_true.mp all _ (List.mem_range'_1.mpr (by omega))
  obtain ⟨c, member, same⟩ := List.mem_map.mp known
  exact Char.toNat_inj.mp same ▸ member

theorem Exponent.mem_numeralChars (e : Exponent) : ∀ c ∈ e.chars, c ∈ numeralChars := by
  rw [Exponent.chars, List.forall_mem_cons, List.forall_mem_append]
  refine ⟨?_, ?_, fun d member => mem_numeralChars_of_isDigit (e.are_digits d member)⟩
  · rcases e.isLetter with same | same <;> rw [same] <;> simp [numeralChars]
  · rcases e.isSign with same | same | same <;> rw [same] <;> simp [numeralChars]

theorem Numeral.mem_numeralChars (n : Numeral) : ∀ c ∈ n.chars, c ∈ numeralChars := by
  rw [Numeral.chars, List.forall_mem_append, List.forall_mem_append, List.forall_mem_append]
  refine ⟨?_, fun d member => mem_numeralChars_of_isDigit (n.are_whole d member), ?_, ?_⟩
  · cases n.negative <;> simp [numeralChars]
  · rw [Numeral.fraction]
    split
    · simp
    · refine List.forall_mem_cons.mpr ⟨by simp [numeralChars], fun d member => ?_⟩
      exact mem_numeralChars_of_isDigit (n.are_places d member)
  · rw [Numeral.power]
    cases n.exponent with
    | none => simp
    | some e => exact Exponent.mem_numeralChars e

theorem isBare_of_mem {c : Char} (member : c ∈ numeralChars) : IsBare c :=
  of_decide_eq_true (forall_numeralChars (p := fun c => decide (IsBare c)) (by decide) c member)

theorem trimmed_of_mem {cs : List Char} (members : ∀ c ∈ cs, c ∈ numeralChars) : trimmed cs = cs := by
  have solid := forall_numeralChars (p := fun c => !Text.isWhiteSpace c) (by decide)
  have kept : ∀ ds : List Char, (∀ c ∈ ds, c ∈ numeralChars) → ds.dropWhile Text.isWhiteSpace = ds := by
    intro ds members
    cases ds with
    | nil => rfl
    | cons d ds => exact List.dropWhile_cons_of_neg (by simpa using solid d (members d List.mem_cons_self))
  rw [trimmed, kept cs members, Text.dropTrailing, kept _ (by simpa using members), List.reverse_reverse]

theorem signedPart_of_mem {cs : List Char} (members : ∀ c ∈ cs, c ∈ numeralChars) (some_cs : cs ≠ []) :
    signedPart cs = .ok (cs.head? == some '-', withoutSign cs) := by
  have plain : cs.filter (· != '_') = cs :=
    List.filter_eq_self.mpr fun c member => forall_numeralChars (p := (· != '_')) (by decide) c (members c member)
  rw [signedPart, plain]
  simp [some_cs]

/-! ## What numerals imply -/

/-- A numeral after its sign. -/
def unsigned (n : Numeral) : List Char := n.whole ++ (n.fraction ++ n.power)

theorem chars_signed (n : Numeral) : (n.chars.head? == some '-') = n.negative ∧ withoutSign n.chars = unsigned n := by
  obtain ⟨d, ds, whole, digit, notMinus⟩ := n.whole_cons
  rw [Numeral.chars, unsigned, whole]
  cases n.negative with
  | true => exact ⟨rfl, rfl⟩
  | false =>
    simp [notMinus, withoutSign, Json.ne_of_isDigit digit]

def startsNumeral (c : Char) : Bool := c.isDigit || c == '-'

theorem unsigned_head (n : Numeral) : ∃ d ds, unsigned n = d :: ds ∧ d.isDigit := by
  obtain ⟨d, ds, whole, digit, -⟩ := n.whole_cons
  exact ⟨d, _, by rw [unsigned, whole]; rfl, digit⟩

theorem chars_head (n : Numeral) : n.chars.head?.any startsNumeral := by
  obtain ⟨d, ds, whole, digit, -⟩ := n.whole_cons
  rw [Numeral.chars, whole]
  cases n.negative <;> simp [startsNumeral, digit]

/-- What starts like a numeral is none of the words that do not. -/
theorem notWord (words : List String) (others : words.all fun w => !w.toList.head?.any startsNumeral) {cs : List Char}
    (head : cs.head?.any startsNumeral) : words.contains (String.ofList cs) = false := by
  rw [Bool.eq_false_iff]
  intro known
  have other := List.all_eq_true.mp others _ (List.contains_iff_mem.mp known)
  rw [String.toList_ofList, head] at other
  cases other

theorem isSpecial_chars (n : Numeral) : isSpecial n.chars = false := by
  obtain ⟨d, ds, chars, digit⟩ := unsigned_head n
  have head : (unsigned n).head?.any startsNumeral := by simp [chars, startsNumeral, digit]
  rw [isSpecial, (chars_signed n).2, notWord _ (by decide) head, notWord _ (by decide) (chars_head n)]
  rfl

theorem isShortPointed_chars (n : Numeral) : isShortPointed n.chars = false := by
  have head := chars_head n
  refine isShortPointed.eq_2 _ fun d rest same => ?_
  rw [same] at head
  cases head

theorem span_point {ds : List Char} (rest : List Char) (digits : ∀ d ∈ ds, d.isDigit) :
    (ds ++ '.' :: rest).span (· != '.') = (ds, '.' :: rest) ∧ ds.span (· != '.') = (ds, []) := by
  have unpointed : ∀ d ∈ ds, (d != '.') = true := by
    intro d member
    simpa using Json.ne_of_isDigit (digits d member) rfl
  simp only [List.span_eq_takeWhile_dropWhile, List.takeWhile_append_of_pos unpointed,
    List.dropWhile_append_of_pos unpointed]
  exact ⟨by simp, by rw [List.takeWhile_eq_self_iff.mpr unpointed, List.dropWhile_eq_nil_iff.mpr unpointed]⟩

theorem isSpacedDigit_of_isDigit {d : Char} (digit : d.isDigit) : isSpacedDigit d := by
  rw [isSpacedDigit, digit]
  rfl

theorem isSpacedNumeral_whole (n : Numeral) : isSpacedNumeral n.whole := by
  obtain ⟨d, ds, whole, digit, -⟩ := n.whole_cons
  have digits := n.are_whole
  rw [whole, List.forall_mem_cons] at digits
  rw [whole, isSpacedNumeral, digit, Bool.true_and, List.all_eq_true]
  exact fun d member => isSpacedDigit_of_isDigit (digits.2 d member)

theorem isUnsignedInteger_whole (n : Numeral) : isUnsignedInteger n.whole := by
  obtain ⟨d, ds, whole, -⟩ := n.whole_cons
  by_cases zero : d = '0'
  · rw [n.leading (by rw [whole, zero]; rfl)]
    rfl
  · have numeral : isWhole n.whole := by
      rw [isWhole, isSpacedNumeral_whole, whole]
      simpa using zero
    rw [whole] at numeral ⊢
    simp [isUnsignedInteger, zero, numeral]

/-- Digits without a point imply an integer. -/
theorem implied_integer {n : Numeral} (whole : n.places = []) (bare : n.exponent = none) :
    Tag.implied (String.ofList n.chars) = .integer := by
  have unsignedWhole : unsigned n = n.whole := by simp [unsigned, Numeral.fraction, Numeral.power, whole, bare]
  have number : isNumber n.chars = false := by
    rw [isNumber, isShortPointed_chars, isSpecial_chars, (chars_signed n).2, unsignedWhole, isPointed, pointed?,
      (span_point [] n.are_whole).2]
    rfl
  have integer : isInteger n.chars = true := by
    rw [isInteger, (chars_signed n).2, unsignedWhole, isUnsignedInteger_whole]
  rw [Tag.implied]
  simp only [notWord nullWords (by decide) (chars_head n), notWord truthWords (by decide) (chars_head n),
    String.toList_ofList, number, integer]
  rfl

/-- Digits with a point imply a number, also with an exponent that has a sign. -/
theorem implied_number {n : Numeral} (pointed : n.places ≠ []) (signed : ∀ e ∈ n.exponent, e.sign ≠ none) :
    Tag.implied (String.ofList n.chars) = .number := by
  have exponent : isExponent n.power := by
    rw [Numeral.power]
    cases given : n.exponent with
    | none => rfl
    | some e =>
      obtain ⟨letter, sign, ds, isLetter, isSign, some_digits, digits⟩ := e
      obtain ⟨d, ds, rfl⟩ := List.exists_cons_of_ne_nil some_digits
      obtain ⟨s, rfl⟩ := Option.ne_none_iff_exists'.mp (signed _ given)
      simp only [reduceCtorEq, Option.some.injEq, false_or] at isSign
      simpa [Exponent.chars, isExponent, isLetter, isSign] using digits
  have fraction : isFraction (n.places ++ n.power) := by
    have stop : n.power.dropWhile isSpacedDigit = n.power := by
      rw [Numeral.power]
      cases n.exponent with
      | none => rfl
      | some e => rcases e.isLetter with same | same <;> simp [Exponent.chars, same, isSpacedDigit]
    rw [isFraction, List.dropWhile_append_of_pos fun d member => isSpacedDigit_of_isDigit (n.are_places d member),
      stop, exponent]
  have number : isNumber n.chars := by
    rw [isNumber, (chars_signed n).2, unsigned, Numeral.fraction, if_neg pointed, isPointed, pointed?, List.cons_append,
      (span_point _ n.are_whole).1]
    simp [isSpacedNumeral_whole, fraction]
  rw [Tag.implied]
  simp only [notWord nullWords (by decide) (chars_head n), notWord truthWords (by decide) (chars_head n),
    String.toList_ofList, number]
  rfl

/-! ## Values -/

theorem isDigitIn_of_isDigit {d : Char} (digit : d.isDigit) : isDigitIn 10 d := by
  have bounds := Char.isDigit_iff_toNat.mp digit
  have zero : '0'.toNat = 48 := rfl
  have nine : '9'.toNat = 57 := rfl
  simp only [isDigitIn, Number.digit?, digit, if_true, Option.any_some, decide_eq_true_eq]
  omega

theorem unsignedInteger_whole {n : Numeral} (short : n.whole.length ≤ Document.maxDigits) :
    unsignedInteger n.whole = .ok (Number.decimalOf n.whole : Int) := by
  obtain ⟨d, ds, whole, digit, notMinus⟩ := n.whole_cons
  by_cases zero : d = '0'
  · rw [n.leading (by rw [whole, zero]; rfl)]
    rfl
  · have members : ∀ c ∈ n.whole, c ∈ numeralChars := fun c member => mem_numeralChars_of_isDigit (n.are_whole c member)
    have notPlus : d ≠ '+' := Json.ne_of_isDigit digit rfl
    have run : n.whole.takeWhile (isDigitIn 10) = n.whole :=
      List.takeWhile_eq_self_iff.mpr fun c member => isDigitIn_of_isDigit (n.are_whole c member)
    have uncolon : ':' ∉ n.whole := fun colon => by cases n.are_whole ':' colon
    have read : numeralIn 10 n.whole = .ok (Number.decimalOf n.whole : Int) := by
      have bare : withoutBase 10 (withoutSign n.whole) = n.whole := by
        rw [whole]
        simp [withoutSign, withoutBase, notMinus, notPlus, zero]
      have head : (n.whole.head? == some '-') = false := by
        rw [whole]
        simpa using notMinus
      rw [numeralIn, trimmed_of_mem members, bare, run, head]
      simp [Nat.not_lt.mpr short, n.some_whole, Number.decimalOf]
    rw [whole, List.mem_cons] at uncolon
    rw [whole] at read ⊢
    simp [unsignedInteger, zero, uncolon, read]

theorem chars_ne_nil (n : Numeral) : n.chars ≠ [] := by
  intro none
  have head := chars_head n
  rw [none] at head
  cases head

theorem integerOf_chars {n : Numeral} (whole : n.places = []) (bare : n.exponent = none) :
    integerOf n.chars = .ok n.value := by
  have members := Numeral.mem_numeralChars n
  obtain ⟨sign, rest⟩ := chars_signed n
  have unsignedWhole : unsigned n = n.whole := by simp [unsigned, Numeral.fraction, Numeral.power, whole, bare]
  rw [integerOf, signedPart_of_mem members (chars_ne_nil n), sign, rest, unsignedWhole]
  simp only [bind, Except.bind, unsignedInteger_whole (n.short whole bare), Numeral.value, whole, bare, and_self,
    if_true]

theorem Exponent.small : 'e' = 'e' ∨ 'e' = 'E' := .inl rfl

def Exponent.lowered (e : Exponent) : Exponent := { e with letter := 'e', isLetter := Exponent.small }

/-- A numeral with a small letter before its exponent, which stands for the same number. -/
def Numeral.lowered (n : Numeral) : Numeral :=
  { n with exponent := n.exponent.map Exponent.lowered, short := fun whole bare => n.short whole (by simpa using bare) }

theorem Numeral.value_lowered (n : Numeral) : (Numeral.lowered n).value = n.value := by
  simp only [Numeral.value, Numeral.lowered, Option.map_eq_none_iff, Option.map_map]
  rfl

theorem lower_of_mem {cs : List Char} (members : ∀ c ∈ cs, c ∈ numeralChars) (small : 'E' ∉ cs) :
    Text.lower cs = cs := by
  have kept := forall_numeralChars (p := fun c => c == 'E' || Text.lowerChar c == [c]) (by decide)
  induction cs with
  | nil => rfl
  | cons c cs ih =>
    rw [List.forall_mem_cons] at members
    rw [List.mem_cons, not_or] at small
    have same : Text.lowerChar c = [c] := by simpa [Ne.symm small.1] using kept c members.1
    rw [Text.lower, List.flatMap_cons, same, ← Text.lower, ih members.2 small.2]
    rfl

theorem lower_digits {ds : List Char} (digits : ∀ d ∈ ds, d.isDigit) : Text.lower ds = ds :=
  lower_of_mem (fun d member => mem_numeralChars_of_isDigit (digits d member)) fun capital => by
    cases digits 'E' capital

theorem lower_chars (n : Numeral) : Text.lower n.chars = (Numeral.lowered n).chars := by
  have append : ∀ cs ds : List Char, Text.lower (cs ++ ds) = Text.lower cs ++ Text.lower ds :=
    fun cs ds => List.flatMap_append
  have cons : ∀ (c : Char) (cs : List Char), Text.lower (c :: cs) = Text.lowerChar c ++ Text.lower cs := fun c cs =>
    List.flatMap_cons
  have sign : Text.lower (if n.negative then ['-'] else []) = if n.negative then ['-'] else [] := by
    cases n.negative <;> rfl
  have fraction : Text.lower n.fraction = n.fraction := by
    rw [Numeral.fraction]
    split
    · rfl
    · rw [cons, lower_digits n.are_places]
      rfl
  have power : Text.lower n.power = (Numeral.lowered n).power := by
    have lowered : (Numeral.lowered n).exponent = n.exponent.map Exponent.lowered := rfl
    rw [Numeral.power, Numeral.power, lowered]
    cases n.exponent with
    | none => rfl
    | some e =>
      have letter : Text.lowerChar e.letter = ['e'] := by rcases e.isLetter with same | same <;> rw [same] <;> rfl
      have signChars : Text.lower e.sign.toList = e.sign.toList := by
        rcases e.isSign with same | same | same <;> rw [same] <;> rfl
      simp only [Option.map_some, Option.getD_some, Exponent.chars, Exponent.lowered]
      rw [cons, append, letter, signChars, lower_digits e.are_digits]
      rfl
  rw [Numeral.chars, append, append, append, sign, lower_digits n.are_whole, fraction, power]
  rfl

theorem exponent?_power (n : Numeral) : Number.exponent? n.power = some ((n.exponent.map Exponent.value).getD 0) := by
  rw [Numeral.power]
  cases n.exponent with
  | none => rfl
  | some e =>
    obtain ⟨letter, sign, ds, isLetter, isSign, some_digits, digits⟩ := e
    have letterOk : (letter == 'e' || letter == 'E') = true := by simpa using isLetter
    have all : ds.all Char.isDigit = true := List.all_eq_true.mpr digits
    simp only [Option.map_some, Option.getD_some, Exponent.chars, Exponent.value, Number.exponent?, letterOk, if_true]
    rcases isSign with rfl | rfl | rfl
    · obtain ⟨d, ds, rfl⟩ := List.exists_cons_of_ne_nil some_digits
      have digit := digits d List.mem_cons_self
      rw [List.all_cons, Bool.and_eq_true] at all
      simp [Json.ne_of_isDigit digit, all]
    · simp [some_digits, all]
    · simp [some_digits, all]

theorem decimal?_unsigned {n : Numeral} (pointed : n.places ≠ []) : Number.decimal? (unsigned n) =
    some (Number.ofDecimal (Number.decimalOf (n.whole ++ n.places))
      ((n.exponent.map Exponent.value).getD 0 - n.places.length)) := by
  obtain ⟨d, ds, chars, digit⟩ := unsigned_head n
  have stop : ∀ c ∈ n.power.head?, c.isDigit = false := by
    have ends : Json.Ends [] := by simp [Json.Ends]
    exact fun c head => (n.power_head ends c (by simpa using head)).1
  have read : Number.unsignedDecimal? (unsigned n) = some (Number.ofDecimal (Number.decimalOf (n.whole ++ n.places))
      ((n.exponent.map Exponent.value).getD 0 - n.places.length)) := by
    have whole : Json.digits (n.whole ++ (n.fraction ++ n.power)) = _ :=
      Json.digits_append n.are_whole (by simp [Numeral.fraction, pointed])
    have places := Json.digits_append n.are_places stop
    rw [Json.digits] at whole places
    rw [Number.unsignedDecimal?, unsigned, whole]
    simp only [Numeral.fraction, if_neg pointed, List.cons_append, places]
    simp [n.some_whole, exponent?_power]
  -- a numeral starts with a digit, and so is none of the names of numbers
  have notNamed : ∀ name : String, (name.toList.head?.any Char.isDigit) = false →
      String.ofList ((unsigned n).map Char.toLower) ≠ name := by
    rintro name other rfl
    have lower : d.toLower = d := by
      have kept := forall_numeralChars (p := fun c => !c.isDigit || c.toLower == c) (by decide)
      simpa [digit] using kept d (mem_numeralChars_of_isDigit digit)
    rw [String.toList_ofList, chars, List.map_cons, lower] at other
    simp [digit] at other
  have named : Number.decimal? (unsigned n) = Number.unsignedNumber? (unsigned n) := by
    rw [chars]
    simp [Number.decimal?, Json.ne_of_isDigit digit]
  rw [named, Number.unsignedNumber?]
  simp only [notNamed "inf" (by decide), notNamed "infinity" (by decide), notNamed "nan" (by decide), or_self, if_false,
    read]

theorem numberOf_chars {n : Numeral} (pointed : n.places ≠ []) : numberOf n.chars = .ok n.value := by
  have members := Numeral.mem_numeralChars (Numeral.lowered n)
  obtain ⟨sign, rest⟩ := chars_signed (Numeral.lowered n)
  obtain ⟨d, ds, chars, digit⟩ := unsigned_head (Numeral.lowered n)
  have unsignedMembers : ∀ c ∈ unsigned (Numeral.lowered n), c ∈ numeralChars := fun c member =>
    members c (List.mem_append_right _ member)
  have read : unsignedNumber (unsigned (Numeral.lowered n)) =
      .ok (Number.ofDecimal (Number.decimalOf (n.whole ++ n.places))
        (((Numeral.lowered n).exponent.map Exponent.value).getD 0 - n.places.length)) := by
    have uncolon : ':' ∉ unsigned (Numeral.lowered n) := by
      intro colon
      have known := unsignedMembers ':' colon
      simp [numeralChars] at known
    have decimal := decimal?_unsigned (n := Numeral.lowered n) pointed
    have noInfinity : (unsigned (Numeral.lowered n) == ".inf".toList) = false := by
      rw [chars]
      simp [Json.ne_of_isDigit digit]
    have noNan : (unsigned (Numeral.lowered n) == ".nan".toList) = false := by
      rw [chars]
      simp [Json.ne_of_isDigit digit]
    rw [unsignedNumber, decimalOf, trimmed_of_mem unsignedMembers, decimal]
    simp only [noInfinity, noNan, List.contains_iff_mem, uncolon, Bool.false_eq_true, if_false]
    rfl
  rw [numberOf, lower_chars, signedPart_of_mem members (chars_ne_nil _), ← Numeral.value_lowered]
  have float : ¬((Numeral.lowered n).places = [] ∧ (Numeral.lowered n).exponent = none) := fun whole => pointed whole.1
  simp only [bind, Except.bind, sign, rest, read, Numeral.value, if_neg float]
  rfl

theorem scalarValue?_numeral {n : Numeral} (portable : n.Portable) :
    scalarValue? (.implied (String.ofList n.chars)) (String.ofList n.chars) = some (.ok n.value) := by
  by_cases integer : n.places = [] ∧ n.exponent = none
  · rw [implied_integer integer.1 integer.2, scalarValue?, String.toList_ofList, integerOf_chars integer.1 integer.2]
    rfl
  · have pointed : n.places ≠ [] := by
      intro none
      cases given : n.exponent with
      | none => exact integer ⟨none, given⟩
      | some e => exact (portable e given).1 none
    rw [implied_number pointed fun e given => (portable e given).2, scalarValue?, String.toList_ofList,
      numberOf_chars pointed]
    rfl

theorem scalarValue?_truth (b : Bool) : scalarValue? (.implied (if b then "true" else "false"))
    (if b then "true" else "false") =
    some (.ok (.bool b)) := by
  have implied : Tag.implied (if b then "true" else "false") = .truth := by revert b; decide
  have named : truthOf (if b then "true" else "false").toList = .ok (.bool b) := by cases b <;> rfl
  rw [implied, scalarValue?, named]
  rfl

theorem scalarValue?_word {w : Word} (portable : w.Portable) :
    scalarValue? (.implied (String.ofList w.chars)) (String.ofList w.chars) = some (.ok w.value) := by
  obtain ⟨cs, v, known⟩ := w
  simp only [Word.Portable, List.mem_cons, List.not_mem_nil, or_false] at portable
  simp only [Json.wordValues, List.mem_cons, Prod.mk.injEq, List.not_mem_nil, or_false] at known
  rcases portable with rfl | rfl | rfl
  · obtain rfl : v = .null := by simpa using known
    rfl
  · obtain rfl : v = .bool true := by simpa using known
    exact scalarValue?_truth true
  · obtain rfl : v = .bool false := by simpa using known
    exact scalarValue?_truth false

end Tablewright.Yaml
