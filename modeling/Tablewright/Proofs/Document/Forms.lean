import Mathlib
import Tablewright.Document.Json

/-!
# Forms of JSON documents

A JSON document as it is written: its tokens with the white space between them, in the nesting of its brackets.

* `Space`, `Glyph`, `Numeral`, `Word`: the tokens, each with the rules that it keeps.
* `Form`, `Items`, `Entries`: values, and what stands in brackets up to the closing one.
* `chars`: the characters of a form; `value`: what it stands for.
* `value_form`: a form is read from the front of a text; `parse_document`: a document is read as its value.
-/

namespace Tablewright.Json

/-! ## Tokens -/

/-- White space between tokens. -/
structure Space where
  chars : List Char
  blank : ∀ c ∈ chars, isSpace c

def hexCode? (a b c d : Char) : Option Nat := do
  some ((((← Number.digit? a) * 16 + (← Number.digit? b)) * 16 + (← Number.digit? c)) * 16 + (← Number.digit? d))

/-- A character in quotes as it is written: as itself, by the letter of an escape, or by a code unit. -/
inductive Glyph where
  | plain (c : Char) (proper : 0x1f < c.toNat ∧ c ≠ '"' ∧ c ≠ '\\')
  | escape (letter c : Char) (named : simpleEscape? letter = some c)
  | unit (a b c d : Char) (code : Nat) (hex : hexCode? a b c d = some code)

namespace Glyph

def chars : Glyph → List Char
  | plain c _ => [c]
  | escape letter _ _ => ['\\', letter]
  | unit a b c d _ _ => ['\\', 'u', a, b, c, d]

/-- The character that a glyph stands for on its own. -/
def char : Glyph → Char
  | plain c _ => c
  | escape _ c _ => c
  | unit _ _ _ _ code _ => unitChar code

/-- The character that two glyphs stand for together: they have to be the halves of a surrogate pair. -/
def pair? : Glyph → Glyph → Option Char
  | unit _ _ _ _ high _, unit _ _ _ _ low _ =>
    if (0xD800 ≤ high ∧ high < 0xDC00) ∧ (0xDC00 ≤ low ∧ low < 0xE000) then
      some (Char.ofNat (0x10000 + (high - 0xD800) * 0x400 + (low - 0xDC00)))
    else none
  | _, _ => none

end Glyph

/-- The characters of a text in quotes, without the quotes. -/
def rawChars (glyphs : List Glyph) : List Char := glyphs.flatMap Glyph.chars

theorem rawChars_cons (g : Glyph) (glyphs : List Glyph) : rawChars (g :: glyphs) = g.chars ++ rawChars glyphs :=
  List.flatMap_cons

theorem rawChars_append (glyphs more : List Glyph) : rawChars (glyphs ++ more) = rawChars glyphs ++ rawChars more :=
  List.flatMap_append

/-- The characters that glyphs stand for. -/
def decoded : List Glyph → List Char
  | [] => []
  | [g] => [g.char]
  | g :: h :: rest =>
    match g.pair? h with
    | some c => c :: decoded rest
    | none => g.char :: decoded (h :: rest)

/-- An exponent: its letter, a sign if there is one, and digits. -/
structure Exponent where
  letter : Char
  sign : Option Char
  digits : List Char
  isLetter : letter = 'e' ∨ letter = 'E'
  isSign : sign = none ∨ sign = some '+' ∨ sign = some '-'
  some_digits : digits ≠ []
  are_digits : ∀ d ∈ digits, d.isDigit

namespace Exponent

def chars (e : Exponent) : List Char := e.letter :: (e.sign.toList ++ e.digits)

def value (e : Exponent) : Int := (if e.sign = some '-' then -1 else 1) * (Number.decimalOf e.digits : Int)

end Exponent

/-- A numeral: whole digits without a zero in front of others, places, and an exponent.  Whole numbers have at most as
many digits as an integer may have. -/
structure Numeral where
  negative : Bool
  whole : List Char
  places : List Char
  exponent : Option Exponent
  some_whole : whole ≠ []
  leading : whole.head? = some '0' → whole = ['0']
  are_whole : ∀ d ∈ whole, d.isDigit
  are_places : ∀ d ∈ places, d.isDigit
  short : places = [] → exponent = none → whole.length ≤ Document.maxDigits

namespace Numeral

def fraction (n : Numeral) : List Char := if n.places = [] then [] else '.' :: n.places

def power (n : Numeral) : List Char := (n.exponent.map Exponent.chars).getD []

def chars (n : Numeral) : List Char := (if n.negative then ['-'] else []) ++ (n.whole ++ (n.fraction ++ n.power))

def value (n : Numeral) : Value :=
  if n.places = [] ∧ n.exponent = none then
    .int (if n.negative then -(Number.decimalOf n.whole : Int) else Number.decimalOf n.whole)
  else
    .float (signed n.negative (Number.ofDecimal (Number.decimalOf (n.whole ++ n.places))
      ((n.exponent.map Exponent.value).getD 0 - n.places.length)))

end Numeral

/-- A word that stands for a value. -/
structure Word where
  chars : List Char
  value : Value
  known : (chars, value) ∈ wordValues

/-- The name of an entry with its colon. -/
structure Name where
  before : Space
  glyphs : List Glyph
  after : Space

namespace Name

/-- The characters of a name after the white space before it. -/
def quotedChars (n : Name) : List Char := '"' :: (rawChars n.glyphs ++ '"' :: (n.after.chars ++ [':']))

def key (n : Name) : String := String.ofList (decoded n.glyphs)

end Name

/-! ## Values -/

mutual

/-- A value as it is written. -/
inductive Form where
  | word (w : Word)
  | numeral (n : Numeral)
  | text (glyphs : List Glyph)
  | emptyList (inner : Space)
  | list (items : Items)
  | emptyDict (inner : Space)
  | dict (entries : Entries)

/-- The members of an array, with the closing bracket. -/
inductive Items where
  | last (before : Space) (form : Form) (after : Space)
  | more (before : Space) (form : Form) (after : Space) (rest : Items)

/-- The entries of an object, with the closing brace. -/
inductive Entries where
  | last (name : Name) (before : Space) (form : Form) (after : Space)
  | more (name : Name) (before : Space) (form : Form) (after : Space) (rest : Entries)

end

mutual

/-- The characters of a form. -/
def Form.chars : Form → List Char
  | .word w => w.chars
  | .numeral n => n.chars
  | .text glyphs => '"' :: (rawChars glyphs ++ ['"'])
  | .emptyList inner => '[' :: (inner.chars ++ [']'])
  | .list items => '[' :: items.chars
  | .emptyDict inner => '\x7b' :: (inner.chars ++ ['\x7d'])
  | .dict entries => '\x7b' :: entries.chars

def Items.chars : Items → List Char
  | .last before form after => before.chars ++ (form.chars ++ (after.chars ++ [']']))
  | .more before form after rest => before.chars ++ (form.chars ++ (after.chars ++ ',' :: rest.chars))

def Entries.chars : Entries → List Char
  | .last name before form after =>
    name.before.chars ++ (name.quotedChars ++ (before.chars ++ (form.chars ++ (after.chars ++ ['\x7d']))))
  | .more name before form after rest =>
    name.before.chars ++ (name.quotedChars ++ (before.chars ++ (form.chars ++ (after.chars ++ ',' :: rest.chars))))

end

section

variable (rest : List Char) (glyphs : List Glyph) (name : Name) (before after : Space) (form : Form)

theorem Name.quotedChars_append : name.quotedChars ++ rest =
    '"' :: (rawChars name.glyphs ++ '"' :: (name.after.chars ++ ':' :: rest)) := by
  simp [Name.quotedChars]

theorem Form.text_append : (Form.text glyphs).chars ++ rest = '"' :: (rawChars glyphs ++ '"' :: rest) := by
  simp [Form.chars]

theorem Form.emptyList_append : (Form.emptyList before).chars ++ rest = '[' :: (before.chars ++ ']' :: rest) := by
  simp [Form.chars]

theorem Form.emptyDict_append : (Form.emptyDict before).chars ++ rest = '\x7b' :: (before.chars ++ '\x7d' :: rest) := by
  simp [Form.chars]

theorem Items.last_append : (Items.last before form after).chars ++ rest =
    before.chars ++ (form.chars ++ (after.chars ++ ']' :: rest)) := by
  simp [Items.chars]

theorem Items.more_append (more : Items) : (Items.more before form after more).chars ++ rest =
    before.chars ++ (form.chars ++ (after.chars ++ ',' :: (more.chars ++ rest))) := by
  simp [Items.chars]

theorem Entries.last_append : (Entries.last name before form after).chars ++ rest =
    name.before.chars ++ (name.quotedChars ++ (before.chars ++ (form.chars ++ (after.chars ++ '\x7d' :: rest)))) := by
  simp [Entries.chars]

theorem Entries.more_append (more : Entries) : (Entries.more name before form after more).chars ++ rest =
    name.before.chars ++ (name.quotedChars ++
      (before.chars ++ (form.chars ++ (after.chars ++ ',' :: (more.chars ++ rest))))) := by
  simp [Entries.chars]

end

mutual

/-- The value that a form stands for. -/
def Form.value : Form → Value
  | .word w => w.value
  | .numeral n => n.value
  | .text glyphs => .text (String.ofList (decoded glyphs))
  | .emptyList _ => .list []
  | .list items => .list items.values
  | .emptyDict _ => .dict []
  | .dict entries => .dict (entries.pairs.foldl (fun es pair => Value.put es pair.1 pair.2) [])

def Items.values : Items → List Value
  | .last _ form _ => [form.value]
  | .more _ form _ rest => form.value :: rest.values

/-- The names and values of entries, in order. -/
def Entries.pairs : Entries → List (Value × Value)
  | .last name _ form _ => [(.text name.key, form.value)]
  | .more name _ form _ rest => (.text name.key, form.value) :: rest.pairs

end

/-! ## Reading tokens -/

theorem skip_space (s : Space) (rest : List Char) : skip (s.chars ++ rest) = skip rest :=
  List.dropWhile_append_of_pos s.blank

theorem skip_cons {c : Char} (solid : isSpace c = false) (rest : List Char) : skip (c :: rest) = c :: rest := by
  rw [skip, List.dropWhile_cons_of_neg (by simp [solid])]

/-- A text at whose front a numeral or a word ends. -/
def Ends (rest : List Char) : Prop := ∀ c ∈ rest.head?, isSpace c ∨ c = ',' ∨ c = ']' ∨ c = '\x7d'

theorem Ends.cons {c : Char} (ends : c = ',' ∨ c = ']' ∨ c = '\x7d') (rest : List Char) : Ends (c :: rest) := by
  intro d head
  obtain rfl := Option.mem_some_iff.mp head
  exact .inr ends

theorem Ends.space {rest : List Char} (ends : Ends rest) (s : Space) : Ends (s.chars ++ rest) := by
  intro c head
  cases chars : s.chars with
  | nil =>
    rw [chars] at head
    exact ends c head
  | cons d ds =>
    rw [chars] at head
    obtain rfl := Option.mem_some_iff.mp head
    exact .inl (s.blank d (chars ▸ List.mem_cons_self))

/-- No part of a numeral stands where a numeral ends. -/
theorem Ends.head {rest : List Char} (ends : Ends rest) {c : Char} (head : c ∈ rest.head?) :
    c.isDigit = false ∧ c ≠ '.' ∧ c ≠ 'e' ∧ c ≠ 'E' := by
  have known := ends c head
  simp only [isSpace, Bool.or_eq_true, beq_iff_eq, or_assoc] at known
  rcases known with rfl | rfl | rfl | rfl | rfl | rfl | rfl <;> decide

theorem ne_of_isDigit {d c : Char} (digit : d.isDigit) (other : c.isDigit = false) : d ≠ c := by
  rintro rfl
  simp [digit] at other

theorem digits_append {ds rest : List Char} (are : ∀ d ∈ ds, d.isDigit) (stop : ∀ c ∈ rest.head?, c.isDigit = false) :
    digits (ds ++ rest) = (ds, rest) := by
  rw [digits, List.span_eq_takeWhile_dropWhile, List.takeWhile_append_of_pos are, List.dropWhile_append_of_pos are]
  cases rest with
  | nil => simp
  | cons c rest => simp [stop c rfl]

theorem fraction?_fraction (n : Numeral) {rest : List Char} (stop : ∀ c ∈ rest.head?, c.isDigit = false ∧ c ≠ '.') :
    fraction? (n.fraction ++ rest) = if n.places = [] then none else some (n.places, rest) := by
  rw [Numeral.fraction]
  split
  · cases rest with
    | nil => rfl
    | cons c rest =>
      have other := (stop c rfl).2
      rw [List.nil_append, fraction?]
      simpa using other
  · rename_i places
    rw [List.cons_append, fraction?, digits_append n.are_places fun c head => (stop c head).1]
    cases given : n.places with
    | nil => exact absurd given places
    | cons d ds => rfl

theorem exponent?_chars (e : Exponent) {rest : List Char} (stop : ∀ c ∈ rest.head?, c.isDigit = false) :
    exponent? (e.chars ++ rest) = some (e.value, rest) := by
  obtain ⟨letter, sign, ds, isLetter, isSign, some_digits, are⟩ := e
  have read := digits_append are stop
  obtain ⟨d, ds, rfl⟩ := List.exists_cons_of_ne_nil some_digits
  have letterOk : (letter == 'e' || letter == 'E') = true := by simpa using isLetter
  simp only [Exponent.chars, Exponent.value, List.cons_append, exponent?, letterOk, if_true]
  rcases isSign with rfl | rfl | rfl
  · have digit := are d List.mem_cons_self
    rw [List.cons_append] at read
    simp [ne_of_isDigit digit, read]
  · simp [List.cons_append ▸ read]
  · simp [List.cons_append ▸ read]

theorem exponent?_ends {rest : List Char} (ends : Ends rest) : exponent? rest = none := by
  cases rest with
  | nil => rfl
  | cons c rest =>
    obtain ⟨-, -, notE, notE'⟩ := ends.head (c := c) rfl
    simp [exponent?, notE, notE']

/-- Neither places nor digits go on after a numeral. -/
theorem Numeral.power_head (n : Numeral) {rest : List Char} (ends : Ends rest) :
    ∀ c ∈ (n.power ++ rest).head?, c.isDigit = false ∧ c ≠ '.' := by
  intro c head
  rw [Numeral.power] at head
  cases given : n.exponent with
  | none =>
    rw [given] at head
    exact ⟨(ends.head head).1, (ends.head head).2.1⟩
  | some e =>
    rw [given] at head
    obtain rfl := Option.mem_some_iff.mp head
    rcases e.isLetter with same | same <;> rw [same] <;> decide

theorem Numeral.fraction_head (n : Numeral) {rest : List Char} (ends : Ends rest) :
    ∀ c ∈ (n.fraction ++ (n.power ++ rest)).head?, c.isDigit = false := by
  intro c head
  rw [Numeral.fraction] at head
  split at head
  · exact (n.power_head ends c head).1
  · obtain rfl := Option.mem_some_iff.mp head
    rfl

theorem numberFrom_chars (n : Numeral) {rest : List Char} (ends : Ends rest) :
    numberFrom n.negative n.whole (n.fraction ++ (n.power ++ rest)) = .ok (n.value, rest) := by
  have exponent : exponent? (n.power ++ rest) = n.exponent.map fun e => (e.value, rest) := by
    rw [Numeral.power]
    cases n.exponent with
    | none => exact exponent?_ends ends
    | some e => exact exponent?_chars e fun c head => (ends.head head).1
  rw [numberFrom, fraction?_fraction n (n.power_head ends), Numeral.value]
  by_cases whole : n.places = []
  · have short := n.short whole
    simp only [whole, Numeral.fraction, if_true, List.nil_append, Option.getD_none, exponent]
    cases given : n.exponent with
    | none =>
      have noPower : n.power = [] := by rw [Numeral.power, given]; rfl
      simp [noPower, short given]
    | some e => simp
  · simp only [whole, if_false, Option.getD_some, exponent]
    obtain ⟨p, ps, places⟩ := List.exists_cons_of_ne_nil whole
    cases given : n.exponent with
    | none =>
      have noPower : n.power = [] := by rw [Numeral.power, given]; rfl
      simp [noPower, places]
    | some e => simp [places]

/-- A numeral starts with a digit after its sign. -/
theorem Numeral.whole_cons (n : Numeral) : ∃ d ds, n.whole = d :: ds ∧ d.isDigit ∧ d ≠ '-' := by
  obtain ⟨d, ds, whole⟩ := List.exists_cons_of_ne_nil n.some_whole
  have digit := n.are_whole d (whole ▸ List.mem_cons_self)
  exact ⟨d, ds, whole, digit, ne_of_isDigit digit rfl⟩

theorem number?_chars (n : Numeral) {rest : List Char} (ends : Ends rest) :
    number? (n.chars ++ rest) = some (.ok (n.value, rest)) := by
  have read := numberFrom_chars n ends
  obtain ⟨d, ds, whole, digit, notMinus⟩ := n.whole_cons
  have split :
      digits (d :: (ds ++ (n.fraction ++ (n.power ++ rest)))) = (d :: ds, n.fraction ++ (n.power ++ rest)) := by
    rw [← List.cons_append, ← whole]
    exact digits_append n.are_whole (n.fraction_head ends)
  by_cases zero : d = '0'
  · subst zero
    have single := n.leading (by rw [whole]; rfl)
    rw [single] at read
    cases negative : n.negative <;> rw [negative] at read <;>
      simp [number?, Numeral.chars, negative, single, read]
  · rw [whole] at read
    cases negative : n.negative <;> rw [negative] at read <;>
      simp [number?, Numeral.chars, negative, whole, notMinus, digit, split, read]

theorem word?_numeral (n : Numeral) (rest : List Char) : word? (n.chars ++ rest) = none := by
  obtain ⟨d, ds, whole, digit, notMinus⟩ := n.whole_cons
  have other : ∀ c : Char, c.isDigit = false → c ≠ d := fun c other => (ne_of_isDigit digit other).symm
  cases negative : n.negative <;>
    simp [word?, wordValues, Numeral.chars, negative, whole, List.isPrefixOf, other]

theorem word?_chars (w : Word) (rest : List Char) : word? (w.chars ++ rest) = some (w.value, rest) := by
  obtain ⟨cs, v, known⟩ := w
  simp only [wordValues, List.mem_cons, Prod.mk.injEq, List.not_mem_nil, or_false] at known
  rcases known with ⟨rfl, rfl⟩ | ⟨rfl, rfl⟩ | ⟨rfl, rfl⟩ | ⟨rfl, rfl⟩ | ⟨rfl, rfl⟩ | ⟨rfl, rfl⟩ <;> rfl

/-! ## Reading texts -/

/-- Glyphs up to the closing quote never come to the end of a text. -/
theorem rawChars_quote (glyphs : List Glyph) (rest : List Char) :
    ∃ c cs, rawChars glyphs ++ '"' :: rest = c :: cs := by
  cases glyphs with
  | nil => exact ⟨_, _, rfl⟩
  | cons g glyphs => cases g <;> exact ⟨_, _, rfl⟩

theorem fourHex?_glyphs {a b c d : Char} {code : Nat} (hex : hexCode? a b c d = some code) (glyphs : List Glyph)
    (rest : List Char) : fourHex? (a :: b :: c :: d :: (rawChars glyphs ++ '"' :: rest)) =
      some (code, rawChars glyphs ++ '"' :: rest) := by
  obtain ⟨e, cs, more⟩ := rawChars_quote glyphs rest
  rw [hexCode?] at hex
  rw [more, fourHex?]
  simp only [Option.bind_eq_bind, Option.bind_eq_some_iff] at hex ⊢
  obtain ⟨m, first, n, second, o, third, p, fourth, same⟩ := hex
  exact ⟨m, first, n, second, o, third, p, fourth, by simpa using same⟩

theorem simpleEscape?_u : simpleEscape? 'u' = none := by decide

/-- The second half of a surrogate pair at the front of the glyphs up to the closing quote. -/
theorem lowHalf?_glyphs (glyphs : List Glyph) (rest : List Char) :
    lowHalf? (rawChars glyphs ++ '"' :: rest) = .ok (match glyphs with
      | .unit _ _ _ _ low _ :: glyphs =>
        if 0xDC00 ≤ low ∧ low < 0xE000 then some (low, rawChars glyphs ++ '"' :: rest) else none
      | _ => none) := by
  cases glyphs with
  | nil => rfl
  | cons g glyphs =>
    cases g with
    | plain c proper => simp [rawChars, Glyph.chars, lowHalf?, proper.2.2]
    | escape letter c named =>
      have other : letter ≠ 'u' := by
        rintro rfl
        rw [simpleEscape?_u] at named
        cases named
      simp [rawChars, Glyph.chars, lowHalf?, other]
    | unit a b c d low hex =>
      have split : rawChars (.unit a b c d low hex :: glyphs) ++ '"' :: rest =
          '\\' :: 'u' :: a :: b :: c :: d :: (rawChars glyphs ++ '"' :: rest) := rfl
      rw [split, lowHalf?, fourHex?_glyphs hex,
        if_neg (by simp only [List.length_cons, List.length_append]; omega)]

section

variable {start : List Char} {fuel : Nat} {cs rest rest' : List Char}

theorem text_plain {c : Char} (proper : 0x1f < c.toNat ∧ c ≠ '"' ∧ c ≠ '\\')
    (tail : text start fuel rest = .ok (cs, rest')) : text start (fuel + 1) (c :: rest) = .ok (c :: cs, rest') := by
  obtain ⟨visible, noQuote, noSlash⟩ := proper
  rw [text.eq_7 _ _ _ _ noQuote (fun same => absurd same noSlash) (fun _ same => absurd same noSlash)
    (fun _ _ same => absurd same noSlash), if_neg (not_le.mpr visible), tail]
  rfl

theorem text_escape {letter c : Char} (named : simpleEscape? letter = some c)
    (tail : text start fuel rest = .ok (cs, rest')) :
    text start (fuel + 1) ('\\' :: letter :: rest) = .ok (c :: cs, rest') := by
  have other : letter ≠ 'u' := by
    rintro rfl
    rw [simpleEscape?_u] at named
    cases named
  rw [text.eq_6 _ _ _ _ other, named]
  simp only [tail]
  rfl

theorem text_unit {code : Nat} {unread : List Char} (hex : fourHex? rest = some (code, unread))
    (single : ¬ (0xD800 ≤ code ∧ code < 0xDC00) ∨ lowHalf? unread = .ok none)
    (tail : text start fuel unread = .ok (cs, rest')) :
    text start (fuel + 1) ('\\' :: 'u' :: rest) = .ok (unitChar code :: cs, rest') := by
  rw [text.eq_5, hex]
  by_cases high : 0xD800 ≤ code ∧ code < 0xDC00
  · simp only [if_pos high, single.resolve_left (not_not.mpr high), bind, Except.bind, tail]
  · simp only [if_neg high, bind, Except.bind, tail]

theorem text_pair {high low : Nat} {unread unread' : List Char} (hex : fourHex? rest = some (high, unread))
    (isHigh : 0xD800 ≤ high ∧ high < 0xDC00) (half : lowHalf? unread = .ok (some (low, unread')))
    (tail : text start fuel unread' = .ok (cs, rest')) :
    text start (fuel + 1) ('\\' :: 'u' :: rest) =
      .ok (Char.ofNat (0x10000 + (high - 0xD800) * 0x400 + (low - 0xDC00)) :: cs, rest') := by
  rw [text.eq_5, hex]
  simp only [if_pos isHigh, half, bind, Except.bind, tail]

/-- A glyph that makes no pair with the next one is read on its own. -/
theorem text_glyph {g : Glyph} {glyphs : List Glyph} (alone : ∀ h ∈ glyphs.head?, g.pair? h = none)
    (tail : text start fuel (rawChars glyphs ++ '"' :: rest) = .ok (cs, rest')) :
    text start (fuel + 1) (rawChars (g :: glyphs) ++ '"' :: rest) = .ok (g.char :: cs, rest') := by
  cases g with
  | plain c proper => exact text_plain proper tail
  | escape letter c named => exact text_escape named tail
  | unit a b c d code hex =>
    refine text_unit (fourHex?_glyphs hex glyphs rest) ?_ tail
    by_cases high : 0xD800 ≤ code ∧ code < 0xDC00
    · refine .inr ((lowHalf?_glyphs glyphs rest).trans (congrArg Except.ok ?_))
      split
      · rename_i a' b' c' d' low hex' glyphs'
        have unpaired := alone _ rfl
        simp only [Glyph.pair?, ite_eq_right_iff, reduceCtorEq, imp_false, not_and] at unpaired
        rw [if_neg fun isLow => unpaired high isLow.1 isLow.2]
      · rfl
    · exact .inl high

end

/-- The glyphs up to the closing quote are read as the characters that they stand for. -/
theorem text_glyphs (start : List Char) (glyphs : List Glyph) (rest : List Char) {fuel : Nat}
    (enough : glyphs.length < fuel) :
    text start fuel (rawChars glyphs ++ '"' :: rest) = .ok (decoded glyphs, rest) := by
  obtain ⟨fuel, rfl⟩ := Nat.exists_eq_add_one_of_ne_zero (Nat.ne_zero_of_lt enough)
  -- two halves of a pair are one character, and so one case of decoding
  induction glyphs using decoded.induct generalizing fuel with
  | case1 => rfl
  | case2 g =>
    obtain ⟨fuel, rfl⟩ := Nat.exists_eq_add_one_of_ne_zero (Nat.ne_zero_of_lt (Nat.lt_of_succ_lt_succ enough))
    exact text_glyph (by simp) rfl
  | case3 g h glyphs c pair ih =>
    obtain ⟨fuel, rfl⟩ := Nat.exists_eq_add_one_of_ne_zero (Nat.ne_zero_of_lt (Nat.lt_of_succ_lt_succ enough))
    have tail := ih fuel (by simp at enough; omega)
    rw [decoded, pair]
    cases g with
    | plain => cases pair
    | escape => cases pair
    | unit a b c d high hex =>
      cases h with
      | plain => cases pair
      | escape => cases pair
      | unit a' b' c' d' low hex' =>
        rw [Glyph.pair?] at pair
        split at pair
        · rename_i halves
          obtain rfl := Option.some.inj pair
          refine text_pair (fourHex?_glyphs hex _ rest) halves.1 ((lowHalf?_glyphs _ rest).trans ?_) tail
          simp only [if_pos halves.2]
        · cases pair
  | case4 g h glyphs alone ih =>
    obtain ⟨fuel, rfl⟩ := Nat.exists_eq_add_one_of_ne_zero (Nat.ne_zero_of_lt (Nat.lt_of_succ_lt_succ enough))
    rw [decoded, alone]
    exact text_glyph (by simpa using alone) (ih fuel (by simpa using enough))

theorem quoted_glyphs (glyphs : List Glyph) (rest : List Char) {fuel : Nat} (enough : glyphs.length < fuel) :
    quoted fuel (rawChars glyphs ++ '"' :: rest) = .ok (String.ofList (decoded glyphs), rest) := by
  rw [quoted, text_glyphs _ glyphs rest enough]
  rfl

theorem length_le_rawChars (glyphs : List Glyph) : glyphs.length ≤ (rawChars glyphs).length := by
  induction glyphs with
  | nil => exact le_rfl
  | cons g rest ih =>
    have one : 1 ≤ g.chars.length := by cases g <;> simp [Glyph.chars]
    rw [rawChars_cons, List.length_append, List.length_cons]
    omega

/-! ## Reading values -/

/-- What the first character of a value cannot be. -/
def Starts (c : Char) : Prop := isSpace c = false ∧ c ≠ ',' ∧ c ≠ ']' ∧ c ≠ '\x7d' ∧ c ≠ '\ufeff'

instance (c : Char) : Decidable (Starts c) := inferInstanceAs (Decidable (_ ∧ _))

theorem Word.chars_cons (w : Word) : ∃ c cs, w.chars = c :: cs ∧ Starts c ∧ c ≠ '"' ∧ c ≠ '\x7b' ∧ c ≠ '[' := by
  obtain ⟨cs, v, known⟩ := w
  simp only [wordValues, List.mem_cons, Prod.mk.injEq, List.not_mem_nil, or_false] at known
  rcases known with ⟨rfl, -⟩ | ⟨rfl, -⟩ | ⟨rfl, -⟩ | ⟨rfl, -⟩ | ⟨rfl, -⟩ | ⟨rfl, -⟩ <;>
    exact ⟨_, _, rfl, by decide⟩

theorem Numeral.chars_cons (n : Numeral) : ∃ c cs, n.chars = c :: cs ∧ Starts c ∧ c ≠ '"' ∧ c ≠ '\x7b' ∧ c ≠ '[' := by
  obtain ⟨d, ds, whole, digit, -⟩ := n.whole_cons
  rw [Numeral.chars]
  cases n.negative
  · refine ⟨d, _, by rw [whole]; rfl, ?_⟩
    simp [Starts, isSpace, ne_of_isDigit digit]
  · exact ⟨'-', _, rfl, by decide⟩

theorem Form.chars_cons (f : Form) : ∃ c cs, f.chars = c :: cs ∧ Starts c := by
  cases f with
  | word w =>
    obtain ⟨c, cs, chars, starts, -⟩ := w.chars_cons
    exact ⟨c, cs, chars, starts⟩
  | numeral n =>
    obtain ⟨c, cs, chars, starts, -⟩ := n.chars_cons
    exact ⟨c, cs, chars, starts⟩
  | text glyphs => exact ⟨_, _, rfl, by decide⟩
  | emptyList inner => exact ⟨_, _, rfl, by decide⟩
  | list items => exact ⟨_, _, rfl, by decide⟩
  | emptyDict inner => exact ⟨_, _, rfl, by decide⟩
  | dict entries => exact ⟨_, _, rfl, by decide⟩

theorem Form.skip_chars (f : Form) (rest : List Char) : skip (f.chars ++ rest) = f.chars ++ rest := by
  obtain ⟨c, cs, chars, starts⟩ := f.chars_cons
  rw [chars]
  exact skip_cons starts.1 _

/-- What is neither in quotes nor in brackets is a word or a numeral. -/
theorem value_bare {cs : List Char} {c : Char} {tail : List Char} (chars : cs = c :: tail)
    (bare : c ≠ '"' ∧ c ≠ '\x7b' ∧ c ≠ '[') (fuel : Nat) : value (fuel + 1) cs = match word? cs with
      | some found => .ok found
      | none => (number? cs).getD (.error (.problem .expectingValue cs.length)) := by
  subst chars
  refine value.eq_5 _ _ ?_ ?_ ?_
  · exact fun rest same => bare.1 (List.cons.inj same).1
  · exact fun rest same => bare.2.1 (List.cons.inj same).1
  · exact fun rest same => bare.2.2 (List.cons.inj same).1

theorem skip_close {c : Char} (s : Space) (solid : isSpace c = false) (rest : List Char) :
    skip (s.chars ++ c :: rest) = c :: rest := by
  rw [skip_space, skip_cons solid]

theorem Items.skip_chars (members : Items) (rest : List Char) :
    ∃ c cs, skip (members.chars ++ rest) = c :: cs ∧ c ≠ ']' := by
  cases members with
  | last before form after =>
    obtain ⟨c, cs, chars, starts⟩ := form.chars_cons
    rw [Items.last_append, skip_space, Form.skip_chars, chars]
    exact ⟨c, _, rfl, starts.2.2.1⟩
  | more before form after more =>
    obtain ⟨c, cs, chars, starts⟩ := form.chars_cons
    rw [Items.more_append, skip_space, Form.skip_chars, chars]
    exact ⟨c, _, rfl, starts.2.2.1⟩

theorem Name.skip_chars (name : Name) (rest : List Char) : skip (name.quotedChars ++ rest) = name.quotedChars ++ rest :=
  skip_cons (by decide) _

theorem Entries.skip_chars (members : Entries) (rest : List Char) :
    ∃ cs, skip (members.chars ++ rest) = '"' :: cs := by
  cases members with
  | last name before form after =>
    rw [Entries.last_append, skip_space, Name.skip_chars]
    exact ⟨_, rfl⟩
  | more name before form after more =>
    rw [Entries.more_append, skip_space, Name.skip_chars]
    exact ⟨_, rfl⟩

/-- The name of an entry is read with its colon, and the value after it. -/
theorem entries_name (name : Name) (before : Space) {fuel : Nat} (earlier : List (Value × Value)) {rest : List Char}
    (enough : name.glyphs.length < fuel) (unspaced : skip rest = rest) {v : Value} {unread : List Char}
    (read : value fuel rest = .ok (v, unread)) :
    entries (fuel + 1) earlier (name.quotedChars ++ (before.chars ++ rest)) =
      match skip unread with
      | '\x7d' :: rest => .ok (Value.put earlier (.text name.key) v, rest)
      | ',' :: rest => entries fuel (Value.put earlier (.text name.key) v) (skip rest)
      | rest => .error (.problem .expectingComma rest.length) := by
  rw [Name.quotedChars_append, entries.eq_2, quoted_glyphs _ _ enough]
  simp only [bind, Except.bind, skip_close name.after (c := ':') (by decide), skip_space, unspaced, read]
  rfl

mutual

/-- A value is read from the front of a text, as long as it ends there. -/
theorem value_form : (f : Form) → (fuel : Nat) → (rest : List Char) → f.chars.length < fuel → Ends rest →
    value fuel (f.chars ++ rest) = .ok (f.value, rest)
  | .word w, fuel + 1, rest, _, _ => by
    obtain ⟨c, cs, chars, -, bare⟩ := w.chars_cons
    rw [Form.chars, Form.value, value_bare (by rw [chars]; rfl) bare, word?_chars]
  | .numeral n, fuel + 1, rest, _, ends => by
    obtain ⟨c, cs, chars, -, bare⟩ := n.chars_cons
    rw [Form.chars, Form.value, value_bare (by rw [chars]; rfl) bare, word?_numeral, number?_chars n ends]
    rfl
  | .text glyphs, fuel + 1, rest, enough, _ => by
    have short := length_le_rawChars glyphs
    rw [Form.chars, List.length_cons, List.length_append] at enough
    rw [Form.text_append, Form.value, value.eq_2, quoted_glyphs glyphs rest (by omega)]
    rfl
  | .emptyList inner, fuel + 1, rest, _, _ => by
    rw [Form.emptyList_append, Form.value, value.eq_4, skip_close inner (by decide)]
    rfl
  | .emptyDict inner, fuel + 1, rest, _, _ => by
    rw [Form.emptyDict_append, Form.value, value.eq_3, skip_close inner (by decide)]
    rfl
  | .list members, fuel + 1, rest, enough, _ => by
    rw [Form.chars, List.length_cons] at enough
    have read := items_chars members fuel rest (by omega)
    obtain ⟨c, cs, skipped, other⟩ := members.skip_chars rest
    rw [Form.chars, Form.value, List.cons_append, value.eq_4]
    rw [skipped] at read ⊢
    simp [other, read, bind, Except.bind]
  | .dict members, fuel + 1, rest, enough, _ => by
    rw [Form.chars, List.length_cons] at enough
    have read := entries_chars members fuel [] rest (by omega)
    obtain ⟨cs, skipped⟩ := members.skip_chars rest
    rw [Form.chars, Form.value, List.cons_append, value.eq_3]
    rw [skipped] at read ⊢
    simp [read, bind, Except.bind]

theorem items_chars : (members : Items) → (fuel : Nat) → (rest : List Char) → members.chars.length < fuel →
    items fuel (skip (members.chars ++ rest)) = .ok (members.values, rest)
  | .last before form after, fuel + 1, rest, enough => by
    simp only [Items.chars, List.length_append, List.length_cons] at enough
    rw [Items.last_append, skip_space, form.skip_chars, items.eq_2,
      value_form form fuel _ (by omega) ((Ends.cons (by decide) _).space after)]
    simp only [bind, Except.bind, skip_close after (c := ']') (by decide)]
    rfl
  | .more before form after more, fuel + 1, rest, enough => by
    simp only [Items.chars, List.length_append, List.length_cons] at enough
    rw [Items.more_append, skip_space, form.skip_chars, items.eq_2,
      value_form form fuel _ (by omega) ((Ends.cons (by decide) _).space after)]
    simp only [bind, Except.bind, skip_close after (c := ',') (by decide), items_chars more fuel rest (by omega)]
    rfl

theorem entries_chars : (members : Entries) → (fuel : Nat) → (earlier : List (Value × Value)) → (rest : List Char) →
    members.chars.length < fuel → entries fuel earlier (skip (members.chars ++ rest)) =
      .ok (members.pairs.foldl (fun es pair => Value.put es pair.1 pair.2) earlier, rest)
  | .last name before form after, fuel + 1, earlier, rest, enough => by
    have short := length_le_rawChars name.glyphs
    simp only [Entries.chars, Name.quotedChars, List.length_append, List.length_cons] at enough
    have read := value_form form fuel (after.chars ++ '\x7d' :: rest) (by omega)
      ((Ends.cons (by decide) _).space after)
    rw [Entries.last_append, skip_space, Name.skip_chars,
      entries_name name before earlier (by omega) (form.skip_chars _) read, skip_close after (by decide)]
    rfl
  | .more name before form after more, fuel + 1, earlier, rest, enough => by
    have short := length_le_rawChars name.glyphs
    simp only [Entries.chars, Name.quotedChars, List.length_append, List.length_cons] at enough
    have read := value_form form fuel (after.chars ++ ',' :: (more.chars ++ rest)) (by omega)
      ((Ends.cons (by decide) _).space after)
    rw [Entries.more_append, skip_space, Name.skip_chars,
      entries_name name before earlier (by omega) (form.skip_chars _) read, skip_close after (by decide)]
    exact entries_chars more fuel _ rest (by omega)

end

/-- A document: a value with white space around it. -/
structure Document where
  before : Space
  form : Form
  after : Space

namespace Document

def chars (d : Document) : List Char := d.before.chars ++ (d.form.chars ++ d.after.chars)

def text (d : Document) : String := String.ofList d.chars

/-- No byte order mark stands at the front. -/
theorem unmarked (d : Document) (rest : List Char) : d.chars ≠ '\ufeff' :: rest := by
  intro same
  obtain ⟨c, cs, chars, starts⟩ := d.form.chars_cons
  cases blank : d.before.chars with
  | nil =>
    rw [Document.chars, blank, chars] at same
    exact starts.2.2.2.2 (List.cons.inj same).1
  | cons e es =>
    rw [Document.chars, blank] at same
    obtain rfl := (List.cons.inj same).1
    have space := d.before.blank _ (blank ▸ List.mem_cons_self)
    cases space

end Document

/-- What stands for a mapping is written in braces. -/
theorem Form.object {f : Form} {es : List (Value × Value)} (object : f.value = .dict es) :
    (∃ inner, f = .emptyDict inner) ∨ ∃ members, f = .dict members := by
  cases f with
  | word w =>
    obtain ⟨cs, v, known⟩ := w
    rw [Form.value] at object
    dsimp only at object
    subst object
    simp [wordValues] at known
  | numeral n =>
    rw [Form.value, Numeral.value] at object
    split at object <;> cases object
  | text glyphs => cases object
  | emptyList inner => cases object
  | list members => cases object
  | emptyDict inner => exact .inl ⟨inner, rfl⟩
  | dict members => exact .inr ⟨members, rfl⟩

/-- A document is read as the value that it stands for. -/
theorem parse_document (d : Document) : parse d.text = .ok d.form.value := by
  have read : value (d.chars.length + 1) (skip d.chars) = .ok (d.form.value, d.after.chars) := by
    rw [Document.chars, skip_space, d.form.skip_chars]
    refine value_form d.form _ _ (by simp only [List.length_append]; omega) ?_
    have ends : Ends [] := by simp [Ends]
    simpa using ends.space d.after
  have finished : skip d.after.chars = [] := by simpa [skip] using skip_space d.after []
  rw [parse, Document.text, String.toList_ofList, readAll.eq_2 _ d.unmarked]
  simp only [read, bind, Except.bind, finished]

end Tablewright.Json
