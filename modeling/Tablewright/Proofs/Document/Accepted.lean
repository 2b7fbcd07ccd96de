import Tablewright.Proofs.Document.Forms

/-!
# Texts that are accepted as JSON

Whatever is accepted as JSON is the text of a document, and its value is the one of the form.

* `number?_ok`, `word?_ok`, `text_ok`: the tokens that are read.
* `value_ok`, `items_ok`, `entries_ok`: values, and what stands in brackets.
* `exists_document`: every accepted text is the text of a document.
-/

namespace Tablewright.Json

/-! ## Numerals and words -/

theorem exists_space (cs : List Char) : ∃ s : Space, cs = s.chars ++ skip cs :=
  ⟨⟨cs.takeWhile isSpace, fun _ => List.mem_takeWhile_imp⟩, List.takeWhile_append_dropWhile.symm⟩

theorem digits_ok (cs : List Char) : cs = (digits cs).1 ++ (digits cs).2 ∧ ∀ d ∈ (digits cs).1, d.isDigit := by
  rw [digits, List.span_eq_takeWhile_dropWhile]
  exact ⟨List.takeWhile_append_dropWhile.symm, fun _ => List.mem_takeWhile_imp⟩

theorem fraction?_some {cs : List Char} {part : List Char × List Char} (read : fraction? cs = some part) :
    cs = '.' :: (part.1 ++ part.2) ∧ part.1 ≠ [] ∧ ∀ d ∈ part.1, d.isDigit := by
  rw [fraction?.eq_def] at read
  split at read
  · rename_i tail
    split at read
    · cases read
    · rename_i found some_digits
      obtain rfl := Option.some.inj read
      obtain ⟨split, are⟩ := digits_ok tail
      exact ⟨congrArg _ split, fun none => some_digits _ (Prod.ext none rfl), are⟩
  · cases read

/-- What comes after the letter of an exponent. -/
theorem exponent?_signed {letter : Char} (isLetter : letter = 'e' ∨ letter = 'E') (cs : List Char) :
    ∃ sign tail, (sign = none ∨ sign = some '+' ∨ sign = some '-') ∧ cs = sign.toList ++ tail ∧
      exponent? (letter :: cs) = if (digits tail).1 = [] then none
        else some
          ((if sign = some '-' then -1 else 1) * (Number.decimalOf (digits tail).1 : Int), (digits tail).2) := by
  have known : (letter == 'e' || letter == 'E') = true := by simpa using isLetter
  by_cases plus : ∃ tail, cs = '+' :: tail
  · obtain ⟨tail, rfl⟩ := plus
    refine ⟨some '+', tail, by simp, rfl, ?_⟩
    rw [exponent?, if_pos known]
    rcases digits tail with ⟨_ | ⟨d, ds⟩, rest⟩ <;> rfl
  · by_cases minus : ∃ tail, cs = '-' :: tail
    · obtain ⟨tail, rfl⟩ := minus
      refine ⟨some '-', tail, by simp, rfl, ?_⟩
      rw [exponent?, if_pos known]
      rcases digits tail with ⟨_ | ⟨d, ds⟩, rest⟩ <;> rfl
    · refine ⟨none, cs, by simp, rfl, ?_⟩
      rw [exponent?.eq_3 _ _ (fun tail same => plus ⟨tail, same⟩) (fun tail same => minus ⟨tail, same⟩), if_pos known]
      rcases digits cs with ⟨_ | ⟨d, ds⟩, rest⟩ <;> rfl

theorem exponent?_some {cs : List Char} {part : Int × List Char} (read : exponent? cs = some part) :
    ∃ e : Exponent, cs = e.chars ++ part.2 ∧ e.value = part.1 := by
  cases cs with
  | nil => cases read
  | cons letter cs =>
    have isLetter : letter = 'e' ∨ letter = 'E' := by
      by_contra other
      have unknown : (letter == 'e' || letter == 'E') = false := by simpa using other
      rw [exponent?.eq_def] at read
      simp [unknown] at read
    obtain ⟨sign, tail, isSign, rfl, same⟩ := exponent?_signed isLetter cs
    rw [same] at read
    split at read
    · cases read
    · rename_i some_digits
      obtain rfl := Option.some.inj read
      obtain ⟨split, are⟩ := digits_ok tail
      exact ⟨⟨letter, sign, _, isLetter, isSign, some_digits, are⟩, by simp [Exponent.chars, ← split], rfl⟩

/-- A number is an integer where it has neither places nor an exponent. -/
theorem numberFrom_eq {negative : Bool} {whole cs places tail : List Char}
    (fraction : (fraction? cs).getD ([], cs) = (places, tail)) : numberFrom negative whole cs =
      if places = [] ∧ exponent? tail = none then
        if Document.maxDigits < whole.length then .error (.longNumeral whole.length)
        else .ok (.int (if negative then -(Number.decimalOf whole : Int) else Number.decimalOf whole), tail)
      else .ok (.float (signed negative (Number.ofDecimal (Number.decimalOf (whole ++ places))
        (((exponent? tail).getD (0, tail)).1 - places.length))), ((exponent? tail).getD (0, tail)).2) := by
  rw [numberFrom, fraction]
  dsimp only
  cases places <;> cases exponent? tail <;> simp

theorem numberFrom_ok {negative : Bool} {whole cs rest : List Char} {v : Value} (some_whole : whole ≠ [])
    (leading : whole.head? = some '0' → whole = ['0']) (are_whole : ∀ d ∈ whole, d.isDigit)
    (read : numberFrom negative whole cs = .ok (v, rest)) : ∃ n : Numeral,
      n.negative = negative ∧ n.whole = whole ∧ cs = n.fraction ++ (n.power ++ rest) ∧ n.value = v := by
  obtain ⟨places, tail, are, split, fraction⟩ : ∃ places tail : List Char, (∀ d ∈ places, d.isDigit) ∧
      cs = (if places = [] then [] else '.' :: places) ++ tail ∧ (fraction? cs).getD ([], cs) = (places, tail) := by
    cases found : fraction? cs with
    | none => exact ⟨[], cs, by simp, rfl, rfl⟩
    | some part =>
      obtain ⟨split, some_places, are⟩ := fraction?_some found
      exact ⟨part.1, part.2, are, by rw [if_neg some_places]; exact split, rfl⟩
  obtain ⟨exponent, given, power, chars⟩ : ∃ exponent : Option Exponent, (exponent? tail = none ↔ exponent = none) ∧
      ((exponent? tail).getD (0, tail)).1 = (exponent.map Exponent.value).getD 0 ∧
      tail = (exponent.map Exponent.chars).getD [] ++ ((exponent? tail).getD (0, tail)).2 := by
    cases found : exponent? tail with
    | none => exact ⟨none, by simp, rfl, rfl⟩
    | some part =>
      obtain ⟨e, chars, value⟩ := exponent?_some found
      exact ⟨some e, by simp, value.symm, chars⟩
  have same := and_congr_right (a := places = []) fun _ => given
  rw [numberFrom_eq fraction] at read
  -- without places and exponent it is an integer, and has to be short
  by_cases integer : places = [] ∧ exponent = none
  · rw [if_pos (same.mpr integer)] at read
    split at read
    · cases read
    · rename_i short
      obtain ⟨rfl, rfl⟩ := Prod.mk.inj (Except.ok.inj read)
      refine ⟨⟨negative, whole, places, exponent, some_whole, leading, are_whole, are, fun _ _ => not_lt.mp short⟩,
        rfl, rfl, ?_, ?_⟩
      · rw [given.mpr integer.2] at chars
        exact split.trans (congrArg _ chars)
      · rw [Numeral.value, if_pos integer]
  · rw [if_neg (integer ∘ same.mp)] at read
    obtain ⟨rfl, rfl⟩ := Prod.mk.inj (Except.ok.inj read)
    refine ⟨⟨negative, whole, places, exponent, some_whole, leading, are_whole, are,
        fun whole bare => absurd ⟨whole, bare⟩ integer⟩,
      rfl, rfl, ?_, ?_⟩
    · exact split.trans (congrArg _ chars)
    · rw [Numeral.value, if_neg integer, power]

/-- Whole digits: a zero stands alone. -/
theorem exists_numeral {negative : Bool} {c : Char} {cs rest : List Char} {v : Value}
    (read : c = '0' ∧ numberFrom negative ['0'] cs = .ok (v, rest) ∨ c ≠ '0' ∧ c.isDigit ∧
      numberFrom negative (digits (c :: cs)).1 (digits (c :: cs)).2 = .ok (v, rest)) :
    ∃ n : Numeral, n.negative = negative ∧ c :: cs = n.whole ++ (n.fraction ++ (n.power ++ rest)) ∧ n.value = v := by
  obtain ⟨rfl, read⟩ | ⟨notZero, digit, read⟩ := read
  · obtain ⟨n, sign, whole, split, value⟩ := numberFrom_ok (by simp) (by simp) (by simp) read
    exact ⟨n, sign, by rw [whole, split]; rfl, value⟩
  · obtain ⟨more, split⟩ : ∃ more, (digits (c :: cs)).1 = c :: more := by
      rw [digits, List.span_eq_takeWhile_dropWhile]
      exact ⟨_, List.takeWhile_cons_of_pos digit⟩
    obtain ⟨whole, are⟩ := digits_ok (c :: cs)
    obtain ⟨n, sign, same, tail, value⟩ := numberFrom_ok (by simp [split]) (by simp [split, notZero]) are read
    exact ⟨n, sign, by rw [same, ← tail]; exact whole, value⟩

/-- A number that is read is a numeral at the front of the text. -/
theorem number?_ok {cs rest : List Char} {v : Value} (read : number? cs = some (.ok (v, rest))) :
    ∃ n : Numeral, cs = n.chars ++ rest ∧ n.value = v := by
  by_cases minus : ∃ tail, cs = '-' :: tail
  · obtain ⟨tail, rfl⟩ := minus
    cases tail with
    | nil => cases read
    | cons c tail =>
      have found : c = '0' ∧ numberFrom true ['0'] tail = .ok (v, rest) ∨ c ≠ '0' ∧ c.isDigit ∧
          numberFrom true (digits (c :: tail)).1 (digits (c :: tail)).2 = .ok (v, rest) := by
        by_cases zero : c = '0'
        · subst zero
          exact .inl ⟨rfl, Option.some.inj read⟩
        · rw [number?.eq_2 _ _ zero, Option.ite_none_right_eq_some] at read
          exact .inr ⟨zero, read.1, Option.some.inj read.2⟩
      obtain ⟨n, sign, split, value⟩ := exists_numeral found
      exact ⟨n, by simp [Numeral.chars, sign, split], value⟩
  · cases cs with
    | nil => cases read
    | cons c tail =>
      have found : c = '0' ∧ numberFrom false ['0'] tail = .ok (v, rest) ∨ c ≠ '0' ∧ c.isDigit ∧
          numberFrom false (digits (c :: tail)).1 (digits (c :: tail)).2 = .ok (v, rest) := by
        by_cases zero : c = '0'
        · subst zero
          exact .inl ⟨rfl, Option.some.inj read⟩
        · rw [number?.eq_5 _ _ zero fun rest same => minus ⟨rest, same⟩, Option.ite_none_right_eq_some] at read
          exact .inr ⟨zero, read.1, Option.some.inj read.2⟩
      obtain ⟨n, sign, split, value⟩ := exists_numeral found
      exact ⟨n, by simp [Numeral.chars, sign, split], value⟩

theorem word?_ok {cs rest : List Char} {v : Value} (read : word? cs = some (v, rest)) :
    ∃ w : Word, cs = w.chars ++ rest ∧ w.value = v := by
  obtain ⟨entry, found, same⟩ := Option.map_eq_some_iff.mp read
  obtain ⟨rfl, rfl⟩ := Prod.mk.inj same
  have isFront : entry.1.isPrefixOf cs = true := by simpa using List.find?_some found
  have front := List.isPrefixOf_iff_prefix.mp isFront
  exact ⟨⟨entry.1, entry.2, List.mem_of_find?_eq_some found⟩, (List.prefix_iff_eq_append.mp front).symm, rfl⟩

/-! ## Texts -/

theorem bind_ok {α β : Type} {x : Except Stop α} {f : α → Except Stop β} {b : β} (result : x >>= f = .ok b) :
    ∃ a, x = .ok a ∧ f a = .ok b := by
  cases x with
  | error stop => cases result
  | ok a => exact ⟨a, rfl, result⟩

theorem fourHex?_some {cs rest : List Char} {code : Nat} (read : fourHex? cs = some (code, rest)) :
    ∃ a b c d, cs = a :: b :: c :: d :: rest ∧ hexCode? a b c d = some code := by
  rw [fourHex?.eq_def] at read
  split at read
  · rename_i a b c d e tail
    simp only [Option.bind_eq_bind, Option.bind_eq_some_iff, Option.some.injEq, Prod.mk.injEq] at read
    obtain ⟨m, first, n, second, o, third, p, fourth, same, rfl⟩ := read
    refine ⟨a, b, c, d, rfl, ?_⟩
    simp [hexCode?, first, second, third, fourth, same]
  · cases read

theorem decoded_plain {g : Glyph} {glyphs : List Glyph} (alone : ∀ h ∈ glyphs.head?, g.pair? h = none) :
    decoded (g :: glyphs) = g.char :: decoded glyphs := by
  cases glyphs with
  | nil => rfl
  | cons h glyphs =>
    rw [decoded, alone h rfl]

theorem lowHalf?_some {cs rest : List Char} {low : Nat} (read : lowHalf? cs = .ok (some (low, rest))) :
    ∃ a b c d, cs = '\\' :: 'u' :: a :: b :: c :: d :: rest ∧ hexCode? a b c d = some low ∧ 0xDC00 ≤ low ∧
      low < 0xE000 := by
  rw [lowHalf?.eq_def] at read
  split at read
  · split at read
    · cases read
    · split at read
      · rename_i code after found
        obtain ⟨isLow, same⟩ := Option.ite_none_right_eq_some.mp (Except.ok.inj read)
        obtain ⟨rfl, rfl⟩ := Prod.mk.inj (Option.some.inj same)
        obtain ⟨a, b, c, d, rfl, hex⟩ := fourHex?_some found
        exact ⟨a, b, c, d, rfl, hex, isLow⟩
      · cases read
  · cases read

/-- A first half that no second half follows makes no pair. -/
theorem unit_alone {a b c d : Char} {code : Nat} (hex : hexCode? a b c d = some code) {glyphs : List Glyph}
    (rest : List Char)
    (single : ¬ (0xD800 ≤ code ∧ code < 0xDC00) ∨ lowHalf? (rawChars glyphs ++ '"' :: rest) = .ok none) :
    ∀ h ∈ glyphs.head?, (Glyph.unit a b c d code hex).pair? h = none := by
  intro h head
  cases h with
  | plain => rfl
  | escape => rfl
  | unit a' b' c' d' low hex' =>
    rw [Glyph.pair?, ite_eq_right_iff]
    rintro ⟨high, isLow⟩
    have half := single.resolve_left (not_not.mpr high)
    cases glyphs with
    | nil => cases head
    | cons g glyphs =>
      obtain rfl := Option.some.inj head
      rw [lowHalf?_glyphs] at half
      simp [isLow] at half

/-- The text up to the closing quote is made of glyphs. -/
theorem text_ok {start : List Char} {fuel : Nat} {cs ds rest : List Char} (read : text start fuel cs = .ok (ds, rest)) :
    ∃ glyphs : List Glyph, cs = rawChars glyphs ++ '"' :: rest ∧ decoded glyphs = ds := by
  -- one glyph for each step: two halves of a pair, a single unit, an escape, or a plain character
  induction fuel generalizing cs ds with
  | zero => cases read
  | succ fuel ih =>
    rw [text.eq_def] at read
    dsimp only at read
    split at read
    · cases read
    · cases read
    · obtain ⟨rfl, rfl⟩ := Prod.mk.inj (Except.ok.inj read)
      exact ⟨[], rfl, rfl⟩
    · cases read
    · rename_i fuel' tail same
      obtain rfl := Nat.succ.inj same
      split at read
      · cases read
      · rename_i code after found
        obtain ⟨a, b, c, d, rfl, hex⟩ := fourHex?_some found
        split at read
        · rename_i high
          obtain ⟨pair, half, read⟩ := bind_ok read
          obtain ⟨⟨ds', rest'⟩, more, read⟩ := bind_ok read
          obtain ⟨rfl, rfl⟩ := Prod.mk.inj (Except.ok.inj read)
          cases pair with
          | none =>
            obtain ⟨glyphs, rfl, rfl⟩ := ih more
            exact ⟨.unit a b c d code hex :: glyphs, rfl, decoded_plain (unit_alone hex rest' (.inr half))⟩
          | some found =>
            obtain ⟨low, unread⟩ := found
            obtain ⟨glyphs, rfl, rfl⟩ := ih more
            obtain ⟨a', b', c', d', rfl, hex', isLow⟩ := lowHalf?_some half
            refine ⟨.unit a b c d code hex :: .unit a' b' c' d' low hex' :: glyphs, rfl, ?_⟩
            rw [decoded, Glyph.pair?, if_pos ⟨high, isLow⟩]
        · rename_i single
          obtain ⟨pair, alone, read⟩ := bind_ok read
          obtain rfl := Except.ok.inj alone
          obtain ⟨⟨ds', rest'⟩, more, read⟩ := bind_ok read
          obtain ⟨rfl, rfl⟩ := Prod.mk.inj (Except.ok.inj read)
          obtain ⟨glyphs, rfl, rfl⟩ := ih more
          exact ⟨.unit a b c d code hex :: glyphs, rfl, decoded_plain (unit_alone hex rest' (.inl single))⟩
    · rename_i fuel' letter tail other same
      obtain rfl := Nat.succ.inj same
      split at read
      · cases read
      · rename_i c named
        obtain ⟨⟨ds', rest'⟩, more, read⟩ := bind_ok read
        obtain ⟨rfl, rfl⟩ := Prod.mk.inj (Except.ok.inj read)
        obtain ⟨glyphs, rfl, rfl⟩ := ih more
        exact ⟨.escape letter c named :: glyphs, rfl, decoded_plain fun h _ => rfl⟩
    · rename_i fuel' c tail noQuote noEnd noUnit noEscape same
      obtain rfl := Nat.succ.inj same
      split at read
      · cases read
      · rename_i visible
        obtain ⟨⟨ds', rest'⟩, more, read⟩ := bind_ok read
        obtain ⟨rfl, rfl⟩ := Prod.mk.inj (Except.ok.inj read)
        obtain ⟨glyphs, rfl, rfl⟩ := ih more
        refine ⟨.plain c ⟨not_le.mp visible, noQuote, fun slash => ?_⟩ :: glyphs, rfl, decoded_plain fun h _ => rfl⟩
        obtain ⟨e, es, same⟩ := rawChars_quote glyphs rest'
        exact noEscape e es slash same

theorem quoted_ok {fuel : Nat} {cs rest : List Char} {s : String} (read : quoted fuel cs = .ok (s, rest)) :
    ∃ glyphs : List Glyph, cs = rawChars glyphs ++ '"' :: rest ∧ String.ofList (decoded glyphs) = s := by
  obtain ⟨⟨ds, rest'⟩, found, same⟩ := bind_ok read
  obtain ⟨rfl, rfl⟩ := Prod.mk.inj (Except.ok.inj same)
  obtain ⟨glyphs, rfl, rfl⟩ := text_ok found
  exact ⟨glyphs, rfl, rfl⟩

/-! ## Values -/

mutual

/-- A value that is read is a form at the front of the text. -/
theorem value_ok : (fuel : Nat) → {cs rest : List Char} → {v : Value} → value fuel cs = .ok (v, rest) →
    ∃ f : Form, cs = f.chars ++ rest ∧ f.value = v
  | 0, cs, rest, v, read => nomatch read
  | fuel + 1, cs, rest, v, read => by
    rw [value.eq_def] at read
    dsimp only at read
    -- by the first character: a text, a mapping, a list, and else a word or a numeral
    split at read
    · obtain ⟨⟨s, unread⟩, found, same⟩ := bind_ok read
      obtain ⟨rfl, rfl⟩ := Prod.mk.inj (Except.ok.inj same)
      obtain ⟨glyphs, rfl, rfl⟩ := quoted_ok found
      exact ⟨.text glyphs, (Form.text_append _ _).symm, rfl⟩
    · rename_i tail
      obtain ⟨inner, split⟩ := exists_space tail
      split at read
      · rename_i unread skipped
        obtain ⟨rfl, rfl⟩ := Prod.mk.inj (Except.ok.inj read)
        exact ⟨.emptyDict inner, by rw [Form.emptyDict_append, ← skipped, ← split], rfl⟩
      · obtain ⟨⟨es, unread⟩, found, same⟩ := bind_ok read
        obtain ⟨rfl, rfl⟩ := Prod.mk.inj (Except.ok.inj same)
        obtain ⟨members, chars, value⟩ := entries_ok fuel inner found
        exact ⟨.dict members, by rw [Form.chars, List.cons_append, ← chars, ← split], by rw [Form.value, value]⟩
    · rename_i tail
      obtain ⟨inner, split⟩ := exists_space tail
      split at read
      · rename_i unread skipped
        obtain ⟨rfl, rfl⟩ := Prod.mk.inj (Except.ok.inj read)
        exact ⟨.emptyList inner, by rw [Form.emptyList_append, ← skipped, ← split], rfl⟩
      · obtain ⟨⟨vs, unread⟩, found, same⟩ := bind_ok read
        obtain ⟨rfl, rfl⟩ := Prod.mk.inj (Except.ok.inj same)
        obtain ⟨members, chars, value⟩ := items_ok fuel inner found
        exact ⟨.list members, by rw [Form.chars, List.cons_append, ← chars, ← split], by rw [Form.value, value]⟩
    · split at read
      · rename_i found word
        obtain rfl := Except.ok.inj read
        obtain ⟨w, chars, value⟩ := word?_ok word
        exact ⟨.word w, chars, value⟩
      · cases found : number? cs with
        | none =>
          rw [found] at read
          cases read
        | some number =>
          rw [found] at read
          obtain ⟨n, chars, value⟩ := number?_ok (found.trans (congrArg some read))
          exact ⟨.numeral n, chars, value⟩

theorem items_ok : (fuel : Nat) → (before : Space) → {cs rest : List Char} → {vs : List Value} →
    items fuel cs = .ok (vs, rest) → ∃ members : Items, before.chars ++ cs = members.chars ++ rest ∧ members.values = vs
  | 0, before, cs, rest, vs, read => nomatch read
  | fuel + 1, before, cs, rest, vs, read => by
    rw [items] at read
    obtain ⟨⟨v, unread⟩, found, read⟩ := bind_ok read
    obtain ⟨form, rfl, rfl⟩ := value_ok fuel found
    obtain ⟨after, split⟩ := exists_space unread
    dsimp only at read
    split at read
    · rename_i tail closed
      obtain ⟨rfl, rfl⟩ := Prod.mk.inj (Except.ok.inj read)
      exact ⟨.last before form after, by rw [Items.last_append, ← closed, ← split], rfl⟩
    · rename_i tail goes
      obtain ⟨⟨more, unread'⟩, later, same⟩ := bind_ok read
      obtain ⟨rfl, rfl⟩ := Prod.mk.inj (Except.ok.inj same)
      obtain ⟨before', split'⟩ := exists_space tail
      obtain ⟨members, chars, values⟩ := items_ok fuel before' later
      refine ⟨.more before form after members, ?_, by rw [Items.values, values]⟩
      rw [Items.more_append, ← chars, ← split', ← goes, ← split]
    · cases read

theorem entries_ok : (fuel : Nat) → (before : Space) → {earlier es : List (Value × Value)} → {cs rest : List Char} →
    entries fuel earlier cs = .ok (es, rest) → ∃ members : Entries, before.chars ++ cs = members.chars ++ rest ∧
      members.pairs.foldl (fun es pair => Value.put es pair.1 pair.2) earlier = es
  | 0, before, earlier, es, cs, rest, read => nomatch read
  | fuel + 1, before, earlier, es, cs, rest, read => by
    rw [entries.eq_def] at read
    dsimp only at read
    split at read
    · obtain ⟨⟨key, unread⟩, named, read⟩ := bind_ok read
      obtain ⟨glyphs, rfl, rfl⟩ := quoted_ok named
      obtain ⟨spaces, split⟩ := exists_space unread
      dsimp only at read
      split at read
      · rename_i tail colon
        obtain ⟨⟨v, unread'⟩, found, read⟩ := bind_ok read
        obtain ⟨blank, split'⟩ := exists_space tail
        obtain ⟨form, chars, rfl⟩ := value_ok fuel found
        obtain ⟨after, split''⟩ := exists_space unread'
        dsimp only at read
        -- the entry in front is put together from what the steps before have read
        have front : ∀ name : Name, name.before = before → name.glyphs = glyphs → name.after = spaces →
            before.chars ++ '"' :: (rawChars glyphs ++ '"' :: unread) =
              name.before.chars ++ (name.quotedChars ++
                (blank.chars ++ (form.chars ++ (after.chars ++ skip unread')))) := by
          rintro name rfl rfl rfl
          rw [Name.quotedChars_append, ← split'', ← chars, ← split', ← colon, ← split]
        split at read
        · rename_i tail' closed
          obtain ⟨rfl, rfl⟩ := Prod.mk.inj (Except.ok.inj read)
          exact ⟨.last ⟨before, glyphs, spaces⟩ blank form after,
            by rw [Entries.last_append, ← closed]; exact front _ rfl rfl rfl, rfl⟩
        · rename_i tail' goes
          obtain ⟨before', split₃⟩ := exists_space tail'
          obtain ⟨members, more, pairs⟩ := entries_ok fuel before' read
          exact ⟨.more ⟨before, glyphs, spaces⟩ blank form after members,
            by rw [Entries.more_append, ← more, ← split₃, ← goes]; exact front _ rfl rfl rfl, pairs⟩
        · cases read
      · cases read
    · cases read

end

/-- A text that is accepted is the text of a document, and its value is the one of the form. -/
theorem exists_document {text : String} {v : Value} (accepted : parse text = .ok v) :
    ∃ d : Document, d.text = text ∧ d.form.value = v := by
  have whole : readAll text.toList = .ok v := by
    rw [parse] at accepted
    split at accepted
    · rename_i read
      rw [read, Except.ok.inj accepted]
    · cases accepted
  obtain ⟨before, split⟩ := exists_space text.toList
  rw [readAll.eq_def] at whole
  split at whole
  · cases whole
  · obtain ⟨⟨v', unread⟩, found, whole⟩ := bind_ok whole
    obtain ⟨form, chars, rfl⟩ := value_ok _ found
    obtain ⟨after, split'⟩ := exists_space unread
    dsimp only at whole
    split at whole
    · rename_i finished
      rw [finished, List.append_nil] at split'
      refine ⟨⟨before, form, after⟩, ?_, Except.ok.inj whole⟩
      rw [Document.text, Document.chars, ← split', ← chars, ← split, String.ofList_toList]
    · cases whole

end Tablewright.Json
