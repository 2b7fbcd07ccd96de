import Tablewright.Proofs.Document.Accepted

/-!
# Long integers in JSON

The only fault of JSON that is no error of its syntax is an integer with more digits than are allowed.

* `HasLongRun`: a text has more digits in a row than an integer may have.
* `value_long`, `items_long`, `entries_long`: where reading stops at an integer there is such a run.
* `parse_long`: the same for a whole document.
-/

namespace Tablewright.Json

/-- A run of a number of digits, more than an integer may have. -/
def HasLongRun (count : Nat) (cs : List Char) : Prop :=
  Document.maxDigits < count ∧ ∃ run, run <:+: cs ∧ run.length = count ∧ ∀ d ∈ run, d.isDigit

theorem HasLongRun.of_suffix {count : Nat} {rest cs : List Char} (long : HasLongRun count rest) (suffix : rest <:+ cs) :
    HasLongRun count cs := by
  obtain ⟨more, run, inside, length, are⟩ := long
  exact ⟨more, run, inside.trans suffix.isInfix, length, are⟩

/-! ## Steps that do not read numerals -/

/-- A step that does not stop at an integer. -/
def NotLong {α : Type} (x : Except Stop α) : Prop := ∀ count, x ≠ .error (.longNumeral count)

theorem NotLong.bind {α β : Type} {x : Except Stop α} {f : α → Except Stop β} (first : NotLong x)
    (later : ∀ a, NotLong (f a)) : NotLong (x >>= f) := by
  cases x with
  | ok a => exact later a
  | error stop => exact fun count same => first count (congrArg Except.error (Except.error.inj same))

theorem notLong_problem {α : Type} (what : Problem) (left : Nat) : NotLong (.error (.problem what left) : Except Stop α) := by
  rintro count ⟨⟩

theorem notLong_ok {α : Type} (a : α) : NotLong (.ok a) := by
  rintro count ⟨⟩

theorem notLong_lowHalf? (cs : List Char) : NotLong (lowHalf? cs) := by
  unfold lowHalf?
  split
  · split
    · exact notLong_ok _
    · split
      · exact notLong_ok _
      · exact notLong_problem _ _
  · exact notLong_ok _

theorem notLong_text (start : List Char) (fuel : Nat) (cs : List Char) : NotLong (text start fuel cs) := by
  fun_induction text start fuel cs with
  | case1 | case2 | case4 | case5 | case8 | case10 => exact notLong_problem _ _
  | case3 => exact notLong_ok _
  | case6 fuel cs code rest hex go high ih =>
    exact (notLong_lowHalf? rest).bind fun pair => (ih _).bind fun _ => notLong_ok _
  | case7 fuel cs code rest hex go low ih =>
    exact (notLong_ok none).bind fun pair => (ih _).bind fun _ => notLong_ok _
  | case9 fuel e rest other c named ih => exact ih.bind fun _ => notLong_ok _
  | case11 fuel c rest _ _ _ _ printed ih => exact ih.bind fun _ => notLong_ok _

theorem notLong_quoted (fuel : Nat) (cs : List Char) : NotLong (quoted fuel cs) :=
  (notLong_text _ _ _).bind fun _ => notLong_ok _

/-! ## Steps that do -/

theorem bind_error {α β : Type} {x : Except Stop α} {f : α → Except Stop β} {stop : Stop}
    (result : x >>= f = .error stop) : x = .error stop ∨ ∃ a, x = .ok a ∧ f a = .error stop := by
  cases x with
  | error stop => exact .inl (congrArg Except.error (Except.error.inj result))
  | ok a => exact .inr ⟨a, rfl, result⟩

theorem skip_suffix (cs : List Char) : skip cs <:+ cs := List.dropWhile_suffix _

/-- What comes after a mark and the white space around it. -/
theorem suffix_after {c : Char} {rest tail : List Char} (mark : skip rest = c :: tail) : skip tail <:+ rest :=
  ((skip_suffix tail).trans (List.suffix_cons c tail)).trans (mark ▸ skip_suffix rest)

theorem numberFrom_long {negative : Bool} {whole cs : List Char} {count : Nat}
    (stopped : numberFrom negative whole cs = .error (.longNumeral count)) :
    Document.maxDigits < count ∧ whole.length = count := by
  rw [numberFrom_eq (Prod.eta _).symm] at stopped
  split at stopped
  · split at stopped
    · next long =>
      cases stopped
      exact ⟨long, rfl⟩
    · cases stopped
  · cases stopped

/-- A number is read after its sign. -/
theorem number?_unsigned (cs : List Char) : ∃ (negative : Bool) (rest : List Char), rest <:+ cs ∧
    number? cs = match rest with
      | '0' :: rest => some (numberFrom negative ['0'] rest)
      | c :: _ => if c.isDigit then some (numberFrom negative (digits rest).1 (digits rest).2) else none
      | [] => none := by
  unfold number?
  split
  rename_i negative rest sign
  refine ⟨negative, rest, ?_, rfl⟩
  split at sign
  · obtain ⟨-, rfl⟩ := Prod.mk.inj sign
    exact List.suffix_cons _ _
  · obtain ⟨-, rfl⟩ := Prod.mk.inj sign
    exact List.suffix_refl _

theorem number?_long {cs : List Char} {count : Nat} (stopped : number? cs = some (.error (.longNumeral count))) :
    HasLongRun count cs := by
  obtain ⟨negative, rest, suffix, read⟩ := number?_unsigned cs
  refine HasLongRun.of_suffix ?_ suffix
  replace read := read.symm.trans stopped
  split at read
  · next tail =>
    obtain ⟨more, length⟩ := numberFrom_long (Option.some.inj read)
    rw [← length] at more
    exact absurd more (by decide)
  · next c tail _ =>
    split at read
    · obtain ⟨more, length⟩ := numberFrom_long (Option.some.inj read)
      obtain ⟨split, are⟩ := digits_ok (c :: tail)
      exact ⟨more, (digits (c :: tail)).1, ⟨[], _, split.symm⟩, length, are⟩
    · cases read
  · cases read

mutual

theorem value_long : (fuel : Nat) → {cs : List Char} → {count : Nat} → value fuel cs = .error (.longNumeral count) →
    HasLongRun count cs
  | 0, cs, count, stopped => nomatch stopped
  | fuel + 1, cs, count, stopped => by
    rw [value.eq_def] at stopped
    dsimp only at stopped
    -- a text never stops reading for its length; containers pass on what stops inside of them
    split at stopped
    · exact absurd stopped (((notLong_quoted _ _).bind fun _ => notLong_ok _) count)
    · rename_i tail
      have inside : skip tail <:+ '\x7b' :: tail := (skip_suffix tail).trans (List.suffix_cons _ _)
      split at stopped
      · cases stopped
      · rcases bind_error stopped with stopped | ⟨_, _, stopped⟩
        · exact (entries_long fuel stopped).of_suffix inside
        · cases stopped
    · rename_i tail
      have inside : skip tail <:+ '[' :: tail := (skip_suffix tail).trans (List.suffix_cons _ _)
      split at stopped
      · cases stopped
      · rcases bind_error stopped with stopped | ⟨_, _, stopped⟩
        · exact (items_long fuel stopped).of_suffix inside
        · cases stopped
    · split at stopped
      · cases stopped
      · cases found : number? cs with
        | none =>
          rw [found] at stopped
          cases stopped
        | some number =>
          rw [found] at stopped
          exact number?_long (found.trans (congrArg some stopped))

theorem items_long : (fuel : Nat) → {cs : List Char} → {count : Nat} → items fuel cs = .error (.longNumeral count) →
    HasLongRun count cs
  | 0, cs, count, stopped => nomatch stopped
  | fuel + 1, cs, count, stopped => by
    rw [items] at stopped
    rcases bind_error stopped with stopped | ⟨⟨v, rest⟩, found, stopped⟩
    · exact value_long fuel stopped
    · obtain ⟨form, split, -⟩ := value_ok fuel found
      dsimp only at stopped
      split at stopped
      · cases stopped
      · rename_i tail goes
        rcases bind_error stopped with stopped | ⟨_, _, stopped⟩
        · exact (items_long fuel stopped).of_suffix ((suffix_after goes).trans ⟨form.chars, split.symm⟩)
        · cases stopped
      · cases stopped

theorem entries_long : (fuel : Nat) → {before : List (Value × Value)} → {cs : List Char} → {count : Nat} →
    entries fuel before cs = .error (.longNumeral count) → HasLongRun count cs
  | 0, before, cs, count, stopped => nomatch stopped
  | fuel + 1, before, cs, count, stopped => by
    rw [entries.eq_def] at stopped
    dsimp only at stopped
    split at stopped
    · rename_i tail
      rcases bind_error stopped with stopped | ⟨⟨name, rest⟩, named, stopped⟩
      · exact absurd stopped (notLong_quoted _ _ count)
      · obtain ⟨glyphs, split, -⟩ := quoted_ok named
        have inside : rest <:+ '"' :: tail := ⟨'"' :: (rawChars glyphs ++ ['"']), by rw [split]; simp⟩
        dsimp only at stopped
        split at stopped
        · rename_i tail' colon
          rcases bind_error stopped with stopped | ⟨⟨v, rest'⟩, found, stopped⟩
          · exact (value_long fuel stopped).of_suffix ((suffix_after colon).trans inside)
          · obtain ⟨form, split', -⟩ := value_ok fuel found
            dsimp only at stopped
            split at stopped
            · cases stopped
            · rename_i tail'' goes
              refine (entries_long fuel stopped).of_suffix ((suffix_after goes).trans ?_)
              exact List.IsSuffix.trans ⟨form.chars, split'.symm⟩ ((suffix_after colon).trans inside)
            · cases stopped
        · cases stopped
    · cases stopped

end

/-- A document stops at an integer only if it has a run of that many digits. -/
theorem parse_long {document : String} {count : Nat} (stopped : parse document = .error (.longNumeral count)) :
    HasLongRun count document.toList := by
  unfold parse at stopped
  split at stopped
  · cases stopped
  · next stop read =>
    obtain rfl : stop = .longNumeral count := by
      cases stop with
      | problem what left => cases stopped
      | longNumeral count' => cases stopped; rfl
    unfold readAll at read
    split at read
    · cases read
    · rcases bind_error read with read | ⟨⟨v, rest⟩, _, read⟩
      · exact (value_long _ read).of_suffix (skip_suffix _)
      · dsimp only at read
        split at read <;> cases read

end Tablewright.Json
