import Tablewright.Proofs.Document.Portable
import Tablewright.Proofs.Yaml.Places

/-!
# Quoted JSON texts as YAML

What stands in the quotes of a portable JSON text is read alike as a scalar in double quotes.

* `Quoted.escape_letter`, `Quoted.escape_unit`: the escapes of JSON are escapes of YAML.
* `Quoted.solid_glyphs`: the glyphs up to the next space.
* `Quoted.scalar_glyphs`: the whole scalar, and the place after it.
-/

namespace Tablewright.Yaml.Quoted

open Json (Glyph rawChars simpleEscape? hexCode?)

variable {c : Cursor} {rest : List Char}

theorem escape_letter {letter ch : Char} (named : simpleEscape? letter = some ch) (at_ : c.rest = letter :: rest) :
    escape c = .ok ([ch], c.step) := by
  have lookup : nameEscapes.lookup letter = some ch := by
    have known := Json.simpleEscape?_known named
    simp only [List.mem_cons, List.not_mem_nil, or_false] at known
    rcases known with rfl | rfl | rfl | rfl | rfl | rfl | rfl | rfl <;> (obtain rfl := Option.some.inj named; rfl)
  rw [escape, at_]
  simp only [lookup]

theorem hexCode?_some {a b c d : Char} {code : Nat} (hex : hexCode? a b c d = some code) (rest : List Char) :
    code < 0x10000 ∧ code? 4 (a :: b :: c :: d :: rest) = some code := by
  simp only [hexCode?, Option.bind_eq_bind, Option.bind_eq_some_iff, Option.some.injEq] at hex
  obtain ⟨m, first, n, second, o, third, p, fourth, rfl⟩ := hex
  have small : ∀ {d : Char} {n : Nat}, Number.digit? d = some n → n < 16 := fun digit => (Json.digit?_bounds digit).1
  have bounds := And.intro (small first) (And.intro (small second) (And.intro (small third) (small fourth)))
  refine ⟨by omega, ?_⟩
  simp [code?, Number.natOf, first, second, third, fourth]
  omega

theorem escape_unit {a b d e : Char} {code : Nat} (hex : hexCode? a b d e = some code)
    (single : ¬ (0xD800 ≤ code ∧ code < 0xE000)) (at_ : c.rest = 'u' :: a :: b :: d :: e :: rest) :
    escape c = .ok ([Json.unitChar code], c.forward 5) := by
  obtain ⟨small, read⟩ := hexCode?_some hex rest
  have noName : nameEscapes.lookup 'u' = none := by decide
  have count : codeEscapes.lookup 'u' = some 4 := by decide
  rw [escape, at_]
  simp only [noName, count, read, coded]
  rw [if_neg (by omega), if_neg single, Json.unitChar, if_neg single]
  rfl

/-- The characters of glyphs up to a space or the closing quote. -/
theorem solid_glyphs {glyphs : List Glyph} (portable : ∀ g ∈ glyphs, g.Portable)
    (unspaced : ∀ g ∈ glyphs, g.chars ≠ [' '])
    {stop : Char} (stops : stop = ' ' ∨ stop = '"') (at_ : c.rest = rawChars glyphs ++ stop :: rest) {fuel : Nat}
    (enough : glyphs.length < fuel) :
    solid true fuel c = .ok (glyphs.map Glyph.char, c.forward (rawChars glyphs).length) := by
  induction glyphs generalizing c fuel with
  | nil =>
    obtain ⟨fuel, rfl⟩ := Nat.exists_eq_add_one_of_ne_zero (Nat.ne_zero_of_lt enough)
    have here : c.rest = stop :: rest := at_
    rw [solid, here]
    rcases stops with rfl | rfl <;> rfl
  | cons g glyphs ih =>
    obtain ⟨fuel, rfl⟩ := Nat.exists_eq_add_one_of_ne_zero (Nat.ne_zero_of_lt enough)
    rw [List.forall_mem_cons] at portable unspaced
    rw [Json.rawChars_cons] at at_ ⊢
    rw [List.append_assoc] at at_
    have next := ih (c := c.forward g.chars.length) portable.2 unspaced.2 (Cursor.rest_forward_append at_)
      (Nat.lt_of_succ_lt_succ enough)
    rw [List.length_append, Cursor.forward_add, solid, at_]
    -- a plain character takes one step, an escape two, and a coded one six
    cases g with
    | plain ch proper =>
      have noSpace : ch ≠ ' ' := fun same => unspaced.1 (congrArg (fun ch => [ch]) same)
      have noTab : ch ≠ '\t' := by
        rintro rfl
        exact absurd proper.1 (by decide)
      have step : c.forward 1 = c.step := rfl
      simp only [Glyph.chars, List.length_singleton, step] at next ⊢
      simp [isSpace, noSpace, noTab, portable.1.2, proper.2, next, Glyph.char, Except.map]
    | escape letter ch named =>
      have read := escape_letter (c := c.step) named (by rw [Cursor.rest_step, at_]; rfl)
      have step : c.forward 2 = c.step.step := rfl
      simp only [Glyph.chars, List.length_cons, List.length_nil, step] at next ⊢
      simp [isSpace, isBreak, read, next, Glyph.char, Except.map]
    | unit a b d e code hex =>
      have read := escape_unit (c := c.step) hex portable.1 (by rw [Cursor.rest_step, at_]; rfl)
      have step : c.forward 6 = c.step.forward 5 := rfl
      simp only [Glyph.chars, List.length_cons, List.length_nil, step] at next ⊢
      simp [isSpace, isBreak, read, next, Glyph.char, Except.map]

/-- Where a glyph starts no white space stands, unless it is a space. -/
theorem glyph_head {g : Glyph} (portable : g.Portable) (unspaced : g.chars ≠ [' ']) (rest : List Char) :
    ∀ ch ∈ (g.chars ++ rest).head?, isSpace ch = false ∧ isBreak ch = false := by
  intro ch head
  cases g with
  | plain c proper =>
    obtain rfl := Option.some.inj head
    have noSpace : c ≠ ' ' := fun same => unspaced (congrArg (fun ch => [ch]) same)
    have noTab : c ≠ '\t' := by
      rintro rfl
      exact absurd proper.1 (by decide)
    exact ⟨by simp [isSpace, noSpace, noTab], portable.2⟩
  | escape letter c named =>
    obtain rfl := Option.some.inj head
    exact ⟨rfl, rfl⟩
  | unit a b c d code hex =>
    obtain rfl := Option.some.inj head
    exact ⟨rfl, rfl⟩

theorem rawChars_spaces {glyphs : List Glyph} (spaces : ∀ g ∈ glyphs, g.chars = [' ']) :
    rawChars glyphs = glyphs.map Glyph.char ∧ ∀ ch ∈ rawChars glyphs, ch = ' ' := by
  induction glyphs with
  | nil => simp [rawChars]
  | cons g glyphs ih =>
    rw [List.forall_mem_cons] at spaces
    have char : g.char = ' ' := by
      cases g with
      | plain c proper => exact (List.cons.inj spaces.1).1
      | escape letter c named => cases spaces.1
      | unit a b c d code hex => cases spaces.1
    rw [Json.rawChars_cons, spaces.1, List.map_cons, char, ← (ih spaces.2).1]
    exact ⟨rfl, List.forall_mem_cons.mpr ⟨rfl, (ih spaces.2).2⟩⟩

/-- Glyphs up to the first space, the spaces there, and what comes after them. -/
theorem exists_spaces (glyphs : List Glyph) : ∃ word spaces more, glyphs = word ++ (spaces ++ more) ∧
    (∀ g ∈ word, g.chars ≠ [' ']) ∧ (∀ g ∈ spaces, g.chars = [' ']) ∧ (spaces = [] → more = []) ∧
      ∀ g ∈ more.head?, g.chars ≠ [' '] := by
  have part : ∀ (p : Glyph → Bool) (gs : List Glyph), gs.takeWhile p ++ gs.dropWhile p = gs ∧
      (∀ g ∈ gs.takeWhile p, p g) ∧ ∀ g ∈ (gs.dropWhile p).head?, p g = false := by
    refine fun p gs => ⟨List.takeWhile_append_dropWhile, fun g => List.mem_takeWhile_imp, fun g head => ?_⟩
    have first := List.head?_dropWhile_not p gs
    rwa [Option.mem_def.mp head] at first
  obtain ⟨whole, unspaced, first⟩ := part (fun g => g.chars ≠ [' ']) glyphs
  obtain ⟨later, spaced, next⟩ := part (fun g => g.chars = [' ']) (glyphs.dropWhile fun g => g.chars ≠ [' '])
  refine ⟨_, _, _, by rw [later, whole], by simpa using unspaced, by simpa using spaced, fun none => ?_,
    by simpa using next⟩
  rw [none, List.nil_append] at later
  -- what comes after the word starts with a space
  cases more : glyphs.dropWhile fun g => g.chars ≠ [' '] with
  | nil => rfl
  | cons g gs =>
    rw [more] at first none
    have space : g.chars = [' '] := by simpa using first g rfl
    simp [space] at none

theorem spaces_run {run more : List Char} (at_ : c.rest = run ++ more) (all : ∀ ch ∈ run, ch = ' ')
    (some_more : more ≠ []) (stop : ∀ ch ∈ more.head?, isSpace ch = false ∧ isBreak ch = false) :
    spaces c = .ok (run, c.forward run.length) := by
  have spanned := Cursor.span_append (p := isSpace) at_ (fun ch member => by rw [all ch member]; rfl)
    fun ch head => (stop ch head).1
  have after := Cursor.rest_forward_append at_
  have unbroken : (c.forward run.length).takeBreak? = none :=
    Cursor.takeBreak?_unbroken fun ch head => (stop ch (after ▸ head)).2
  have unfinished : (c.forward run.length).rest.isEmpty = false := by
    rw [after]
    simpa using some_more
  rw [spaces, spanned]
  simp only [unbroken, unfinished]
  rfl

/-- Glyphs are taken up to a space, and then the spaces. -/
theorem body_glyphs {glyphs : List Glyph} (portable : ∀ g ∈ glyphs, g.Portable)
    (at_ : c.rest = rawChars glyphs ++ '"' :: rest) (fuel : Nat) (enough : glyphs.length < fuel) :
    body true fuel c = .ok (glyphs.map Glyph.char, c.forward ((rawChars glyphs).length + 1)) := by
  induction fuel generalizing glyphs c with
  | zero => simp at enough
  | succ fuel ih =>
    obtain ⟨word, blank, more, rfl, unspaced, spaced, ended, stop⟩ := exists_spaces glyphs
    obtain ⟨portableWord, portable⟩ := List.forall_mem_append.mp portable
    have portableMore := (List.forall_mem_append.mp portable).2
    rw [Json.rawChars_append, Json.rawChars_append, List.append_assoc, List.append_assoc] at at_
    have enoughWord : word.length < c.rest.length + 1 := by
      have short := Json.length_le_rawChars word
      rw [at_, List.length_append]
      omega
    have after := Cursor.rest_forward_append at_
    rw [body]
    -- a word ends at the quote, or at spaces that stay as they are on one line
    cases blank with
    | nil =>
      obtain rfl := ended rfl
      have read := solid_glyphs portableWord unspaced (.inr rfl) at_ enoughWord
      have next : (c.forward (rawChars word).length).peek = some '"' := by
        rw [Cursor.peek, after]
        rfl
      simp only [read, bind, Except.bind, next, if_true, beq_self_eq_true, List.append_nil, Cursor.forward_add]
      rfl
    | cons space blanks =>
      obtain ⟨chars, all⟩ := rawChars_spaces spaced
      have first : rawChars (space :: blanks) = ' ' :: rawChars blanks := by
        rw [Json.rawChars_cons, spaced space List.mem_cons_self]
        rfl
      have next : (c.forward (rawChars word).length).peek = some ' ' := by
        rw [Cursor.peek, after, first]
        rfl
      have at_space : c.rest = rawChars word ++ ' ' :: (rawChars blanks ++ (rawChars more ++ '"' :: rest)) := by
        rw [at_, first]
        rfl
      have read := solid_glyphs portableWord unspaced (.inl rfl) at_space enoughWord
      have blanksRead := spaces_run after all (by simp) fun ch head => by
        cases more with
        | nil =>
          obtain rfl := Option.some.inj head
          exact ⟨rfl, rfl⟩
        | cons g more =>
          rw [Json.rawChars_cons, List.append_assoc] at head
          exact glyph_head (portableMore g List.mem_cons_self) (stop g rfl) _ ch head
      have moreRead := ih portableMore (Cursor.rest_forward_append after) (by
        simp only [List.length_append, List.length_cons] at enough
        omega)
      simp only [read, bind, Except.bind, next, if_true, blanksRead, moreRead]
      rw [if_neg (by decide), chars, List.map_append, List.map_append, List.append_assoc, Json.rawChars_append,
        Json.rawChars_append, chars, ← Cursor.forward_add, ← Cursor.forward_add]
      simp only [List.length_append, Nat.add_assoc]

theorem scalar_glyphs {glyphs : List Glyph} (portable : ∀ g ∈ glyphs, g.Portable)
    (at_ : c.rest = '"' :: (rawChars glyphs ++ '"' :: rest)) :
    scalar true c = .ok (String.ofList (Json.decoded glyphs), c.forward ((rawChars glyphs).length + 2)) := by
  have inside : c.step.rest = rawChars glyphs ++ '"' :: rest := by rw [Cursor.rest_step, at_]; rfl
  have short := Json.length_le_rawChars glyphs
  have read := body_glyphs portable inside (c.rest.length + 1) (by
    rw [at_, List.length_cons, List.length_append]
    omega)
  rw [scalar, read, Json.decoded_portable portable]
  rfl

end Tablewright.Yaml.Quoted
