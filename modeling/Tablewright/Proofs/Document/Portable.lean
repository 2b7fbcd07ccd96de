import Tablewright.Proofs.Document.Forms
import Tablewright.Yaml.Basic

/-!
# Portable JSON documents

The forms of JSON that are forms of YAML with the same meaning.  What is left out is written otherwise in YAML, or means
something else there:

* tabs between tokens;
* characters in quotes that are no part of a YAML document or that end a line there;
* the codes of surrogate pairs, whose halves stand alone in YAML;
* exponents without a sign or without a point before them, and the words for infinite numbers and for none;
* names whose colon stands on another line or too far away.
-/

namespace Tablewright.Json

/-- A character that may stand in a line of a YAML document. -/
def Legible (c : Char) : Prop := Yaml.isAllowed c ∧ Yaml.isBreak c = false

def Space.Portable (s : Space) : Prop := '\t' ∉ s.chars

def Glyph.Portable : Glyph → Prop
  | plain c _ => Legible c
  | escape _ _ _ => True
  | unit _ _ _ _ code _ => ¬ (0xD800 ≤ code ∧ code < 0xE000)

def Numeral.Portable (n : Numeral) : Prop := ∀ e ∈ n.exponent, n.places ≠ [] ∧ e.sign ≠ none

def Word.Portable (w : Word) : Prop := w.chars ∈ ["null".toList, "true".toList, "false".toList]

structure Name.Portable (n : Name) : Prop where
  before : n.before.Portable
  glyphs : ∀ g ∈ n.glyphs, g.Portable
  after : ∀ c ∈ n.after.chars, c = ' '
  short : (rawChars n.glyphs).length + 2 + n.after.chars.length ≤ Yaml.Lexer.maxKey

mutual

def Form.Portable : Form → Prop
  | .word w => w.Portable
  | .numeral n => n.Portable
  | .text glyphs => ∀ g ∈ glyphs, g.Portable
  | .emptyList inner => inner.Portable
  | .list items => items.Portable
  | .emptyDict inner => inner.Portable
  | .dict entries => entries.Portable

def Items.Portable : Items → Prop
  | .last before form after => before.Portable ∧ form.Portable ∧ after.Portable
  | .more before form after rest => before.Portable ∧ form.Portable ∧ after.Portable ∧ rest.Portable

def Entries.Portable : Entries → Prop
  | .last name before form after => name.Portable ∧ before.Portable ∧ form.Portable ∧ after.Portable
  | .more name before form after rest =>
    name.Portable ∧ before.Portable ∧ form.Portable ∧ after.Portable ∧ rest.Portable

end

structure Document.Portable (d : Document) : Prop where
  before : d.before.Portable
  form : d.form.Portable
  after : d.after.Portable

/-! ## Characters of portable documents -/

theorem Space.Portable.blank {s : Space} (portable : s.Portable) : ∀ c ∈ s.chars, c = ' ' ∨ c = '\n' ∨ c = '\r' := by
  intro c member
  have space := s.blank c member
  have noTab : c ≠ '\t' := fun same => portable (same ▸ member)
  simpa [isSpace, noTab, or_assoc] using space

theorem legible_of_printable {c : Char} (low : 0x20 ≤ c.toNat) (high : c.toNat ≤ 0x7e) : Legible c := by
  refine ⟨by simp [Yaml.isAllowed, low, high], ?_⟩
  have other : ∀ d : Char, d.toNat < 0x20 ∨ 0x7e < d.toNat → c ≠ d := by
    rintro d outside rfl
    omega
  simp [Yaml.isBreak, other '\n' (by decide), other '\r' (by decide), other '\u0085' (by decide),
    other '\u2028' (by decide),
    other '\u2029' (by decide)]

theorem digit?_bounds {d : Char} {n : Nat} (digit : Number.digit? d = some n) :
    n < 16 ∧ 0x20 ≤ d.toNat ∧ d.toNat ≤ 0x7e := by
  have codes :
      '0'.toNat = 48 ∧ '9'.toNat = 57 ∧ 'a'.toNat = 97 ∧ 'f'.toNat = 102 ∧ 'A'.toNat = 65 ∧ 'F'.toNat = 70 := by
    decide
  have between : ∀ low high : Char, low ≤ d → d ≤ high → low.toNat ≤ d.toNat ∧ d.toNat ≤ high.toNat := fun _ _ => .intro
  rw [Number.digit?] at digit
  split at digit
  · rename_i isDigit
    have bounds := Char.isDigit_iff_toNat.mp isDigit
    obtain rfl := Option.some.inj digit
    omega
  · split at digit
    · rename_i letter
      have bounds := between 'a' 'f' letter.1 letter.2
      obtain rfl := Option.some.inj digit
      omega
    · split at digit
      · rename_i letter
        have bounds := between 'A' 'F' letter.1 letter.2
        obtain rfl := Option.some.inj digit
        omega
      · cases digit

theorem hexCode?_legible {a b c d : Char} {code : Nat} (hex : hexCode? a b c d = some code) :
    ∀ e ∈ [a, b, c, d], Legible e := by
  simp only [hexCode?, Option.bind_eq_bind, Option.bind_eq_some_iff] at hex
  obtain ⟨_, first, _, second, _, third, _, fourth, -⟩ := hex
  have legible : ∀ {e : Char} {n : Nat}, Number.digit? e = some n → Legible e := fun digit =>
    legible_of_printable (digit?_bounds digit).2.1 (digit?_bounds digit).2.2
  simp [legible first, legible second, legible third, legible fourth]

theorem simpleEscape?_known {letter c : Char} (named : simpleEscape? letter = some c) :
    letter ∈ ['"', '\\', '/', 'b', 'f', 'n', 'r', 't'] := by
  by_contra unknown
  simp_all [simpleEscape?]

theorem Glyph.Portable.legible {g : Glyph} (portable : g.Portable) : ∀ c ∈ g.chars, Legible c := by
  cases g with
  | plain c proper => exact List.forall_mem_singleton.mpr portable
  | escape letter c named =>
    have known := simpleEscape?_known named
    simp only [List.mem_cons, List.not_mem_nil, or_false] at known
    refine List.forall_mem_cons.mpr ⟨legible_of_printable (by decide) (by decide), ?_⟩
    rw [List.forall_mem_singleton]
    rcases known with rfl | rfl | rfl | rfl | rfl | rfl | rfl | rfl <;>
      exact legible_of_printable (by decide) (by decide)
  | unit a b c d code hex =>
    refine List.forall_mem_cons.mpr ⟨legible_of_printable (by decide) (by decide), ?_⟩
    exact List.forall_mem_cons.mpr ⟨legible_of_printable (by decide) (by decide), hexCode?_legible hex⟩

theorem rawChars_legible {glyphs : List Glyph} (portable : ∀ g ∈ glyphs, g.Portable) :
    ∀ c ∈ rawChars glyphs, Legible c := by
  intro c member
  obtain ⟨g, present, inside⟩ := List.mem_flatMap.mp member
  exact (portable g present).legible c inside

/-- Codes that are not the halves of surrogate pairs stand for characters one by one. -/
theorem decoded_portable {glyphs : List Glyph} (portable : ∀ g ∈ glyphs, g.Portable) :
    decoded glyphs = glyphs.map Glyph.char := by
  induction glyphs using decoded.induct with
  | case1 => rfl
  | case2 g => rfl
  | case3 g h rest c pair ih =>
    cases g with
    | plain => cases pair
    | escape => cases pair
    | unit a b c d high hex =>
      cases h with
      | plain => cases pair
      | escape => cases pair
      | unit a' b' c' d' low hex' =>
        rw [Glyph.pair?] at pair
        split at pair
        · rename_i halves
          exact absurd ⟨halves.1.1, by omega⟩ (portable _ List.mem_cons_self)
        · cases pair
  | case4 g h rest alone ih =>
    rw [decoded, alone]
    dsimp only
    rw [ih fun k member => portable k (List.mem_cons_of_mem _ member)]
    rfl

end Tablewright.Json
