import Mathlib
import Tablewright.Yaml.Plain

/-!
# Moving through a text

What is left of a text after some characters, where that is, and how white space is passed.

* `Cursor.rest_forward`, `Cursor.index_forward`, `Cursor.line_forward`: the place some characters further.
* `IsBlank`: spaces and line breaks in their usual forms; `Solid`: a text that goes on with something else.
* `Cursor.takeBreak?_blank`: how blanks are taken, line by line.
-/

namespace Tablewright.Yaml

namespace Cursor

variable {c : Cursor} {run rest : List Char}

theorem rest_step (c : Cursor) : c.step.rest = c.rest.drop 1 := by
  obtain ⟨rest, index, line, column⟩ := c
  cases rest with
  | nil => rfl
  | cons ch rest =>
    rw [step]
    dsimp only
    split <;> rfl

theorem forward_add (m n : Nat) (c : Cursor) : c.forward (m + n) = (c.forward m).forward n := by
  induction m generalizing c with
  | zero => rw [Nat.zero_add]; rfl
  | succ m ih => rw [Nat.succ_add, forward, ih, forward]

@[simp] theorem rest_forward (n : Nat) (c : Cursor) : (c.forward n).rest = c.rest.drop n := by
  induction n generalizing c with
  | zero => rfl
  | succ n ih => rw [forward, ih, rest_step, List.drop_drop, Nat.add_comm]

theorem rest_forward_append (at_ : c.rest = run ++ rest) : (c.forward run.length).rest = rest := by
  rw [rest_forward, at_, List.drop_left]

theorem rest_forward_of_le {n : Nat} (at_ : c.rest = run ++ rest) (within : n ≤ run.length) :
    (c.forward n).rest = run.drop n ++ rest := by
  rw [rest_forward, at_, List.drop_append_of_le_length within]

theorem index_forward {n : Nat} (within : n ≤ c.rest.length) : (c.forward n).index = c.index + n := by
  induction n generalizing c with
  | zero => rfl
  | succ n ih =>
    obtain ⟨rest, index, line, column⟩ := c
    cases rest with
    | nil => simp at within
    | cons ch rest =>
      have next : (Cursor.mk (ch :: rest) index line column).step.index = index + 1 := by
        rw [step]
        dsimp only
        split <;> rfl
      rw [forward, ih (by rw [rest_step]; simpa using within), next]
      dsimp only
      omega

theorem line_forward {n : Nat} (unbroken : ∀ ch ∈ c.rest.take n, isBreak ch = false) : (c.forward n).line = c.line := by
  induction n generalizing c with
  | zero => rfl
  | succ n ih =>
    obtain ⟨rest, index, line, column⟩ := c
    cases rest with
    | nil => exact ih (c := ⟨[], index, line, column⟩) (by simp)
    | cons ch rest =>
      rw [List.take_succ_cons, List.forall_mem_cons] at unbroken
      have here : (Cursor.mk (ch :: rest) index line column).step =
          ⟨rest, index + 1, line, if ch == '\ufeff' then column else column + 1⟩ := by
        simp [step, unbroken.1]
      rw [forward, here, ih unbroken.2]

theorem span_append {p : Char → Bool} (at_ : c.rest = run ++ rest) (all : ∀ ch ∈ run, p ch)
    (stop : ∀ ch ∈ rest.head?, p ch = false) : c.span p = (run, c.forward run.length) := by
  have taken : c.rest.takeWhile p = run := by
    rw [at_, List.takeWhile_append_of_pos all]
    cases rest with
    | nil => simp
    | cons ch rest => simp [stop ch rfl]
  rw [span, taken]

theorem atTriple_of_head {mark : Char} (other : ∀ ch ∈ c.rest.head?, ch ≠ mark) : c.atTriple mark = false := by
  rw [atTriple]
  split
  · rename_i x y z rest text
    have no := other x (by rw [text]; rfl)
    simp [no]
  · rfl

theorem atTriple_of_next {mark ch d : Char} (at_ : c.rest = ch :: d :: rest) (other : d ≠ mark) :
    c.atTriple mark = false := by
  rw [atTriple]
  split
  · rename_i x y z more text
    obtain ⟨-, rfl, -⟩ : ch = x ∧ d = y ∧ rest = z :: more := by simpa [at_] using text
    simp [other]
  · rfl

end Cursor

/-! ## White space -/

/-- A character of white space that is read alike in all formats: a space or one of the usual line breaks. -/
def IsBlank (ch : Char) : Prop := ch = ' ' ∨ ch = '\n' ∨ ch = '\r'

/-- A text that does not go on with white space or a comment. -/
def Solid (rest : List Char) : Prop := ∀ ch ∈ rest.head?, ch ≠ ' ' ∧ ch ≠ '#' ∧ isBreak ch = false

namespace Cursor

variable {c : Cursor} {blanks rest : List Char}

theorem takeBreak?_unbroken (unbroken : ∀ ch ∈ c.rest.head?, isBreak ch = false) : c.takeBreak? = none := by
  obtain ⟨rest, index, line, column⟩ := c
  cases rest with
  | nil => rfl
  | cons ch rest =>
    have here := unbroken ch rfl
    have other : ∀ ch', isBreak ch' = true → ch ≠ ch' := by
      rintro ch' yes rfl
      rw [here] at yes
      cases yes
    simp [takeBreak?, here, other '\n' (by decide), other '\r' (by decide), other '\u0085' (by decide)]

/-- Blanks that start with a line break lose at least that break. -/
theorem takeBreak?_blank {ch : Char} (at_ : c.rest = ch :: (blanks ++ rest)) (break_ : ch = '\n' ∨ ch = '\r')
    (solid : Solid rest) : ∃ n ≤ blanks.length, c.takeBreak? = some ('\n', c.forward (n + 1)) := by
  obtain ⟨text, index, line, column⟩ := c
  dsimp only at at_
  subst at_
  by_cases pair : ch = '\r' ∧ (blanks ++ rest).head? = some '\n'
  · obtain ⟨rfl, next⟩ := pair
    cases blanks with
    | nil => exact absurd (solid '\n' next).2.2 (by decide)
    | cons second blanks =>
      obtain rfl := Option.some.inj next
      exact ⟨1, by simp, rfl⟩
  · refine ⟨0, Nat.zero_le _, ?_⟩
    rcases break_ with rfl | rfl
    · rfl
    · cases more : blanks ++ rest with
      | nil => rfl
      | cons second more' =>
        have other : second ≠ '\n' := fun same => pair ⟨rfl, by rw [more, same]; rfl⟩
        simp [takeBreak?, other, forward]

/-- One line of blanks: spaces, and then a line break or the end of the blanks. -/
theorem skipBlanks_blank (at_ : c.rest = blanks ++ rest) (blank : ∀ ch ∈ blanks, IsBlank ch) (solid : Solid rest) :
    ∃ k ≤ blanks.length, c.skipBlanks = c.forward k ∧ (c.forward k).peek ≠ some '#' ∧
      (k = blanks.length ∧ (c.forward k).takeBreak? = none ∨
        ∃ n ≤ blanks.length, k < n ∧ (c.forward k).takeBreak? = some ('\n', c.forward n)) := by
  -- the spaces in front are skipped; what follows is a break or something solid
  obtain ⟨run, tail, split, spaces, stop⟩ : ∃ run tail, blanks = run ++ tail ∧ (∀ ch ∈ run, ch = ' ') ∧
      ∀ ch ∈ tail.head?, ch ≠ ' ' := by
    refine ⟨blanks.takeWhile (· == ' '), blanks.dropWhile (· == ' '), List.takeWhile_append_dropWhile.symm, ?_, ?_⟩
    · exact fun ch member => by simpa using List.mem_takeWhile_imp member
    · intro ch head same
      have first := List.head?_dropWhile_not (· == ' ') blanks
      rw [Option.mem_def.mp head] at first
      simp [same] at first
  subst split
  rw [List.append_assoc] at at_
  have next : (tail ++ rest).head? = tail.head?.or rest.head? := List.head?_append
  have spanned : c.span (· == ' ') = (run, c.forward run.length) := by
    refine span_append at_ (by simpa using spaces) fun ch head => ?_
    rw [next] at head
    cases tail with
    | nil => simpa using (solid ch head).1
    | cons d ds => simpa using stop ch head
  have after := rest_forward_append at_
  refine ⟨run.length, by simp, by rw [skipBlanks, skip, spanned], ?_, ?_⟩
  · rw [peek, after, next]
    cases tail with
    | nil => exact fun head => (solid '#' head).2.1 rfl
    | cons d ds =>
      rintro same
      obtain rfl := Option.some.inj same
      rcases blank '#' (by simp) with no | no | no <;> cases no
  · cases tail with
    | nil =>
      refine .inl ⟨by simp, takeBreak?_unbroken fun ch head => ?_⟩
      rw [after] at head
      exact (solid ch head).2.2
    | cons d ds =>
      have break_ : d = '\n' ∨ d = '\r' := (blank d (by simp)).resolve_left (stop d rfl)
      obtain ⟨n, within, taken⟩ := takeBreak?_blank after break_ solid
      refine .inr ⟨run.length + (n + 1), ?_, by omega, (forward_add run.length (n + 1) c).symm ▸ taken⟩
      rw [List.length_append, List.length_cons]
      omega

end Cursor

end Tablewright.Yaml
