import Mathlib
import Tablewright.Text.Utf8

/-!
# Octets that are text

The decoder takes exactly the octets that some text is encoded as, and gives that text back, whether the octets come at
once or in blocks that may end within a character.

* `Formed`: octets that stand for one character; `formed_encodeChar` and `Formed.encodes` tie it to the encoding.
* `decodeFrom_formed`, `decodeFrom_cases`: one step of the decoder.
* `decode_eq_ok_iff`: the decoder undoes the encoding.
* `decodeInBlocks_eq_ok_iff`: so does the decoder of blocks, of any size.
* `decode_refuses_iff`, `decodeInBlocks_refuses_iff`: what they refuse is stored for no text.
-/

namespace Tablewright.Text.Utf8

/-! ## One character -/

/-- The octets of a character: a first one that tells their number, and others that may follow it. -/
def Formed (first : UInt8) (later : List UInt8) : Prop :=
  length? first = some (later.length + 1) ∧
    ∀ second others, later = second :: others → isSecond first second ∧ ∀ b ∈ others, isContinuation b

/-- The code that octets of a character stand for. -/
def codeOf (first : UInt8) (later : List UInt8) : Nat :=
  if later = [] then first.toNat
  else later.foldl (fun n b => n * 64 + payload b) (leadBits first (later.length + 1))

theorem length?_toNat (b : UInt8) :
    length? b = if b.toNat < 0x80 then some 1 else if b.toNat < 0xC2 then none else if b.toNat < 0xE0 then some 2
      else if b.toNat < 0xF0 then some 3 else if b.toNat < 0xF5 then some 4 else none := by
  simp only [length?, UInt8.lt_iff_toNat_lt, UInt8.reduceToNat]

theorem isContinuation_iff {b : UInt8} : isContinuation b ↔ 0x80 ≤ b.toNat ∧ b.toNat ≤ 0xBF := by
  simp [isContinuation, UInt8.le_iff_toNat_le]

theorem isSecond_iff {first second : UInt8} :
    isSecond first second ↔ (0x80 ≤ second.toNat ∧ second.toNat ≤ 0xBF) ∧
      (first.toNat = 0xE0 → 0xA0 ≤ second.toNat) ∧ (first.toNat = 0xED → second.toNat < 0xA0) ∧
      (first.toNat = 0xF0 → 0x90 ≤ second.toNat) ∧ (first.toNat = 0xF4 → second.toNat < 0x90) := by
  simp only [isSecond, Bool.and_eq_true, isContinuation_iff, Bool.not_eq_true', Bool.and_eq_false_imp, beq_iff_eq,
    ← UInt8.toNat_inj, UInt8.lt_iff_toNat_lt, UInt8.le_iff_toNat_le, UInt8.reduceToNat, decide_eq_false_iff_not,
    Nat.not_lt, Nat.not_le, and_assoc]

theorem char_code_valid (c : Char) : c.toNat < 0xD800 ∨ (0xDFFF < c.toNat ∧ c.toNat < 0x110000) := c.valid

/-- The encoding of a character is formed, and stands for its code. -/
theorem formed_encodeChar (c : Char) :
    ∃ first later, String.utf8EncodeChar c = first :: later ∧ Formed first later ∧ codeOf first later = c.toNat := by
  have valid := char_code_valid c
  have same : c.val.toNat = c.toNat := rfl
  -- by the number of octets, one to four
  fun_cases String.utf8EncodeChar c with
  | case1 v one =>
    refine ⟨_, _, rfl, ⟨?_, by simp⟩, ?_⟩
    · rw [length?_toNat, UInt8.toNat_ofNat', if_pos (by omega)]
      rfl
    · rw [codeOf, if_pos rfl, UInt8.toNat_ofNat']
      omega
  | case2 v some two =>
    refine ⟨_, _, rfl, ⟨?_, ?_⟩, ?_⟩
    · rw [length?_toNat, UInt8.toNat_ofNat', if_neg (by omega), if_neg (by omega), if_pos (by omega)]
      rfl
    · rintro second others ⟨⟩
      simp only [isSecond_iff, UInt8.toNat_ofNat', List.not_mem_nil, false_imp_iff, implies_true, and_true]
      omega
    · simp only [codeOf, leadBits, payload, UInt8.toNat_ofNat', List.foldl_cons, List.foldl_nil, List.length_cons,
        List.length_nil, reduceCtorEq, if_false]
      omega
  | case3 v some two three =>
    refine ⟨_, _, rfl, ⟨?_, ?_⟩, ?_⟩
    · rw [length?_toNat, UInt8.toNat_ofNat', if_neg (by omega), if_neg (by omega), if_neg (by omega), if_pos (by omega)]
      rfl
    · rintro second others ⟨⟩
      simp only [isSecond_iff, isContinuation_iff, UInt8.toNat_ofNat', List.forall_mem_singleton]
      omega
    · simp only [codeOf, leadBits, payload, UInt8.toNat_ofNat', List.foldl_cons, List.foldl_nil, List.length_cons,
        List.length_nil, reduceCtorEq, if_false]
      omega
  | case4 v some two three =>
    refine ⟨_, _, rfl, ⟨?_, ?_⟩, ?_⟩
    · rw [length?_toNat, UInt8.toNat_ofNat', if_neg (by omega), if_neg (by omega), if_neg (by omega), if_neg (by omega),
        if_pos (by omega)]
      rfl
    · rintro second others ⟨⟩
      simp only [isSecond_iff, isContinuation_iff, UInt8.toNat_ofNat', List.forall_mem_cons, List.not_mem_nil,
        false_imp_iff, implies_true, and_true]
      omega
    · simp only [codeOf, leadBits, payload, UInt8.toNat_ofNat', List.foldl_cons, List.foldl_nil, List.length_cons,
        List.length_nil, reduceCtorEq, if_false]
      omega

theorem length?_eq_some {b : UInt8} {n : Nat} (size : length? b = some n) :
    (n = 1 ∧ b.toNat < 0x80) ∨ (n = 2 ∧ 0xC2 ≤ b.toNat ∧ b.toNat < 0xE0) ∨
      (n = 3 ∧ 0xE0 ≤ b.toNat ∧ b.toNat < 0xF0) ∨ (n = 4 ∧ 0xF0 ≤ b.toNat ∧ b.toNat < 0xF5) := by
  rw [length?_toNat] at size
  repeat' split at size
  all_goals simp only [Option.some.injEq, reduceCtorEq] at size
  all_goals omega

theorem val_ofNat {n : Nat} (valid : n < 0xD800 ∨ (0xDFFF < n ∧ n < 0x110000)) : (Char.ofNat n).val.toNat = n := by
  have code := Char.toNat_ofNat n
  rwa [if_pos valid] at code

/-- Formed octets are the encoding of the character that they stand for. -/
theorem Formed.encodes {first : UInt8} {later : List UInt8} (formed : Formed first later) :
    String.utf8EncodeChar (Char.ofNat (codeOf first later)) = first :: later := by
  obtain ⟨size, follow⟩ := formed
  have bounds := length?_eq_some size
  -- the number of later octets bounds the first one, and so the code
  match later with
  | [] =>
    have code : codeOf first [] = first.toNat := by rw [codeOf, if_pos rfl]
    simp only [List.length_nil] at bounds
    rw [code, String.utf8EncodeChar, val_ofNat (by omega), if_pos (by omega), UInt8.ofNat_toNat]
  | [second] =>
    obtain ⟨second', -⟩ := follow second [] rfl
    simp only [List.length_cons, List.length_nil, isSecond_iff] at bounds second'
    have code : codeOf first [second] = first.toNat % 32 * 64 + second.toNat % 64 := by
      simp [codeOf, leadBits, payload]
    rw [code, String.utf8EncodeChar, val_ofNat (by omega), if_neg (by omega), if_pos (by omega)]
    simp only [List.cons.injEq, ← UInt8.toNat_inj, UInt8.toNat_ofNat', and_true]
    omega
  | [second, third] =>
    obtain ⟨second', others⟩ := follow second [third] rfl
    simp only [List.length_cons, List.length_nil, isSecond_iff, isContinuation_iff, List.forall_mem_singleton]
      at bounds second' others
    have code : codeOf first [second, third] =
        (first.toNat % 16 * 64 + second.toNat % 64) * 64 + third.toNat % 64 := by
      simp [codeOf, leadBits, payload]
    rw [code, String.utf8EncodeChar, val_ofNat (by omega), if_neg (by omega), if_neg (by omega), if_pos (by omega)]
    simp only [List.cons.injEq, ← UInt8.toNat_inj, UInt8.toNat_ofNat', and_true]
    omega
  | [second, third, fourth] =>
    obtain ⟨second', others⟩ := follow second [third, fourth] rfl
    obtain ⟨third', fourth'⟩ := List.forall_mem_cons.mp others
    simp only [List.length_cons, List.length_nil, isSecond_iff, isContinuation_iff, List.forall_mem_singleton]
      at bounds second' third' fourth'
    have code : codeOf first [second, third, fourth] =
        ((first.toNat % 8 * 64 + second.toNat % 64) * 64 + third.toNat % 64) * 64 + fourth.toNat % 64 := by
      simp [codeOf, leadBits, payload]
    rw [code, String.utf8EncodeChar, val_ofNat (by omega), if_neg (by omega), if_neg (by omega), if_neg (by omega)]
    simp only [List.cons.injEq, ← UInt8.toNat_inj, UInt8.toNat_ofNat', and_true]
    omega
  | _ :: _ :: _ :: _ :: more =>
    simp only [List.length_cons] at bounds
    omega

/-! ## One step -/

theorem accepted_formed {first second : UInt8} {others : List UInt8} (formed : Formed first (second :: others))
    (rest : List UInt8) :
    accepted first ((second :: others).length + 1) (second :: others ++ rest) = (second :: others).length := by
  obtain ⟨second', others'⟩ := formed.2 second others rfl
  have run : others.takeWhile isContinuation = others := List.takeWhile_eq_self_iff.mpr others'
  have all : (others ++ rest).take ((second :: others).length + 1 - 2) = others := List.take_left
  rw [List.cons_append, accepted, if_pos second', all, run, List.length_cons, Nat.add_comm]

theorem accepted_part {first x : UInt8} {part more : List UInt8} (formed : Formed first (part ++ x :: more)) :
    accepted first ((part ++ x :: more).length + 1) part = part.length := by
  cases part with
  | nil => rfl
  | cons second others =>
    obtain ⟨second', others'⟩ := formed.2 second (others ++ x :: more) rfl
    have run : others.takeWhile isContinuation = others :=
      List.takeWhile_eq_self_iff.mpr fun b member => others' b (List.mem_append_left _ member)
    have all : others.take ((second :: others ++ x :: more).length + 1 - 2) = others := by
      apply List.take_of_length_le
      simp
    rw [accepted, if_pos second', all, run, List.length_cons, Nat.add_comm]

theorem formed_of_accepted {first : UInt8} {size : Nat} {rest : List UInt8} (given : length? first = some size)
    (long : size ≠ 1) (all : accepted first size rest + 1 = size) : Formed first (rest.take (size - 1)) := by
  cases rest with
  | nil => exact absurd all (by simpa [accepted] using Ne.symm long)
  | cons second rest =>
    rw [accepted] at all
    split at all
    · next second' =>
      -- every octet that is taken goes on with the character, as none was dropped
      have count : ((rest.take (size - 2)).takeWhile isContinuation).length = size - 2 := by omega
      have short : (rest.take (size - 2)).length ≤ size - 2 := by simp
      have whole : (rest.take (size - 2)).takeWhile isContinuation = rest.take (size - 2) :=
        (List.takeWhile_prefix _).eq_of_length_le (by omega)
      have cut : (second :: rest).take (size - 1) = second :: rest.take (size - 2) := by
        rw [show size - 1 = (size - 2) + 1 by omega, List.take_succ_cons]
      rw [whole] at count
      refine ⟨?_, ?_⟩
      · rw [given, cut, List.length_cons, count]
        exact congrArg some (by omega)
      · rw [cut]
        rintro second others ⟨⟩
        exact ⟨second', List.takeWhile_eq_self_iff.mp whole⟩
    · omega

theorem decodeFrom_long {first : UInt8} {size : Nat} (given : length? first = some size) (long : size ≠ 1)
    (fuel position : Nat) (rest : List UInt8) :
    decodeFrom (fuel + 1) position (first :: rest) =
      if accepted first size rest + 1 = size then
        (decodeFrom fuel (position + size) (rest.drop (accepted first size rest))).map
          (Char.ofNat ((rest.take (accepted first size rest)).foldl (fun n b => n * 64 + payload b)
            (leadBits first size)) :: ·)
      else .error ⟨first, position, accepted first size rest + 1,
        if rest.length = accepted first size rest then .incomplete else .continuation⟩ := by
  rw [decodeFrom, given]
  split
  · next none => cases none
  · next one => exact absurd (Option.some.inj one) long
  · next same =>
    obtain rfl := Option.some.inj same
    dsimp only
    split
    · rfl
    · split <;> rfl

theorem decodeFrom_formed {first : UInt8} {later : List UInt8} (formed : Formed first later) (fuel position : Nat)
    (rest : List UInt8) :
    decodeFrom (fuel + 1) position (first :: (later ++ rest)) =
      (decodeFrom fuel (position + (later.length + 1)) rest).map (Char.ofNat (codeOf first later) :: ·) := by
  cases later with
  | nil =>
    rw [decodeFrom, formed.1]
    rfl
  | cons second others =>
    rw [decodeFrom_long formed.1 (by simp), accepted_formed formed, if_pos rfl, List.take_left, List.drop_left, codeOf,
      if_neg (List.cons_ne_nil _ _)]

theorem decodeFrom_part {first x : UInt8} {part more : List UInt8} (formed : Formed first (part ++ x :: more))
    (fuel position : Nat) :
    decodeFrom (fuel + 1) position (first :: part) = .error ⟨first, position, part.length + 1, .incomplete⟩ := by
  rw [decodeFrom_long formed.1 (by simp), accepted_part formed, if_neg (by simp), if_pos rfl]

/-- The decoder takes a character from the front or refuses the first octet, however much fuel it has. -/
theorem decodeFrom_cases (first : UInt8) (rest : List UInt8) :
    (∃ later tail, rest = later ++ tail ∧ Formed first later) ∨
    ∃ count reason, ∀ fuel position, decodeFrom (fuel + 1) position (first :: rest) =
      .error ⟨first, position, count, reason⟩ := by
  cases size : length? first with
  | none => exact .inr ⟨1, .start, fun fuel position => by rw [decodeFrom, size]⟩
  | some n =>
    by_cases one : n = 1
    · exact .inl ⟨[], rest, rfl, by rw [size, one]; rfl, by simp⟩
    · by_cases all : accepted first n rest + 1 = n
      · exact .inl ⟨rest.take (n - 1), rest.drop (n - 1), (List.take_append_drop _ _).symm,
          formed_of_accepted size one all⟩
      · exact .inr ⟨_, _, fun fuel position => by rw [decodeFrom_long size one, if_neg all]⟩

/-! ## Whole texts -/

/-- The octets of characters. -/
def encode (cs : List Char) : List UInt8 := cs.flatMap String.utf8EncodeChar

@[simp] theorem encode_nil : encode [] = [] := rfl

@[simp] theorem encode_cons (c : Char) (cs : List Char) : encode (c :: cs) = String.utf8EncodeChar c ++ encode cs := rfl

@[simp] theorem encode_append (cs ds : List Char) : encode (cs ++ ds) = encode cs ++ encode ds :=
  List.flatMap_append

/-- The octets of a text start with those of one character only. -/
theorem Formed.front_unique {first : UInt8} {later later' tail tail' : List UInt8} (formed : Formed first later)
    (formed' : Formed first later') (same : later ++ tail = later' ++ tail') : later = later' ∧ tail = tail' := by
  have lengths : later.length = later'.length := by
    have sizes := formed.1.symm.trans formed'.1
    simpa using sizes
  exact List.append_inj same lengths

/-- The octets of a text that has any start with those of its first character. -/
theorem formed_of_cons_eq_encode {first : UInt8} {octets : List UInt8} {cs : List Char}
    (spelled : first :: octets = encode cs) :
    ∃ later rest, Formed first later ∧ octets = later ++ encode rest ∧ cs = Char.ofNat (codeOf first later) :: rest := by
  cases cs with
  | nil => cases spelled
  | cons c rest =>
    obtain ⟨first', later, front, formed, code⟩ := formed_encodeChar c
    rw [encode_cons, front, List.cons_append, List.cons.injEq] at spelled
    obtain ⟨rfl, rfl⟩ := spelled
    exact ⟨later, rest, formed, rfl, by rw [code, Char.ofNat_toNat]⟩

theorem Formed.cons_eq_encode {first : UInt8} {later tail : List UInt8} (formed : Formed first later) {cs : List Char} :
    first :: (later ++ tail) = encode cs ↔
      ∃ rest, cs = Char.ofNat (codeOf first later) :: rest ∧ tail = encode rest := by
  constructor
  · intro spelled
    obtain ⟨later', rest, formed', same, rfl⟩ := formed_of_cons_eq_encode spelled
    obtain ⟨rfl, rest'⟩ := formed.front_unique formed' same
    exact ⟨rest, rfl, rest'⟩
  · rintro ⟨rest, rfl, rfl⟩
    rw [encode_cons, formed.encodes, List.cons_append]

theorem map_eq_ok_iff {α β : Type} {f : α → β} {x : Except Fault α} {b : β} :
    x.map f = .ok b ↔ ∃ a, x = .ok a ∧ f a = b := by
  cases x with
  | ok a => simp [Except.map]
  | error fault => simp [Except.map]

/-- The decoder undoes the encoding, as long as it has fuel for every octet. -/
theorem decodeFrom_eq_ok_iff {fuel : Nat} {octets : List UInt8} (enough : octets.length ≤ fuel) (position : Nat)
    {cs : List Char} : decodeFrom fuel position octets = .ok cs ↔ octets = encode cs := by
  have atEnd : ∀ {cs}, (.ok [] : Except Fault (List Char)) = .ok cs ↔ [] = encode cs := by
    intro cs
    cases cs with
    | nil => simp
    | cons c rest => simp [String.utf8EncodeChar_ne_nil]
  induction fuel generalizing position octets cs with
  | zero =>
    obtain rfl := List.length_eq_zero_iff.mp (Nat.le_zero.mp enough)
    exact atEnd
  | succ fuel ih =>
    cases octets with
    | nil => exact atEnd
    | cons first rest =>
      cases decodeFrom_cases first rest with
      | inl taken =>
        obtain ⟨later, tail, rfl, formed⟩ := taken
        have short : tail.length ≤ fuel := by
          simp only [List.length_cons, List.length_append] at enough
          omega
        rw [decodeFrom_formed formed, formed.cons_eq_encode, map_eq_ok_iff]
        constructor
        · rintro ⟨rest, found, rfl⟩
          exact ⟨rest, rfl, (ih short _).mp found⟩
        · rintro ⟨rest, rfl, spelled⟩
          exact ⟨rest, (ih short _).mpr spelled, rfl⟩
      | inr refused =>
        obtain ⟨count, reason, refused⟩ := refused
        rw [refused]
        constructor
        · intro impossible
          cases impossible
        · intro spelled
          -- with fuel for one character the decoder would take the first one of the text
          obtain ⟨later, rest, formed, rfl, -⟩ := formed_of_cons_eq_encode spelled
          have taken := decodeFrom_formed formed 0 position (encode rest)
          rw [refused] at taken
          cases taken

/-- The decoder takes exactly the octets of texts. -/
theorem decode_eq_ok_iff {octets : List UInt8} {cs : List Char} : decode octets = .ok cs ↔ octets = encode cs :=
  decodeFrom_eq_ok_iff (Nat.le_succ _) 0

theorem decode_encode (cs : List Char) : decode (encode cs) = .ok cs := decode_eq_ok_iff.mpr rfl

theorem encode_append_eq_encode {cs ds : List Char} {octets : List UInt8} :
    encode cs ++ octets = encode ds ↔ ∃ rest, ds = cs ++ rest ∧ octets = encode rest := by
  induction cs generalizing ds with
  | nil => simp
  | cons c cs ih =>
    obtain ⟨first, later, front, formed, code⟩ := formed_encodeChar c
    rw [encode_cons, front, List.append_assoc, List.cons_append, formed.cons_eq_encode, code, Char.ofNat_toNat]
    constructor
    · rintro ⟨rest, rfl, same⟩
      obtain ⟨rest, rfl, rfl⟩ := ih.mp same
      exact ⟨rest, rfl, rfl⟩
    · rintro ⟨rest, rfl, rfl⟩
      exact ⟨cs ++ rest, rfl, (encode_append cs rest).symm⟩

/-! ## Blocks -/

/-- No text starts with octets that are refused at once, unless they are the front of a character. -/
theorem ne_encode_of_refused {first : UInt8} {rest : List UInt8} {fault : Fault}
    (here : decodeFrom 1 0 (first :: rest) = .error fault) (whole : fault.reason ≠ .incomplete) (more : List UInt8)
    (ds : List Char) : first :: rest ++ more ≠ encode ds := by
  intro spelled
  obtain ⟨later, _, formed, spelled, -⟩ := formed_of_cons_eq_encode spelled
  -- either the character is there as a whole, or only its front is
  rcases List.append_eq_append_iff.mp spelled with ⟨missing, rfl, -⟩ | ⟨tail, rfl, -⟩
  · cases missing with
    | nil =>
      have taken := decodeFrom_formed formed 0 0 []
      rw [List.append_nil, List.append_nil, here] at taken
      cases taken
    | cons x missing =>
      rw [decodeFrom_part formed] at here
      cases here
      exact whole rfl
  · rw [decodeFrom_formed formed] at here
    cases here

/-- A fault stands after the octets of a text.  Unless what is there is the front of a character, nothing that follows
can mend it. -/
theorem decodeFrom_fault {fuel position : Nat} {octets : List UInt8} {fault : Fault}
    (refused : decodeFrom fuel position octets = .error fault) :
    ∃ cs tail, octets = encode cs ++ tail ∧ fault.start = position + (encode cs).length ∧
      (fault.reason ≠ .incomplete → ∀ more ds, tail ++ more ≠ encode ds) := by
  -- characters in front move the place of the fault, and nothing else
  induction fuel generalizing position octets with
  | zero => cases refused
  | succ fuel ih =>
    cases octets with
    | nil => cases refused
    | cons first rest =>
      cases decodeFrom_cases first rest with
      | inl taken =>
        obtain ⟨later, tail, rfl, formed⟩ := taken
        rw [decodeFrom_formed formed] at refused
        cases found : decodeFrom fuel (position + (later.length + 1)) tail with
        | ok cs =>
          rw [found] at refused
          cases refused
        | error fault' =>
          rw [found] at refused
          cases refused
          obtain ⟨cs, tail, rfl, start, broken⟩ := ih found
          refine ⟨Char.ofNat (codeOf first later) :: cs, tail, ?_, ?_, broken⟩
          · rw [encode_cons, formed.encodes, List.append_assoc, List.cons_append]
          · rw [start, encode_cons, formed.encodes, List.length_append, List.length_cons]
            omega
      | inr here =>
        obtain ⟨count, reason, here⟩ := here
        rw [here] at refused
        cases refused
        exact ⟨[], first :: rest, rfl, rfl, fun whole => ne_encode_of_refused (here 0 0) whole⟩

/-- The octets of a fault's text can be read again, and what is left of an incomplete character may go on. -/
theorem decode_fault {octets : List UInt8} {fault : Fault} (refused : decode octets = .error fault) :
    ∃ cs, decode (octets.take fault.start) = .ok cs ∧ octets = encode cs ++ octets.drop fault.start ∧
      (fault.reason ≠ .incomplete → ∀ more ds, octets ++ more ≠ encode ds) := by
  obtain ⟨cs, tail, rfl, start, broken⟩ := decodeFrom_fault refused
  rw [Nat.zero_add] at start
  refine ⟨cs, ?_, ?_, fun whole more ds spelled => ?_⟩
  · rw [start, List.take_left, decode_encode]
  · rw [start, List.drop_left]
  · rw [List.append_assoc] at spelled
    obtain ⟨rest, -, spelled⟩ := encode_append_eq_encode.mp spelled
    exact broken whole more rest spelled

/-- A text and what is read after it. -/
theorem map_append_eq_ok_iff {later : Except Fault (List Char)} {octets : List UInt8}
    (read : ∀ cs, later = .ok cs ↔ octets = encode cs) {ds cs : List Char} :
    later.map (ds ++ ·) = .ok cs ↔ encode ds ++ octets = encode cs := by
  rw [map_eq_ok_iff, encode_append_eq_encode]
  constructor
  · rintro ⟨rest, found, rfl⟩
    exact ⟨rest, rfl, (read rest).mp found⟩
  · rintro ⟨rest, rfl, spelled⟩
    exact ⟨rest, (read rest).mpr spelled, rfl⟩

/-- The invariant of reading blocks: the octets before a block and those from it on are the text that is left. -/
theorem decodeBlocks_eq_ok_iff {size : Nat} (positive : 0 < size) {fuel : Nat} {before octets : List UInt8}
    (enough : octets.length < fuel) {cs : List Char} :
    decodeBlocks size fuel before octets = .ok cs ↔ before ++ octets = encode cs := by
  induction fuel generalizing before octets cs with
  | zero => omega
  | succ fuel ih =>
    have cut : before ++ octets = before ++ octets.take size ++ octets.drop size := by
      rw [List.append_assoc, List.take_append_drop]
    rw [decodeBlocks]
    cases octets with
    | nil =>
      -- the empty block at the end
      rw [List.take_nil, List.append_nil]
      cases found : decode before with
      | ok ds => simp [← decode_eq_ok_iff, found]
      | error fault => simp [← decode_eq_ok_iff, found]
    | cons b octets =>
      have block : ((b :: octets).take size).isEmpty = false := by
        simp only [List.isEmpty_eq_false_iff, ne_eq, List.take_eq_nil_iff, reduceCtorEq, or_false]
        omega
      have fewer : ((b :: octets).drop size).length < fuel := by
        rw [List.length_drop]
        simp only [List.length_cons] at enough ⊢
        omega
      rw [cut]
      cases found : decode (before ++ (b :: octets).take size) with
      | ok ds =>
        simp only [block, Bool.false_eq_true, if_false]
        rw [decode_eq_ok_iff.mp found]
        exact map_append_eq_ok_iff fun _ => ih fewer
      | error fault =>
        obtain ⟨ds, front, split, broken⟩ := decode_fault found
        dsimp only
        by_cases incomplete : fault.reason = .incomplete
        · have whole : before ++ (b :: octets).take size ++ (b :: octets).drop size =
              encode ds ++ ((before ++ (b :: octets).take size).drop fault.start ++ (b :: octets).drop size) := by
            rw [← List.append_assoc, ← split]
          rw [if_pos ⟨incomplete, by simp [block]⟩, front, whole]
          exact map_append_eq_ok_iff fun _ => ih fewer
        · rw [if_neg fun both => incomplete both.1]
          constructor
          · intro impossible
            cases impossible
          · intro spelled
            exact absurd spelled (broken incomplete _ cs)

/-- The decoder of blocks takes the octets of texts too, wherever the blocks end. -/
theorem decodeInBlocks_eq_ok_iff {size : Nat} (positive : 0 < size) {octets : List UInt8} {cs : List Char} :
    decodeInBlocks size octets = .ok cs ↔ octets = encode cs :=
  decodeBlocks_eq_ok_iff positive (by omega)

/-! ## Octets of texts -/

theorem toList_loop (bytes : ByteArray) (i : Nat) (reversed : List UInt8) :
    ByteArray.toList.loop bytes i reversed = reversed.reverse ++ bytes.data.toList.drop i := by
  induction i, reversed using ByteArray.toList.loop.induct bytes with
  | case1 i reversed inside ih =>
    have inData : i < bytes.data.toList.length := by simpa using inside
    have here : bytes.get! i = bytes.data.toList[i] := by
      rw [Array.getElem_toList]
      exact getElem!_pos bytes.data i (by simpa using inside)
    rw [ByteArray.toList.loop, if_pos inside, ih, List.drop_eq_getElem_cons inData, here]
    simp
  | case2 i reversed outside =>
    have atEnd : bytes.data.toList.length ≤ i := by simpa using outside
    rw [ByteArray.toList.loop, if_neg outside, List.drop_eq_nil_of_le atEnd, List.append_nil]

theorem toList_eq (bytes : ByteArray) : bytes.toList = bytes.data.toList := by
  rw [ByteArray.toList, toList_loop, List.reverse_nil, List.nil_append, List.drop_zero]

/-- The encoding is the one that texts are stored in. -/
theorem toList_eq_encode_iff {octets : ByteArray} {cs : List Char} :
    octets.toList = encode cs ↔ (String.ofList cs).toUTF8 = octets := by
  have stored : (String.ofList cs).toUTF8.data.toList = encode cs := by
    rw [String.toUTF8_eq_toByteArray, String.toByteArray_ofList, List.utf8Encode, List.toList_data_toByteArray, encode]
  rw [toList_eq, ← stored]
  constructor
  · intro same
    exact (ByteArray.ext (Array.toList_inj.mp same)).symm
  · rintro rfl
    rfl

/-- A decoder that undoes the encoding refuses octets exactly if no text is stored as them. -/
theorem refuses_iff {octets : ByteArray} {decoded : Except Fault (List Char)}
    (undoes : ∀ cs, decoded = .ok cs ↔ octets.toList = encode cs) :
    (∃ fault, decoded = .error fault) ↔ ∀ text : String, text.toUTF8 ≠ octets := by
  cases decoded with
  | ok cs =>
    have stored := toList_eq_encode_iff.mp ((undoes cs).mp rfl)
    simp only [reduceCtorEq, exists_false, false_iff, not_forall, not_not]
    exact ⟨_, stored⟩
  | error fault =>
    simp only [Except.error.injEq, exists_eq', true_iff]
    intro text stored
    have read := (undoes text.toList).mpr (toList_eq_encode_iff.mpr (by rw [String.ofList_toList, stored]))
    cases read

theorem decode_refuses_iff {octets : ByteArray} :
    (∃ fault, decode octets.toList = .error fault) ↔ ∀ text : String, text.toUTF8 ≠ octets :=
  refuses_iff fun _ => decode_eq_ok_iff

theorem decodeInBlocks_refuses_iff {size : Nat} (positive : 0 < size) {octets : ByteArray} :
    (∃ fault, decodeInBlocks size octets.toList = .error fault) ↔ ∀ text : String, text.toUTF8 ≠ octets :=
  refuses_iff fun _ => decodeInBlocks_eq_ok_iff positive

end Tablewright.Text.Utf8
