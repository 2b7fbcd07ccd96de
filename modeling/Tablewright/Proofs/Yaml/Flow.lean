import Tablewright.Proofs.Yaml.Numerals
import Tablewright.Proofs.Yaml.Quotes
import Tablewright.Yaml.Lexer

/-!
# Tokens of JSON documents

The tokens that are found in a portable JSON document read as YAML: its brackets, commas, colons and scalars, with the
mark of a key before each name.

* `Lexer.Step`: one token is read; `ofLexer_steps`: the reading of a text is made of steps.
* `Lexer.Stands`: a state in brackets before some text; `Leads`: steps from some states to others.
* `tokens`: the tokens of a form; `leads_form`: they are what is read from its characters.
* `ofText_document`: the tokens of a whole document.
-/

namespace Tablewright.Yaml

open Json (Form Items Entries Name Space Numeral Word)

namespace Lexer

variable {l : Lexer}

/-! ## States without required keys -/

/-- A state outside of block collections, in which no key has to end. -/
structure Calm (l : Lexer) : Prop where
  unfinished : l.finished = false
  indent : l.indent = -1
  outer : l.outer = []
  optional : ∀ k ∈ l.keys, k.2.required = false

/-- The state without the keys that cannot end any more. -/
def fresh (l : Lexer) : Lexer := { l with keys := l.keys.filter fun k => !l.isStale k.2 }

namespace Calm

theorem fresh (calm : Calm l) : Calm l.fresh where
  unfinished := calm.unfinished
  indent := calm.indent
  outer := calm.outer
  optional := fun k member => calm.optional k (List.mem_of_mem_filter member)

theorem dropStale (calm : Calm l) : l.dropStale = .ok l.fresh := by
  rw [Lexer.dropStale, if_neg]
  · rfl
  · intro some
    obtain ⟨k, member, stale⟩ := List.any_eq_true.mp some
    simp [calm.optional k member] at stale

theorem unwind (calm : Calm l) (column : Int) : l.unwind column = l := by
  rw [Lexer.unwind, calm.outer]
  split <;> rfl

theorem dropKey (calm : Calm l) : ∃ keys : List (Int × PendingKey), (∀ k ∈ keys, k.2.required = false) ∧
    l.dropKey = .ok { l with keys := keys } := by
  rw [Lexer.dropKey]
  cases found : l.key? with
  | none => exact ⟨l.keys, calm.optional, rfl⟩
  | some k =>
    have optional : k.required = false := by
      obtain ⟨earlier, later, split, -⟩ := List.lookup_eq_some_iff.mp found
      exact calm.optional (l.flow, k) (by simp [split])
    refine ⟨l.forgetKey.keys, fun k member => calm.optional k (List.mem_of_mem_filter member), ?_⟩
    simp only [optional]
    rfl

/-- Where a key may start, it is noted as one that need not end. -/
theorem noteKey_allowed (calm : Calm l) (allowed : l.keyAllowed = true) :
    ∃ keys : List (Int × PendingKey), (∀ k ∈ keys, k.2.required = false) ∧ l.noteKey = .ok { l with
      keys := (l.flow, ⟨l.reversed.length, false, l.cursor.index, l.cursor.line, l.cursor.column⟩) :: keys } := by
  obtain ⟨keys, optional, dropped⟩ := calm.dropKey
  have outside : (l.indent == l.column) = false := by
    rw [calm.indent, column, beq_eq_false_iff_ne]
    omega
  refine ⟨keys, optional, ?_⟩
  rw [noteKey, if_pos allowed, dropped]
  simp only [bind, Except.bind, outside, Bool.and_false]

theorem noteKey (calm : Calm l) : ∃ keys : List (Int × PendingKey), (∀ k ∈ keys, k.2.required = false) ∧
    l.noteKey = .ok { l with keys := keys } := by
  by_cases allowed : l.keyAllowed = true
  · obtain ⟨keys, optional, noted⟩ := calm.noteKey_allowed allowed
    exact ⟨_, List.forall_mem_cons.mpr ⟨rfl, optional⟩, noted⟩
  · exact ⟨l.keys, calm.optional, by rw [Lexer.noteKey, if_neg allowed]⟩

end Calm

/-! ## Steps -/

/-- One token is read, of at least one character. -/
structure Step (l l' : Lexer) : Prop where
  unfinished : l.finished = false
  next : l.next = .ok l'
  shorter : l'.cursor.rest.length < l.cursor.rest.length

/-- What is read after some steps is what is read in the end; the characters that are left bound the steps to come. -/
theorem ofLexer_steps {l' : Lexer} (steps : Relation.ReflTransGen Step l l') {fuel : Nat} (spare : Nat)
    (enough : l.cursor.rest.length + spare ≤ fuel) : ∃ fuel', l'.cursor.rest.length + spare ≤ fuel' ∧
      Tokens.ofLexer fuel l = Tokens.ofLexer fuel' l' := by
  induction steps with
  | refl => exact ⟨fuel, enough, rfl⟩
  | tail _ step ih =>
    obtain ⟨fuel', enough', same⟩ := ih
    have shorter := step.shorter
    obtain ⟨fuel', rfl⟩ : ∃ n, fuel' = n + 1 := Nat.exists_eq_add_one_of_ne_zero (by omega)
    refine ⟨fuel', by omega, ?_⟩
    rw [same, Tokens.ofLexer, step.unfinished, step.next]
    rfl

/-- A state before some text, maybe with white space before it, within so many brackets and after these tokens.  If
`key` is true, a key may start there. -/
structure Stands (key : Bool) (depth : Nat) (reversed : List Token) (rest : List Char) (l : Lexer) : Prop
    extends Calm l where
  flow : l.flow = depth
  read : l.reversed = reversed
  allowed : key = true → l.keyAllowed = true
  left : ∃ blanks, (∀ ch ∈ blanks, IsBlank ch) ∧ l.cursor.rest = blanks ++ rest

/-- From all states of one kind some steps lead to a state of another. -/
def Leads (p q : Lexer → Prop) : Prop := ∀ l, p l → ∃ l', Relation.ReflTransGen Step l l' ∧ q l'

theorem Leads.trans {p q r : Lexer → Prop} (first : Leads p q) (second : Leads q r) : Leads p r := by
  intro l start
  obtain ⟨m, steps, middle⟩ := first l start
  obtain ⟨n, more, finish⟩ := second m middle
  exact ⟨n, steps.trans more, finish⟩

section

variable {key key' : Bool} {depth depth' : Nat} {reversed reversed' : List Token} {rest rest' blanks : List Char}

theorem leads_blank (blank : ∀ ch ∈ blanks, IsBlank ch) :
    Leads (Stands key depth reversed (blanks ++ rest)) (Stands key depth reversed rest) := by
  intro l stands
  obtain ⟨more, blank', left⟩ := stands.left
  refine ⟨l, .refl, { stands with left := ⟨more ++ blanks, ?_, by rw [left, List.append_assoc]⟩ }⟩
  exact List.forall_mem_append.mpr ⟨blank', blank⟩

theorem Stands.fresh (stands : Stands key depth reversed rest l) : Stands key depth reversed rest l.fresh :=
  { stands.toCalm.fresh with flow := stands.flow, read := stands.read, allowed := stands.allowed, left := stands.left }

/-- White space is passed; within it keys may be allowed, but no more forbidden. -/
theorem skipToToken_blank (at_ : l.cursor.rest = blanks ++ rest) (blank : ∀ ch ∈ blanks, IsBlank ch)
    (solid : Solid rest)
    (fuel : Nat) (enough : blanks.length < fuel) : ∃ allowed : Bool, (l.keyAllowed = true → allowed = true) ∧
      l.skipToToken fuel = { l with cursor := l.cursor.forward blanks.length, keyAllowed := allowed } := by
  induction fuel generalizing l blanks with
  | zero => simp at enough
  | succ fuel ih =>
    obtain ⟨k, within, skipped, uncommented, ended | ⟨n, within', further, taken⟩⟩ :=
      Cursor.skipBlanks_blank at_ blank solid
    · refine ⟨l.keyAllowed, id, ?_⟩
      rw [skipToToken, skipped, Cursor.skipComment, if_neg (by simpa using uncommented), ended.2, ended.1]
    · have next := Cursor.rest_forward_of_le at_ within'
      have blank' : ∀ ch ∈ blanks.drop n, IsBlank ch := fun ch member => blank ch (List.mem_of_mem_drop member)
      obtain ⟨allowed, kept, same⟩ := ih
        (l := { l with cursor := l.cursor.forward n, keyAllowed := l.keyAllowed || !l.inFlow }) next blank' (by
          rw [List.length_drop]
          omega)
      refine ⟨allowed, fun yes => kept (by simp [yes]), ?_⟩
      rw [skipToToken, skipped, Cursor.skipComment, if_neg (by simpa using uncommented), taken]
      refine same.trans ?_
      rw [← Cursor.forward_add, List.length_drop, Nat.add_sub_cancel' within']

/-- The next token is the one that starts after the white space. -/
theorem Stands.arrive (stands : Stands key depth reversed rest l) (solid : Solid rest) :
    ∃ blanks l', l.cursor.rest = blanks ++ rest ∧ l'.cursor.rest = rest ∧ l'.cursor = l.cursor.forward blanks.length ∧
      l'.keys = l.keys.filter (fun k => !l'.isStale k.2) ∧ Stands key depth reversed rest l' ∧
      l.next = l'.token >>= dropStale := by
  obtain ⟨blanks, blank, left⟩ := stands.left
  obtain ⟨allowed, kept, skipped⟩ := skipToToken_blank left blank solid (l.cursor.rest.length + 1) (by
    rw [left, List.length_append]
    omega)
  have arrived : Stands key depth reversed rest
      { l with cursor := l.cursor.forward blanks.length, keyAllowed := allowed } :=
    { stands with
      allowed := fun yes => kept (stands.allowed yes)
      left := ⟨[], by simp, Cursor.rest_forward_append left⟩ }
  refine ⟨blanks, _, left, Cursor.rest_forward_append left, rfl, rfl, arrived.fresh, ?_⟩
  rw [next, skipped, arrived.dropStale]
  simp only [bind, Except.bind, arrived.fresh.unwind]

theorem step_of_token {l₀ l₁ : Lexer} (unfinished : l.finished = false) (next : l.next = l₀.token >>= dropStale)
    (read : l₀.token = .ok l₁) (calm : Calm l₁) (shorter : l₁.cursor.rest.length < l.cursor.rest.length) :
    Step l l₁.fresh :=
  ⟨unfinished, by rw [next, read]; exact calm.dropStale, shorter⟩

theorem leads_token (solid : Solid rest)
    (token : ∀ l, Stands key depth reversed rest l → l.cursor.rest = rest → ∃ l', l.token = .ok l' ∧
      l'.cursor.rest.length < rest.length ∧ Stands key' depth' reversed' rest' l') :
    Leads (Stands key depth reversed rest) (Stands key' depth' reversed' rest') := by
  intro l stands
  obtain ⟨blanks, l₀, left, at₀, -, -, stands₀, next⟩ := stands.arrive solid
  obtain ⟨l₁, read, shorter, stands₁⟩ := token l₀ stands₀ at₀
  refine ⟨l₁.fresh, .single (step_of_token stands.unfinished next read stands₁.toCalm ?_), stands₁.fresh⟩
  rw [left, List.length_append]
  exact Nat.lt_add_left _ shorter

/-! ## Brackets and commas -/

theorem solid_cons {ch : Char} (solid : ch ≠ ' ' ∧ ch ≠ '#' ∧ isBreak ch = false) : Solid (ch :: rest) := by
  intro first head
  obtain rfl := Option.some.inj head
  exact solid

/-- No marker of a document stands where the line goes on otherwise. -/
theorem unmarked {ch : Char} (at_ : l.cursor.rest = ch :: rest) (other : ch ≠ '-' ∧ ch ≠ '.') :
    l.cursor.atTriple '-' = false ∧ l.cursor.atTriple '.' = false := by
  refine ⟨Cursor.atTriple_of_head fun d head => ?_, Cursor.atTriple_of_head fun d head => ?_⟩ <;>
    (rw [at_] at head; obtain rfl := Option.some.inj head)
  · exact other.1
  · exact other.2

theorem forward_cons {ch : Char} (at_ : l.cursor.rest = ch :: rest) : (l.cursor.forward 1).rest = rest := by
  rw [Cursor.rest_forward, at_]
  rfl

/-- The state after a token that goes up to some place. -/
theorem Stands.after (stands : Stands key depth reversed rest l) {keys : List (Int × PendingKey)}
    (optional : ∀ k ∈ keys, k.2.required = false) {flow : Int} (level : flow = depth') (allowed : Bool) (t : Token)
    {c : Cursor}     (left : c.rest = rest') : Stands allowed depth' (t :: reversed) rest'
      ({ l with keys := keys, flow := flow, keyAllowed := allowed }.arrive c t) where
  unfinished := stands.unfinished
  indent := stands.indent
  outer := stands.outer
  optional := optional
  flow := level
  read := congrArg (t :: ·) stands.read
  allowed := id
  left := ⟨[], by simp, left⟩

theorem leads_open {ch : Char} {t : Token}
    (opens : ch = '[' ∧ t = .flowSequenceStart ∨ ch = '\x7b' ∧ t = .flowMappingStart) :
    Leads (Stands key depth reversed (ch :: rest)) (Stands true (depth + 1) (t :: reversed) rest) := by
  refine leads_token (solid_cons (by rcases opens with ⟨rfl, -⟩ | ⟨rfl, -⟩ <;> decide)) fun l stands at_ => ?_
  obtain ⟨keys, optional, noted⟩ := stands.noteKey
  have token : l.token = l.openFlow t := by
    have no := unmarked at_ (by rcases opens with ⟨rfl, -⟩ | ⟨rfl, -⟩ <;> decide)
    rcases opens with ⟨rfl, rfl⟩ | ⟨rfl, rfl⟩ <;> simp [Lexer.token, Cursor.peek, at_, no]
  have next := forward_cons at_
  refine ⟨_, by rw [token, openFlow, noted]; rfl, ?_, stands.after optional ?_ true t next⟩
  · exact (congrArg List.length next).trans_lt (Nat.lt_succ_self _)
  · simp [stands.flow]

theorem leads_close {ch : Char} {t : Token}
    (closes : ch = ']' ∧ t = .flowSequenceEnd ∨ ch = '\x7d' ∧ t = .flowMappingEnd) :
    Leads (Stands key (depth + 1) reversed (ch :: rest)) (Stands false depth (t :: reversed) rest) := by
  refine leads_token (solid_cons (by rcases closes with ⟨rfl, -⟩ | ⟨rfl, -⟩ <;> decide)) fun l stands at_ => ?_
  obtain ⟨keys, optional, dropped⟩ := stands.dropKey
  have token : l.token = l.closeFlow t := by
    have no := unmarked at_ (by rcases closes with ⟨rfl, -⟩ | ⟨rfl, -⟩ <;> decide)
    rcases closes with ⟨rfl, rfl⟩ | ⟨rfl, rfl⟩ <;> simp [Lexer.token, Cursor.peek, at_, no]
  have next := forward_cons at_
  refine ⟨_, by rw [token, closeFlow, dropped]; rfl, ?_, stands.after optional ?_ false t next⟩
  · exact (congrArg List.length next).trans_lt (Nat.lt_succ_self _)
  · simp [stands.flow]

theorem leads_comma : Leads (Stands key depth reversed (',' :: rest))
    (Stands true depth (.flowEntry :: reversed) rest) := by
  refine leads_token (solid_cons (by decide)) fun l stands at_ => ?_
  obtain ⟨keys, optional, dropped⟩ := stands.dropKey
  have token : l.token = l.flowEntry := by simp [Lexer.token, Cursor.peek, at_, unmarked at_]
  have next := forward_cons at_
  refine ⟨_, by rw [token, flowEntry, dropped]; rfl, ?_, stands.after optional stands.flow true .flowEntry next⟩
  exact (congrArg List.length next).trans_lt (Nat.lt_succ_self _)

/-! ## Scalars -/

/-- A text in quotes, after which the keys are those that were noted before it. -/
theorem quoted_token {glyphs : List Json.Glyph} (portable : ∀ g ∈ glyphs, g.Portable)
    (stands : Stands key depth reversed ('"' :: (Json.rawChars glyphs ++ '"' :: rest)) l)
    (at_ : l.cursor.rest = '"' :: (Json.rawChars glyphs ++ '"' :: rest)) {keys : List (Int × PendingKey)}
    (optional : ∀ k ∈ keys, k.2.required = false) (noted : l.noteKey = .ok { l with keys := keys }) :
    ∃ l', l.token = .ok l' ∧
      l'.cursor = l.cursor.forward ((Json.rawChars glyphs).length + 2) ∧ l'.cursor.rest = rest ∧ l'.keys = keys ∧
      Stands false depth (.scalar (String.ofList (Json.decoded glyphs)) false :: reversed) rest l' := by
  have token : l.token = l.quoted true := by simp [Lexer.token, Cursor.peek, at_, unmarked at_]
  have read := Quoted.scalar_glyphs portable at_
  have next : (l.cursor.forward ((Json.rawChars glyphs).length + 2)).rest = rest := by
    rw [Cursor.rest_forward, at_]
    simp
  exact ⟨_, by rw [token, quoted, word, noted]; simp only [bind, Except.bind, read]; rfl, rfl, next, rfl,
    stands.after optional stands.flow false _ next⟩

theorem leads_quoted {glyphs : List Json.Glyph} (portable : ∀ g ∈ glyphs, g.Portable) :
    Leads (Stands key depth reversed ('"' :: (Json.rawChars glyphs ++ '"' :: rest)))
      (Stands false depth (.scalar (String.ofList (Json.decoded glyphs)) false :: reversed) rest) := by
  refine leads_token (solid_cons (by decide)) fun l stands at_ => ?_
  obtain ⟨keys, optional, noted⟩ := stands.noteKey
  obtain ⟨l', read, -, next, -, stands'⟩ := quoted_token portable stands at_ optional noted
  refine ⟨l', read, ?_, stands'⟩
  rw [next, List.length_cons, List.length_append, List.length_cons]
  omega

def Begins (word : List Char) : Prop := ∃ ch tail, word = ch :: tail ∧
  (Plain.indicators.contains ch = false ∧ ch ≠ '.' ∨
    ch = '-' ∧ ∃ d ds, tail = d :: ds ∧ endsWord (some d) = false ∧ d ≠ '-')

theorem token_plain {word : List Char} (begins : Begins word) (bare : ∀ ch ∈ word, IsBare ch)
    (at_ : l.cursor.rest = word ++ rest) : l.token = l.plain := by
  obtain ⟨ch, tail, rfl, free | ⟨rfl, d, ds, rfl, goes, single⟩⟩ := begins
  · have apart : ∀ mark ∈ Plain.indicators, ch ≠ mark := by
      rintro mark member rfl
      simp [member] at free
    have no := unmarked at_ ⟨apart '-' (by decide), free.2⟩
    have solid := (bare ch List.mem_cons_self).1
    have starts : Plain.starts l.inFlow l.cursor = true := by
      simp only [Plain.starts, Cursor.peek, at_, List.cons_append, List.head?_cons, solid, free.1]
      rfl
    have listed : Plain.indicators = ['-', '?', ':', ',', '[', ']', '\x7b', '\x7d', '#', '&', '*', '!', '|', '>', '\'',
      '"', '%',
        '@', '\u0060'] := by decide
    simp only [listed, List.forall_mem_cons, List.not_mem_nil, false_implies, implies_true, and_true] at apart
    simp [Lexer.token, Cursor.peek, at_, no, apart, starts]
  · have no := Cursor.atTriple_of_next at_ single
    have noPoint : l.cursor.atTriple '.' = false := Cursor.atTriple_of_head fun ch head => by
      rw [at_] at head
      obtain rfl := Option.some.inj head
      decide
    have starts : Plain.starts l.inFlow l.cursor = true := by
      simp [Plain.starts, Cursor.peek, Cursor.peekNext, at_, goes]
    simp [Lexer.token, Cursor.peek, Cursor.peekNext, at_, no, noPoint, starts, goes]

theorem leads_plain {word : List Char} (begins : Begins word) (bare : ∀ ch ∈ word, IsBare ch)
    (blank : ∀ ch ∈ blanks, IsBlank ch) (closes : Closes rest) :
    Leads (Stands key (depth + 1) reversed (word ++ (blanks ++ rest)))
      (Stands false (depth + 1) (.scalar (String.ofList word) true :: reversed) rest) := by
  have some_word : word ≠ [] := by
    obtain ⟨ch, tail, rfl, -⟩ := begins
    simp
  have solid : Solid (word ++ (blanks ++ rest)) := by
    obtain ⟨ch, tail, rfl⟩ := List.exists_cons_of_ne_nil some_word
    obtain ⟨goes, other⟩ := bare ch List.mem_cons_self
    refine solid_cons ?_
    simp_all [endsWord, isSpace]
  refine leads_token solid fun l stands at_ => ?_
  obtain ⟨keys, optional, noted⟩ := stands.noteKey
  have inFlow : ({ l with keys := keys } : Lexer).inFlow = true := by
    simp [Lexer.inFlow, stands.flow]
    omega
  obtain ⟨text, next⟩ := Plain.scalar_bare (l.indent + 1) at_ some_word bare blank closes
  refine ⟨_, by rw [token_plain begins bare at_, plain, noted]; simp only [bind, Except.bind, inFlow, text]; rfl, ?_,
    { stands.after optional stands.flow _ _ next with allowed := by simp }⟩
  refine (congrArg List.length next).trans_lt ?_
  have positive := List.length_pos_of_ne_nil some_word
  simp only [List.length_append]
  omega

/-! ## Names -/

/-- A key that was noted at a place is not stale further on in its line. -/
theorem isStale_forward {l' : Lexer} {text : List Char} {n token column : Nat} {required : Bool}
    (at_ : l.cursor.rest = text ++ rest) (line : ∀ ch ∈ text, isBreak ch = false) (short : text.length ≤ maxKey)
    (within : n ≤ text.length) (cursor : l'.cursor = l.cursor.forward n) :
    l'.isStale ⟨token, required, l.cursor.index, l.cursor.line, column⟩ = false := by
  have unbroken : ∀ ch ∈ l.cursor.rest.take n, isBreak ch = false := by
    rw [at_, List.take_append_of_le_length within]
    exact fun ch member => line ch (List.mem_of_mem_take member)
  have sameLine := Cursor.line_forward unbroken
  have index := Cursor.index_forward (c := l.cursor) (n := n) (by rw [at_, List.length_append]; omega)
  have near : ¬ l.cursor.index + maxKey < l.cursor.index + n := by omega
  simp [isStale, cursor, sameLine, index, near]

theorem filter_current {k : Int × PendingKey} {noted keys : List (Int × PendingKey)} (first : noted = k :: keys)
    (current : l.isStale k.2 = false) : ∃ keys', noted.filter (fun k => !l.isStale k.2) = k :: keys' := by
  rw [first, List.filter_cons_of_pos (by rw [current]; rfl)]
  exact ⟨_, rfl⟩

/-- The colon after a key in brackets, whose mark is put before its token. -/
theorem value_key {k : PendingKey} {keys : List (Int × PendingKey)} {t : Token}
    (stands : Stands key (depth + 1) (t :: reversed) (':' :: rest) l) (at_ : l.cursor.rest = ':' :: rest)
    (noted : l.keys = (l.flow, k) :: keys) (number : k.token = reversed.length) : ∃ l', l.token = .ok l' ∧
      l'.cursor.rest = rest ∧ Stands false (depth + 1) (.value :: t :: .key :: reversed) rest l' := by
  have inFlow : l.inFlow = true := by
    simp [Lexer.inFlow, stands.flow]
    omega
  have token : l.token = l.value := by simp [Lexer.token, Cursor.peek, at_, unmarked at_, inFlow]
  have known : l.key? = some k := by simp [key?, noted]
  have inserted : (l.forgetKey.insert k.token .key).reversed = t :: .key :: reversed := by
    simp [insert, forgetKey, stands.read, number]
  have inFlow' : (l.forgetKey.insert k.token .key).inFlow = true := inFlow
  have read : l.token = .ok ({ l.forgetKey.insert k.token .key with keyAllowed := false }.take 1 .value) := by
    rw [token, value, known]
    simp only [inFlow', Bool.not_true, Bool.false_and, Bool.false_eq_true, if_false]
  have optional : ∀ k ∈ l.forgetKey.keys, k.2.required = false := fun k member =>
    stands.optional k (List.mem_of_mem_filter member)
  have next := forward_cons at_
  exact ⟨_, read, next,
    { stands.after optional stands.flow false .value next with read := congrArg (Token.value :: ·) inserted }⟩

/-- The name of an entry: the mark of a key, the name, and the mark of a value. -/
theorem leads_name {name : Name} (portable : name.Portable) :
    Leads (Stands true (depth + 1) reversed (name.quotedChars ++ rest))
      (Stands false (depth + 1) (.value :: .scalar name.key false :: .key :: reversed) rest) := by
  intro l stands
  rw [Name.quotedChars_append] at stands
  obtain ⟨blanks, l₀, left, at₀, -, -, stands₀, next₀⟩ := stands.arrive (solid_cons (by decide))
  obtain ⟨keys, optional, noted⟩ := stands₀.noteKey_allowed (stands₀.allowed rfl)
  obtain ⟨l₁, read₁, cursor₁, at₁, keys₁, stands₁⟩ :=
    quoted_token portable.glyphs stands₀ at₀ (List.forall_mem_cons.mpr ⟨rfl, optional⟩) noted
  -- the name with its quotes and the spaces after it lie in one line, so that the key is not stale
  obtain ⟨text, textEq⟩ : ∃ text, text = '"' :: (Json.rawChars name.glyphs ++ '"' :: name.after.chars) := ⟨_, rfl⟩
  have line : ∀ ch ∈ text, isBreak ch = false := by
    rw [textEq, List.forall_mem_cons, List.forall_mem_append, List.forall_mem_cons]
    refine ⟨rfl, fun ch member => (Json.rawChars_legible portable.glyphs ch member).2, rfl, fun ch member => ?_⟩
    rw [portable.after ch member]
    rfl
  have length : text.length = (Json.rawChars name.glyphs).length + 2 + name.after.chars.length := by
    rw [textEq, List.length_cons, List.length_append, List.length_cons]
    omega
  have at_text : l₀.cursor.rest = text ++ ':' :: rest := by
    rw [at₀, textEq]
    simp
  have current : ∀ {l' : Lexer} {n : Nat}, n ≤ text.length → l'.cursor = l₀.cursor.forward n →
      l'.isStale ⟨l₀.reversed.length, false, l₀.cursor.index, l₀.cursor.line, l₀.cursor.column⟩ = false :=
    isStale_forward at_text line (length.trans_le portable.short)
  obtain ⟨keys', fresh₁⟩ := filter_current keys₁ (current (by omega) cursor₁)
  have colon : Stands false (depth + 1) (.scalar name.key false :: reversed) (':' :: rest) l₁.fresh :=
    { stands₁.fresh with left := ⟨name.after.chars, fun ch member => .inl (portable.after ch member), at₁⟩ }
  obtain ⟨blanks', l₂, left', at₂, cursor', keys₂, stands₂, next₂⟩ := colon.arrive (solid_cons (by decide))
  obtain rfl : name.after.chars = blanks' := List.append_cancel_right (at₁.symm.trans left')
  have cursor₂ : l₂.cursor = l₀.cursor.forward text.length := by
    rw [cursor', length, Cursor.forward_add, ← cursor₁]
    rfl
  obtain ⟨keys'', fresh₂⟩ := filter_current fresh₁ (current le_rfl cursor₂)
  have sameFlow : l₀.flow = l₂.flow := stands₀.flow.trans stands₂.flow.symm
  obtain ⟨l₃, read₃, at₃, stands₃⟩ :=
    value_key stands₂ at₂ (keys₂.trans (fresh₂.trans (by rw [sameFlow]))) (congrArg List.length stands₀.read)
  have first : Step l l₁.fresh := step_of_token stands.unfinished next₀ read₁ stands₁.toCalm (by
    rw [left, at₁]
    simp only [List.length_append, List.length_cons]
    omega)
  have second : Step l₁.fresh l₃.fresh := step_of_token stands₁.fresh.unfinished next₂ read₃ stands₃.toCalm (by
    rw [left', at₃, List.length_append, List.length_cons]
    omega)
  exact ⟨l₃.fresh, .tail (.single first) second, stands₃.fresh⟩

end

/-! ## The end of a text -/

theorem rest_start {text : List Char} (unmarked : ∀ rest, text ≠ '\ufeff' :: rest) :
    (start text).cursor.rest = text := by
  have noMark : ¬ ((Cursor.start text).peek == some '\ufeff') = true := by
    cases text with
    | nil => nofun
    | cons ch rest =>
      intro mark
      have same : ch = '\ufeff' := by simpa [Cursor.start, Cursor.peek] using mark
      exact unmarked rest (by rw [same])
  simp only [start, if_neg noMark]
  rfl

theorem stands_start {text : List Char} (unmarked : ∀ rest, text ≠ '\ufeff' :: rest) :
    Stands true 0 [] text (start text) :=
  ⟨⟨rfl, rfl, rfl, by simp [start]⟩, rfl, rfl, fun _ => rfl, [], by simp, rest_start unmarked⟩

/-- At the end of a text the reading is over, and all tokens are decided. -/
theorem ofLexer_end {key : Bool} {depth fuel : Nat} {reversed : List Token} (stands : Stands key depth reversed [] l) :
    Tokens.ofLexer (fuel + 2) l = ⟨reversed.reverse ++ [.streamEnd], .refused .tokens⟩ := by
  obtain ⟨blanks, l', -, at_, -, -, stands', next⟩ := stands.arrive (by simp [Solid])
  obtain ⟨keys, optional, dropped⟩ := stands'.dropKey
  have token : l'.token = .ok
      { ({ l' with keys := keys }.push .streamEnd) with keyAllowed := false, keys := [], finished := true } := by
    have atEnd : l'.token = l'.finish := by simp [Lexer.token, Cursor.peek, at_]
    rw [atEnd, finish, stands'.unwind, dropped]
    rfl
  have read : l.next = .ok
      { ({ l' with keys := keys }.push .streamEnd) with keyAllowed := false, keys := [], finished := true } := by
    rw [next, token]
    rfl
  rw [Tokens.ofLexer, stands.unfinished, read]
  simp only [Bool.false_eq_true, if_false, Tokens.ofLexer, if_true, Lexer.decided, push, stands'.read]
  simp

end Lexer

/-! ## Forms -/

mutual

/-- The tokens of a form. -/
def tokens : Form → List Token
  | .word w => [.scalar (String.ofList w.chars) true]
  | .numeral n => [.scalar (String.ofList n.chars) true]
  | .text glyphs => [.scalar (String.ofList (Json.decoded glyphs)) false]
  | .emptyList _ => [.flowSequenceStart, .flowSequenceEnd]
  | .list items => .flowSequenceStart :: itemTokens items
  | .emptyDict _ => [.flowMappingStart, .flowMappingEnd]
  | .dict entries => .flowMappingStart :: entryTokens entries

def itemTokens : Items → List Token
  | .last _ form _ => tokens form ++ [.flowSequenceEnd]
  | .more _ form _ rest => tokens form ++ .flowEntry :: itemTokens rest

def entryTokens : Entries → List Token
  | .last name _ form _ => .key :: .scalar name.key false :: .value :: (tokens form ++ [.flowMappingEnd])
  | .more name _ form _ rest =>
    .key :: .scalar name.key false :: .value :: (tokens form ++ .flowEntry :: entryTokens rest)

end

namespace Lexer

theorem begins_numeral (n : Numeral) : Begins n.chars := by
  obtain ⟨d, ds, whole, digit, notMinus⟩ := n.whole_cons
  have member := mem_numeralChars_of_isDigit digit
  have known := forall_numeralChars (p := fun c => !c.isDigit || (!Plain.indicators.contains c && c != '.'))
    (by decide) d member
  simp only [digit, Bool.not_true, Bool.false_or, Bool.and_eq_true, Bool.not_eq_true', bne_iff_ne] at known
  rw [Numeral.chars, whole]
  cases n.negative with
  | false => exact ⟨d, _, rfl, .inl known⟩
  | true => exact ⟨'-', _, rfl, .inr ⟨rfl, d, _, rfl, (isBare_of_mem member).1, notMinus⟩⟩

theorem begins_word {w : Word} (portable : w.Portable) : Begins w.chars ∧ ∀ ch ∈ w.chars, IsBare ch := by
  simp only [Word.Portable, List.mem_cons, List.not_mem_nil, or_false] at portable
  rcases portable with same | same | same <;> rw [same] <;>
    exact ⟨⟨_, _, rfl, .inl (by decide)⟩, fun ch member =>
      of_decide_eq_true (List.all_eq_true (p := fun c => decide (IsBare c)).mp (by decide) ch member)⟩

variable {depth : Nat} {reversed : List Token} {blanks : List Char}

theorem closes_cons {ch : Char} (close : ch = ',' ∨ ch = ']' ∨ ch = '\x7d') (rest : List Char) : Closes (ch :: rest) :=
  ⟨ch, rest, rfl, close⟩

mutual

/-- The characters of a form between brackets lead over its tokens. -/
theorem leads_form : (f : Form) → f.Portable → {key : Bool} → {depth : Nat} → {reversed : List Token} →
    {blanks rest : List Char} →
    (∀ ch ∈ blanks, IsBlank ch) → Closes rest → Leads (Stands key (depth + 1) reversed (f.chars ++ (blanks ++ rest)))
      (Stands false (depth + 1) ((tokens f).reverse ++ reversed) rest)
  | .word w, portable, _, _, _, _, _, blank, closes => by
    obtain ⟨begins, bare⟩ := begins_word portable
    exact leads_plain begins bare blank closes
  | .numeral n, portable, _, _, _, _, _, blank, closes =>
    leads_plain (begins_numeral n) (fun ch member => isBare_of_mem (Numeral.mem_numeralChars n ch member)) blank closes
  | .text glyphs, portable, _, _, _, blanks, rest, blank, _ => by
    rw [Form.text_append]
    exact (leads_quoted portable).trans (leads_blank blank)
  | .emptyList inner, portable, _, _, _, blanks, rest, blank, _ => by
    rw [Form.emptyList_append]
    exact (leads_open (.inl ⟨rfl, rfl⟩)).trans ((leads_blank portable.blank).trans
      ((leads_close (.inl ⟨rfl, rfl⟩)).trans (leads_blank blank)))
  | .emptyDict inner, portable, _, _, _, blanks, rest, blank, _ => by
    rw [Form.emptyDict_append]
    exact (leads_open (.inr ⟨rfl, rfl⟩)).trans ((leads_blank portable.blank).trans
      ((leads_close (.inr ⟨rfl, rfl⟩)).trans (leads_blank blank)))
  | .list members, portable, _, _, _, blanks, rest, blank, _ => by
    rw [Form.chars, tokens, List.reverse_cons, List.append_assoc]
    exact (leads_open (.inl ⟨rfl, rfl⟩)).trans ((leads_items members portable).trans (leads_blank blank))
  | .dict members, portable, _, _, _, blanks, rest, blank, _ => by
    rw [Form.chars, tokens, List.reverse_cons, List.append_assoc]
    exact (leads_open (.inr ⟨rfl, rfl⟩)).trans ((leads_entries members portable).trans (leads_blank blank))

theorem leads_items : (members : Items) → members.Portable → {depth : Nat} → {reversed : List Token} →
    {rest : List Char} →
    Leads (Stands true (depth + 1) reversed (members.chars ++ rest))
      (Stands false depth ((itemTokens members).reverse ++ reversed) rest)
  | .last before form after, portable, depth, reversed, rest => by
    obtain ⟨blank, inside, blank'⟩ := portable
    rw [Items.last_append, itemTokens, List.reverse_append, List.append_assoc]
    exact (leads_blank blank.blank).trans ((leads_form form inside blank'.blank (closes_cons (by decide) rest)).trans
      (leads_close (.inl ⟨rfl, rfl⟩)))
  | .more before form after more, portable, depth, reversed, rest => by
    obtain ⟨blank, inside, blank', portable⟩ := portable
    rw [Items.more_append, itemTokens, List.reverse_append, List.reverse_cons, List.append_assoc, List.append_assoc]
    exact (leads_blank blank.blank).trans ((leads_form form inside blank'.blank (closes_cons (by decide) _)).trans
      (leads_comma.trans (leads_items more portable)))

theorem leads_entries : (members : Entries) → members.Portable → {depth : Nat} → {reversed : List Token} →
    {rest : List Char} →
    Leads (Stands true (depth + 1) reversed (members.chars ++ rest))
      (Stands false depth ((entryTokens members).reverse ++ reversed) rest)
  | .last name before form after, portable, depth, reversed, rest => by
    obtain ⟨named, blank, inside, blank'⟩ := portable
    have read : Leads (Stands true (depth + 1) reversed ((Entries.last name before form after).chars ++ rest))
        (Stands false depth (.flowMappingEnd :: ((tokens form).reverse ++
          .value :: .scalar name.key false :: .key :: reversed)) rest) := by
      rw [Entries.last_append]
      exact (leads_blank named.before.blank).trans ((leads_name named).trans ((leads_blank blank.blank).trans
        ((leads_form form inside blank'.blank (closes_cons (by decide) rest)).trans (leads_close (.inr ⟨rfl, rfl⟩)))))
    simpa [entryTokens] using read
  | .more name before form after more, portable, depth, reversed, rest => by
    obtain ⟨named, blank, inside, blank', portable⟩ := portable
    have read : Leads (Stands true (depth + 1) reversed ((Entries.more name before form after more).chars ++ rest))
        (Stands false depth ((entryTokens more).reverse ++ .flowEntry ::
          ((tokens form).reverse ++ .value :: .scalar name.key false :: .key :: reversed)) rest) := by
      rw [Entries.more_append]
      exact (leads_blank named.before.blank).trans ((leads_name named).trans ((leads_blank blank.blank).trans
        ((leads_form form inside blank'.blank (closes_cons (by decide) _)).trans
          (leads_comma.trans (leads_entries more portable)))))
    simpa [entryTokens] using read

end

end Lexer

/-- The tokens of a document that is an object are those of the object, and the mark of the end. -/
theorem ofText_document {d : Json.Document} (portable : d.Portable) {es : List (Value × Value)}
    (object : d.form.value = .dict es) :
    Tokens.ofText d.chars = ⟨tokens d.form ++ [.streamEnd], .refused .tokens⟩ := by
  have inside : Lexer.Leads (Lexer.Stands true 0 [] (d.form.chars ++ d.after.chars))
      (Lexer.Stands false 0 ((tokens d.form).reverse ++ []) d.after.chars) := by
    have portable := portable.form
    obtain ⟨inner, form⟩ | ⟨members, form⟩ := Form.object object <;> rw [form] at portable ⊢
    · rw [Form.emptyDict_append]
      exact (Lexer.leads_open (.inr ⟨rfl, rfl⟩)).trans ((Lexer.leads_blank portable.blank).trans
        (Lexer.leads_close (.inr ⟨rfl, rfl⟩)))
    · rw [Form.chars, tokens, List.reverse_cons, List.append_assoc]
      exact (Lexer.leads_open (.inr ⟨rfl, rfl⟩)).trans (Lexer.leads_entries members portable)
  have after : Lexer.Leads (Lexer.Stands false 0 ((tokens d.form).reverse ++ []) d.after.chars)
      (Lexer.Stands false 0 ((tokens d.form).reverse ++ []) []) := by
    have passed : Lexer.Leads (Lexer.Stands false 0 ((tokens d.form).reverse ++ []) (d.after.chars ++ [])) _ :=
      Lexer.leads_blank portable.after.blank
    rwa [List.append_nil d.after.chars] at passed
  have read : Lexer.Leads (Lexer.Stands true 0 [] d.chars) (Lexer.Stands false 0 ((tokens d.form).reverse ++ []) []) :=
    (Lexer.leads_blank portable.before.blank).trans (inside.trans after)
  obtain ⟨l, steps, stands⟩ := read _ (Lexer.stands_start d.unmarked)
  obtain ⟨fuel, enough, same⟩ := Lexer.ofLexer_steps steps 2 (by rw [Lexer.rest_start d.unmarked])
  obtain ⟨fuel, rfl⟩ := Nat.exists_eq_add_of_le' (le_of_add_le_right enough)
  rw [Tokens.ofText, same, Lexer.ofLexer_end stands]
  simp

end Tablewright.Yaml
