import Tablewright.Format.Leaf
import Tablewright.Format.Quotes
import Tablewright.Format.Token

/-!
# Phrases

Expressions read from tokens as rows of leaves.

* `Phrase`: the leaves of an expression, and what may happen to parentheses around it.
* `Phrase.within`, `Phrase.standing`: the leaves of an expression as a part of a larger one, and as the whole of
  what a statement holds there.
* `Phrase.read?`: the expression at the front of some tokens.
-/

namespace Tablewright.Format

/-- How an expression stands to parentheses. -/
inductive Shape where
  | plain
  /-- A conditional expression, which gets hidden parentheses. -/
  | conditional
  /-- An expression in parentheses that it does without. Its leaves are given. -/
  | wrapped (core : List Leaf)
  /-- An expression in parentheses that belong to it. -/
  | kept

/-- An expression: its leaves, and how it stands to parentheses. -/
structure Phrase where
  leaves : List Leaf
  shape : Shape

namespace Phrase

/-- An expression that parentheses do not matter for. -/
def plain (leaves : List Leaf) : Phrase := ⟨leaves, .plain⟩

def within (p : Phrase) : List Leaf :=
  match p.shape with
  | .conditional => Leaf.hide .group p.leaves
  | _ => p.leaves

/-- An expression as the whole of what a statement holds at a place: its parentheses are hidden, and it gets
hidden ones if it has none. -/
def standing (p : Phrase) : List Leaf :=
  match p.shape with
  | .wrapped core => Leaf.hide .group core
  | .kept => p.leaves
  | _ => Leaf.hide .group p.leaves

/-- An expression as the hint of a parameter, where only parentheses that are there become hidden ones. -/
def hint (p : Phrase) : List Leaf :=
  match p.shape with
  | .wrapped core => Leaf.hide .group core
  | _ => p.within

def parenthesized (p : Phrase) : Phrase :=
  match p.shape with
  | .wrapped core => ⟨Leaf.enclose .group "(" ")" p.leaves, .wrapped core⟩
  | _ => ⟨Leaf.enclose .group "(" ")" p.leaves, .wrapped p.leaves⟩

/-- Words that are no names. -/
def keywords : List String :=
  ["and", "as", "assert", "break", "class", "continue", "def", "del", "elif", "else", "except", "finally", "for",
   "from", "global", "if", "import", "in", "is", "lambda", "nonlocal", "not", "or", "pass", "raise", "return",
   "try", "while", "with", "yield"]

def isName (s : String) : Bool := !keywords.contains s

abbrev Tokens := List Token

def takeSign (s : String) (ts : Tokens) : Option Tokens :=
  match ts with
  | .sign t :: rest => if t = s then some rest else none
  | _ => none

def takeWord (s : String) (ts : Tokens) : Option Tokens :=
  match ts with
  | .word t :: rest => if t = s then some rest else none
  | _ => none

/-- The operators of several characters or words, with their ranks, by how tightly they bind: level zero binds
least. -/
def operator? (level : Nat) (ts : Tokens) : Option (List Leaf × Tokens) :=
  let one (s : String) (rank : Rank) : List Leaf := [((Leaf.sign s).spaced).ranked rank]
  let words (first : String) (more : List String) (rank : Rank) : List Leaf :=
    ((Leaf.word first).spaced).ranked rank :: more.map fun s => (Leaf.word s).spaced
  let signs (table : List String) (rank : Rank) : Option (List Leaf × Tokens) :=
    match ts with
    | .sign s :: rest => if table.contains s then some (one s rank, rest) else none
    | _ => none
  -- from the weakest operator to the strongest; `not` is a prefix and has its own level
  match level, ts with
  | 0, .word "or" :: rest => some (words "or" [] Rank.logic, rest)
  | 1, .word "and" :: rest => some (words "and" [] Rank.logic, rest)
  | 3, .word "in" :: rest => some (words "in" [] Rank.comparison, rest)
  | 3, .word "is" :: .word "not" :: rest => some (words "is" ["not"] Rank.comparison, rest)
  | 3, .word "is" :: rest => some (words "is" [] Rank.comparison, rest)
  | 3, .word "not" :: .word "in" :: rest => some (words "not" ["in"] Rank.comparison, rest)
  | 3, _ => signs ["<", ">", "==", ">=", "<=", "!="] Rank.comparison
  | 4, _ => signs ["|"] 9
  | 5, _ => signs ["^"] 8
  | 6, _ => signs ["&"] 7
  | 7, _ => signs ["<<", ">>"] 6
  | 8, _ => signs ["+", "-"] 5
  | 9, _ => signs ["*", "/", "//", "%", "@"] 4
  | _, _ => none

/-- The level of `not`, of signs before an operand, and of what follows an atom. -/
def notLevel : Nat := 2

/-- The level of signs before an operand. -/
def signLevel : Nat := 10

/-- The leaf of a literal, in the preferred quotes. -/
def literalLeaf (s : String) : Leaf := { kind := .literal, text := (Literal.ofText s).preferDouble.text }

/-- A numeral in its plain form: digits on both sides of a point, a small `e`, and no plus sign. -/
def plainNumeral (s : String) : String :=
  let cs := s.toList.map Char.toLower
  let digits := cs.takeWhile (· != 'e')
  let power := (cs.drop digits.length).filter (· != '+')
  String.ofList (digits ++ (if digits.getLast? == some '.' then ['0'] else []) ++ power)

/-- The rank of a dot after some leaves. -/
def dotRank (leaves : List Leaf) : Rank :=
  match leaves.getLast? with
  | some l => if l.closes then Rank.dot else 0
  | none => 0

/-- The literals at the front of some tokens, in a row. -/
def literalRow : Tokens → List Leaf × Tokens
  | .literal s :: rest =>
    let (more, rest) := literalRow rest
    (((literalLeaf s).spaced).ranked Rank.literal :: more, rest)
  | ts => ([], ts)

/-- The names of the target of a comprehension. -/
def targetRow : Tokens → Option (List Leaf × Tokens)
  | .word s :: .sign "," :: rest =>
    if isName s then
      (targetRow rest).map fun (more, rest) => (Leaf.word s :: Leaf.comma :: spacedFirst more, rest)
    else none
  | .word s :: rest => if isName s then some ([Leaf.word s], rest) else none
  | _ => none

mutual

/-- An expression. The first argument of this and of the following functions bounds the number of steps. -/
def readTest : Nat → Tokens → Option (Phrase × Tokens)
  | 0, _ => none
  | n + 1, ts => do
    let (body, ts) ← readLevel n 0 ts
    match takeWord "if" ts with
    | none => pure (body, ts)
    | some ts => do
      let (test, ts) ← readLevel n 0 ts
      let ts ← takeWord "else" ts
      let (orelse, ts) ← readTest n ts
      let leaves := body.leaves ++ (Leaf.word "if").spaced.ranked Rank.conditional :: spacedFirst test.leaves
        ++ (Leaf.word "else").spaced.ranked Rank.conditional :: spacedFirst orelse.within
      pure (⟨leaves, .conditional⟩, ts)

/-- An expression of operators of a level and of those that bind tighter. -/
def readLevel : Nat → Nat → Tokens → Option (Phrase × Tokens)
  | 0, _, _ => none
  | n + 1, level, ts =>
    if level = notLevel then
      match takeWord "not" ts with
      | some ts => do
        let (operand, ts) ← readLevel n level ts
        pure (plain (Leaf.word "not" :: spacedFirst operand.leaves), ts)
      | none => readLevel n (level + 1) ts
    -- a sign binds its whole operand, so it stays on this level
    else if signLevel ≤ level then
      match ts with
      | .sign s :: rest =>
        if s = "-" || s = "+" || s = "~" then do
          let (operand, rest) ← readLevel n level rest
          pure (plain (Leaf.sign s :: operand.leaves), rest)
        else readOperand n ts
      | _ => readOperand n ts
    else do
      let (first, ts) ← readLevel n (level + 1) ts
      readChain n level first ts

/-- The operators of a level with their operands, after the first operand. -/
def readChain : Nat → Nat → Phrase → Tokens → Option (Phrase × Tokens)
  | 0, _, _, _ => none
  | n + 1, level, left, ts =>
    match operator? level ts with
    | none => pure (left, ts)
    | some (sign, ts) => do
      let (right, ts) ← readLevel n (level + 1) ts
      readChain n level (plain (left.leaves ++ sign ++ spacedFirst right.leaves)) ts

/-- An atom with the calls, indexes and attributes after it. -/
def readOperand : Nat → Tokens → Option (Phrase × Tokens)
  | 0, _ => none
  | n + 1, ts => do
    let (atom, ts) ← readAtom n ts
    readTrailers n atom ts

/-- Calls, indexes and attributes after an expression. -/
def readTrailers : Nat → Phrase → Tokens → Option (Phrase × Tokens)
  | 0, _, _ => none
  | n + 1, p, ts =>
    match ts with
    | .sign "." :: .word s :: rest =>
      if isName s then
        let dot : Leaf := { kind := .dot, text := ".", rank := dotRank p.leaves }
        readTrailers n (plain (p.leaves ++ [dot, Leaf.word s])) rest
      else none
    | .sign "(" :: rest => do
      let (args, rest) ← readArgs n ")" rest
      readTrailers n (plain (p.leaves ++ Leaf.enclose .args "(" ")" args)) rest
    | .sign "[" :: rest => do
      let (items, rest) ← readItems n "]" rest
      if items.isEmpty then none
      else readTrailers n (plain (p.leaves ++ Leaf.enclose .index "[" "]" items)) rest
    | _ => pure (p, ts)

/-- A name, a literal, a numeral or something in brackets. -/
def readAtom : Nat → Tokens → Option (Phrase × Tokens)
  | 0, _ => none
  | n + 1, ts =>
    match ts with
    | .word s :: rest => if isName s then some (plain [Leaf.word s], rest) else none
    | .numeral s :: rest => some (plain [{ kind := .numeral, text := plainNumeral s }], rest)
    | .literal s :: rest =>
      let (more, rest) := literalRow rest
      some (plain (literalLeaf s :: more), rest)
    | .sign "(" :: .sign ")" :: rest => some (⟨Leaf.enclose .group "(" ")" [], .kept⟩, rest)
    | .sign "(" :: rest => do
      let (first, ts) ← readTest n rest
      -- one item without a comma is no tuple, but an expression in parentheses
      match takeSign ")" ts with
      | some ts => pure (first.parenthesized, ts)
      | none => do
        let (items, ts) ← readItemsAfter n ")" first ts
        pure (⟨Leaf.enclose .group "(" ")" items, .kept⟩, ts)
    | .sign "[" :: rest => do
      let (items, rest) ← readItems n "]" rest
      pure (plain (Leaf.enclose .group "[" "]" items), rest)
    | .sign "\x7b" :: rest => do
      let (items, rest) ← readEntries n rest
      pure (plain (Leaf.enclose .group "\x7b" "\x7d" items), rest)
    | _ => none

/-- Expressions with commas between them, or a comprehension, up to a closing bracket. -/
def readItems : Nat → String → Tokens → Option (List Leaf × Tokens)
  | 0, _, _ => none
  | n + 1, close, ts =>
    match takeSign close ts with
    | some ts => some ([], ts)
    | none => do
      let (first, ts) ← readTest n ts
      readItemsAfter n close first ts

/-- Such expressions, after the first one. -/
def readItemsAfter : Nat → String → Phrase → Tokens → Option (List Leaf × Tokens)
  | 0, _, _, _ => none
  | n + 1, close, first, ts =>
    match takeSign "," ts with
    | some ts => do
      let (more, ts) ← readItems n close ts
      pure (first.within ++ Leaf.comma :: spacedFirst more, ts)
    | none => do
      let (clauses, ts) ← readClauses n ts
      let ts ← takeSign close ts
      pure (first.within ++ clauses, ts)

/-- The clauses of a comprehension, if there are any. -/
def readClauses : Nat → Tokens → Option (List Leaf × Tokens)
  | 0, _ => none
  | n + 1, ts =>
    match takeWord "for" ts, takeWord "if" ts with
    | some ts, _ => do
      let (target, ts) ← targetRow ts
      let ts ← takeWord "in" ts
      let (source, ts) ← readLevel n 0 ts
      let (more, ts) ← readClauses n ts
      let leaves := (Leaf.word "for").spaced.ranked Rank.comprehension :: spacedFirst target
        ++ (Leaf.word "in").spaced :: spacedFirst source.leaves
      pure (leaves ++ more, ts)
    | none, some ts => do
      let (test, ts) ← readLevel n 0 ts
      let (more, ts) ← readClauses n ts
      pure ((Leaf.word "if").spaced.ranked Rank.comprehension :: spacedFirst test.leaves ++ more, ts)
    | none, none => some ([], ts)

/-- Arguments up to a closing bracket. A single conditional expression needs no parentheses of its own. -/
def readArgs : Nat → String → Tokens → Option (List Leaf × Tokens)
  | 0, _, _ => none
  | n + 1, close, ts =>
    match takeSign close ts with
    | some ts => some ([], ts)
    | none => do
      let (first, ts) ← readArg n ts
      match takeSign close ts with
      | some ts => pure (first.leaves, ts)
      | none => do
        let ts ← takeSign "," ts
        let (more, ts) ← readMoreArgs n close ts
        pure (first.within ++ Leaf.comma :: spacedFirst more, ts)

/-- Arguments after the first one. -/
def readMoreArgs : Nat → String → Tokens → Option (List Leaf × Tokens)
  | 0, _, _ => none
  | n + 1, close, ts =>
    match takeSign close ts with
    | some ts => some ([], ts)
    | none => do
      let (first, ts) ← readArg n ts
      match takeSign close ts with
      | some ts => pure (first.within, ts)
      | none => do
        let ts ← takeSign "," ts
        let (more, ts) ← readMoreArgs n close ts
        pure (first.within ++ Leaf.comma :: spacedFirst more, ts)

/-- An argument: by position, by name, or spread. -/
def readArg : Nat → Tokens → Option (Phrase × Tokens)
  | 0, _ => none
  | n + 1, ts =>
    match ts with
    | .word s :: .sign "=" :: rest => do
      let (value, rest) ← readTest n rest
      if isName s then pure (plain (Leaf.word s :: Leaf.sign "=" :: value.within), rest) else none
    | .sign s :: rest =>
      -- a spread mapping or sequence
      if s = "**" || s = "*" then do
        let (value, rest) ← readTest n rest
        pure (plain ({ kind := .spread, text := s } :: value.within), rest)
      else readTest n ts
    | _ => do
      let (value, ts) ← readTest n ts
      let (clauses, ts) ← readClauses n ts
      if clauses.isEmpty then pure (value, ts) else pure (plain (value.within ++ clauses), ts)

/-- The entries of a dictionary or the elements of a set, up to the closing bracket. -/
def readEntries : Nat → Tokens → Option (List Leaf × Tokens)
  | 0, _ => none
  | n + 1, ts =>
    match takeSign "\x7d" ts with
    | some ts => some ([], ts)
    | none => do
      let (first, ts) ← readEntry n ts
      match takeSign "," ts with
      | some ts => do
        let (more, ts) ← readEntries n ts
        pure (first ++ Leaf.comma :: spacedFirst more, ts)
      | none => do
        let (clauses, ts) ← readClauses n ts
        let ts ← takeSign "\x7d" ts
        pure (first ++ clauses, ts)

/-- An entry of a dictionary or an element of a set. -/
def readEntry : Nat → Tokens → Option (List Leaf × Tokens)
  | 0, _ => none
  | n + 1, ts =>
    match takeSign "**" ts with
    | some ts => do
      let (value, ts) ← readLevel n 4 ts
      pure ({ kind := .spread, text := "**" } :: value.leaves, ts)
    | none => do
      let (key, ts) ← readTest n ts
      match takeSign ":" ts with
      | none => pure (key.within, ts)
      | some ts => do
        let (value, ts) ← readTest n ts
        pure (key.within ++ Leaf.sign ":" :: spacedFirst value.within, ts)

end

/-- The number of steps that reading some tokens takes at most. -/
def stepsFor (ts : Tokens) : Nat := 20 * (ts.length + 2)

def read? (ts : Tokens) : Option (Phrase × Tokens) := readTest (stepsFor ts) ts

end Phrase

end Tablewright.Format
