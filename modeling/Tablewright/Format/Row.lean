import Tablewright.Format.Docstring
import Tablewright.Format.Phrase

/-!
# Rows

Logical lines read as statements: their leaves, and what the empty lines around them depend on.

* `Row`: a statement, or the head of a compound one, with its depth.
* `Row.ofTokens?`: the leaves of a logical line.
* `Row.all?`: the rows of a source. Each body is one step deeper than its head.
-/

namespace Tablewright.Format

/-- A statement, or the head of a compound one. -/
structure Row where
  depth : Nat
  /-- The number of empty lines before it. -/
  blanks : Nat
  leaves : List Leaf
  /-- Whether it is the text that documents what it stands in. -/
  isDoc : Bool
  deriving DecidableEq, Repr

namespace Row

open Phrase (Tokens takeSign takeWord isName read?)

/-- The leaves of a statement, and the tokens after them. -/
abbrev Part := Option (List Leaf × Tokens)

def colon : Leaf := Leaf.sign ":"

def after (keyword : String) (leaves : List Leaf) : List Leaf := Leaf.word keyword :: spacedFirst leaves

/-- Leaves, with the commas among them marked as parts of a hint. -/
def markHint (leaves : List Leaf) : List Leaf :=
  leaves.map fun l => if l.isComma then { l with kind := .comma true } else l

/-- A word and an expression that stands for itself after it. -/
def wordAndPhrase (keyword : String) (ts : Tokens) : Part := do
  let (p, ts) ← read? ts
  pure (after keyword p.standing, ts)

/-- A word and an expression, as the head of a compound statement. -/
def head (keyword : String) (ts : Tokens) : Part := do
  let (leaves, ts) ← wordAndPhrase keyword ts
  let ts ← takeSign ":" ts
  pure (leaves ++ [colon], ts)

def collector : Tokens → List Leaf × Tokens
  | .sign s :: rest =>
    if s = "*" || s = "**" then ([{ kind := .spread, text := s }], rest) else ([], .sign s :: rest)
  | ts => ([], ts)

/-- A parameter with its hint and its default. -/
def param (ts : Tokens) : Part :=
  match collector ts with
  | (mark, .word s :: rest) =>
    if !isName s then none
    else do
      let (hint, ts) ← match takeSign ":" rest with
        | none => some ([], rest)
        | some ts => do
          let (p, ts) ← read? ts
          pure (colon :: spacedFirst (markHint p.hint), ts)
      let name := mark ++ Leaf.word s :: hint
      match takeSign "=" ts with
      | none => pure (name, ts)
      | some ts => do
        let (p, ts) ← read? ts
        -- a default is set off by spaces behind a hint only
        let default := if hint.isEmpty then Leaf.sign "=" :: p.within
          else (Leaf.sign "=").spaced :: spacedFirst p.within
        pure (name ++ default, ts)
  | _ => none

/-- Parameters up to the closing bracket. The first argument bounds their number. -/
def params : Nat → Tokens → Part
  | 0, _ => none
  | n + 1, ts =>
    match takeSign ")" ts with
    | some ts => some ([], ts)
    | none => do
      let (first, ts) ← param ts
      match takeSign ")" ts with
      | some ts => pure (first, ts)
      | none => do
        let ts ← takeSign "," ts
        let (more, ts) ← params n ts
        pure (first ++ Leaf.comma :: spacedFirst more, ts)

/-- The head of a function. -/
def function (ts : Tokens) : Part :=
  match ts with
  | .word name :: .sign "(" :: rest =>
    if !isName name then none
    else do
      let (params, ts) ← params (rest.length + 1) rest
      let (result, ts) ← match takeSign "->" ts with
        | none => some ([], ts)
        | some ts => do
          let (p, ts) ← read? ts
          pure ((Leaf.sign "->").spaced :: spacedFirst p.standing, ts)
      let ts ← takeSign ":" ts
      pure (after "def" [Leaf.word name] ++ Leaf.enclose .args "(" ")" params ++ result ++ [colon], ts)
  | _ => none

/-- The brackets around the bases of a class, which go if there is nothing in them. -/
def basesIn (bases : List Leaf) : List Leaf := if bases.isEmpty then [] else Leaf.enclose .args "(" ")" bases

/-- The parameters of a class, in square brackets. -/
def classParams (ts : Tokens) : Part :=
  match takeSign "[" ts with
  | none => some ([], ts)
  | some ts => do
    let (items, ts) ← Phrase.readItems (Phrase.stepsFor ts) "]" ts
    if items.isEmpty then none else pure (Leaf.enclose .index "[" "]" items, ts)

/-- The bases of a class, in parentheses. -/
def classBases (ts : Tokens) : Part :=
  match takeSign "(" ts with
  | none => some ([], ts)
  | some ts => do
    let (bases, ts) ← Phrase.readArgs (Phrase.stepsFor ts) ")" ts
    pure (basesIn bases, ts)

/-- The head of a class. -/
def classHead (ts : Tokens) : Part :=
  match ts with
  | .word name :: rest =>
    if !isName name then none
    else do
      let (generics, ts) ← classParams rest
      let (bases, ts) ← classBases ts
      let ts ← takeSign ":" ts
      pure (after "class" [Leaf.word name] ++ generics ++ bases ++ [colon], ts)
  | _ => none

/-- A dotted name. -/
def dotted : Tokens → Part
  | .word s :: .sign "." :: rest =>
    if isName s then
      (dotted rest).map fun (more, rest) => (Leaf.word s :: { kind := .dot, text := "." } :: more, rest)
    else none
  | .word s :: rest => if isName s then some ([Leaf.word s], rest) else none
  | _ => none

def leadingDots : Tokens → List Leaf × Tokens
  | .sign "." :: rest =>
    let (more, rest) := leadingDots rest
    ({ kind := .dot, text := "." } :: more, rest)
  | ts => ([], ts)

/-- An imported name, perhaps under another name. -/
def importedName : Tokens → Part
  | .word s :: .word "as" :: .word t :: rest =>
    if isName s && isName t then
      some ([Leaf.word s, (Leaf.word "as").spaced, (Leaf.word t).spaced], rest)
    else none
  | .word s :: rest => if isName s then some ([Leaf.word s], rest) else none
  | _ => none

/-- Imported names with commas between them. The first argument bounds their number. -/
def importedNames : Nat → Tokens → Part
  | 0, _ => none
  | n + 1, ts => do
    let (first, ts) ← importedName ts
    match takeSign "," ts with
    | none => pure (first, ts)
    | some [] => none
    | some (.sign ")" :: rest) => pure (first ++ [Leaf.comma], .sign ")" :: rest)
    | some ts => do
      let (more, ts) ← importedNames n ts
      pure (first ++ Leaf.comma :: spacedFirst more, ts)

/-- An import of names from a module. The names get parentheses, which are hidden. -/
def importFrom (ts : Tokens) : Part := do
  let (dots, ts) := leadingDots ts
  let (module, ts) ← match takeWord "import" ts with
    | some _ => if dots.isEmpty then none else some ([], ts)
    | none => dotted ts
  let ts ← takeWord "import" ts
  let (names, ts) ← match takeSign "(" ts with
    | some ts => do
      let (names, ts) ← importedNames (ts.length + 1) ts
      let ts ← takeSign ")" ts
      pure (names, ts)
    | none => importedNames (ts.length + 1) ts
  pure (after "from" (dots ++ module) ++ (Leaf.word "import").spaced :: spacedFirst (Leaf.hide .names names), ts)

/-- The head of a loop over the elements of something. -/
def loop (ts : Tokens) : Part := do
  let (target, ts) ← Phrase.targetRow ts
  let ts ← takeWord "in" ts
  let (source, ts) ← head "in" ts
  pure (after "for" (Leaf.hide .group target) ++ spacedFirst source, ts)

/-- The head of a block with a context. Only a name or what is in parentheses gets hidden ones. -/
def context (ts : Tokens) : Part := do
  let (p, ts) ← read? ts
  let ts ← takeSign ":" ts
  let leaves := match p.shape, p.leaves with
    | .wrapped _, _ => p.standing
    | _, [_] => p.standing
    | _, _ => p.within
  pure (after "with" leaves ++ [colon], ts)

def assigns (s : String) : Bool :=
  ["=", "+=", "-=", "*=", "/=", "//=", "%=", "@=", "&=", "|=", "^=", ">>=", "<<=", "**="].contains s

/-- An expression on its own, an assignment or a declaration. -/
def simple (ts : Tokens) : Part := do
  let (p, ts) ← read? ts
  match ts with
  | .sign ":" :: rest => do
    let (hint, ts) ← read? rest
    -- an annotation, with a value or without
    let target := p.leaves ++ colon :: spacedFirst hint.standing
    match takeSign "=" ts with
    | none => pure (target, ts)
    | some ts => do
      let (value, ts) ← read? ts
      pure (target ++ (Leaf.sign "=").spaced :: spacedFirst value.standing, ts)
  | .sign s :: rest =>
    if assigns s then do
      let (value, ts) ← read? rest
      pure (p.leaves ++ (Leaf.sign s).spaced :: spacedFirst value.standing, ts)
    else none
  | _ => pure (p.within, ts)

/-- The leaves of a statement, or of the head of one. -/
def statement (ts : Tokens) : Part :=
  match ts with
  | .word "def" :: rest => function rest
  | .word "class" :: rest => classHead rest
  | .word "if" :: rest => head "if" rest
  | .word "elif" :: rest => head "elif" rest
  | .word "while" :: rest => head "while" rest
  | .word "for" :: rest => loop rest
  | .word "with" :: rest => context rest
  | .word "return" :: [] => some ([Leaf.word "return"], [])
  | .word "return" :: rest => wordAndPhrase "return" rest
  | .word "raise" :: rest => (read? rest).map fun (p, ts) => (after "raise" p.within, ts)
  | .word "global" :: .word s :: rest => if isName s then some (after "global" [Leaf.word s], rest) else none
  | .word "pass" :: rest => some ([Leaf.word "pass"], rest)
  | .word "import" :: rest => (dotted rest).map fun (leaves, ts) => (after "import" leaves, ts)
  | .word "from" :: rest => importFrom rest
  | .sign "@" :: rest => (read? rest).map fun (p, ts) => (Leaf.sign "@" :: p.within, ts)
  | _ => simple ts

def ofTokens? (ts : Tokens) : Option (List Leaf) :=
  match statement ts with
  | some (leaves, []) => some (pairUp leaves)
  | _ => none

def starts (keyword : String) (r : Row) : Bool := r.leaves.head?.any fun l => l.kind == .word && l.text == keyword

def isFunction (r : Row) : Bool := r.starts "def"

def isClass (r : Row) : Bool := r.starts "class"

def isImport (r : Row) : Bool := r.starts "import" || r.starts "from"

def isDecorator (r : Row) : Bool := r.leaves.head?.any fun l => l.kind == .sign && l.text == "@"

/-- Whether the rows after a row are its body. -/
def opensBody (r : Row) : Bool := r.leaves.getLast?.any fun l => l.kind == .sign && l.text == ":"

def isLiteral (leaves : List Leaf) : Bool :=
  match leaves with
  | [l] => l.kind == .literal
  | _ => false

/-- The rows of some logical lines, after a row if there is one. The literal that a body or a source starts with
documents it. -/
def allFrom (limit : Int) : Option Row → List TokenLine → Option (List Row)
  | previous, [] => if previous.any opensBody then none else some []
  | previous, line :: rest => do
    let leaves ← ofTokens? line.tokens
    let depth := line.indent / 4
    let fits := match previous with
      | none => depth == 0
      | some p => if p.opensBody then depth == p.depth + 1 else decide (depth ≤ p.depth)
    guard (fits && line.indent % 4 == 0)
    let isDoc := isLiteral leaves && previous.all opensBody
    let text := match line.tokens with
      | [.literal s] => s
      | _ => ""
    let leaves := if isDoc then [{ kind := .literal, text := Docstring.layOut limit depth text }] else leaves
    let row : Row := ⟨depth, line.blanks, leaves, isDoc⟩
    let more ← allFrom limit (some row) rest
    pure (row :: more)

def all? (limit : Int) (source : String) : Option (List Row) := do
  allFrom limit none (← TokenLine.ofText? source)

end Row

end Tablewright.Format
