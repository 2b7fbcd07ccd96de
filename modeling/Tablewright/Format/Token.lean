import Tablewright.Text.Classes

/-!
# Tokens of source

Source cut into words, numerals, literals and signs, one list for every logical line.

* `Token`: the pieces of a line; `TokenLine`: a logical line with its indentation.
* `Token.next?`: the token at the front of a text.
* `TokenLine.ofText?`: the lines of a text. Line feeds between brackets do not end a line. Source with
  comments or with any character that starts no token has no lines.
-/

namespace Tablewright.Format

/-- The pieces of a line. -/
inductive Token where
  | word (text : String)
  | numeral (text : String)
  /-- A quoted text with its prefix and its quotes. -/
  | literal (text : String)
  | sign (text : String)
  deriving DecidableEq, Repr, Inhabited

/-- A logical line: the blanks in front of it, the number of empty lines before it, and its tokens. -/
structure TokenLine where
  indent : Nat
  blanks : Nat
  tokens : List Token
  deriving DecidableEq, Repr

namespace Token

/-- The text of a quoted literal up to its closing quotes, and the rest. Only a literal in three quotes may
hold line feeds. -/
def quotedBody (quotes : List Char) : List Char → Option (List Char × List Char)
  | [] => none
  | c :: rest =>
    if quotes.isPrefixOf (c :: rest) then some ([], (c :: rest).drop quotes.length)
    else if c == '\n' && quotes.length == 1 then none
    else if c == '\\' then
      match rest with
      | [] => none
      | d :: rest => (quotedBody quotes rest).map fun (body, rest) => (c :: d :: body, rest)
    else (quotedBody quotes rest).map fun (body, rest) => (c :: body, rest)

/-- The quotes at the front of a text. -/
def quotes? (cs : List Char) : Option (List Char) :=
  match cs with
  | '"' :: '"' :: '"' :: _ => some ['"', '"', '"']
  | '\'' :: '\'' :: '\'' :: _ => some ['\'', '\'', '\'']
  | '"' :: _ => some ['"']
  | '\'' :: _ => some ['\'']
  | _ => none

def isLiteralMark (cs : List Char) : Bool :=
  cs.length ≤ 2 && cs.all fun c => "rbfuRBFU".toList.contains c

/-- The literal at the front of a text. -/
def literal? (cs : List Char) : Option (Token × List Char) := do
  let mark := cs.takeWhile Char.isAlpha
  let rest := cs.drop mark.length
  guard (isLiteralMark mark)
  let quotes ← quotes? rest
  let (body, rest) ← quotedBody quotes (rest.drop quotes.length)
  pure (.literal (String.ofList (mark ++ quotes ++ body ++ quotes)), rest)

/-- The word at the front of a text. -/
def word? (cs : List Char) : Option (Token × List Char) :=
  match cs with
  | c :: rest =>
    if Text.isIdentifierStart c then
      some (.word (String.ofList (c :: rest.takeWhile Text.isIdentifierContinue)),
        rest.dropWhile Text.isIdentifierContinue)
    else none
  | [] => none

/-- The digits after the exponent mark at the front of a text, with the mark. -/
def exponent (cs : List Char) : List Char :=
  match cs with
  | e :: rest =>
    if e == 'e' || e == 'E' then
      let sign := rest.take 1 |>.filter fun c => c == '+' || c == '-'
      let digits := (rest.drop sign.length).takeWhile Char.isDigit
      if digits.isEmpty then [] else e :: (sign ++ digits)
    else []
  | [] => []

/-- The numeral at the front of a text: digits, a point with digits, an exponent. -/
def numeral? (cs : List Char) : Option (Token × List Char) :=
  let whole := cs.takeWhile Char.isDigit
  if whole.isEmpty then none
  else
    let rest := cs.drop whole.length
    let fraction := match rest with
      | '.' :: more => '.' :: more.takeWhile Char.isDigit
      | _ => []
    let power := exponent (rest.drop fraction.length)
    let text := whole ++ fraction ++ power
    some (.numeral (String.ofList text), cs.drop text.length)

/-- The signs, longer ones before those they start with. -/
def signs : List String :=
  ["**=", "//=", "<<=", ">>=", "->", "**", "//", "<<", ">>", "<=", ">=", "==", "!=", "+=", "-=", "*=", "/=",
   "%=", "&=", "|=", "^=", "@=", "+", "-", "*", "/", "%", "@", "&", "|", "^", "~", "<", ">", "(", ")", "[",
   "]", "\x7b", "\x7d", ",", ":", ".", "="]

def sign? (cs : List Char) : Option (Token × List Char) :=
  (signs.find? fun s => s.toList.isPrefixOf cs).map fun s => (.sign s, cs.drop s.length)

def next? (cs : List Char) : Option (Token × List Char) :=
  literal? cs <|> word? cs <|> numeral? cs <|> sign? cs

def opens : Token → Bool
  | sign s => s == "(" || s == "[" || s == "\x7b"
  | _ => false

def closes : Token → Bool
  | sign s => s == ")" || s == "]" || s == "\x7d"
  | _ => false

/-- The number of brackets that are open after a token; none may be closed that is not open. -/
def depthAfter (depth : Nat) (t : Token) : Option Nat :=
  if t.opens then some (depth + 1)
  else if t.closes then (if depth = 0 then none else some (depth - 1))
  else some depth

def isSpace (c : Char) : Bool := c == ' ' || c == '\t' || c == '\x0c'

/-- The tokens up to the end of a logical line, and the rest of the text. The first argument bounds the number
of steps. -/
def restOfLine : Nat → Nat → List Char → Option (List Token × List Char)
  | 0, _, _ => none
  | _ + 1, depth, [] => if depth = 0 then some ([], []) else none
  | steps + 1, depth, c :: rest =>
    if c == '\n' then (if depth = 0 then some ([], rest) else restOfLine steps depth rest)
    else if isSpace c then restOfLine steps depth rest
    else do
      let (t, rest) ← next? (c :: rest)
      let depth ← depthAfter depth t
      let (more, rest) ← restOfLine steps depth rest
      pure (t :: more, rest)

end Token

namespace TokenLine

/-- The logical lines of a text after some empty ones. The first argument bounds the number of steps. -/
def linesFrom : Nat → Nat → List Char → Option (List TokenLine)
  | 0, _, _ => none
  | steps + 1, blanks, cs =>
    let indent := (cs.takeWhile (· == ' ')).length
    match cs.drop indent with
    | [] => some []
    | '\n' :: rest => linesFrom steps (blanks + 1) rest
    | rest => do
      let (tokens, rest) ← Token.restOfLine (rest.length + 1) 0 rest
      let more ← linesFrom steps 0 rest
      pure (⟨indent, blanks, tokens⟩ :: more)

def ofText? (s : String) : Option (List TokenLine) := linesFrom (s.length + 1) 0 s.toList

end TokenLine

end Tablewright.Format
