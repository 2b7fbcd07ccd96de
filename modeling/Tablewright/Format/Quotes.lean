/-!
# Quotes of literals

Literals are written in double quotes wherever that takes no more escapes.

* `Literal.ofText?`: a literal cut into its mark, its quotes and its body.
* `Literal.preferDouble`: the literal in the preferred quotes.
-/

namespace Tablewright.Format

/-- A quoted text: the mark before it, its quotes, and what stands between them. -/
structure Literal where
  mark : List Char
  quotes : List Char
  body : List Char
  deriving DecidableEq, Repr

namespace Literal

def isQuote (c : Char) : Bool := c == '"' || c == '\''

/-- The quotes at the front of a text: three of a kind, or one. -/
def quotesOf : List Char → List Char
  | a :: b :: c :: _ => if a == b && b == c then [a, a, a] else [a]
  | a :: _ => [a]
  | [] => []

def ofText (s : String) : Literal :=
  let mark := s.toList.takeWhile fun c => !isQuote c
  let rest := s.toList.drop mark.length
  let quotes := quotesOf rest
  ⟨mark, quotes, (rest.drop quotes.length).take (rest.length - 2 * quotes.length)⟩

def text (l : Literal) : String := String.ofList (l.mark ++ l.quotes ++ l.body ++ l.quotes)

/-- A text in which every run of backslashes before a quote gets a new length. The first argument is the length
of the run so far. -/
def adjustRuns (quote : Char) (f : Nat → Nat) : Nat → List Char → List Char
  | run, [] => List.replicate run '\\'
  | run, c :: rest =>
    if c == '\\' then adjustRuns quote f (run + 1) rest
    else if c == quote then List.replicate (f run) '\\' ++ c :: adjustRuns quote f 0 rest
    else List.replicate run '\\' ++ c :: adjustRuns quote f 0 rest

/-- A text without the backslashes that escape a quote. -/
def unescape (quote : Char) (cs : List Char) : List Char :=
  adjustRuns quote (fun n => if n % 2 = 1 then n - 1 else n) 0 cs

/-- A text with a backslash before every quote that has none. -/
def escape (quote : Char) (cs : List Char) : List Char :=
  adjustRuns quote (fun n => if n % 2 = 0 then n + 1 else n) 0 cs

/-- The characters inside the fields of a formatted text. The first argument says whether a field is open. -/
def fieldChars : Bool → List Char → List Char
  | false, '\x7b' :: '\x7b' :: rest => fieldChars false rest
  | false, '\x7b' :: rest => fieldChars true rest
  | true, '\x7d' :: rest => fieldChars false rest
  | true, c :: rest => c :: fieldChars true rest
  | false, _ :: rest => fieldChars false rest
  | _, [] => []

def isFormatted (l : Literal) : Bool := l.mark.any fun c => c == 'f' || c == 'F'

/-- The other one of the two quotes. -/
def otherQuote (c : Char) : Char := if c == '"' then '\'' else '"'

def backslashes (cs : List Char) : Nat := cs.count '\\'

/-- A literal in single or double quotes, in the quotes that need fewer escapes: double ones if both need as
many. Literals in three quotes stay as they are, and so does a formatted text whose fields would get a
backslash. -/
def preferDouble (l : Literal) : Literal :=
  match l.quotes with
  | [quote] =>
    let other := otherQuote quote
    let body := unescape other l.body
    let turned := escape other (unescape quote body)
    let kept := { l with body }
    if l.isFormatted && (fieldChars false turned).contains '\\' then kept
    else if backslashes turned > backslashes body then kept
    else if backslashes turned == backslashes body && quote == '"' then kept
    else ⟨l.mark, [other], turned⟩
  | _ => l

end Literal

end Tablewright.Format
