import Tablewright.Text.Pieces
import Tablewright.Text.Quoted

/-!
# Text literals with few escapes

Documentation texts and formatted texts are written between quotes that the text does not contain, so
that it needs as few escapes as possible.

* `spell`: the body of a literal and the quotes it can stand between, in order of preference.
* `docLiteral`: a documentation text between three quotes.
* `formattedLiteral`: the literal of a formatted text from its parts.
-/

namespace Tablewright.Source

/-- The four kinds of quotes, in order of preference. -/
def allQuotes : List (List Char) := [['\''], ['"'], ['"', '"', '"'], ['\'', '\'', '\'']]

/-- The quotes between which a text may run over several lines. -/
def longQuotes : List (List Char) := [['"', '"', '"'], ['\'', '\'', '\'']]

/-- A character of a literal body. Line feeds and tabs may stand as they are where `raw` is set. -/
def spellChar (raw : Bool) (c : Char) : List Char :=
  if raw && (c == '\n' || c == '\t') then [c]
  else if c == '\\' || !Text.isPrintable c then Text.escape c
  else [c]

/-- Moves the quotes of another mark than the last character to the front. -/
def preferOther (last : Char) (quotes : List (List Char)) : List (List Char) :=
  quotes.filter (·.head? != some last) ++ quotes.filter (·.head? == some last)

/-- The body of a literal and the quotes it can stand between. If none of the given quotes fits, the text
is quoted in the ordinary way, between the first of the given quotes that has its mark. -/
def spell (quotes : List (List Char)) (raw : Bool) (cs : List Char) : List Char × List (List Char) :=
  let body := cs.flatMap (spellChar raw)
  let fitting := (if body.contains '\n' then quotes.filter longQuotes.contains else quotes).filter
    fun q => !Text.occursIn q body
  -- no quotes go around the text as it stands, so it is escaped
  if fitting.isEmpty then
    let mark := Text.quoteMark cs
    (Text.quotedBody cs, [(quotes.find? (·.contains mark)).getD [mark]])
  else match body.getLast? with
    | none => (body, fitting)
    | some last =>
      let ordered := preferOther last fitting
      -- a quote at the end would run into the closing ones
      if ordered.head?.bind (·.head?) == some last then (body.dropLast ++ ['\\', last], ordered)
      else (body, ordered)

def docLiteral (doc : String) : String :=
  let (body, quotes) := spell longQuotes true doc.toList
  let quote := quotes.headD []
  String.ofList (quote ++ body ++ quote)

/-- A part of a formatted text as it is written, and whether it is literal text. -/
abbrev FormattedPart := List Char × Bool

/-- Spells the parts one after the other; the quotes that fit one part are offered to the next. -/
def spellParts (quotes : List (List Char)) : List FormattedPart → List Char × List (List Char)
  | [] => ([], quotes)
  | (cs, isText) :: rest =>
    let (body, fitting) := spell quotes (!isText) cs
    let (bodies, last) := spellParts fitting rest
    (body ++ bodies, last)

def formattedLiteral (parts : List FormattedPart) : String :=
  let (body, quotes) := spellParts allQuotes parts
  let quote := quotes.headD []
  String.ofList ('f' :: (quote ++ body ++ quote))

end Tablewright.Source
