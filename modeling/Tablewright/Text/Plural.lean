import Tablewright.Text.Case
import Tablewright.Text.Classes
import Tablewright.Text.PluralTable

/-!
# Plurals

The plural of a noun, with the letter case of the singular.

* `Plural.Rule`: what a family of nouns drops and takes in the plural; `Plural.rules`: the families, in order.
* `Plural.noun`: the plural of a noun or of a compound.
* `Plural.verb?`: words in `-s` in small letters are taken for verbs, which lose the `-s`.
* `Text.plural?`: the plural of a text; blank texts have none.
-/

namespace Tablewright.Text

namespace Plural

/-- The last characters of a text. -/
def lastChars (count : Nat) (cs : List Char) : List Char := cs.drop (cs.length - count)

/-- A text without its last characters. -/
def dropLast (count : Nat) (cs : List Char) : List Char := cs.take (cs.length - count)

def endsIn (endings : List String) (cs : List Char) : Bool :=
  endings.any fun e => e.toList.reverse.isPrefixOf cs.reverse

def isOneOf (ws : List String) (cs : List Char) : Bool := ws.contains (String.ofList cs)

/-- A family of nouns: its endings and whole words, endings it does not cover, whether letter case counts, and
whether only words with a capital belong to it; and what its nouns drop and take in the plural. -/
structure Rule where
  endings : List String
  drop : Nat
  add : String
  wholes : List String := []
  except : List String := []
  cased : Bool := false
  capital : Bool := false

/-- Whether a word starts with a character that has no other form in capitals. -/
def startsCapital (word : List Char) : Bool :=
  match word with
  | c :: _ => upperChar c == [c]
  | [] => false

def Rule.covers (r : Rule) (word lowered : List Char) : Bool :=
  let text := if r.cased then word else lowered
  (endsIn r.endings text || isOneOf r.wholes text) && !endsIn r.except text && (!r.capital || startsCapital word)

def Rule.apply (r : Rule) (word : List Char) : List Char := dropLast r.drop word ++ r.add.toList

/-- The families of nouns. The first one that covers a noun decides. -/
def rules : List Rule :=
  [{ endings := ["quy"], drop := 1, add := "ies" },
   { endings := ["person"], drop := 4, add := "ople" },
   { endings := notMen, drop := 0, add := "s" },
   { endings := namesNotMen, drop := 0, add := "s", cased := true },
   { endings := ["man"], drop := 3, add := "men" },
   { endings := ["mouse"], drop := 5, add := "mice" },
   { endings := [], wholes := words "booklouse grapelouse louse woodlouse", drop := 5, add := "lice" },
   { endings := ["louse"], drop := 0, add := "s" },
   { endings := ["goose"], drop := 5, add := "geese" },
   { endings := ["tooth"], drop := 5, add := "teeth" },
   { endings := ["foot"], drop := 4, add := "feet" },
   { endings := ["taco"], drop := 5, add := "tacos" },
   { endings := [], wholes := ["die"], drop := 3, add := "dice" },
   { endings := ["ceps"], drop := 0, add := "" },
   { endings := ["zoon"], drop := 2, add := "a" },
   { endings := words "cis sis xis", drop := 2, add := "es" },
   { endings := words "czech eunuch stomach", drop := 0, add := "s" },
   { endings := words "codex murex silex radix helix", drop := 2, add := "ices" },
   { endings := words "bacterium agendum desideratum erratum stratum datum ovum extremum candelabrum", drop := 2,
     add := "a" },
   { endings := words "alumnus alveolus bacillus bronchus locus nucleus stimulus meniscus sarcophagus", drop := 2,
     add := "i" },
   { endings := words "criterion perihelion aphelion phenomenon prolegomenon noumenon organon asyndeton hyperbaton",
     drop := 2, add := "a" },
   { endings := words "alumna alga vertebra persona vita", drop := 0, add := "e" },
   { endings := singleInSEndings, wholes := singleInS, drop := 0, add := "es" },
   { endings := ["es"], drop := 0, add := "es", capital := true },
   { endings := words "quartz topaz", drop := 0, add := "es" },
   { endings := ["z"], except := ["zz"], drop := 0, add := "zes" },
   { endings := ["snooze"], drop := 0, add := "s" },
   { endings := words "ch sh zz ss x", drop := 0, add := "es" },
   { endings := words "elf alf olf", drop := 1, add := "ves" },
   { endings := ["eaf"], except := ["deaf"], drop := 1, add := "ves" },
   { endings := words "nife life wife", drop := 2, add := "ves" },
   { endings := ["arf"], drop := 1, add := "ves" },
   { endings := words "ay ey iy oy uy", wholes := ["y"], drop := 0, add := "s" },
   { endings := ["y"], drop := 0, add := "s", capital := true },
   { endings := ["y"], drop := 1, add := "ies" },
   { endings := plainO ++ words "ao eo io oo uo", wholes := ["ado", "oto"], drop := 0, add := "s" },
   { endings := ["o"], drop := 0, add := "es" }]

/-- The plural of a single noun by the family it belongs to. -/
def byRule (word lowered : List Char) : List Char :=
  match rules.find? fun r => r.covers word lowered with
  | some r => r.apply word
  | none => word ++ ['s']

def wordsOf (cs : List Char) : List (List Char) := pieces isBlank cs

def joinWords (ws : List (List Char)) : List Char := List.intercalate [' '] ws

def image? (table : List (String × String)) (cs : List Char) : Option (List Char) :=
  (table.lookup (String.ofList cs)).map String.toList

/-- A text cut before the separator in front of a word, with the letter case aside: what comes before, and the
rest. -/
def cutBefore? (title : String) : List Char → List Char → Option (List Char × List Char)
  | _, [] => none
  | before, c :: rest =>
    let word := if c == '-' then some rest else if isBlank c then some (rest.dropWhile isBlank) else none
    match word with
    | some word =>
      if !before.isEmpty && title.toList.isPrefixOf (lower word) then some (before.reverse, c :: rest)
      else if c == '-' then cutBefore? title (c :: before) rest
      else none
    | none => cutBefore? title (c :: before) rest

/-- Whether a word may be followed by `general` as an adjective. -/
def isOffice (stem : List Char) : Bool :=
  let stem := lower stem
  !(["major", "lieutenant", "brigadier", "adjutant"].any fun w => w.toList.isPrefixOf stem)

/-- Nouns with an adjective behind them: the noun, and the rest. -/
def adjectiveBehind? (word : List Char) : Option (List Char × List Char) :=
  let office := if isOffice word && !occursIn "star".toList (lower word) then cutBefore? "general" [] word else none
  let court := (cutBefore? "martial" [] word).filter fun parts => lower parts.1 == "court".toList
  let pound := (cutBefore? "force" [] word).filter fun parts => lower parts.1 == "pound".toList
  office <|> court <|> pound

/-- Where the last `per` or `a` with something on both sides stands. -/
def denominatorAt? (lowered : List Char) : Option Nat :=
  ((List.range lowered.length).filter fun i =>
    0 < i && ([" per ", " a "].any fun mark =>
      mark.toList.isPrefixOf (lowered.drop i) && i + mark.length < lowered.length)).getLast?

/-- The first pair of words of which the second is a link: the words before the first, the first, the link, and the
words after it. -/
def linkedPair? : List (List Char) → List (List Char) →
    Option (List (List Char) × List Char × List Char × List (List Char))
  | before, w :: link :: rest =>
    if isOneOf links link then some (before.reverse, w, link, rest) else linkedPair? (w :: before) (link :: rest)
  | _, _ => none

/-- The place of the first link between the first and the last of some words. -/
def pivot? (ws : List (List Char)) : Option Nat :=
  (List.range ws.length).find? fun i => 0 < i && i + 1 < ws.length && (ws[i]?).any (isOneOf links)

/-- The parts of a text around a link and the article `a`. -/
def aroundArticle? : List Char → List Char → Option (List Char × List Char × List Char)
  | _, [] => none
  | before, c :: rest =>
    let space (cs : List Char) : Option (List Char) :=
      match cs with
      | '-' :: more => some more
      | d :: more => if isBlank d then some (more.dropWhile isBlank) else none
      | [] => none
    let found := do
      let afterSpace ← space (c :: rest)
      let link ← links.find? fun l =>
        l.toList.isPrefixOf (lower afterSpace) && (space (afterSpace.drop l.length)).any fun more =>
          (more.head?.any fun a => a == 'a' || a == 'A') && (space (more.drop 1)).isSome
      let afterLink ← space (afterSpace.drop link.length)
      let last ← space (afterLink.drop 1)
      let middle := (c :: rest).take ((c :: rest).length - afterLink.length)
      if last.isEmpty then none else some (before.reverse, middle, last)
    match found with
    | some parts => some parts
    | none => aroundArticle? (c :: before) rest

/-- The plural of a pronoun, also behind a preposition. -/
def pronoun? (lowered : List Char) : Option (List Char) :=
  let behind := match wordsOf lowered with
    | [p, q] =>
      if isOneOf prepositions p then (image? objectPronouns q).map fun image => dropLast q.length lowered ++ image
      else none
    | _ => none
  behind <|> image? pronouns lowered <|> image? objectPronouns lowered

/-- The plural of a noun of which the last word follows no rule. -/
def irregular? (word last : List Char) : Option (List Char) :=
  let plural := image? irregularNames last <|> image? irregularNouns (lower last)
  let regular := plural.map fun plural => dropLast last.length word ++ plural
  regular <|> (if endsIn ["prima donna", "prima-donna"] (lower word) && (wordsOf word).length ≤ 2
    then some (dropLast 11 word ++ "prima donnas".toList) else none)

/-- The plural of a noun or of a compound. The first argument bounds the depth of compounds. -/
def noun : Nat → List Char → List Char
  | 0, word => word
  | _, [] => []
  | n + 1, word =>
    let lowered := lower word
    let ws := wordsOf word
    let last := ws.getLast?.getD []
    -- compounds of several words, in which another word than the last one changes
    let linked := if ws.length < 3 then none
      else (linkedPair? [] ws).map fun (before, w, link, rest) => joinWords (before ++ [noun n w, link] ++ rest)
    let article := if !(occursIn " a ".toList lowered || occursIn "-a-".toList lowered) then none
      else (aroundArticle? [] word).map fun (first, middle, second) => noun n first ++ middle ++ noun n second
    let degrees := if 2 ≤ ws.length && (ws[ws.length - 2]?).any (isOneOf ["degree"])
      then some (joinWords (noun n (ws.headD []) :: ws.drop 1)) else none
    let dashed := splitAtChar '-' lowered
    let pivoted := if dashed.length < 3 then none
      else (pivot? dashed).map fun i =>
        let first := noun n (dashed[i - 1]?.getD [])
        joinWords (dashed.take (i - 1) ++ [first ++ '-' :: (dashed[i]?.getD []) ++ ['-']])
          ++ joinWords (dashed.drop (i + 1))
    -- the first rule that applies counts
    if isOneOf unchangedWords (lower last) then linked.getD word
    else if isOneOf unchangedNames word || endsIn unchangedEndings lowered then word
    else
      let compound := ((adjectiveBehind? word).map fun (stem, rest) => noun n stem ++ rest) <|> article <|> linked
        <|> ((denominatorAt? lowered).map fun i => noun n (word.take i) ++ word.drop i) <|> degrees <|> pivoted
      (compound <|> pronoun? lowered <|> irregular? word last).getD (byRule word lowered)

/-- Whether a word in `-s` is a noun whatever its meaning as a verb. -/
def isNounInS (word : List Char) : Bool :=
  isOneOf (singleInS ++ unchangedInS ++ irregularInS.map (·.1)) word
    || endsIn (singleInSEndings ++ unchangedInSEndings ++ ["cis", "sis", "xis", "ceps"]) word
    || ((word.head?.any Char.isUpper) && 2 ≤ word.length && endsIn ["s"] word)

/-- The plural of a word that looks like a verb in the third person, which loses its ending. -/
def thirdPerson? (word lowered : List Char) : Option (List Char) :=
  if lowered == "quizzes".toList then some "quiz".toList
  else if endsIn (words "ches shes zzes sses xes") lowered then some (dropLast 2 word)
  else if endsIn ["ies"] lowered && 3 < word.length then some (dropLast 3 lowered ++ ['y'])
  else if isOneOf oesVerbs lowered || endsIn oesVerbEndings lowered then some (dropLast 1 word)
  else if endsIn ["oes"] lowered && 3 < word.length then some (dropLast 2 lowered)
  else if endsIn ["s"] lowered && !endsIn ["ss"] lowered && 2 ≤ word.length then some (dropLast 1 word)
  else none

/-- The plural of a word that is or looks like a verb. -/
def verb? (word : List Char) : Option (List Char) :=
  let first := (wordsOf word).headD []
  let rest := word.drop first.length
  let negated := endsIn ["n't"] first
  match image? verbs first, (if negated then image? verbs (dropLast 3 first) else none) with
  | some plural, _ => some (plural ++ rest)
  | none, some plural => some (plural ++ "n't".toList ++ rest)
  | none, none =>
    if isOneOf pastVerbs first || negated then some word
    else if isNounInS word || word.any isBlank then none
    else thirdPerson? word (lower word)

/-- Whether a text is what capitals make of it with small letters after the first. -/
def isCapitalized (cs : List Char) : Bool :=
  match cs with
  | [] => true
  | c :: rest => titleChar c ++ lower rest == cs

/-- A text with its first character as a capital and the others as small letters. -/
def recapitalize (cs : List Char) : List Char :=
  match cs with
  | [] => []
  | c :: rest => titleChar c ++ lower rest

/-- A word with the letter case of another. The word `I` gives none. -/
def withCase (model word : List Char) : List Char :=
  if model == ['I'] then word
  else
    let word := if isCapitalized model then recapitalize word else word
    if upper model == model then upper word else word

/-- Words with the letter case of others. Where there are more others than words, those may not ask for capitals. -/
def withCases : List (List Char) → List (List Char) → Option (List (List Char))
  | [], ws => some ws
  | m :: ms, w :: ws => (withCases ms ws).map (withCase m w :: ·)
  | m :: ms, [] => if m != ['I'] && (isCapitalized m || upper m == m) then none else withCases ms []

def restoreCase (word plural : List Char) : Option (List Char) :=
  (withCases (splitAtChar ' ' word) (splitAtChar ' ' plural)).map joinWords

/-- The bound on the depth of compounds in a text. -/
def depthOf (word : List Char) : Nat := word.length + 1

/-- A text cut into the white space before it, the text itself, and the white space after it. -/
def parts (cs : List Char) : List Char × List Char × List Char :=
  let before := cs.takeWhile isBlank
  let word := dropTrailing isBlank (cs.drop before.length)
  (before, word, cs.drop (before.length + word.length))

/-- The plural of a text that holds a word and no line feed inside of it, by a rule for what is between the white
space. -/
def around? (plural? : List Char → Option (List Char)) (cs : List Char) : Option (List Char) :=
  let (before, word, after) := parts cs
  if word.contains '\n' || cs.all (· == '\n') then some cs
  else if word.isEmpty then none
  else (plural? word).map fun plural => before ++ plural ++ after

/-- The plural of a noun in the letter case of its singular. -/
def casedNoun? (word : List Char) : Option (List Char) := restoreCase word (noun (depthOf word) word)

def owner? (word : List Char) : Option (List Char) :=
  let owner := if endsIn ["'"] word then dropLast 1 word else if endsIn ["'s"] word then dropLast 2 word else []
  if owner.isEmpty then none else some owner

def possessive (owner : List Char) : List Char :=
  owner ++ (if owner.getLast? == some 's' then ['\''] else ['\'', 's'])

/-- The plural of a text without white space around it: of an adjective, of a possessive, of a verb or of a noun. -/
def ofWord? (word : List Char) : Option (List Char) :=
  match image? adjectives (lower word) <|> image? possessives (lower word) with
  | some plural => restoreCase word plural
  | none =>
    match owner? word with
    | some owner => (around? casedNoun? owner).bind fun plural => restoreCase word (possessive plural)
    | none => restoreCase word ((verb? word).getD (noun (depthOf word) word))

end Plural

/-- The plural of a text, with the white space around it. A blank text has none. A text with a line feed inside is its
own plural. -/
def plural? (s : String) : Option String := (Plural.around? Plural.ofWord? s.toList).map String.ofList

end Tablewright.Text
