import Tablewright.Text.Pieces

/-!
# Words for plurals

The words and endings that the plural of an English noun depends on.

* `unchangedWords`, `unchangedEndings`: nouns that are their own plural.
* `irregularNouns`, `pronouns`, `adjectives`, `possessives`, `verbs`: forms that follow no rule.
* The other lists are the endings of families of nouns, and the words that are exceptions to them.
-/

namespace Tablewright.Text.Plural

def words (line : String) : List String := split ' ' line

/-- Nouns in `-s` that are their own plural. -/
def unchangedInS : List String :=
  words "breeches britches pajamas pyjamas clippers gallows hijinks headquarters pliers scissors testes herpes pincers"
    ++ words "shears proceedings trousers cantus coitus nexus contretemps corps debris siemens mumps diabetes"
    ++ words "jackanapes series species subspecies rabies chassis innings news mews haggis"

/-- Endings of nouns in `-s` that are their own plural. -/
def unchangedInSEndings : List String := words "ois measles"

def unchangedWords : List String :=
  words "tuna salmon mackerel trout bream sea-bass carp cod flounder whiting moose graffiti djinn samuri offspring"
    ++ words "pence quid hertz" ++ unchangedInS

def unchangedEndings : List String :=
  words "butter cash equipment furniture information fish deer sheep nese rese lese mese pox craft"
    ++ unchangedInSEndings

/-- Names of peoples and tongues that are their own plural. -/
def unchangedNames : List String :=
  words "Portuguese Amoyese Borghese Congoese Faroese Foochowese Genevese Genoese Gilbertese Hottentotese"
    ++ words "Kiplingese Kongoese Lucchese Maltese Nankingese Niasese Pekingese Piedmontese Pistoiese Sarawakese"
    ++ words "Shavese Vermontese Wenchowese Yengeese"

/-- Irregular nouns in `-s`. -/
def irregularInS : List (String × String) :=
  [("corpus", "corpuses"), ("opus", "opuses"), ("genus", "genera"), ("mythos", "mythoi"), ("penis", "penises"),
   ("testis", "testes"), ("atlas", "atlases"), ("yes", "yeses")]

/-- Nouns with plurals of their own. -/
def irregularNouns : List (String × String) :=
  [("child", "children"), ("chili", "chilis"), ("brother", "brothers"), ("infinity", "infinities"),
   ("loaf", "loaves"), ("lore", "lores"), ("hoof", "hoofs"), ("beef", "beefs"), ("thief", "thiefs"),
   ("money", "monies"), ("mongoose", "mongooses"), ("ox", "oxen"), ("cow", "cows"), ("graffito", "graffiti"),
   ("octopus", "octopuses"), ("genie", "genies"), ("ganglion", "ganglions"), ("trilby", "trilbys"),
   ("turf", "turfs"), ("numen", "numina"), ("atman", "atmas"), ("occiput", "occiputs"),
   ("sabretooth", "sabretooths"), ("sabertooth", "sabertooths"), ("lowlife", "lowlifes"),
   ("flatfoot", "flatfoots"), ("tenderfoot", "tenderfoots"), ("romany", "romanies"), ("jerry", "jerries"),
   ("mary", "maries"), ("talouse", "talouses"), ("rom", "roma"), ("carmen", "carmina")] ++ irregularInS

def irregularNames : List (String × String) :=
  [("Romany", "Romanies"), ("Jerry", "Jerrys"), ("Mary", "Marys"), ("Rom", "Roma")]

/-- Pronouns as subjects and as possessions, then as objects. -/
def pronouns : List (String × String) :=
  [("i", "we"), ("myself", "ourselves"), ("you", "you"), ("yourself", "yourselves"), ("she", "they"),
   ("herself", "themselves"), ("he", "they"), ("himself", "themselves"), ("it", "they"), ("itself", "themselves"),
   ("they", "they"), ("themself", "themselves"), ("mine", "ours"), ("yours", "yours"), ("hers", "theirs"),
   ("his", "theirs"), ("its", "theirs"), ("theirs", "theirs")]

def objectPronouns : List (String × String) :=
  [("me", "us"), ("myself", "ourselves"), ("you", "you"), ("yourself", "yourselves"), ("her", "them"),
   ("herself", "themselves"), ("him", "them"), ("himself", "themselves"), ("it", "them"), ("itself", "themselves"),
   ("them", "them"), ("themself", "themselves")]

def adjectives : List (String × String) := [("a", "some"), ("an", "some"), ("this", "these"), ("that", "those")]

def possessives : List (String × String) :=
  [("my", "our"), ("your", "your"), ("its", "their"), ("her", "their"), ("his", "their"), ("their", "their")]

def verbs : List (String × String) :=
  [("am", "are"), ("are", "are"), ("is", "are"), ("was", "were"), ("were", "were"), ("have", "have"), ("has", "have"),
   ("do", "do"), ("does", "do")]

/-- Verbs in other tenses, which do not change. -/
def pastVerbs : List String :=
  words "did had ate made put spent fought sank gave sought shall could ought should"

/-- Verbs in `-oes` that lose only the last letter. -/
def oesVerbs : List String := words "canoes floes oboes roes throes woes"

def oesVerbEndings : List String := words "hoes toes shoes"

def prepositions : List String :=
  words "about above across after among around at athwart before behind below beneath beside besides between betwixt"
    ++ words "beyond but by during except for from in into near of off on onto out over since till to under until unto"
    ++ words "upon with"

def links : List String := prepositions ++ ["de", "du", "da"]

/-- Nouns in `-man` that are no men. -/
def notMen : List String :=
  words "ataman caiman cayman ceriman desman dolman farman harman hetman human leman ottoman shaman talisman"

/-- Names in `-man` that are no men. -/
def namesNotMen : List String :=
  words "Alabaman Bahaman Burman German Hiroshiman Liman Nakayaman Norman Oklahoman Panaman Roman Selman Sonaman Tacoman"
    ++ words "Yakiman Yokohaman Yuman"

/-- Nouns in `-s` that are a single thing. -/
def singleInS : List String :=
  words "acropolis aegis alias asbestos bathos bias bronchitis bursitis caddis cannabis canvas chaos christmas cosmos"
    ++ words "dais digitalis epidermis ethos eyas gas glottis hubris ibis lens mantis marquis metropolis pathos pelvis"
    ++ words "polis rhinoceros sassafras trellis ephemeris iris clitoris chrysalis epididymis"

/-- Endings of nouns in `-s` that are a single thing. -/
def singleInSEndings : List String := words "ss us itis"

/-- Endings of nouns in `-o` that take a plain `-s`. -/
def plainO : List String :=
  words "aficionado aggro albino allegro ammo archipelago armadillo auto avocado bimbo bingo bolero bongo burro"
    ++ words "cappuccino casino cello cilantro cochito coco commando concertino contango credo crescendo cyano demo ditto"
    ++ words "dynamo embryo espresso euro falsetto fiasco flamenco furioso generalissimo ghetto gigolo gizmo gringo guano"
    ++ words "gumbo gyro hairdo hippo impetigo inferno info intermezzo intertrigo jumbo junto kilo libero libido libretto"
    ++ words "lido limbo limo lineno lingo lino livedo loco logo lumbago macho macro mafioso magneto magnifico manifesto"
    ++ words "medico memo metro micro mono myo neutrino octavo oregano panto pedalo photo pimento pinto pleco pogo polo"
    ++ words "poncho pro psycho pueblo quarto repo rhino risotto rococo rondo saddo sago salvo scherzando scherzo silo"
    ++ words "sirocco sombrero staccato sterno stucco stylo sumo techno terrazzo testudo timpano tiro tobacco torero"
    ++ words "torso tremolo typo tyro ufo vaquero vermicello verso vibrato violoncello weirdo yo-yo zero alto basso canto"
    ++ words "contralto solo soprano tempo piano virtuoso"

end Tablewright.Text.Plural
