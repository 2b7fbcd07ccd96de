import Tablewright.Notice
import Tablewright.Text.Case
import Tablewright.Text.Classes
import Tablewright.Text.Pieces

/-!
# Tones of the console

How lines stand out on a terminal: faults and warnings by their level, all others by their words.

* `Tone`: the ways in which lines stand out, with the codes that begin them.
* `Tone.of`: the tone of a message.
* `Tone.paint`: a line in a tone.
-/

namespace Tablewright.Console

/-- A way in which a line stands out. -/
inductive Tone where
  | plain
  | debug
  | warning
  | error
  | critical
  | success
  | progress
  | highlight
  | section
  deriving DecidableEq, Repr

namespace Tone

def style (number : Nat) : String := s!"\x1b[{number}m"

/-- The codes that begin a line in a tone. -/
def codes : Tone → String
  | plain => ""
  | debug => style 36
  | warning => style 33
  | error => style 31
  | critical => style 35
  | success => style 92 ++ style 1
  | progress => style 94
  | highlight => style 96
  | «section» => style 1 ++ style 96

def successWords : List String := ["complete", "successfully", "generated", "wrote", "finished", "✓"]

def progressWords : List String :=
  ["loading", "resolving", "describing", "emitting", "writing", "starting", "→"]

def highlightWords : List String := ["skipping", "found", "detected", "degrad", "•"]

/-- Whether a message holds one of some words, whatever the case of its letters. -/
def mentions (message : String) (words : List String) : Bool :=
  let lower := Text.lower message.toList
  words.any fun word => Text.occursIn word.toList lower

/-- The number of characters that a heading has to exceed. -/
def minHeading : Nat := 20

/-- Whether a message is a heading: a long line with an equals sign. -/
def isHeading (message : String) : Bool :=
  message.toList.contains '=' && decide (minHeading < (Text.strip message).length)

def ofWords (otherwise : Tone) (message : String) : Tone :=
  if mentions message successWords then success
  else if mentions message progressWords then progress
  else if mentions message highlightWords then highlight
  else if isHeading message then «section»
  else otherwise

/-- The tone of a message. -/
def of (level : Level) (message : String) : Tone :=
  match level with
  | .error => error
  | .critical => critical
  | .warning => warning
  | .debug => ofWords debug message
  | .info => ofWords plain message

def paint (tone : Tone) (line : String) : String :=
  if tone = plain then line else tone.codes ++ line ++ style 0

end Tone

end Tablewright.Console
