import Tablewright.Format.Leaf
import Tablewright.Text.Width

/-!
# Lines

A line of leaves while it is being laid out: its text, and the measures that decide how it is broken.

* `Tracking`, `Line`: which brackets of a line count, lines.
* `Limit`: the room there is, and what may be added at breaks.
* `Line.text`, `Line.fits`: the text of a line, and whether there is room for it.
* `Line.hasFinalComma`: whether brackets end with a comma that asks for one item a line.
* `Line.canBreak`, `Line.needsNoParens`: whether a line can be broken at all, and whether hidden parentheses
  around it would not help.
-/

namespace Tablewright.Format

/-- Which brackets of a line count for its layout: all of them, those whose partners are in the line too, or
none. -/
inductive Tracking where
  | all
  | matched
  | none
  deriving DecidableEq, Repr

/-- The room for lines, and whether a comma may follow a collected or spread argument. -/
structure Limit where
  columns : Int
  commaAfterSpread : Bool
  deriving DecidableEq, Repr

/-- A line of leaves. -/
structure Line where
  depth : Nat
  leaves : List Leaf
  /-- Whether the line stands between brackets. -/
  inside : Bool
  tracking : Tracking
  /-- Whether the line is broken even if there is room for it. -/
  explodes : Bool
  deriving DecidableEq, Repr

namespace Line

/-- The text of leaves, with a blank before each that asks for one. -/
def textOf : List Leaf → String
  | [] => ""
  | l :: rest => (if l.gap then " " else "") ++ l.written ++ textOf rest

def text (line : Line) : String :=
  match line.leaves with
  | [] => ""
  | first :: rest => String.ofList (List.replicate (4 * line.depth) ' ') ++ first.written ++ textOf rest

def roomFor (columns : Int) (s : String) : Bool :=
  decide ((Text.width s : Int) ≤ columns) && !s.toList.contains '\n'

def fits (columns : Int) (line : Line) : Bool := roomFor columns line.text

def startsWith (words : List String) (line : Line) : Bool :=
  line.leaves.head?.any fun l => l.kind == .word && words.contains l.text

def isFunction (line : Line) : Bool := line.startsWith ["def"]

def isImport (line : Line) : Bool := line.startsWith ["import", "from"]

def isMultiline (line : Line) : Bool := line.leaves.any fun l => l.text.toList.contains '\n'

def between (pair : Nat) (leaves : List Leaf) : List Leaf :=
  ((leaves.dropWhile fun l => !(l.opens && l.pair == pair)).drop 1).takeWhile fun l =>
    !(l.closes && l.pair == pair)

/-- The number of commas among leaves that are in no further brackets. -/
def commas (leaves : List Leaf) : Nat :=
  ((leaves.zip (depths leaves)).filter fun (l, depth) => l.isComma && depth == 0).length

/-- Whether a closing bracket of some leaves encloses a single item, as the parentheses of a tuple of one item
do. Arguments never count as single. -/
def enclosesOne (leaves : List Leaf) (closing : Leaf) : Bool :=
  match closing.kind with
  | .closing .args => commas (between closing.pair leaves) == 0
  | _ => decide (commas (between closing.pair leaves) < 2)

/-- Whether a comma before a closing bracket asks for one item a line. -/
def asksForLines (line : Line) (closing : Leaf) : Bool :=
  match closing.text with
  | "\x7d" => true
  | "]" => closing.kind != .closing .index || !enclosesOne line.leaves closing
  | _ => line.isImport || !enclosesOne line.leaves closing

/-- The pairs of brackets of which both are in a line. -/
def matchedPairs (leaves : List Leaf) : List Nat :=
  (leaves.filter fun l => l.closes && leaves.any fun m => m.opens && m.pair == l.pair).map (·.pair)

/-- Whether a leaf counts for the layout of a line. -/
def tracks (line : Line) (l : Leaf) : Bool :=
  match line.tracking with
  | .all => true
  | .matched => (matchedPairs line.leaves).contains l.pair
  | .none => false

def closingAfterComma : List Leaf → List Leaf
  | l :: m :: rest => if l.isComma && m.closes then m :: closingAfterComma (m :: rest) else closingAfterComma (m :: rest)
  | _ => []

/-- Whether some brackets of a line end with a comma that asks for one item a line. -/
def hasFinalComma (line : Line) : Bool :=
  (closingAfterComma line.leaves).any fun l => line.tracks l && line.asksForLines l

/-- Whether a line has hidden parentheses that count. -/
def hasHidden (line : Line) : Bool := line.leaves.any fun l => !l.shown && line.tracks l

/-- The greatest rank of some breaks. -/
def maxRank (ranks : List Rank) : Rank := ranks.foldl max 0

/-- The lengths of the leaves of a line. Nothing stands before the first one. -/
def lengths (leaves : List Leaf) : List Nat :=
  match leaves with
  | [] => []
  | first :: rest => first.written.length :: rest.map Leaf.length

/-- Whether a line can be broken at all: it has several leaves and is no literal with calls after it. -/
def canBreak (line : Line) : Bool :=
  match line.leaves with
  | first :: second :: _ => !(first.kind == .literal && second.kind == .dot)
  | _ => false

/-- Whether what follows the bracket that a line opens with has room. Leaves come with their lengths; the first
arguments are the room that is used, and whether the bracket is closed. -/
def restHasRoom (columns : Int) (pair : Nat) : Nat → Bool → List (Leaf × Nat) → Bool
  | _, _, [] => true
  | used, closed, (l, length) :: rest =>
    let closed := closed || (l.closes && l.pair == pair)
    if closed then
      let used := used + length
      if decide ((used : Int) > columns) then false
      else restHasRoom columns pair used (!l.opens) rest
    else restHasRoom columns pair used false rest

/-- Whether what comes before the last bracket of a line has room, or can be broken at other brackets. -/
def startHasRoom (columns : Int) (pair : Nat) : Nat → Bool → List (Leaf × Nat) → Bool
  | _, _, [] => false
  | used, others, (l, length) :: rest =>
    let used := used + length
    if l.opens && l.pair == pair then others || decide ((used : Int) ≤ columns)
    else startHasRoom columns pair used (others || l.opens) rest

/-- Whether the bracket that a line ends with may be broken instead of hidden parentheses around the line. -/
def endsInBreakable (columns : Int) (line : Line) : Bool :=
  match line.leaves.reverse with
  | last :: before :: _ =>
    let breakable := match last.kind with
      | .closing .index => last.text != "]"
      | .closing _ => true
      | _ => false
    breakable && !before.opens
      && startHasRoom columns last.pair (4 * line.depth) false (line.leaves.zip (lengths line.leaves))
  | _ => false

/-- Whether the bracket that a line starts with may be broken instead of hidden parentheses around the line. -/
def startsInBreakable (columns : Int) (line : Line) : Bool :=
  match line.leaves with
  | first :: second :: _ =>
    first.opens && !second.closes
      && restHasRoom columns first.pair (4 * line.depth) false (line.leaves.zip (lengths line.leaves))
  | _ => false

/-- Whether hidden parentheses around a line can stay hidden: it has no break outside of brackets, or a single
one that does not call for parentheses. -/
def needsNoParens (columns : Int) (line : Line) : Bool :=
  let ranks := breaks line.leaves
  let top := maxRank ranks
  if top == 0 then true
  else if 1 < ranks.count top then false
  else top == Rank.dot || line.startsInBreakable columns || line.endsInBreakable columns

end Line

end Tablewright.Format
