import Tablewright.Format.Line

/-!
# Breaking lines

A line that has no room is broken at its brackets: what is in them moves to lines of its own, one step deeper. What
is in brackets already is broken at its loosest operators first, one item a line.

* `Line.Parts`: a line cut at a pair of brackets.
* `Line.atDelimiters?`, `Line.atFirstBracket?`, `Line.atLastBracket?`: the ways to break a line.
* `Line.layOut`: the lines that a line becomes.

Hidden parentheses take part. They are shown once a line is broken at them, and stay shown when that attempt is
given up for another one.
-/

namespace Tablewright.Format

namespace Line

/-- A line cut at a pair of brackets: what comes before it, with the opening bracket, what is in it, and what
comes after it, with the closing bracket. -/
structure Parts where
  opening : Leaf
  head : Line
  body : Line
  tail : Line

/-- The leaves of the body of a line. The body of an import or of a list of parameters without a comma of its own
gets one at its end. -/
def bodyLeaves (line : Line) (opening : Leaf) (leaves : List Leaf) : List Leaf :=
  let bare := line.isFunction && opening.kind == .opening .args && leaves.all fun l => l.kind != .comma false
  if (line.isImport || bare) && !leaves.getLast?.any Leaf.isComma then leaves ++ [Leaf.comma] else leaves

/-- Whether the body of brackets is broken at its commas in any case: it ends with a comma that is not its only
one, or it is a display or a list of imported names. -/
def bodyExplodes (opening : Leaf) (leaves : List Leaf) : Bool :=
  let ranks := breaks leaves
  let endsWithComma := leaves.getLast?.any Leaf.isComma
  let top := maxRank (if endsWithComma then ranks.dropLast else ranks)
  top == Rank.comma && (endsWithComma || opening.kind == .opening .group || opening.kind == .opening .names)

/-- The parts of a line that is cut at a bracket. -/
def cut (line : Line) (opening : Leaf) (head body tail : List Leaf) : Parts :=
  let body := bodyLeaves line opening body
  { opening
    head := ⟨line.depth, head, false, .matched, false⟩
    body := ⟨line.depth + 1, body, true, .all, bodyExplodes opening body⟩
    tail := ⟨line.depth, tail, false, .none, false⟩ }

/-- The lines of a cut, with the brackets shown. -/
def Parts.lines (p : Parts) : List Line :=
  ([p.head, p.body, p.tail].filter fun line => !line.leaves.isEmpty).map fun line =>
    { line with leaves := line.leaves.map (Leaf.reveal p.opening.pair) }

/-- Cuts leaves at their last brackets that are not empty and not to be skipped. The leaves are given last one
first, after those that belong to the tail. -/
def cutBack (skip : List Nat) : List Leaf → List Leaf → Option (Leaf × List Leaf × List Leaf × List Leaf)
  | _, [] => none
  | tail, l :: rest =>
    let isOpening (m : Leaf) : Bool := m.opens && m.pair == l.pair
    if l.closes && !skip.contains l.pair && !rest.head?.any isOpening then
      match rest.dropWhile fun m => !isOpening m with
      | [] => none
      | opening :: before =>
        some (opening, (opening :: before).reverse, (rest.takeWhile fun m => !isOpening m).reverse, l :: tail)
    else cutBack skip (l :: tail) rest

/-- The parts of a line at its last brackets that are not to be skipped. -/
def lastParts? (line : Line) (skip : List Nat) : Option Parts :=
  (cutBack skip [] line.leaves.reverse).map fun (opening, head, body, tail) => line.cut opening head body tail

/-- Cuts leaves at the first parentheses that are not empty. -/
def cutFront (head : List Leaf) : List Leaf → Option (Leaf × List Leaf × List Leaf × List Leaf)
  | [] => none
  | l :: rest =>
    let isClosing (m : Leaf) : Bool := m.closes && m.pair == l.pair
    if l.opens && l.text == "(" && !rest.head?.any isClosing then
      some (l, head ++ [l], rest.takeWhile fun m => !isClosing m, rest.dropWhile fun m => !isClosing m)
    else cutFront (head ++ [l]) rest

/-- The lines of the head of a function, broken at its first parentheses that are not empty. -/
def atFirstBracket? (line : Line) : Option (List Line) := do
  let (opening, head, body, tail) ← cutFront [] line.leaves
  if tail.isEmpty then none else pure (line.cut opening head body tail).lines

/-- The runs of leaves up to the breaks of a rank. -/
def runs (rank : Rank) : List Leaf → List (Leaf × Rank) → List (List Leaf)
  | current, [] => if current.isEmpty then [] else [current]
  | current, (l, r) :: rest =>
    if r == rank then (current ++ [l]) :: runs rank [] rest else runs rank (current ++ [l]) rest

/-- Runs of leaves, the last one with a comma at its end. -/
def closeWithComma : List (List Leaf) → List (List Leaf)
  | [] => []
  | [last] => [last ++ [Leaf.comma]]
  | run :: rest => run :: closeWithComma rest

/-- The lines of what is in brackets, broken at its loosest breaks. A break at commas puts one after the last item,
too. A single dot is no reason to break. -/
def atDelimiters? (limit : Limit) (line : Line) : Option (List Line) :=
  let ranks := breaks line.leaves
  let top := maxRank ranks.dropLast
  if top == 0 || (top == Rank.dot && ranks.count top == 1) then none
  else
    let safe := limit.commaAfterSpread ||
      (line.leaves.zip (depths line.leaves)).all fun (l, depth) => !(l.kind == .spread && depth == 0)
    let pieces := runs top [] (line.leaves.zip ranks)
    let pieces := if safe && top == Rank.comma && !line.leaves.getLast?.any Leaf.isComma then closeWithComma pieces
      else pieces
    some (pieces.map fun leaves => ⟨line.depth, leaves, line.inside, .all, false⟩)

/-- Whether leaves end with the sign of an assignment and a bracket. -/
def endsWithAssignment (leaves : List Leaf) : Bool :=
  match leaves.reverse with
  | _ :: sign :: _ => sign.isEqual
  | _ => false

/-- Whether a cut inside hidden parentheses keeps the start of an assignment together: brackets close after the
sign, or the sign is in the head and there is room for it. -/
def keepsAssignment (columns : Int) (inner : Parts) : Bool :=
  let leaves := inner.head.leaves
  (leaves.reverse.takeWhile fun l => !l.isEqual).any Leaf.closes
    || (leaves.any Leaf.isEqual && inner.head.fits columns)

/-- Whether a cut inside hidden parentheses is better than one at them. Only an assignment to something with
brackets, for which there is room, may rather be cut at the parentheses. -/
def prefersInner (columns : Int) (inner outer : Parts) : Bool :=
  let head := outer.head.leaves
  !endsWithAssignment head || !head.dropLast.any Leaf.isBracket || !outer.head.fits (columns - 1)
    || keepsAssignment columns inner

/-- The lines of a line that is broken at its last brackets, some skipped, and the pair of brackets that was used.
Hidden parentheses are used only if needed, or always if `force` is set. The first argument bounds the number of
pairs that are skipped. -/
def breakBack? (limit : Limit) (force : Bool) : Nat → List Nat → Line → Option (List Line × Nat)
  | 0, _, _ => none
  | n + 1, skip, line => do
    let outer ← line.lastParts? skip
    let plain := (outer.lines, outer.opening.pair)
    -- hidden parentheses are shown only where that helps; else a bracket further inside is tried
    if force || outer.opening.shown || line.isImport || !outer.body.needsNoParens limit.columns then pure plain
    else
      let skip := outer.opening.pair :: skip
      match line.lastParts? skip with
      | some inner =>
        if prefersInner limit.columns inner outer then
          match breakBack? limit force n skip line with
          | some result => pure result
          | none => fallBack outer plain
        else pure plain
      | none => fallBack outer plain
where
  /-- The cut at hidden parentheses, if that gives lines that there is room for or that can be broken. -/
  fallBack (outer : Parts) (plain : List Line × Nat) : Option (List Line × Nat) :=
    if (outer.body.canBreak || outer.body.fits limit.columns) && !outer.head.isMultiline && !outer.tail.isMultiline
    then some plain else none

/-- A search for the brackets at the end of a line that may stay on one line: how many leaves are left to look at,
the room that is used, the pair that is being passed, the last pair that was passed, pairs inside of passed ones,
and the pairs to skip. -/
structure Search where
  left : Nat
  used : Nat
  passing : Option Nat
  passed : Option Nat
  inner : List Nat
  skip : List Nat
  /-- Whether the leaf at hand has been weighed, so that only its pair remains to be entered. -/
  weighed : Bool

/-- Enters the pair of a closing bracket, unless it ends with a comma that asks for lines. -/
def Search.enter (leaves : List Leaf) (left : Nat) (l : Leaf) (s : Search) : Option Search :=
  let afterComma := decide (0 < left) && (leaves[left - 1]?).any Leaf.isComma
  let single := l.text == ")" && enclosesOne leaves l
  if afterComma && !single then none
  else if l.shown then some { s with left, passing := some l.pair, passed := some l.pair, weighed := false }
  else some { s with left, weighed := false }

/-- The search up to the next set of pairs to skip. The first argument is the number of leaves left. -/
def Search.run (columns : Int) (leaves : List Leaf) : Nat → Search → Option Search
  | 0, _ => none
  | left + 1, s =>
    match leaves[left]? with
    | none => none
    | some l =>
      -- from the right, with the length of what has been passed
      if s.weighed then (s.enter leaves left l).bind (Search.run columns leaves left)
      else
        let length := if left == 0 then l.written.length else l.length
        let s := { s with used := s.used + length }
        if l.text.toList.contains '\n' || decide ((s.used : Int) > columns) then none
        else match s.passing with
          | some pair =>
            if l.opens && l.pair == pair then Search.run columns leaves left { s with passing := none }
            else if l.closes then Search.run columns leaves left { s with inner := l.pair :: s.inner }
            else Search.run columns leaves left s
          | none =>
            if !l.closes then Search.run columns leaves left s
            else if decide (0 < left) && (leaves[left - 1]?).any Leaf.opens then
              Search.run columns leaves left { s with inner := l.pair :: s.inner }
            else match s.passed with
              | some pair =>
                some { s with left := left + 1, skip := pair :: s.inner ++ s.skip, inner := [], weighed := true }
              | none => (s.enter leaves left l).bind (Search.run columns leaves left)

def Search.next (columns : Int) (leaves : List Leaf) (s : Search) : Option Search :=
  Search.run columns leaves s.left s

def reveal (pair : Nat) (line : Line) : Line := { line with leaves := line.leaves.map (Leaf.reveal pair) }

/-- The number of pairs that may be skipped in a line. -/
def pairBound (line : Line) : Nat := line.leaves.length + 2

/-- The lines of a line that is broken at its last brackets, or at earlier ones if the first line has no room
otherwise. The search tells which brackets to skip. The first argument bounds the number of attempts. -/
def attempts (limit : Limit) (force : Bool) : Nat → Search → Line → Option (List Line)
  | 0, _, _ => none
  | n + 1, s, line =>
    match s.next limit.columns line.leaves with
    | none => (breakBack? limit force line.pairBound [] line).map (·.1)
    | some s => do
      let (lines, pair) ← breakBack? limit force line.pairBound s.skip line
      if lines.head?.any (fits limit.columns) then pure lines else attempts limit force n s (line.reveal pair)

/-- The lines of a line that is broken at its last brackets or at earlier ones. A line that ends with a comma that
asks for lines does not try its last brackets first. -/
def atLastBracket? (limit : Limit) (force : Bool) (line : Line) : Option (List Line) :=
  let s : Search := ⟨line.leaves.length, 4 * line.depth, none, none, [], [], false⟩
  if line.hasFinalComma then attempts limit force line.pairBound s line
  else do
    let (lines, pair) ← breakBack? limit force line.pairBound [] line
    if lines.head?.any (fits limit.columns) then pure lines
    else attempts limit force line.pairBound s (line.reveal pair)

/-- Whether hidden parentheses of a line are shown in the lines that it became. -/
def showsHidden (line : Line) (lines : List Line) : Bool :=
  let hidden := (line.leaves.filter fun l => !l.shown && line.tracks l).map (·.pair)
  lines.any fun result => result.leaves.any fun l => l.isBracket && l.shown && hidden.contains l.pair

/-- The lines that a line becomes. A way to break it that leaves one of its lines as the line was has failed. If the
last brackets were used without any hidden parentheses and the first line has no room, hidden parentheses are
tried, too. The first argument bounds the number of times that a line is broken. -/
def layOutFrom (limit : Limit) : Nat → Bool → Line → List Line
  | 0, _, line => [line]
  | n + 1, force, line =>
    let finish (force : Bool) (made : Option (List Line)) : Option (List Line) := do
      let lines ← made
      -- a cut that leaves the line as it is would be made again and again
      if lines.any fun l => l.text == line.text then none else pure (lines.flatMap (layOutFrom limit n force))
    let back (_ : Unit) : Option (List Line) := do
      let lines ← finish force (line.atLastBracket? limit force)
      if force || !line.hasHidden || line.showsHidden lines || line.isMultiline
        || lines.head?.any (fits limit.columns) then pure lines
      else
        -- breaking everything counts only where all of it fits then
        let second ← finish true (line.atLastBracket? limit true)
        pure (if second.all (fits limit.columns) then second else lines)
    if !line.explodes && !line.hasFinalComma && line.fits limit.columns then [line]
    else if line.isFunction then (finish force line.atFirstBracket?).getD [line]
    else if line.inside then ((finish force (line.atDelimiters? limit)).orElse back).getD [line]
    else (back ()).getD [line]

def layOut (limit : Limit) (line : Line) : List Line := layOutFrom limit (2 * line.leaves.length + 8) false line

end Line

end Tablewright.Format
