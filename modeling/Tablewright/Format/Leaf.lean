/-!
# Leaves

The smallest parts of a laid out line. A leaf knows everything that the layout of its line depends on: whether
a blank stands before it, how willingly the line is broken there, and which bracket it belongs with.

* `Role`, `LeafKind`, `Leaf`: brackets by what they enclose, kinds of leaves, leaves.
* `Rank`: how willingly a line is broken, looser constructs first.
* `Leaf.enclose`, `pairUp`: brackets around leaves, and their numbering in pairs.
* `depths`, `breaks`: the brackets around each leaf, and the rank of the break after each leaf.

Parentheses may be hidden: they are not written unless a line is broken at them.
-/

namespace Tablewright.Format

/-- What brackets enclose. -/
inductive Role where
  /-- Arguments, parameters or bases. -/
  | args
  | index
  /-- A display, or parentheses around an expression. -/
  | group
  /-- Imported names. -/
  | names
  deriving DecidableEq, Repr

/-- What a leaf is, as far as the layout depends on it. -/
inductive LeafKind where
  | word
  | numeral
  | literal
  | sign
  | dot
  /-- A comma, and whether it stands in the hint of a parameter. -/
  | comma (inHint : Bool)
  /-- The sign before arguments that are spread or collected. -/
  | spread
  | opening (role : Role)
  | closing (role : Role)
  deriving DecidableEq, Repr

/-- How willingly a line is broken before a leaf; zero is never. -/
abbrev Rank := Nat

namespace Rank

def comprehension : Rank := 20

def comma : Rank := 18

def conditional : Rank := 16

/-- Before `and` and `or`. -/
def logic : Rank := 14

def literal : Rank := 12

def comparison : Rank := 10

/-- Before a dot that follows a call or an index. -/
def dot : Rank := 1

end Rank

/-- A part of a line. -/
structure Leaf where
  kind : LeafKind
  text : String
  /-- Whether a blank stands before the leaf when it is not the first of its line. -/
  gap : Bool := false
  /-- The rank of a break before the leaf. -/
  rank : Rank := 0
  /-- Whether the leaf is written. -/
  shown : Bool := true
  /-- The number of the pair that a bracket belongs to. -/
  pair : Nat := 0
  deriving DecidableEq, Repr

namespace Leaf

def opens (l : Leaf) : Bool := match l.kind with
  | .opening _ => true
  | _ => false

def closes (l : Leaf) : Bool := match l.kind with
  | .closing _ => true
  | _ => false

def isBracket (l : Leaf) : Bool := l.opens || l.closes

def isComma (l : Leaf) : Bool := match l.kind with
  | .comma _ => true
  | _ => false

/-- Whether a leaf is the sign of an assignment, of a default or of an argument by name. -/
def isEqual (l : Leaf) : Bool := l.kind == .sign && l.text == "="

/-- What a leaf contributes to its line, without the blank before it. -/
def written (l : Leaf) : String := if l.shown then l.text else ""

/-- The number of characters of a leaf with the blank before it. -/
def length (l : Leaf) : Nat := l.written.length + if l.gap then 1 else 0

def word (s : String) : Leaf := { kind := .word, text := s }

def sign (s : String) : Leaf := { kind := .sign, text := s }

def comma : Leaf := { kind := .comma false, text := "," }

/-- A leaf after a blank. -/
def spaced (l : Leaf) : Leaf := { l with gap := true }

/-- A leaf that a line may be broken before. -/
def ranked (l : Leaf) (r : Rank) : Leaf := { l with rank := r }

def enclose (role : Role) (left right : String) (leaves : List Leaf) : List Leaf :=
  { kind := .opening role, text := left } :: leaves ++ [{ kind := .closing role, text := right }]

/-- Leaves in hidden parentheses. -/
def hide (role : Role) (leaves : List Leaf) : List Leaf :=
  { kind := .opening role, text := "(", shown := false } :: leaves
    ++ [{ kind := .closing role, text := ")", shown := false }]

/-- A leaf with its brackets shown if they are of a given pair. -/
def reveal (pair : Nat) (l : Leaf) : Leaf :=
  if l.isBracket && l.pair == pair then { l with shown := true } else l

end Leaf

/-- Leaves with a blank before the first one. -/
def spacedFirst : List Leaf → List Leaf
  | [] => []
  | l :: rest => l.spaced :: rest

/-- Leaves with their brackets numbered in pairs: the number of the next pair, and the pairs that are open. -/
def pairFrom : Nat → List Nat → List Leaf → List Leaf
  | _, _, [] => []
  | next, opened, l :: rest =>
    if l.opens then { l with pair := next } :: pairFrom (next + 1) (next :: opened) rest
    else if l.closes then { l with pair := opened.headD 0 } :: pairFrom next (opened.drop 1) rest
    else l :: pairFrom next opened rest

def pairUp (leaves : List Leaf) : List Leaf := pairFrom 1 [] leaves

/-- The number of brackets around each leaf, after some are open. Brackets do not count as inside themselves. -/
def depthsFrom : Nat → List Leaf → List Nat
  | _, [] => []
  | depth, l :: rest =>
    if l.opens then depth :: depthsFrom (depth + 1) rest
    else if l.closes then (depth - 1) :: depthsFrom (depth - 1) rest
    else depth :: depthsFrom depth rest

def depths (leaves : List Leaf) : List Nat := depthsFrom 0 leaves

/-- The rank of the break between two leaves, each with its depth: outside of all brackets, a break follows a
comma or stands before a leaf that has a rank. -/
def rankBetween (left : Leaf × Nat) (right : Option (Leaf × Nat)) : Rank :=
  let after := if left.1.isComma && left.2 == 0 then Rank.comma else 0
  let before := match right with
    | some (l, 0) => l.rank
    | _ => 0
  max after before

/-- The rank of the break after each leaf. -/
def ranksAfter : List (Leaf × Nat) → List Rank
  | [] => []
  | l :: rest => rankBetween l rest.head? :: ranksAfter rest

/-- The rank of the break after each leaf. -/
def breaks (leaves : List Leaf) : List Rank := ranksAfter (leaves.zip (depths leaves))

end Tablewright.Format
