import Tablewright.Format.Row

/-!
# Empty lines

How many empty lines stand before each row: two around functions and classes of a module, one around those inside of
something, one after imports and after the text that documents a module or a class. Between other rows the empty
lines of the source stay.

* `Spacing`: what the rows so far have settled.
* `Spacing.before`: the number of empty lines before a row; `Spacing.rows`: for all rows.
-/

namespace Tablewright.Format

/-- What the rows so far have settled. -/
structure Spacing where
  previous : Option Row
  /-- The empty lines that the last row brings after itself. -/
  owed : Nat
  /-- Whether the last row is the text that documents the module. -/
  afterDoc : Bool
  /-- The depths of functions and classes that may still go on, innermost first. -/
  openDefs : List Nat
  deriving DecidableEq, Repr

namespace Spacing

/-- Nothing is settled before the first row. -/
def start : Spacing := ⟨none, 0, false, []⟩

def begins (r : Row) : Bool := r.isDecorator || r.isFunction || r.isClass

/-- The most empty lines that are kept at a depth. -/
def most (depth : Nat) : Nat := if depth = 0 then 2 else 1

/-- The empty lines before the beginning of a function or a class. -/
def beforeDef (previous r : Row) : Nat :=
  if previous.isDecorator then 0
  else if previous.depth < r.depth && (previous.isClass || previous.isFunction) then min r.blanks 1
  else if r.depth = 0 then 2 else 1

/-- The empty lines that the end of functions and classes asks for. -/
def afterDefs (openDefs : List Nat) (r : Row) (kept : Nat) : Nat :=
  if !openDefs.any (r.depth ≤ ·) then kept
  else if r.depth ≠ 0 then 1
  else if openDefs.any (0 < ·) && r.opensBody
      && !(["with", "try", "for", "while", "if", "match"].any fun w => r.starts w) && !openDefs.contains 0 then 1
  else 2

/-- The empty lines before a row that begins no function or class, and those that it brings after itself. -/
def beforeOther (s : Spacing) (previous r : Row) : Nat × Nat :=
  let kept := afterDefs s.openDefs r (min r.blanks (most r.depth))
  if previous.isImport && !r.isImport && r.depth == previous.depth then (1, 0)
  else if previous.isClass && r.isDoc then (0, 1)
  else if previous.opensBody && r.isDoc then (0, 0)
  else (kept, 0)

/-- The empty lines before a row. -/
def before (s : Spacing) (r : Row) : Nat :=
  match s.previous with
  | none => 0
  | some previous =>
    if s.afterDoc && !(r.isFunction || r.isClass) then 1
    else if begins r then beforeDef previous r - s.owed
    else (s.beforeOther previous r).1 - s.owed

/-- What is settled after a row. -/
def step (s : Spacing) (r : Row) : Spacing :=
  let closed := s.openDefs.filter fun depth => decide (depth < r.depth)
  { previous := some r
    owed := match s.previous with
      | some previous => if begins r then 0 else (s.beforeOther previous r).2
      | none => 0
    afterDoc := s.previous.isNone && r.isDoc
    openDefs := if begins r then r.depth :: closed else closed }

/-- Rows with the numbers of empty lines before them. -/
def rowsFrom : Spacing → List Row → List (Nat × Row)
  | _, [] => []
  | s, r :: rest => (s.before r + s.owed, r) :: rowsFrom (s.step r) rest

/-- Rows with the numbers of empty lines before them. -/
def rows (rs : List Row) : List (Nat × Row) := rowsFrom start rs

end Spacing

end Tablewright.Format
