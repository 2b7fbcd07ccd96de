import Tablewright.Document.Problem

/-!
# Checked readings

Reading the parts of a document so that all problems are found, and not only the first one.

* `Checked`: a value, or the problems that were met; two readings side by side keep the problems of both.
* `required`, `optional`: the entries of a mapping, each under one of two spellings.
* `each`: the members of a list.
-/

namespace Tablewright.Document

/-- A value, or the problems in the way of it, in the order of the document's parts. -/
inductive Checked (α : Type) where
  | good (value : α)
  | bad (problems : List Problem)

namespace Checked

def map {α β : Type} (f : α → β) : Checked α → Checked β
  | good a => good (f a)
  | bad ps => bad ps

def both {α β : Type} (f : Checked (α → β)) (x : Checked α) : Checked β :=
  match f, x with
  | good f, good a => good (f a)
  | good _, bad ps => bad ps
  | bad ps, good _ => bad ps
  | bad ps, bad qs => bad (ps ++ qs)

instance : Applicative Checked where
  pure := good
  seq f x := both f (x ())

def andThen {α β : Type} (x : Checked α) (f : α → Checked β) : Checked β :=
  match x with
  | good a => f a
  | bad ps => bad ps

/-- The problems, if there are any. -/
def toExcept {α : Type} : Checked α → Except (List Problem) α
  | good a => .ok a
  | bad ps => .error ps

end Checked

abbrev Reader (α : Type) := List Step → Value → Checked α

/-- A value that does not fit. -/
def misfit {α : Type} (place : List Step) (input : Value) (m : Misfit) : Checked α := .bad [⟨place, m, input⟩]

/-- An entry of a mapping: the spelling that is preferred, and the one that is accepted as well. -/
structure Spelling where
  preferred : String
  other : String
  deriving DecidableEq, Repr

def Spelling.single (name : String) : Spelling := ⟨name, name⟩

/-- The value of an entry with the spelling it is found under; the preferred one wins. -/
def Spelling.find? (s : Spelling) (entries : List (Value × Value)) : Option (String × Value) :=
  match Value.get? s.preferred entries with
  | some v => some (s.preferred, v)
  | none => (Value.get? s.other entries).map fun v => (s.other, v)

def required {α : Type} (s : Spelling) (read : Reader α) (place : List Step)
    (entries : List (Value × Value)) : Checked α :=
  match s.find? entries with
  | some (spelling, v) => read (place ++ [.key spelling]) v
  | none => misfit (place ++ [.key s.preferred]) (.dict entries) .missing

def optional {α : Type} (s : Spelling) (read : Reader α) (absent : α) (place : List Step)
    (entries : List (Value × Value)) : Checked α :=
  match s.find? entries with
  | some (spelling, v) => read (place ++ [.key spelling]) v
  | none => .good absent

/-- A value that may be `null`. -/
def nullable {α : Type} (read : Reader α) : Reader (Option α) := fun place v =>
  match v with
  | .null => .good none
  | v => (read place v).map some

/-- The members of a list, each read at its index. -/
def each {α : Type} (read : Reader α) (place : List Step) : (index : Nat) → List Value → Checked (List α)
  | _, [] => .good []
  | index, v :: rest =>
    Checked.both ((read (place ++ [.item index]) v).map List.cons) (each read place (index + 1) rest)

/-- The members of a value that holds several: lists, tuples and sets do. -/
def members? : Value → Option (List Value)
  | .list items | .tuple items | .set items => some items
  | _ => none

def listOf {α : Type} (read : Reader α) : Reader (List α) := fun place v =>
  match members? v with
  | some items => each read place 0 items
  | none => misfit place v .notList

/-- A mapping, where the parts of a `model` are expected. -/
def mappingOf {α : Type} (model : String) (read : List Step → List (Value × Value) → Checked α) :
    Reader α := fun place v =>
  match v with
  | .dict entries => read place entries
  | v => misfit place v (.notMapping model)

end Tablewright.Document
