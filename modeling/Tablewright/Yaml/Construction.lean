import Tablewright.Yaml.Node
import Tablewright.Yaml.Scalar

/-!
# From nodes to values

The value that a node stands for.

* `Built`: a value, or the fault that is met first when collections are filled level by level.
* `merged`: the entries of a mapping with those that are merged into it.
* `Node.build`: the value of a node; every step goes down in the tree, so its height bounds their number.
-/

namespace Tablewright.Yaml

/-- A value, or a fault with the level of the collection it is met in. -/
inductive Built (α : Type) where
  | good (value : α)
  | bad (level : Nat) (fault : Fault)

namespace Built

def map {α β : Type} (f : α → β) : Built α → Built β
  | good a => good (f a)
  | bad level fault => bad level fault

/-- Two values side by side. Of two faults the one on the upper level counts, and the first of the same level. -/
def both {α β γ : Type} (f : α → β → γ) : Built α → Built β → Built γ
  | good a, good b => good (f a b)
  | bad m e, good _ => bad m e
  | good _, bad n e => bad n e
  | bad m e, bad n e' => if n < m then bad n e' else bad m e

def ofExcept {α : Type} (level : Nat) : Except Fault α → Built α
  | .ok a => good a
  | .error e => bad level e

/-- A node that has no value. -/
def refuse {α : Type} (level : Nat) : Built α := bad level (.refused .construction)

end Built

/-- The results for the members of a list, side by side. -/
def Built.each {α β : Type} (f : α → Built β) : List α → Built (List β)
  | [] => .good []
  | a :: rest => Built.both List.cons (f a) (each f rest)

/-- The text of a node that stands for a scalar: a mapping does so by its plain value. -/
def scalarText? : (fuel : Nat) → Node → Option String
  | 0, _ => none
  | _ + 1, .scalar _ text => some text
  | fuel + 1, .mapping _ entries =>
    (entries.find? fun entry => entry.1.tag == .plainValue).bind fun entry => scalarText? fuel entry.2
  | _ + 1, _ => none

/-- The entries of the mappings of a list, last mapping first; all members have to be mappings. -/
def joined (merge : List (Node × Node) → Option (List (Node × Node))) :
    List Node → Option (List (Node × Node))
  | [] => some []
  | .mapping _ entries :: rest => do
    let later ← joined merge rest
    some (later ++ (← merge entries))
  | _ :: _ => none

/-- The entries that an entry contributes: those to be merged, and those that stand for themselves. -/
def contributed (merge : List (Node × Node) → Option (List (Node × Node))) (entry : Node × Node) :
    Option (List (Node × Node) × List (Node × Node)) :=
  match entry.1.tag with
  | .merge =>
    match entry.2 with
    | .mapping _ entries => (merge entries).map fun es => (es, [])
    | .sequence _ items => (joined merge items).map fun es => (es, [])
    | _ => none
  | .plainValue => some ([], [(entry.1.retag .text, entry.2)])
  | _ => some ([], [entry])

/-- The entries of a mapping after those that are merged into it, which give way to them. -/
def merged : (fuel : Nat) → List (Node × Node) → Option (List (Node × Node))
  | 0, _ => none
  | fuel + 1, entries => do
    let parts ← entries.mapM (contributed (merged fuel))
    some (parts.flatMap (·.1) ++ parts.flatMap (·.2))

def builtEntry (build : Nat → Node → Built Value) (level : Nat) (entry : Node × Node) : Built (Value × Value) :=
  Built.both Prod.mk (build level entry.1) (build level entry.2)

/-- The key and the value of an entry of a mapping, whose key has to be one. -/
def builtKeyed (build : Nat → Node → Built Value) (level : Nat) (entry : Node × Node) : Built (Value × Value) :=
  let key := match entry.1.tag, build level entry.1 with
    | .sequence, _ | .mapping, _ | .set, _ | .orderedMapping, _ | .pairs, _ => Built.refuse level
    | _, k => k
  Built.both Prod.mk key (build level entry.2)

/-- The entries of a mapping. -/
def builtMapping (build : Nat → Node → Built Value) (level fuel : Nat) : Node → Built (List (Value × Value))
  | .mapping _ entries =>
    match merged fuel entries with
    | none => Built.refuse level
    | some entries =>
      (Built.each (builtKeyed build level) entries).map
        fun pairs => pairs.foldl (fun es pair => Value.put es pair.1 pair.2) []
  | _ => Built.refuse level

def builtSequence (build : Nat → Node → Built Value) (level : Nat) : Node → Built (List Value)
  | .sequence _ items => Built.each (build level) items
  | _ => Built.refuse level

def builtPair (build : Nat → Node → Built Value) (level : Nat) : Node → Built Value
  | .mapping _ [entry] => (builtEntry build level entry).map fun pair => .tuple [pair.1, pair.2]
  | _ => Built.refuse level

/-- The pairs of a sequence of mappings of one entry each. -/
def builtPairs (build : Nat → Node → Built Value) (level : Nat) : Node → Built (List Value)
  | .sequence _ items => Built.each (builtPair build level) items
  | _ => Built.refuse level

namespace Node

/-- The value of a node on a level; what it holds is one level further down. -/
def buildAt : (fuel level : Nat) → Node → Built Value
  | 0, level, _ => Built.refuse level
  | fuel + 1, level, n =>
    let build := buildAt fuel
    match n.tag with
    | .sequence => (builtSequence build (level + 1) n).map .list
    | .mapping => (builtMapping build (level + 1) fuel n).map .dict
    | .set => (builtMapping build (level + 1) fuel n).map fun es => .set (es.map (·.1))
    | .orderedMapping | .pairs => (builtPairs build (level + 1) n).map .list
    -- a mapping can stand for a scalar too
    | tag =>
      match (scalarText? (fuel + 1) n).bind (scalarValue? tag) with
      | some v => Built.ofExcept level v
      | none => Built.refuse level

def build (n : Node) : Except Fault Value :=
  match buildAt (n.height + 1) 0 n with
  | .good v => .ok v
  | .bad _ fault => .error fault

end Node

end Tablewright.Yaml
