import Tablewright.Calendar
import Tablewright.Number.Shortest
import Tablewright.Text.Quoted

/-!
# Document values

The values that documents are made of: the input of every reader, and the defaults and bounds that a
schema passes on to the generated source.

* `Value`: scalars, sequences, mappings in the order of their entries, sets, octets, days and moments.
* `Value.literal`: the source text of a value.
* `Value.display`: the plain text of a value; texts stand for themselves.
* `Value.sameKey`: when two keys of a mapping are the same key.
-/

namespace Tablewright

/-- A value of a document. -/
inductive Value where
  | null
  | bool (b : Bool)
  | int (n : Int)
  | float (x : Float)
  | text (s : String)
  | list (items : List Value)
  | tuple (items : List Value)
  | dict (entries : List (Value × Value))
  | set (items : List Value)
  | bytes (octets : List UInt8)
  | date (day : Date)
  | moment (time : Moment)
  deriving Inhabited

namespace Value

def boolWord (b : Bool) : String := if b then "True" else "False"

/-- The text of a double, on its own or inside another value. -/
def floatText (x : Float) : String := Number.FloatFormat.standard.render x

mutual

/-- The source text of a value. -/
def literal : Value → String
  | null => "None"
  | bool b => boolWord b
  | int n => toString n
  | float x => floatText x
  | text s => Text.quote s
  | list items => "[" ++ ", ".intercalate (literals items) ++ "]"
  | tuple items =>
    match literals items with
    | [one] => s!"({one},)"
    | parts => "(" ++ ", ".intercalate parts ++ ")"
  | dict entries => "\x7b" ++ ", ".intercalate (entryLiterals entries) ++ "\x7d"
  | set items =>
    match literals items with
    | [] => "set()"
    | parts => "\x7b" ++ ", ".intercalate parts ++ "\x7d"
  | bytes octets => Text.quoteOctets octets
  | date day => day.construction
  | moment time => time.construction

def literals : List Value → List String
  | [] => []
  | v :: rest => literal v :: literals rest

def entryLiterals : List (Value × Value) → List String
  | [] => []
  | (k, v) :: rest => (literal k ++ ": " ++ literal v) :: entryLiterals rest

end

def display : Value → String
  | text s => s
  | date day => day.iso
  | moment time => time.written " "
  | v => v.literal

/-- The number a scalar stands for as a key: truth values count as zero and one, whole doubles as
integers. -/
def keyInt? : Value → Option Int
  | bool b => some (if b then 1 else 0)
  | int n => some n
  | float x => Number.wholeValue? x
  | _ => none

mutual

/-- Whether two values are the same key: numbers are compared by value, whatever their kind. -/
def sameKey : Value → Value → Bool
  | null, null => true
  | text s, text t => s == t
  | bytes a, bytes b => a == b
  | date a, date b => a == b
  | moment a, moment b => a == b
  | tuple a, tuple b => sameKeys a b
  | float x, float y => x == y
  | v, w =>
    match v.keyInt?, w.keyInt? with
    | some m, some n => m == n
    | _, _ => false

/-- Whether two sequences hold the same keys in the same order. -/
def sameKeys : List Value → List Value → Bool
  | [], [] => true
  | v :: vs, w :: ws => sameKey v w && sameKeys vs ws
  | _, _ => false

end

/-- Whether a value can be a key: sequences of fixed length can if their members can; lists, mappings and
sets cannot. -/
def isKey : Value → Bool
  | list _ | dict _ | set _ => false
  | tuple items => items.attach.all fun ⟨v, _⟩ => v.isKey
  | _ => true

/-- The entries with one more: a key that is already there keeps its place and takes the new value. -/
def put (entries : List (Value × Value)) (key value : Value) : List (Value × Value) :=
  if entries.any fun entry => entry.1.sameKey key then
    entries.map fun entry => if entry.1.sameKey key then (entry.1, value) else entry
  else entries ++ [(key, value)]

/-- The mapping of a list of pairs; a later pair of the same key wins. -/
def ofPairs (pairs : List (Value × Value)) : Value :=
  dict (pairs.foldl (fun entries pair => put entries pair.1 pair.2) [])

def get? (key : String) (entries : List (Value × Value)) : Option Value :=
  (entries.find? fun entry => match entry.1 with
    | text s => s == key
    | _ => false).map (·.2)

mutual

def depth : Value → Nat
  | list items | tuple items | set items => 1 + depths items
  | dict entries => 1 + entryDepths entries
  | _ => 1

/-- The greatest depth of several values. -/
def depths : List Value → Nat
  | [] => 0
  | v :: rest => max (depth v) (depths rest)

/-- The greatest depth of the values of several entries. -/
def entryDepths : List (Value × Value) → Nat
  | [] => 0
  | (_, v) :: rest => max (depth v) (entryDepths rest)

end

/-- Whether a value is `null`. -/
def isNull : Value → Bool
  | null => true
  | _ => false

/-- Whether a value is `null`, false, zero, or without members. -/
def isEmpty : Value → Bool
  | null => true
  | bool b => !b
  | int n => n == 0
  | float x => x == 0.0
  | text s => s.isEmpty
  | list items | tuple items | set items => items.isEmpty
  | dict entries => entries.isEmpty
  | bytes octets => octets.isEmpty
  | date _ | moment _ => false

/-- The name of the kind of a value. -/
def kindName : Value → String
  | null => "NoneType"
  | bool _ => "bool"
  | int _ => "int"
  | float _ => "float"
  | text _ => "str"
  | list _ => "list"
  | tuple _ => "tuple"
  | dict _ => "dict"
  | set _ => "set"
  | bytes _ => "bytes"
  | date _ => "date"
  | moment _ => "datetime"

end Value

end Tablewright
