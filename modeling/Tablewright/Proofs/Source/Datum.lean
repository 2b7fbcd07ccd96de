import Mathlib
import Tablewright.Source.Syntax

/-!
# Data of running programs

What the expressions of generated source stand for while it runs.

* `Library`: the numbers, points in time and patterns that generated source imports, with what it uses of them;
  `Library.plain` is a small one.
* `Datum`: values, instances of generated classes, and what can be called.
* `Datum.same`, `Datum.setOf`, `Datum.truth`: keys and members of sets, and truth values.
* `Datum.ofValue?`: the datum of a constant.

Data are values: an assignment to an attribute or to an entry makes a new datum and does not reach other
places that hold the old one.
-/

namespace Tablewright.Source

/-- What generated source imports and does not define itself. -/
structure Library where
  Decimal : Type
  Time : Type
  Pattern : Type
  /-- The decimal that a text spells. -/
  decimal? : String → Option Decimal
  decimalText : Decimal → String
  ofInt : Int → Decimal
  ofFloat : Float → Decimal
  /-- The order of two decimals; what is no number has no place in it. -/
  order? : Decimal → Decimal → Option Ordering
  /-- The point in time that a text spells. -/
  time? : String → Option Time
  timeText : Time → String
  /-- The pattern that a text spells. -/
  pattern? : String → Option Pattern
  /-- Whether a pattern matches the whole of a text. -/
  fullMatch : Pattern → String → Bool

/-- The texts of decimals and of points in time can be read back. -/
structure Library.Faithful (L : Library) : Prop where
  decimal : ∀ d, L.decimal? (L.decimalText d) = some d
  time : ∀ t, L.time? (L.timeText t) = some t

/-- A library of whole numbers, of points in time as they are spelled, and of patterns such as `[a-z]+`: one or
more characters of a range. -/
def Library.plain : Library where
  Decimal := Int
  Time := String
  Pattern := Char × Char
  decimal? := String.toInt?
  decimalText := Int.repr
  ofInt n := n
  ofFloat x := x.toInt64.toInt
  order? m n := some (compare m n)
  time? := some
  timeText t := t
  pattern? s :=
    match s.toList with
    | ['[', least, '-', greatest, ']', '+'] => some (least, greatest)
    | _ => none
  fullMatch range s := !s.isEmpty && s.toList.all fun c => range.1 ≤ c && c ≤ range.2

theorem Library.plain_faithful : Library.plain.Faithful := ⟨Int.toInt?_repr, fun _ => rfl⟩

/-- What expressions stand for. -/
inductive Datum (L : Library) where
  | none
  | bool (b : Bool)
  | int (n : Int)
  | float (x : Float)
  | text (s : String)
  | bytes (octets : List UInt8)
  | decimal (d : L.Decimal)
  | time (t : L.Time)
  | pattern (p : L.Pattern)
  /-- The result of a match, where there is one. -/
  | matched
  | list (items : List (Datum L))
  | tuple (items : List (Datum L))
  | set (items : List (Datum L))
  | generator (items : List (Datum L))
  | dict (entries : List (Datum L × Datum L))
  /-- A constant of an enum. -/
  | member (enum constant value : String)
  /-- An instance of a class, with the attributes of its own. -/
  | object (path : List String) (attributes : List (String × Datum L))
  /-- A generated class, or a class inside it. -/
  | cls (path : List String)
  | builtin (name : String)
  | imported (name : String)
  /-- A method together with what it is called on. -/
  | method (receiver : Datum L) (name : String)
  deriving Inhabited

namespace Datum

variable {L : Library}

/-- The integer that a datum is; truth values count as zero and one. -/
def int? : Datum L → Option Int
  | bool b => some (if b then 1 else 0)
  | int n => some n
  | _ => Option.none

/-- The number that a datum is, whatever its kind. -/
def number? : Datum L → Option L.Decimal
  | bool b => some (L.ofInt (if b then 1 else 0))
  | int n => some (L.ofInt n)
  | float x => some (L.ofFloat x)
  | decimal d => some d
  | _ => Option.none

/-- The text that a datum is; the constants of enums are texts. -/
def text? : Datum L → Option String
  | text s => some s
  | member _ _ value => some value
  | _ => Option.none

/-- What a conversion to a text gives. -/
def shown? : Datum L → Option String
  | none => some "None"
  | bool b => some (Value.boolWord b)
  | int n => some (toString n)
  | float x => some (Value.floatText x)
  | text s => some s
  | decimal d => some (L.decimalText d)
  | _ => Option.none

/-- The truth value of a datum: `None`, zero and what is empty are false. -/
def truth : Datum L → Bool
  | none => false
  | bool b => b
  | int n => n != 0
  | float x => x != 0.0
  | text s => !s.isEmpty
  | bytes octets => !octets.isEmpty
  | decimal d => L.order? d (L.ofInt 0) != some .eq
  | list items | tuple items | set items => !items.isEmpty
  | dict entries => !entries.isEmpty
  | member _ _ value => !value.isEmpty
  | _ => true

/-- Whether a datum is `None`. -/
def isNone : Datum L → Bool
  | none => true
  | _ => false

theorem isNone_iff {d : Datum L} : d.isNone = true ↔ d = none := by
  cases d <;> simp [isNone]

theorem isNone_eq_false_iff {d : Datum L} : d.isNone = false ↔ d ≠ none := by
  rw [← Bool.not_eq_true, isNone_iff]

def members? : Datum L → Option (List (Datum L))
  | list items | tuple items | set items | generator items => some items
  | dict entries => some (entries.map (·.1))
  | text s => some (s.toList.map fun c => text (String.singleton c))
  | _ => Option.none

/-! ## Keys and members of sets -/

def isScalar : Datum L → Bool
  | none | bool _ | int _ | float _ | text _ | bytes _ | decimal _ | member _ _ _ => true
  | _ => false

/-- Whether two scalars are the same key: texts and numbers are compared by value, whatever their kind. -/
def same (a b : Datum L) : Bool :=
  match a, b with
  | none, none => true
  | bytes octets, bytes others => octets == others
  | a, b =>
    match a.text?, b.text? with
    | some s, some t => s == t
    | _, _ =>
      match a.number?, b.number? with
      | some m, some n => L.order? m n == some .eq
      | _, _ => false

/-- The members of a set that is made of some data: the first of those that are the same stays. -/
def distinct (items : List (Datum L)) : List (Datum L) :=
  items.foldl (fun seen item => if seen.any (same · item) then seen else seen ++ [item]) []

def setOf? (items : List (Datum L)) : Option (Datum L) :=
  if items.all isScalar then some (set (distinct items)) else Option.none

theorem foldl_distinct {items seen : List (Datum L)} (different : (seen ++ items).Pairwise fun v w => v.same w = false) :
    items.foldl (fun seen item => if seen.any (same · item) then seen else seen ++ [item]) seen = seen ++ items := by
  induction items generalizing seen with
  | nil => simp
  | cons item rest ih =>
    have new : seen.any (same · item) = false := by
      rw [List.any_eq_false]
      intro v member
      rw [(List.pairwise_append.mp different).2.2 v member item List.mem_cons_self]
      simp
    have split : seen ++ item :: rest = (seen ++ [item]) ++ rest := by simp
    rw [List.foldl_cons, new, if_neg Bool.false_ne_true, ih (split ▸ different), ← split]

/-- A set is made of different scalars as they are. -/
theorem setOf?_eq {items : List (Datum L)} (scalars : ∀ v ∈ items, v.isScalar)
    (different : items.Pairwise fun v w => v.same w = false) : setOf? items = some (set items) := by
  rw [setOf?, if_pos (List.all_eq_true.mpr scalars), distinct, foldl_distinct (by simpa using different),
    List.nil_append]

theorem foldl_distinct_spec {items seen : List (Datum L)} (different : seen.Pairwise fun v w => v.same w = false) :
    (∀ v ∈ items.foldl (fun seen item => if seen.any (same · item) then seen else seen ++ [item]) seen,
      v ∈ seen ++ items) ∧
    (items.foldl (fun seen item => if seen.any (same · item) then seen else seen ++ [item]) seen).Pairwise
      fun v w => v.same w = false := by
  induction items generalizing seen with
  | nil => simpa using different
  | cons item rest ih =>
    rw [List.foldl_cons]
    by_cases known : seen.any (same · item)
    · rw [if_pos known]
      refine ⟨fun v member => ?_, (ih different).2⟩
      rcases List.mem_append.mp ((ih different).1 v member) with old | new
      · exact List.mem_append_left _ old
      · exact List.mem_append_right _ (List.mem_cons_of_mem _ new)
    · have more : (seen ++ [item]).Pairwise fun v w => v.same w = false := by
        refine List.pairwise_append.mpr ⟨different, List.pairwise_singleton _ _, fun v member w last => ?_⟩
        obtain rfl := List.mem_singleton.mp last
        simpa using List.any_eq_false.mp (Bool.not_eq_true _ ▸ known) v member
      rw [if_neg known]
      exact ⟨fun v member => by simpa using (ih more).1 v member, (ih more).2⟩

/-- The members of a set are some of the data that it is made of, and no two of them are the same. -/
theorem distinct_spec (items : List (Datum L)) :
    (∀ v ∈ distinct items, v ∈ items) ∧ (distinct items).Pairwise fun v w => v.same w = false := by
  have spec := @foldl_distinct_spec L items [] .nil
  rw [List.nil_append] at spec
  exact spec

/-- The entries with one more: a key that is already there keeps its place and takes the new value. -/
def put (entries : List (Datum L × Datum L)) (key value : Datum L) : List (Datum L × Datum L) :=
  if entries.any (·.1.same key) then
    entries.map fun entry => if entry.1.same key then (entry.1, value) else entry
  else entries ++ [(key, value)]

def get? (entries : List (Datum L × Datum L)) (key : Datum L) : Option (Datum L) :=
  (entries.find? (·.1.same key)).map (·.2)

/-- The mapping of some entries with scalar keys; a later entry of the same key wins. -/
def dictOf? (entries : List (Datum L × Datum L)) : Option (Datum L) :=
  if entries.all (·.1.isScalar) then some (dict (entries.foldl (fun acc entry => put acc entry.1 entry.2) []))
  else Option.none

/-! ## Attributes -/

/-- The attributes of an instance with one more or with a new value for one. -/
def putAttribute (attributes : List (String × Datum L)) (name : String) (value : Datum L) :
    List (String × Datum L) :=
  match attributes with
  | [] => [(name, value)]
  | (other, old) :: rest =>
    if other = name then (name, value) :: rest else (other, old) :: putAttribute rest name value

theorem lookup_cons_ite {α : Type} (first name : String) (value : α) (rest : List (String × α)) :
    ((first, value) :: rest).lookup name = if name = first then some value else rest.lookup name := by
  by_cases same : name = first
  · simp [same]
  · rw [if_neg same, List.lookup_cons, beq_eq_false_iff_ne.mpr same]

@[simp] theorem lookup_putAttribute (attributes : List (String × Datum L)) (name other : String) (value : Datum L) :
    (putAttribute attributes name value).lookup other =
      if other = name then some value else attributes.lookup other := by
  induction attributes with
  | nil => rw [putAttribute, lookup_cons_ite]
  | cons entry rest ih =>
    obtain ⟨first, old⟩ := entry
    rw [putAttribute]
    by_cases here : first = name
    · rw [if_pos here, lookup_cons_ite, lookup_cons_ite, here]
      split <;> rfl
    · rw [if_neg here, lookup_cons_ite, lookup_cons_ite, ih]
      by_cases same : other = first
      · simp [same, here]
      · simp [same]

/-! ## Constants -/

mutual

/-- The datum of a constant. Days and points in time are written as calls of names that generated source does
not import, and what is no number is written as a name, so they stand for nothing. -/
def ofValue? : Value → Option (Datum L)
  | .null => some none
  | .bool b => some (bool b)
  | .int n => some (int n)
  | .float x => if x == x then some (float x) else Option.none
  | .text s => some (text s)
  | .bytes octets => some (bytes octets)
  | .list items => (ofValues? items).map list
  | .tuple items => (ofValues? items).map tuple
  | .set items => (ofValues? items).bind setOf?
  | .dict entries => (ofEntries? entries).bind dictOf?
  | .date _ | .moment _ => Option.none

def ofValues? : List Value → Option (List (Datum L))
  | [] => some []
  | v :: rest =>
    match ofValue? v, ofValues? rest with
    | some d, some ds => some (d :: ds)
    | _, _ => Option.none

def ofEntries? : List (Value × Value) → Option (List (Datum L × Datum L))
  | [] => some []
  | (k, v) :: rest =>
    match ofValue? k, ofValue? v, ofEntries? rest with
    | some key, some value, some entries => some ((key, value) :: entries)
    | _, _, _ => Option.none

end

end Datum

end Tablewright.Source
