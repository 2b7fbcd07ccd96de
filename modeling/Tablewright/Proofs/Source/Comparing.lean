import Tablewright.Proofs.Source.Dialogue

/-!
# Comparing and hashing data

Equality and hashes go through data of every kind, and ask the classes of instances on the way.

* `Key`, `Hashing`: what scalars are compared by, and what the language makes of it; `Hashing.plain` is a small one.
* `View`, `Datum.view`: what comparisons and hashes look at.
* `alike`, `hashOf`: whether two members of containers are equal, and hashes.
* `examine`, `conclude`, `answer`: expressions, bodies and calls of functions that compare and hash.

Frozen sets are instances of a class that no module defines, as exceptions of the language are.
-/

namespace Tablewright.Source

variable {L : Library}

/-! ## Keys and views -/

/-- What scalars are compared by: enum constants are texts, and truth values are numbers. -/
inductive Key (L : Library) where
  | none
  | text (s : String)
  | bytes (octets : List UInt8)
  | number (d : L.Decimal)
  | time (t : L.Time)

/-- What the language and its library do to compare and hash. -/
structure Hashing (L : Library) where
  /-- Whether two numbers are one object, which counts as equal inside containers. -/
  identical : L.Decimal → L.Decimal → Bool
  sameTime : L.Time → L.Time → Bool
  /-- The hash of a key, unless the language refuses it. -/
  key? : Key L → Option Int
  ofTuple : List Int → Int
  ofSet : List Int → Int

def Key.same (H : Hashing L) : Key L → Key L → Bool
  | .none, .none => true
  | .text s, .text t => s == t
  | .bytes octets, .bytes others => octets == others
  | .number m, .number n => L.order? m n == some .eq || H.identical m n
  | .time s, .time t => H.sameTime s t
  | _, _ => false

/-- Equal keys have equal hashes, a set is hashed in any order, and only what is no proper number may be refused. -/
structure Hashing.Lawful (H : Hashing L) : Prop where
  symm : ∀ {k l : Key L}, k.same H l → l.same H k
  trans : ∀ {k l m : Key L}, k.same H l → l.same H m → k.same H m
  agrees : ∀ {k l : Key L}, k.same H l → H.key? k = H.key? l
  ofSet_perm : ∀ {hs ks : List Int}, hs.Perm ks → H.ofSet hs = H.ofSet ks
  refused : ∀ {k : Key L}, H.key? k = Option.none → ∃ d, k = .number d

/-- For the small library: numbers are their own hashes, and texts are hashed by their length. -/
def Hashing.plain : Hashing Library.plain where
  identical _ _ := false
  sameTime (s t : String) := s == t
  key?
    | .none => some 0
    | .text s => some s.length
    | .bytes octets => some octets.length
    | .number d => some d
    | .time t => some (String.length t)
  ofTuple hashes := hashes.foldl (fun seed hash => 31 * seed + hash) 7
  ofSet hashes := hashes.sum

theorem Key.same_plain {k l : Key Library.plain} : k.same Hashing.plain l ↔ k = l := by
  have numbers (m n : Library.plain.Decimal) : Library.plain.order? m n = some .eq ↔ m = n :=
    Option.some_inj.trans (compare_eq_iff_eq (α := Int))
  have times (s t : Library.plain.Time) : Hashing.plain.sameTime s t ↔ s = t := beq_iff_eq (α := String)
  cases k <;> cases l <;> simp [Key.same, numbers, times]
  exact nofun

theorem Hashing.plain_lawful : Hashing.plain.Lawful where
  symm same := Key.same_plain.mpr (Key.same_plain.mp same).symm
  trans first second := Key.same_plain.mpr ((Key.same_plain.mp first).trans (Key.same_plain.mp second))
  agrees same := congrArg _ (Key.same_plain.mp same)
  ofSet_perm perm := perm.sum_eq
  refused {k} refuses := by cases k <;> cases refuses

/-- What comparisons and hashes look at. -/
inductive View (L : Library) where
  | key (k : Key L)
  | list (items : List (Datum L))
  | tuple (items : List (Datum L))
  | set (frozen : Bool) (items : List (Datum L))
  | dict (entries : List (Datum L × Datum L))
  | object (path : List String)
  | other

namespace Datum

def frozenset (items : List (Datum L)) : Datum L := .object ["frozenset"] [("", .set items)]

def view : Datum L → View L
  | none => .key .none
  | bool b => .key (.number (L.ofInt (if b then 1 else 0)))
  | int n => .key (.number (L.ofInt n))
  | float x => .key (.number (L.ofFloat x))
  | decimal d => .key (.number d)
  | text s | member _ _ s => .key (.text s)
  | bytes octets => .key (.bytes octets)
  | time t => .key (.time t)
  | list items => .list items
  | tuple items => .tuple items
  | set items => .set false items
  | dict entries => .dict entries
  | object ["frozenset"] [("", .set items)] => .set true items
  | object path _ => .object path
  | _ => .other

theorem view_object {path : List String} (other : path ≠ ["frozenset"]) (attributes : List (String × Datum L)) :
    view (.object path attributes) = .object path := by
  rw [view]
  exact fun _ frozen => absurd frozen other

/-- What a view shows is what the datum is made of. -/
theorem view_shape (v : Datum L) : match v.view with
    | .list items => v = .list items
    | .tuple items => v = .tuple items
    | .set frozen items => v = if frozen then .frozenset items else .set items
    | .dict entries => v = .dict entries
    | .object path => ∃ attributes, v = .object path attributes
    | _ => True := by
  cases v with
  | object path attributes =>
    by_cases frozen : ∃ items, path = ["frozenset"] ∧ attributes = [("", .set items)]
    · obtain ⟨items, rfl, rfl⟩ := frozen
      rfl
    · have shown : view (.object path attributes) = .object path := by
        rw [view]
        intro items isFrozen only
        exact frozen ⟨items, isFrozen, only⟩
      rw [shown]
      exact ⟨attributes, rfl⟩
  | list | tuple | set | dict => rfl
  | _ => trivial

def iterate? (v : Datum L) : Option (List (Datum L)) :=
  match v.view with
  | .set _ items => some items
  | _ => v.members?

theorem iterate?_sequence {v : Datum L} {items : List (Datum L)} (is : v.view = .list items ∨ v.view = .tuple items) :
    v.iterate? = some items := by
  have shape := v.view_shape
  cases is with
  | inl list =>
    rw [list] at shape
    obtain rfl := shape
    rfl
  | inr tuple =>
    rw [tuple] at shape
    obtain rfl := shape
    rfl

theorem iterate?_set {v : Datum L} {frozen : Bool} {items : List (Datum L)} (is : v.view = .set frozen items) :
    v.iterate? = some items := by
  rw [iterate?, is]

end Datum

def View.container? : View L → Option String
  | .list _ => some "list"
  | .tuple _ => some "tuple"
  | .set frozen _ => some (if frozen then "frozenset" else "set")
  | .dict _ => some "dict"
  | _ => none

/-- Whether a datum is a constant of the enum at a path. -/
def Datum.isConstantOf (path : List String) : Datum L → Bool
  | .member enum _ _ => [enum] = path
  | _ => false

/-- Whether a datum is an instance of the class at a path. -/
def View.isInstanceOf? (path : List String) : View L → Option Bool
  | .object own => some (own = path)
  | .other => none
  | _ => some false

/-- Whether a datum is an instance of a class: a container, a constant of an enum, or an instance of a generated class. -/
def Program.isOf? (p : Program) (v : Datum L) : Datum L → Option Bool
  | .builtin name =>
    if name ∈ ["dict", "list", "tuple", "set", "frozenset"] then some (v.view.container? == some name) else Option.none
  | .cls path => (p.class? path).bind fun c => if c.isEnum then some (v.isConstantOf path) else v.view.isInstanceOf? path
  | _ => Option.none

/-- The function that a name stands for at the top level, unless a local name hides it. -/
def Frame.function? (σ : Frame L) (name : String) : Option Function :=
  match σ.locals name, (bindings name σ.home).getLast? with
  | none, some (.function signature _ body) => some ⟨signature, body⟩
  | _, _ => none

/-! ## Running -/

mutual

/-- Whether two members of containers are equal.  Where their kinds differ, or one of them is an instance, the first one
is asked, then the second one, and if neither rules they are not equal. -/
def Program.alike (p : Program) (H : Hashing L) (v w : Datum L) : Outcome L Bool :=
  match v.view, w.view with
  | .key k, .key l => pure (k.same H l)
  | .list items, .list others =>
    if items.length = others.length then p |>.allAlike H items others else pure false
  | .tuple items, .tuple others => p |>.allAlike H items others
  | .set _ items, .set _ others =>
    if items.length = others.length then p |>.allAmong H items others else pure false
  | .dict entries, .dict others =>
    if entries.length = others.length then p |>.allEntries H entries others else pure false
  | .other, _ | _, .other => .stuck
  -- instances, or values of different kinds: the left one is asked first, then the right one
  | _, _ => do
    match ← p |>.ruling H v w with
    | some ruled => pure ruled
    | none =>
      let ruled ← p |>.ruling H w v
      pure (ruled.getD false)
partial_fixpoint

/-- What a datum says about being equal to one of another kind: only instances know other kinds. -/
def Program.ruling (p : Program) (H : Hashing L) (v w : Datum L) : Outcome L (Option Bool) :=
  match v.view with
  | .object _ =>
    match p.methodOf? v "__eq__" with
    | none => .stuck
    | some (home, f) => do
      match ← p |>.answer H home f [v, w] with
      | .builtin "NotImplemented" => pure none
      | ruled => pure (some ruled.truth)
  | _ => pure none
partial_fixpoint

/-- Whether the members of two sequences are equal one by one. -/
def Program.allAlike (p : Program) (H : Hashing L) (items others : List (Datum L)) : Outcome L Bool :=
  match items, others with
  | [], [] => pure true
  | v :: items, w :: others => do
    let equal ← p |>.alike H v w
    if equal then p |>.allAlike H items others else pure false
  | _, _ => pure false
partial_fixpoint

/-- Whether a datum with some hash is among the members of a set. -/
def Program.isAmong (p : Program) (H : Hashing L) (hash : Int) (v : Datum L) (others : List (Datum L)) : Outcome L Bool :=
  match others with
  | [] => pure false
  | w :: others => do
    let other ← p |>.hashOf H w
    if hash = other then do
      let equal ← p |>.alike H v w
      if equal then pure true else p |>.isAmong H hash v others
    else p |>.isAmong H hash v others
partial_fixpoint

/-- Whether the members of a set are all among those of another one. -/
def Program.allAmong (p : Program) (H : Hashing L) (items others : List (Datum L)) : Outcome L Bool :=
  match items with
  | [] => pure true
  | v :: items => do
    let hash ← p |>.hashOf H v
    let among ← p |>.isAmong H hash v others
    if among then p |>.allAmong H items others else pure false
partial_fixpoint

/-- The value under a key with some hash. -/
def Program.entryUnder (p : Program) (H : Hashing L) (hash : Int) (key : Datum L) (entries : List (Datum L × Datum L)) :
    Outcome L (Option (Datum L)) :=
  match entries with
  | [] => pure none
  | (other, value) :: entries => do
    let otherHash ← p |>.hashOf H other
    if hash = otherHash then do
      let equal ← p |>.alike H key other
      if equal then pure (some value) else p |>.entryUnder H hash key entries
    else p |>.entryUnder H hash key entries
partial_fixpoint

/-- Whether the entries of a mapping are all in another one. -/
def Program.allEntries (p : Program) (H : Hashing L) (entries others : List (Datum L × Datum L)) : Outcome L Bool :=
  match entries with
  | [] => pure true
  | (key, value) :: entries => do
    let hash ← p |>.hashOf H key
    match ← p |>.entryUnder H hash key others with
    | some other => do
      let equal ← p |>.alike H value other
      if equal then p |>.allEntries H entries others else pure false
    | none => pure false
partial_fixpoint

/-- The hash of a datum.  What can be changed has none. -/
def Program.hashOf (p : Program) (H : Hashing L) (v : Datum L) : Outcome L Int :=
  match v.view with
  | .key k => .orRaise "TypeError" (H.key? k)
  | .tuple items => do
    let hashes ← items.mapM fun item => p |>.hashOf H item
    pure (H.ofTuple hashes)
  -- only frozen sets have a hash, which does not look at the order
  | .set true items => do
    let hashes ← items.mapM fun item => p |>.hashOf H item
    pure (H.ofSet hashes)
  | .list _ | .set false _ | .dict _ => .raised "TypeError"
  | .object _ =>
    match p.methodOf? v "__hash__" with
    | none => .stuck
    | some (home, f) => do
      match ← p |>.answer H home f [v] with
      | .int hash => pure hash
      | _ => .raised "TypeError"
  | .other => .stuck
partial_fixpoint

/-- The members of a set that is made of some data after others: the first of those that are equal stays. -/
def Program.gather (p : Program) (H : Hashing L) (seen items : List (Datum L)) : Outcome L (List (Datum L)) :=
  match items with
  | [] => pure seen
  | item :: items => do
    let hash ← p |>.hashOf H item
    let among ← p |>.isAmong H hash item seen
    if among then p |>.gather H seen items else p |>.gather H (seen ++ [item]) items
partial_fixpoint

/-- A call of a builtin. -/
def Program.useBuiltin (p : Program) (H : Hashing L) (name : String) (args : List (Datum L)) : Outcome L (Datum L) :=
  match name, args with
  | "isinstance", [v, .tuple types] => do
    let answers ← .given (types.mapM (p.isOf? v))
    pure (.bool (answers.any id))
  | "isinstance", [v, type] => do
    let is ← .given (p.isOf? v type)
    pure (.bool is)
  | "hash", [v] => do
    let hash ← p |>.hashOf H v
    pure (.int hash)
  | "tuple", [v] => do
    let items ← .given v.iterate?
    pure (.tuple items)
  | "frozenset", [v] => do
    let items ← .given v.iterate?
    let members ← p |>.gather H [] items
    pure (.frozenset members)
  | name, args => callBuiltin name args
partial_fixpoint

/-- The value of an expression that compares or hashes; what does neither has the value that `eval` gives it. -/
def Program.examine (p : Program) (H : Hashing L) (σ : Frame L) (e : Expr) : Outcome L (Datum L) :=
  match e with
  | .tuple items => do
    let values ← p |>.examineAll H σ items
    pure (.tuple values)
  | .not operand => do
    let value ← p |>.examine H σ operand
    pure (.bool !value.truth)
  | .compare left .eq right => do
    let v ← p |>.examine H σ left
    let w ← p |>.examine H σ right
    match v, w with
    | .tuple items, .tuple others => do
      let equal ← p |>.allAlike H items others
      pure (.bool equal)
    | v, w => do
      let equal ← Comparison.eq.holds v w
      pure (.bool equal)
  | .comprehension .generator element target source => do
    let source ← p |>.examine H σ source
    let members ← .given source.iterate?
    let items ← members.mapM fun member => p |>.examine H (σ.put target member) element
    pure (.generator items)
  | .call (.name name) args [] =>
    -- a helper of the module counts before what the name means otherwise
    match σ.function? name with
    | some f => do
      let values ← p |>.examineAll H σ args
      p |>.answer H σ.home f values
    | none => do
      let callee ← readName p σ name
      let values ← p |>.examineAll H σ args
      match callee with
      | .builtin name => p |>.useBuiltin H name values
      | callee => call p callee values []
  | .call (.attr receiver "items") [] [] => do
    match ← p |>.examine H σ receiver with
    | .dict entries => pure (.generator (entries.map fun entry => .tuple [entry.1, entry.2]))
    | _ => .stuck
  | e => eval p σ e
partial_fixpoint

/-- The values of several expressions. -/
def Program.examineAll (p : Program) (H : Hashing L) (σ : Frame L) (es : List Expr) : Outcome L (List (Datum L)) :=
  match es with
  | [] => pure []
  | e :: es => do
    let value ← p |>.examine H σ e
    let values ← p |>.examineAll H σ es
    pure (value :: values)
partial_fixpoint

/-- What a body returns that tests and returns. -/
def Program.conclude (p : Program) (H : Hashing L) (σ : Frame L) (body : List Stmt) : Outcome L (Datum L) :=
  match body with
  | [] => pure .none
  | .ifThen test inner :: rest => do
    let test ← p |>.examine H σ test
    p |>.conclude H σ (if test.truth then inner ++ rest else rest)
  | .result e :: _ => p |>.examine H σ e
  | s :: rest => do
    match ← run p σ s with
    | .next σ => p |>.conclude H σ rest
    | .result value => pure value
partial_fixpoint

def Program.answer (p : Program) (H : Hashing L) (home : List Stmt) (f : Function) (args : List (Datum L)) :
    Outcome L (Datum L) := do
  let σ ← enter p home f.signature args []
  p |>.conclude H σ f.body
partial_fixpoint

end

export Program (alike ruling allAlike isAmong allAmong entryUnder allEntries hashOf gather useBuiltin examine examineAll
  conclude answer)

/-! ## Equations -/

section

variable {p : Program} {H : Hashing L} {σ : Frame L} {v w : Datum L}

/-! ### Equality and hashes -/

section

attribute [local simp] Program.alike Program.ruling Program.hashOf

theorem alike_keys {k l : Key L} (left : v.view = .key k) (right : w.view = .key l) :
    alike p H v w = pure (k.same H l) := by
  simp [left, right]

theorem alike_lists {items others : List (Datum L)} (left : v.view = .list items) (right : w.view = .list others) :
    alike p H v w = if items.length = others.length then allAlike p H items others else pure false := by
  simp [left, right]

theorem alike_tuples {items others : List (Datum L)} (left : v.view = .tuple items) (right : w.view = .tuple others) :
    alike p H v w = allAlike p H items others := by
  simp [left, right]

theorem alike_sets {frozen frozen' : Bool} {items others : List (Datum L)} (left : v.view = .set frozen items)
    (right : w.view = .set frozen' others) :
    alike p H v w = if items.length = others.length then allAmong p H items others else pure false := by
  simp [left, right]

theorem alike_dicts {entries others : List (Datum L × Datum L)} (left : v.view = .dict entries)
    (right : w.view = .dict others) :
    alike p H v w = if entries.length = others.length then allEntries p H entries others else pure false := by
  simp [left, right]

theorem ruling_none (noObject : ∀ path, v.view ≠ .object path) : ruling p H v w = pure none := by
  cases is : v.view with
  | object path => exact absurd is (noObject path)
  | _ => simp [is]

theorem ruling_object {path : List String} (isObject : v.view = .object path) {home : List Stmt} {f : Function}
    (method : p.methodOf? v "__eq__" = some (home, f)) : ruling p H v w = (do
      match ← answer p H home f [v, w] with
      | .builtin "NotImplemented" => pure none
      | ruled => pure (some ruled.truth)) := by
  simp [isObject, method]

theorem hashOf_key {k : Key L} (is : v.view = .key k) : hashOf p H v = .orRaise "TypeError" (H.key? k) := by
  simp [is]

theorem hashOf_tuple {items : List (Datum L)} (is : v.view = .tuple items) : hashOf p H v = (do
    let hashes ← items.mapM fun item => hashOf p H item
    pure (H.ofTuple hashes)) := by
  rw [hashOf, is]

theorem hashOf_frozenset {items : List (Datum L)} (is : v.view = .set true items) : hashOf p H v = (do
    let hashes ← items.mapM fun item => hashOf p H item
    pure (H.ofSet hashes)) := by
  rw [hashOf, is]

theorem hashOf_dict {entries : List (Datum L × Datum L)} (is : v.view = .dict entries) :
    hashOf p H v = .raised "TypeError" := by
  simp [is]

/-- A tuple with a hash has only members with hashes. -/
theorem hashOf_member {items : List (Datum L)} (is : v.view = .tuple items) {hash : Int} (hashes : hashOf p H v = pure hash) :
    ∀ item ∈ items, ∃ own, hashOf p H item = pure own := by
  rw [hashOf_tuple is] at hashes
  obtain ⟨all, each, -⟩ := Outcome.bind_eq_pure hashes
  clear is hashes
  induction items generalizing all with
  | nil => exact nofun
  | cons item rest ih =>
    rw [List.mapM_cons] at each
    obtain ⟨own, here, later⟩ := Outcome.bind_eq_pure each
    obtain ⟨more, there, -⟩ := Outcome.bind_eq_pure later
    exact List.forall_mem_cons.mpr ⟨⟨own, here⟩, ih more there⟩

theorem hashOf_object {path : List String} (isObject : v.view = .object path) {home : List Stmt} {f : Function}
    (method : p.methodOf? v "__hash__" = some (home, f)) : hashOf p H v = (do
      match ← answer p H home f [v] with
      | .int hash => pure hash
      | _ => .raised "TypeError") := by
  simp [isObject, method]

end

/-- The kinds of data that are compared with each other. -/
inductive Kind where
  | key
  | list
  | tuple
  | set
  | dict
  | object (path : List String)
  | other
  deriving DecidableEq

def View.kind : View L → Kind
  | .key _ => .key
  | .list _ => .list
  | .tuple _ => .tuple
  | .set _ _ => .set
  | .dict _ => .dict
  | .object path => .object path
  | .other => .other

theorem alike_asked (known : v.view.kind ≠ .other) (known' : w.view.kind ≠ .other)
    (asks : v.view.kind ≠ w.view.kind ∨ ∃ path, v.view.kind = .object path) :
    alike p H v w = (do
      match ← ruling p H v w with
      | some ruled => pure ruled
      | none =>
        let ruled ← ruling p H w v
        pure (ruled.getD false)) := by
  rw [alike]
  cases left : v.view <;> cases right : w.view <;> simp_all [View.kind]

/-! ### Expressions and bodies -/

attribute [local simp] Program.examine Program.useBuiltin Program.examineAll Program.conclude

theorem function?_unbound {name : String} (unbound : bindings name σ.home = []) : σ.function? name = none := by
  rw [Frame.function?, unbound]
  cases σ.locals name <;> rfl

theorem readName_unbound {name : String} (noLocal : σ.locals name = none) (unbound : bindings name σ.home = [])
    (builtin : name ∈ builtins) : readName p σ name = pure (.builtin name) := by
  rw [readName, noLocal, unbound]
  simp [builtin]

@[simp] theorem examine_name (id : String) : examine p H σ (.name id) = readName p σ id := by
  simp

@[simp] theorem examine_constant (value : Value) : examine p H σ (.constant value) = .given (Datum.ofValue? value) := by
  simp

@[simp] theorem examine_attr (e : Expr) (member : String) :
    examine p H σ (.attr e member) = eval p σ (.attr e member) := by
  rw [examine] <;> simp

@[simp] theorem examine_tuple (items : List Expr) : examine p H σ (.tuple items) = (do
    let values ← examineAll p H σ items
    pure (.tuple values)) := by
  rw [examine]

@[simp] theorem examine_not (operand : Expr) : examine p H σ (.not operand) = (do
    let value ← examine p H σ operand
    pure (.bool !value.truth)) := by
  rw [examine]

theorem examine_compare {left right : Expr} {items others : List (Datum L)}
    (first : examine p H σ left = pure (.tuple items)) (second : examine p H σ right = pure (.tuple others)) :
    examine p H σ (.compare left .eq right) = (do
      let equal ← allAlike p H items others
      pure (.bool equal)) := by
  rw [examine, first, second, pure_bind, pure_bind]

theorem examine_generator {element source : Expr} {target : String} {d : Datum L} {members : List (Datum L)}
    (evaluates : examine p H σ source = pure d) (iterates : d.iterate? = some members) :
    examine p H σ (.comprehension .generator element target source) = (do
      let items ← members.mapM fun member => examine p H (σ.put target member) element
      pure (.generator items)) := by
  rw [examine, evaluates, pure_bind, iterates, Outcome.given_some, pure_bind]

theorem examine_function {name : String} {f : Function} (known : σ.function? name = some f) {args : List Expr}
    {values : List (Datum L)} (arguments : examineAll p H σ args = pure values) :
    examine p H σ (Expr.apply name args) = answer p H σ.home f values := by
  rw [Expr.apply, examine, known]
  simp only [arguments, pure_bind]

theorem examine_builtin {name : String} (unknown : σ.function? name = none)
    (known : readName p σ name = pure (.builtin name)) {args : List Expr} {values : List (Datum L)}
    (arguments : examineAll p H σ args = pure values) :
    examine p H σ (Expr.apply name args) = useBuiltin p H name values := by
  rw [Expr.apply, examine, unknown]
  simp only [known, arguments, pure_bind]

theorem examine_items {receiver : Expr} {entries : List (Datum L × Datum L)}
    (evaluates : examine p H σ receiver = pure (.dict entries)) :
    examine p H σ (Expr.method receiver "items" []) =
      pure (.generator (entries.map fun entry => .tuple [entry.1, entry.2])) := by
  rw [Expr.method, examine, evaluates, pure_bind]

theorem useBuiltin_hash (v : Datum L) : useBuiltin p H "hash" [v] = (do
    let hash ← hashOf p H v
    pure (.int hash)) := by
  rw [useBuiltin]

theorem useBuiltin_tuple (items : List (Datum L)) : useBuiltin p H "tuple" [.generator items] = pure (.tuple items) := by
  rw [useBuiltin]
  rfl

theorem useBuiltin_frozenset (items : List (Datum L)) : useBuiltin p H "frozenset" [.generator items] = (do
    let members ← gather p H [] items
    pure (.frozenset members)) := by
  rw [useBuiltin]
  rfl

@[simp] theorem examineAll_nil : examineAll p H σ [] = pure [] := by
  rw [examineAll]

@[simp] theorem examineAll_cons (e : Expr) (es : List Expr) : examineAll p H σ (e :: es) = (do
    let value ← examine p H σ e
    let values ← examineAll p H σ es
    pure (value :: values)) := by
  rw [examineAll]

theorem examineAll_map {α : Type} {items : List α} {e : α → Expr} {value : α → Datum L}
    (each : ∀ item ∈ items, examine p H σ (e item) = pure (value item)) :
    examineAll p H σ (items.map e) = pure (items.map value) := by
  induction items with
  | nil => simp
  | cons item rest ih =>
    obtain ⟨here, later⟩ := List.forall_mem_cons.mp each
    rw [List.map_cons, examineAll_cons, here, pure_bind, ih later, pure_bind, List.map_cons]

@[simp] theorem conclude_result (e : Expr) (rest : List Stmt) :
    conclude p H σ (.result e :: rest) = examine p H σ e := by
  rw [conclude]

theorem conclude_ifThen {test : Expr} {d : Datum L} (tests : examine p H σ test = pure d) (inner rest : List Stmt) :
    conclude p H σ (.ifThen test inner :: rest) = conclude p H σ (if d.truth then inner ++ rest else rest) := by
  rw [conclude, tests, pure_bind]

/-- A function that is called with as many arguments as it has parameters. -/
theorem answer_given (home : List Stmt) {f : Function} {args : List (Datum L)} (wellFormed : f.signature.wellFormed)
    (length : args.length = f.signature.params.length) (noRest : f.signature.rest = none) :
    answer p H home f args =
      conclude p H ⟨home, fun id => ((f.signature.params.map (·.name)).zip args).lookup id⟩ f.body := by
  rw [answer, enter_given home wellFormed length noRest, pure_bind]

end

end Tablewright.Source
