import Tablewright.Proofs.Source.Datum
import Tablewright.Proofs.Source.Scoping

/-!
# Running generated source

What the expressions and statements of generated modules do when they run.

* `Outcome`: a result, or the exception that is raised, or nothing where this account gives no meaning.
* `Frame`, `Flow`: where names are read, and how a statement ends.
* `ClassDef.member?`: what a class gives a name: the last statement of its body that binds it.
* `eval`, `getAttribute`, `call`, `run`: expressions, attributes, calls and statements.

Names are read first among the locals of a function, then at the top level of its module, where the last
statement that binds a name counts, then among the builtins.  Names of attributes are taken as they are
written.  Hints are not evaluated, and decorators stand for the builtins that they are written for.
-/

namespace Tablewright.Source

variable {L : Library}

/-! ## Outcomes -/

/-- What running comes to: a result or an exception, or no meaning. -/
abbrev Outcome (L : Library) (α : Type) : Type := ExceptT (Datum L) Option α

namespace Outcome

variable {α : Type}

def stuck : Outcome L α := ExceptT.mk none

/-- One of the exceptions that the language raises itself; their texts are left out. -/
def raised (exception : String) : Outcome L α := throw (Datum.object [exception] [])

/-- The result where there is one. -/
def given : Option α → Outcome L α
  | some a => pure a
  | none => stuck

/-- The result, or else an exception of the language. -/
def orRaise (exception : String) : Option α → Outcome L α
  | some a => pure a
  | none => raised exception

@[simp] theorem given_some (a : α) : given (some a) = (pure a : Outcome L α) := rfl

@[simp] theorem orRaise_some (exception : String) (a : α) :
    orRaise exception (some a) = (pure a : Outcome L α) := rfl

/-- A result is not an exception. -/
theorem pure_inj {a b : α} (same : (pure a : Outcome L α) = pure b) : a = b := by
  have : (some (Except.ok a) : Option (Except (Datum L) α)) = some (Except.ok b) := same
  simpa using this

/-- An exception is not a result. -/
theorem throw_ne_pure (exception : Datum L) (a : α) : (throw exception : Outcome L α) ≠ pure a := by
  intro same
  have : (some (Except.error exception) : Option (Except (Datum L) α)) = some (Except.ok a) := same
  simp at this

theorem mapM_of_forall₂ {β : Type} {f : α → Outcome L β} {items : List α} {results : List β}
    (each : List.Forall₂ (fun a b => f a = pure b) items results) :
    items.mapM f = (pure results : Outcome L (List β)) := by
  induction each with
  | nil => rfl
  | cons first _ ih => simp [List.mapM_cons, first, ih]

/-- What a computation with a result did first had one. -/
theorem bind_eq_pure {β : Type} {first : Outcome L α} {rest : α → Outcome L β} {b : β}
    (returns : (first >>= rest) = pure b) : ∃ a, first = pure a ∧ rest a = pure b := by
  match first, returns with
  | none, returns => cases returns
  | some (.error e), returns => cases returns
  | some (.ok a), returns => exact ⟨a, rfl, returns⟩

/-- What comes to nothing in the end has no result. -/
theorem bind_stuck_ne_pure {β : Type} {first : Outcome L α} {b : β} : (first >>= fun _ => stuck) ≠ pure b := by
  intro returns
  obtain ⟨_, -, returns⟩ := bind_eq_pure returns
  cases returns

end Outcome

/-! ## Functions and classes -/

/-- A function: its head and its body. -/
structure Function where
  signature : Signature
  body : List Stmt

/-- A class: the module that it stands in, and what it is made of. -/
structure ClassDef where
  home : List Stmt
  decorators : List Expr
  bases : List Expr
  body : List Stmt

/-- The statements that bind a name, in order. -/
def bindings (name : String) (body : List Stmt) : List Stmt := body.filter fun s => s.binds.contains name

@[simp] theorem bindings_append (name : String) (first second : List Stmt) :
    bindings name (first ++ second) = bindings name first ++ bindings name second :=
  List.filter_append ..

theorem bindings_eq_nil {name : String} {body : List Stmt} (unbound : ∀ s ∈ body, name ∉ s.binds) :
    bindings name body = [] := by
  simpa [bindings] using unbound

/-- The class that a name stands for at the end of a body. -/
def classNamed? (home body : List Stmt) (name : String) : Option ClassDef :=
  match (bindings name body).getLast? with
  | some (.classDef _ decorators bases _ body) => some ⟨home, decorators, bases, body⟩
  | _ => none

/-- A program: the module that defines each generated type. -/
structure Program where
  module? : String → Option Module

/-- The class at the end of a path: a generated type, or a class inside it. -/
def Program.class? (p : Program) : List String → Option ClassDef
  | [] => none
  | name :: inner => do
    let m ← p.module? name
    let c ← classNamed? m.body m.body name
    inner.foldlM (fun c name => classNamed? c.home c.body name) c

/-- What a name of a class stands for. -/
inductive Member where
  | constant (value : Expr)
  | method (f : Function)
  | classMethod (f : Function)
  | staticMethod (f : Function)
  | property (getter : Function) (setter : Option Function)
  | inner
  | other

/-- What a statement in the body of a class makes of the name that it binds; the second half of a property
needs the first, which stands before it. -/
def Stmt.member (earlier : List Stmt) : Stmt → Member
  | .assign _ value => .constant value
  | .classDef .. => .inner
  | .function signature _ body =>
    match signature.decorators with
    | [] => .method ⟨signature, body⟩
    | [.name "classmethod"] => .classMethod ⟨signature, body⟩
    | [.name "staticmethod"] => .staticMethod ⟨signature, body⟩
    | [.name "property"] => .property ⟨signature, body⟩ none
    | [.attr (.name owner) "setter"] =>
      match earlier with
      | .function first _ getter :: _ =>
        match first.decorators with
        | [.name "property"] =>
          if owner = signature.name then .property ⟨first, getter⟩ (some ⟨signature, body⟩) else .other
        | _ => .other
      | _ => .other
    | _ => .other
  | _ => .other

def ClassDef.member? (c : ClassDef) (name : String) : Option Member :=
  match (bindings name c.body).reverse with
  | [] => none
  | last :: earlier => some (last.member earlier)

theorem ClassDef.member?_eq_none {c : ClassDef} {name : String} (unbound : ∀ s ∈ c.body, name ∉ s.binds) :
    c.member? name = none := by
  rw [member?, bindings_eq_nil unbound, List.reverse_nil]

def Expr.isNamed (id : String) : Expr → Bool
  | .name other => other == id
  | _ => false

def ClassDef.isEnum (c : ClassDef) : Bool := c.bases.any (·.isNamed "Enum")

def ClassDef.isException (c : ClassDef) : Bool := c.bases.any (·.isNamed "Exception")

def ClassDef.constants (c : ClassDef) : List (String × String) :=
  c.body.filterMap fun
    | .assign (.name constant) (.constant (.text value)) => some (constant, value)
    | _ => none

/-- The constant of a value: the first of them. -/
def ClassDef.constantOf? (c : ClassDef) (enum value : String) : Option (Datum L) :=
  (c.constants.find? (·.2 == value)).map fun constant => .member enum constant.1 constant.2

/-- The attributes of a class of data: what its body annotates. -/
def ClassDef.annotations (c : ClassDef) : List String :=
  c.body.filterMap fun
    | .annotated target _ none => some target
    | _ => none

/-- Whether the decorators of a class make it a class of data. -/
def ClassDef.isData (c : ClassDef) : Bool :=
  match c.decorators with
  | [.call (.name "dataclass") [] _] => true
  | _ => false

/-! ## Scopes -/

/-- Where names are read: the top level of a module, and the locals of a function. -/
structure Frame (L : Library) where
  home : List Stmt
  locals : String → Option (Datum L)

namespace Frame

def top (home : List Stmt) : Frame L := ⟨home, fun _ => none⟩

/-- A scope with a new value for a local name. -/
def put (σ : Frame L) (name : String) (value : Datum L) : Frame L :=
  ⟨σ.home, fun other => if other = name then some value else σ.locals other⟩

@[simp] theorem put_home (σ : Frame L) (name : String) (value : Datum L) : (σ.put name value).home = σ.home := rfl

@[simp] theorem put_locals (σ : Frame L) (name other : String) (value : Datum L) :
    (σ.put name value).locals other = if other = name then some value else σ.locals other := rfl

theorem put_locals_self (σ : Frame L) (name : String) (value : Datum L) :
    (σ.put name value).locals name = some value := if_pos rfl

@[simp] theorem put_put (σ : Frame L) (name : String) (first second : Datum L) :
    (σ.put name first).put name second = σ.put name second := by
  simp only [put, Frame.mk.injEq, true_and]
  funext other
  split <;> rfl

end Frame

/-- How a statement ends: the next one runs, or the function returns. -/
inductive Flow (L : Library) where
  | next (σ : Frame L)
  | result (value : Datum L)

/-- What a function returns whose body ends so. -/
def Flow.returned : Flow L → Datum L
  | .next _ => .none
  | .result value => value

/-! ## Arguments -/

/-- The arguments that parameters are given: by position, and then by name. -/
def suppliedTo (named : List (String × Datum L)) : List Param → List (Datum L) → List (Param × Option (Datum L))
  | [], _ => []
  | p :: params, a :: args => (p, some a) :: suppliedTo named params args
  | p :: params, [] => (p, named.lookup p.name) :: suppliedTo named params []

/-- Whether a function can be called with some arguments: they are not too many, and those by name have
different names, which are parameters that are not given by position. -/
def Signature.accepts (s : Signature) (args : List (Datum L)) (named : List (String × Datum L)) : Bool :=
  args.length ≤ s.params.length && (named.map (·.1)).Nodup &&
    named.all fun argument => s.rest.isSome || (s.params.drop args.length).any (·.name == argument.1)

/-- The arguments by name that are no parameters. -/
def Signature.spread (s : Signature) (named : List (String × Datum L)) : List (String × Datum L) :=
  s.rest.toList.map fun rest => (rest.name, .dict ((named.filter fun argument =>
    !s.params.any (·.name == argument.1)).map fun argument => (.text argument.1, argument.2)))

def Signature.wellFormed (s : Signature) : Bool := (s.params.map (·.name) ++ s.rest.toList.map (·.name)).Nodup

/-! ## Operations -/

def membersOf (d : Datum L) : Outcome L (List (Datum L)) := .given d.members?

def Shape.collect (items : List (Datum L)) : Shape → Outcome L (Datum L)
  | .list => pure (.list items)
  | .set => .given (Datum.setOf? items)
  | .generator => pure (.generator items)

/-- The order of two numbers; an exception is raised where one of them is no number. -/
def order (a b : Datum L) : Outcome L Ordering :=
  match a.int?, b.int? with
  | some m, some n => pure (compare m n)
  | _, _ =>
    match a.number?, b.number? with
    | some m, some n => .orRaise "InvalidOperation" (L.order? m n)
    | _, _ => .stuck

/-- A comparison of two data. Identity is asked of `None` only. -/
def Comparison.holds (a b : Datum L) : Comparison → Outcome L Bool
  | .eq => if a.isScalar && b.isScalar then pure (a.same b) else .stuck
  | .lt => do pure ((← order a b) == .lt)
  | .gt => do pure ((← order a b) == .gt)
  | .is => if b.isNone then pure a.isNone else .stuck
  | .isNot => if b.isNone then pure !a.isNone else .stuck

@[simp] theorem holds_lt_int (a b : Int) :
    Comparison.lt.holds (.int a) (.int b) = (pure (decide (a < b)) : Outcome L Bool) := by
  have compared : (compare a b == .lt) = decide (a < b) := by
    rw [Bool.eq_iff_iff]
    simp [compare_lt_iff_lt]
  simp [Comparison.holds, order, Datum.int?, compared]

@[simp] theorem holds_gt_int (a b : Int) :
    Comparison.gt.holds (.int a) (.int b) = (pure (decide (b < a)) : Outcome L Bool) := by
  have compared : (compare a b == .gt) = decide (b < a) := by
    rw [Bool.eq_iff_iff]
    simp [compare_gt_iff_gt]
  simp [Comparison.holds, order, Datum.int?, compared]

def entry (container key : Datum L) : Outcome L (Datum L) :=
  match container with
  | .dict entries => if key.isScalar then .orRaise "KeyError" (Datum.get? entries key) else .stuck
  | _ => .stuck

def putEntry (container key value : Datum L) : Outcome L (Datum L) :=
  match container with
  | .dict entries => if key.isScalar then pure (.dict (Datum.put entries key value)) else .stuck
  | _ => .stuck

/-- A call of a builtin. -/
def callBuiltin (name : String) (args : List (Datum L)) : Outcome L (Datum L) :=
  match name, args with
  | "list", [d] => do pure (.list (← membersOf d))
  | "set", [d] => do .given (Datum.setOf? (← membersOf d))
  | "str", [d] => do pure (.text (← .given d.shown?))
  | "len", [.text s] => pure (.int s.length)
  | "len", [d] => do pure (.int (← membersOf d).length)
  | "TypeError", args => pure (.object ["TypeError"] [("args", .tuple args)])
  | _, _ => .stuck

def callImported (name : String) (args : List (Datum L)) : Outcome L (Datum L) :=
  match name, args with
  | "Decimal", [.text s] => do pure (.decimal (← .orRaise "InvalidOperation" (L.decimal? s)))
  | _, _ => .stuck

/-- The methods of a datum that is no instance of a generated class. -/
def Datum.methods : Datum L → List String
  | .text _ => ["join"]
  | .time _ => ["isoformat"]
  | .pattern _ => ["fullmatch"]
  | .list _ => ["append", "extend"]
  | .dict _ => ["get"]
  | .imported "datetime" => ["fromisoformat"]
  | .imported "re" => ["compile"]
  | _ => []

/-- A call of a method of a datum that is no instance of a generated class. Methods that change a datum are
statements. -/
def callMethod (receiver : Datum L) (name : String) (args : List (Datum L)) : Outcome L (Datum L) :=
  match receiver, name, args with
  | .text separator, "join", [d] => do
    let texts ← .given ((← membersOf d).mapM Datum.text?)
    pure (.text (separator.intercalate texts))
  | .time t, "isoformat", [] => pure (.text (L.timeText t))
  | .pattern p, "fullmatch", [.text s] => pure (if L.fullMatch p s then .matched else .none)
  | .dict entries, "get", [key] =>
    if key.isScalar then pure ((Datum.get? entries key).getD .none) else .stuck
  | .dict entries, "get", [key, default] =>
    if key.isScalar then pure ((Datum.get? entries key).getD default) else .stuck
  | .imported "datetime", "fromisoformat", [.text s] => do
    pure (.time (← .orRaise "ValueError" (L.time? s)))
  | .imported "re", "compile", [.text s] => do pure (.pattern (← .orRaise "error" (L.pattern? s)))
  | _, _, _ => .stuck

def ClassDef.dataObject (c : ClassDef) (path : List String) (args : List (Datum L)) : Outcome L (Datum L) :=
  if args.length = c.annotations.length then pure (.object path (c.annotations.zip args)) else .raised "TypeError"

/-- Statements that change the datum behind a name. -/
inductive Effect where
  | append (target : String) (item : Expr)
  | extend (target : String) (items : Expr)
  /-- The part of the constructor that is inherited from exceptions. -/
  | inherited (message : Expr)

/-- The effect that an expression has when it stands as a statement. -/
def Expr.effect? : Expr → Option Effect
  | .call (.attr (.name target) method) [item] [] =>
    if method = "append" then some (.append target item)
    else if method = "extend" then some (.extend target item)
    else Option.none
  | .call (.attr (.call callee [] []) method) [message] [] =>
    if method = "__init__" ∧ callee.isNamed "super" then some (.inherited message) else Option.none
  | _ => Option.none

/-! ## Running -/

mutual

/-- The value of an expression. -/
def Program.eval (p : Program) (σ : Frame L) (e : Expr) : Outcome L (Datum L) :=
  match e with
  | .name id => p |>.readName σ id
  | .constant value => .given (Datum.ofValue? value)
  | .attr value member => do
    let receiver ← p |>.eval σ value
    p |>.getAttribute receiver member
  | .subscript value index => do
    let container ← p |>.eval σ value
    let key ← p |>.eval σ index
    entry container key
  | .call callee args keywords => do
    let callee ← p |>.eval σ callee
    let args ← p |>.evalAll σ args
    let named ← p |>.evalNamed σ keywords
    p |>.call callee args named
  | .tuple items => do
    let items ← p |>.evalAll σ items
    pure (.tuple items)
  | .list items => do
    let items ← p |>.evalAll σ items
    pure (.list items)
  | .dict entries => do
    let entries ← p |>.evalEntries σ entries
    .given (Datum.dictOf? entries)
  | .comprehension shape element target source => do
    let source ← p |>.eval σ source
    let members ← membersOf source
    let items ← members.mapM fun member => p |>.eval (σ.put target member) element
    shape.collect items
  | .compare left comparison right => do
    let left ← p |>.eval σ left
    let right ← p |>.eval σ right
    let holds ← comparison.holds left right
    pure (.bool holds)
  | .not operand => do
    let operand ← p |>.eval σ operand
    pure (.bool !operand.truth)
  | .or left right => do
    let left ← p |>.eval σ left
    if left.truth then pure left else p |>.eval σ right
  | .conditional body test orelse => do
    let test ← p |>.eval σ test
    if test.truth then p |>.eval σ body else p |>.eval σ orelse
  | .formatted parts => do
    let texts ← p |>.evalParts σ parts
    pure (.text (String.join texts))
partial_fixpoint

/-- The values of several expressions. -/
def Program.evalAll (p : Program) (σ : Frame L) (es : List Expr) : Outcome L (List (Datum L)) :=
  match es with
  | [] => pure []
  | e :: rest => do
    let value ← p |>.eval σ e
    let values ← p |>.evalAll σ rest
    pure (value :: values)
partial_fixpoint

/-- The arguments by name, those of spread mappings included. -/
def Program.evalNamed (p : Program) (σ : Frame L) (keywords : List Keyword) : Outcome L (List (String × Datum L)) :=
  match keywords with
  | [] => pure []
  | .mk (some name) e :: rest => do
    let value ← p |>.eval σ e
    let named ← p |>.evalNamed σ rest
    pure ((name, value) :: named)
  | .mk none e :: rest => do
    let spread ← p |>.eval σ e
    let entries ← match spread with
      | .dict entries => .given (entries.mapM fun entry => entry.1.text?.map (·, entry.2))
      | _ => .stuck
    let named ← p |>.evalNamed σ rest
    pure (entries ++ named)
partial_fixpoint

/-- The entries of a mapping. -/
def Program.evalEntries (p : Program) (σ : Frame L) (entries : List Entry) : Outcome L (List (Datum L × Datum L)) :=
  match entries with
  | [] => pure []
  | .mk key value :: rest => do
    let key ← p |>.eval σ key
    let value ← p |>.eval σ value
    let entries ← p |>.evalEntries σ rest
    pure ((key, value) :: entries)
partial_fixpoint

/-- The texts of the parts of a formatted text. -/
def Program.evalParts (p : Program) (σ : Frame L) (parts : List Part) : Outcome L (List String) :=
  match parts with
  | [] => pure []
  | .text s :: rest => do
    let texts ← p |>.evalParts σ rest
    pure (s :: texts)
  | .field e none :: rest => do
    let value ← p |>.eval σ e
    let shown ← .given value.shown?
    let texts ← p |>.evalParts σ rest
    pure (shown :: texts)
  | .field _ (some _) :: _ => .stuck
partial_fixpoint

/-- What a name stands for. -/
def Program.readName (p : Program) (σ : Frame L) (id : String) : Outcome L (Datum L) :=
  match σ.locals id with
  | some value => pure value
  | none =>
    match (bindings id σ.home).getLast? with
    | some (.importFrom source _) =>
      pure (if source.toList.head? = some '.' then .cls [id] else .imported id)
    | some (.importModule _) => pure (.imported id)
    | some (.classDef ..) => pure (.cls [id])
    | some (.assign _ value) => p |>.eval (.top σ.home) value
    | some _ => .stuck
    | none => if builtins.contains id then pure (.builtin id) else .raised "NameError"
partial_fixpoint

/-- An attribute of a datum: a property of its class, else an attribute of its own, else another member of its
class. -/
def Program.getAttribute (p : Program) (receiver : Datum L) (name : String) : Outcome L (Datum L) :=
  match receiver with
  | .object path attributes =>
    match (p.class? path).map (·.home), (p.class? path).bind (·.member? name) with
    -- a property counts before an attribute of the instance, a method after it
    | some home, some (.property getter _) => p |>.invoke home getter [receiver] []
    | home, found =>
      match attributes.lookup name with
      | some value => pure value
      | none =>
        match home, found with
        | some _, some (.method _) => pure (.method receiver name)
        | some _, some (.classMethod _) => pure (.method (.cls path) name)
        | some _, some (.staticMethod _) => pure (.method (.cls path) name)
        | some home, some (.constant value) => p |>.eval (.top home) value
        | some _, some .inner => pure (.cls (path ++ [name]))
        | some _, some _ => .stuck
        | _, _ => .raised "AttributeError"
  | .cls path =>
    match p.class? path with
    | none => .stuck
    | some c =>
      if c.isEnum then
        .given ((c.constants.lookup name).bind (c.constantOf? (path.headD "")))
      else
        match c.member? name with
        | some (.classMethod _) => pure (.method receiver name)
        | some (.staticMethod _) => pure (.method receiver name)
        | some (.constant value) => p |>.eval (.top c.home) value
        | some .inner => pure (.cls (path ++ [name]))
        | some _ => .stuck
        | none => .raised "AttributeError"
  | .member _ constant value =>
    if name = "value" then pure (.text value) else if name = "name" then pure (.text constant) else .stuck
  | .none => .raised "AttributeError"
  | receiver => if receiver.methods.contains name then pure (.method receiver name) else .stuck
partial_fixpoint

/-- A call. -/
def Program.call (p : Program) (callee : Datum L) (args : List (Datum L)) (named : List (String × Datum L)) :
    Outcome L (Datum L) :=
  match callee with
  | .builtin name => if named.isEmpty then callBuiltin name args else .stuck
  | .imported name => if named.isEmpty then callImported name args else .stuck
  | .cls path =>
    match p.class? path with
    | none => .stuck
    | some c =>
      if c.isEnum then
        match args with
        | [d] => .orRaise "ValueError" (d.text?.bind (c.constantOf? (path.headD "")))
        | _ => .stuck
      else if c.isData then
        if named.isEmpty then c.dataObject path args else .stuck
      else p |>.construct c path args named
  | .method receiver name =>
    match receiver with
    -- a method of an instance gets the instance, a static one only what it is given
    | .object path _ =>
      match p.class? path with
      | none => .stuck
      | some c =>
        match c.member? name with
        | some (.method f) => p |>.invoke c.home f (receiver :: args) named
        | _ => .stuck
    | .cls path =>
      match p.class? path with
      | none => .stuck
      | some c =>
        match c.member? name with
        | some (.classMethod f) => p |>.invoke c.home f (receiver :: args) named
        | some (.staticMethod f) => p |>.invoke c.home f args named
        | _ => .stuck
    | receiver => if named.isEmpty then callMethod receiver name args else .stuck
  | .none => .raised "TypeError"
  | _ => .stuck
partial_fixpoint

/-- A new instance of a class: what its constructor makes of an instance without attributes. -/
def Program.construct (p : Program) (c : ClassDef) (path : List String) (args : List (Datum L))
    (named : List (String × Datum L)) : Outcome L (Datum L) :=
  match c.member? "__init__" with
  | some (.method f) => p |>.update c.home f (.object path []) args named
  | none => if args.isEmpty && named.isEmpty then pure (.object path []) else .raised "TypeError"
  | some _ => .stuck
partial_fixpoint

def Program.invoke (p : Program) (home : List Stmt) (f : Function) (args : List (Datum L))
    (named : List (String × Datum L)) : Outcome L (Datum L) := do
  let σ ← p |>.enter home f.signature args named
  let flow ← p |>.runAll σ f.body
  pure flow.returned
partial_fixpoint

/-- What a method makes of the instance that it is called on. -/
def Program.update (p : Program) (home : List Stmt) (f : Function) (receiver : Datum L) (args : List (Datum L))
    (named : List (String × Datum L)) : Outcome L (Datum L) := do
  let σ ← p |>.enter home f.signature (receiver :: args) named
  match ← p |>.runAll σ f.body with
  | .next σ => .given (f.signature.params.head?.bind fun first => σ.locals first.name)
  | .result _ => .stuck
partial_fixpoint

/-- The scope of the body of a function. -/
def Program.enter (p : Program) (home : List Stmt) (s : Signature) (args : List (Datum L))
    (named : List (String × Datum L)) : Outcome L (Frame L) :=
  if s.wellFormed then
    if s.accepts args named then do
      let params ← p |>.bindParams home (suppliedTo named s.params args)
      pure ⟨home, fun id => (params ++ s.spread named).lookup id⟩
    else .raised "TypeError"
  else .stuck
partial_fixpoint

/-- The values of parameters: what they are given, or their defaults. -/
def Program.bindParams (p : Program) (home : List Stmt) (supplied : List (Param × Option (Datum L))) :
    Outcome L (List (String × Datum L)) :=
  match supplied with
  | [] => pure []
  | (param, some value) :: rest => do
    let params ← p |>.bindParams home rest
    pure ((param.name, value) :: params)
  | (param, none) :: rest =>
    match param.default with
    | some default => do
      let value ← p |>.eval (.top home) default
      let params ← p |>.bindParams home rest
      pure ((param.name, value) :: params)
    | none => .raised "TypeError"
partial_fixpoint

/-- An instance with a new value for an attribute: a property of the class decides itself what it does. -/
def Program.setAttribute (p : Program) (receiver : Datum L) (name : String) (value : Datum L) : Outcome L (Datum L) :=
  match receiver with
  | .object path attributes =>
    match p.class? path with
    | none => .stuck
    | some c =>
      if c.isData then .stuck
      else
        match c.member? name with
        | some (.property _ (some setter)) => p |>.update c.home setter receiver [value] []
        | some (.property _ none) => .raised "AttributeError"
        | _ => pure (.object path (Datum.putAttribute attributes name value))
  | _ => .stuck
partial_fixpoint

/-- A statement. -/
def Program.run (p : Program) (σ : Frame L) (s : Stmt) : Outcome L (Flow L) :=
  match s with
  | .expr e =>
    match e.effect? with
    | some effect => p |>.runEffect σ effect
    | none => do
      let _ ← p |>.eval σ e
      pure (.next σ)
  | .assign target e => do
    let value ← p |>.eval σ e
    p |>.assign σ target value
  -- an annotation without a value binds nothing in a function
  | .annotated _ _ none => pure (.next σ)
  | .annotated target _ (some e) => do
    let value ← p |>.eval σ e
    pure (.next (σ.put target value))
  | .increase target e => do
    let old ← p |>.readName σ target
    let more ← p |>.eval σ e
    match old, more with
    | .text s, .text t => pure (.next (σ.put target (.text (s ++ t))))
    | _, _ => .stuck
  | .result e => do
    let value ← p |>.eval σ e
    pure (.result value)
  | .raise e => do
    let exception ← p |>.eval σ e
    throw exception
  | .pass => pure (.next σ)
  | .ifThen test body => do
    let test ← p |>.eval σ test
    if test.truth then p |>.runAll σ body else pure (.next σ)
  | .forIn target source body => do
    let source ← p |>.eval σ source
    let members ← membersOf source
    p |>.runEach σ target members body
  | .loop test body => do
    let again ← p |>.eval σ test
    if again.truth then
      match ← p |>.runAll σ body with
      | .next σ => p |>.run σ (.loop test body)
      | .result value => pure (.result value)
    else pure (.next σ)
  | _ => .stuck
partial_fixpoint

/-- Several statements. -/
def Program.runAll (p : Program) (σ : Frame L) (body : List Stmt) : Outcome L (Flow L) :=
  match body with
  | [] => pure (.next σ)
  | s :: rest => do
    match ← p |>.run σ s with
    | .next σ => p |>.runAll σ rest
    | .result value => pure (.result value)
partial_fixpoint

/-- The body of a loop, for every member of what it goes through. -/
def Program.runEach (p : Program) (σ : Frame L) (target : String) (members : List (Datum L)) (body : List Stmt) :
    Outcome L (Flow L) :=
  match members with
  | [] => pure (.next σ)
  | member :: rest => do
    match ← p |>.runAll (σ.put target member) body with
    | .next σ => p |>.runEach σ target rest body
    | .result value => pure (.result value)
partial_fixpoint

/-- An assignment: to a name, to an attribute or to an entry of what a name stands for. -/
def Program.assign (p : Program) (σ : Frame L) (target : Expr) (value : Datum L) : Outcome L (Flow L) :=
  match target with
  | .name id => pure (.next (σ.put id value))
  | .attr (.name owner) member => do
    let receiver ← .given (σ.locals owner)
    let changed ← p |>.setAttribute receiver member value
    pure (.next (σ.put owner changed))
  | .subscript (.name owner) index => do
    let container ← .given (σ.locals owner)
    let key ← p |>.eval σ index
    let changed ← putEntry container key value
    pure (.next (σ.put owner changed))
  | _ => .stuck
partial_fixpoint

/-- A statement that changes the datum behind a name. -/
def Program.runEffect (p : Program) (σ : Frame L) (effect : Effect) : Outcome L (Flow L) :=
  match effect with
  | .append target item => do
    let value ← p |>.eval σ item
    match σ.locals target with
    | some (.list items) => pure (.next (σ.put target (.list (items ++ [value]))))
    | _ => .stuck
  | .extend target items => do
    let value ← p |>.eval σ items
    let more ← membersOf value
    match σ.locals target with
    | some (.list items) => pure (.next (σ.put target (.list (items ++ more))))
    | _ => .stuck
  | .inherited message => do
    let text ← p |>.eval σ message
    match σ.locals "self" with
    | some (.object path attributes) =>
      if (p.class? path).any (·.isException) then
        pure (.next (σ.put "self" (.object path (Datum.putAttribute attributes "args" (.tuple [text])))))
      else .stuck
    | _ => .stuck
partial_fixpoint

end

export Program (eval evalAll evalNamed evalEntries evalParts readName getAttribute call construct invoke update enter
  bindParams setAttribute run runAll runEach assign runEffect)

def send (p : Program) (receiver : Datum L) (name : String) (args : List (Datum L)) : Outcome L (Datum L) := do
  let f ← getAttribute p receiver name
  call p f args []

/-! ## Equations

One equation for each form of expression and statement: together they are the calculus that proofs about
generated source compute with, since the functions above do not unfold by themselves. -/

section

variable {p : Program} {σ : Frame L}

@[simp] theorem eval_name (id : String) : eval p σ (.name id) = readName p σ id := by
  rw [eval]

@[simp] theorem eval_constant (value : Value) : eval p σ (.constant value) = .given (Datum.ofValue? value) := by
  rw [eval]

@[simp] theorem eval_none : eval p σ Expr.none = pure .none := by
  rw [Expr.none, eval_constant, Datum.ofValue?, Outcome.given_some]

@[simp] theorem eval_text (s : String) : eval p σ (Expr.text s) = pure (.text s) := by
  rw [Expr.text, eval_constant, Datum.ofValue?, Outcome.given_some]

@[simp] theorem eval_bool (b : Bool) : eval p σ (Expr.bool b) = pure (.bool b) := by
  rw [Expr.bool, eval_constant, Datum.ofValue?, Outcome.given_some]

@[simp] theorem eval_attr (value : Expr) (member : String) : eval p σ (.attr value member) = (do
    let receiver ← eval p σ value
    getAttribute p receiver member) := by
  rw [eval]

@[simp] theorem eval_subscript (value index : Expr) : eval p σ (.subscript value index) = (do
    let container ← eval p σ value
    let key ← eval p σ index
    entry container key) := by
  rw [eval]

@[simp] theorem eval_call (callee : Expr) (args : List Expr) (keywords : List Keyword) :
    eval p σ (.call callee args keywords) = (do
      let callee ← eval p σ callee
      let args ← evalAll p σ args
      let named ← evalNamed p σ keywords
      call p callee args named) := by
  rw [eval]

@[simp] theorem eval_list (items : List Expr) : eval p σ (.list items) = (do
    let items ← evalAll p σ items
    pure (.list items)) := by
  rw [eval]

@[simp] theorem eval_dict (entries : List Entry) : eval p σ (.dict entries) = (do
    let entries ← evalEntries p σ entries
    .given (Datum.dictOf? entries)) := by
  rw [eval]

theorem eval_comprehension (shape : Shape) (element : Expr) (target : String) (source : Expr) :
    eval p σ (.comprehension shape element target source) = (do
      let source ← eval p σ source
      let members ← membersOf source
      let items ← members.mapM fun member => eval p (σ.put target member) element
      shape.collect items) := by
  rw [eval]

/-- A comprehension, once the members of its source are known. -/
theorem eval_comprehension_of {shape : Shape} {source element : Expr} {target : String} {d : Datum L}
    {items results : List (Datum L)} (evaluates : eval p σ source = pure d) (members : d.members? = some items)
    (each : List.Forall₂ (fun v w => eval p (σ.put target v) element = pure w) items results) :
    eval p σ (.comprehension shape element target source) = shape.collect results := by
  rw [eval_comprehension, evaluates, pure_bind, membersOf, members, Outcome.given_some, pure_bind,
    Outcome.mapM_of_forall₂ each, pure_bind]

@[simp] theorem eval_compare (left : Expr) (comparison : Comparison) (right : Expr) :
    eval p σ (.compare left comparison right) = (do
      let left ← eval p σ left
      let right ← eval p σ right
      let holds ← comparison.holds left right
      pure (.bool holds)) := by
  rw [eval]

@[simp] theorem eval_not (operand : Expr) : eval p σ (.not operand) = (do
    let operand ← eval p σ operand
    pure (.bool !operand.truth)) := by
  rw [eval]

@[simp] theorem eval_conditional (body test orelse : Expr) : eval p σ (.conditional body test orelse) = (do
    let test ← eval p σ test
    if test.truth then eval p σ body else eval p σ orelse) := by
  rw [eval]

@[simp] theorem eval_formatted (parts : List Part) : eval p σ (.formatted parts) = (do
    let texts ← evalParts p σ parts
    pure (.text (String.join texts))) := by
  rw [eval]

@[simp] theorem evalParts_nil : evalParts p σ [] = pure [] := by
  rw [evalParts]

@[simp] theorem evalParts_text (s : String) (rest : List Part) : evalParts p σ (.text s :: rest) = (do
    let texts ← evalParts p σ rest
    pure (s :: texts)) := by
  rw [evalParts]

@[simp] theorem evalParts_field (e : Expr) (rest : List Part) : evalParts p σ (.field e none :: rest) = (do
    let value ← eval p σ e
    let shown ← .given value.shown?
    let texts ← evalParts p σ rest
    pure (shown :: texts)) := by
  rw [evalParts]

@[simp] theorem evalAll_nil : evalAll p σ [] = pure [] := by
  rw [evalAll]

@[simp] theorem evalAll_cons (e : Expr) (rest : List Expr) : evalAll p σ (e :: rest) = (do
    let value ← eval p σ e
    let values ← evalAll p σ rest
    pure (value :: values)) := by
  rw [evalAll]

@[simp] theorem evalNamed_nil : evalNamed p σ [] = pure [] := by
  rw [evalNamed]

/-- The test that a value is present. -/
@[simp] theorem eval_isNotNone (e : Expr) : eval p σ (Expr.isNotNone e) = (do
    let value ← eval p σ e
    pure (.bool !value.isNone)) := by
  simp [Expr.isNotNone, Comparison.holds, Datum.isNone]

/-- The test that a value is absent. -/
@[simp] theorem eval_isNone (e : Expr) : eval p σ (Expr.isNone e) = (do
    let value ← eval p σ e
    pure (.bool value.isNone)) := by
  simp [Expr.isNone, Comparison.holds, Datum.isNone]

/-- The call of a method with some arguments. -/
theorem eval_method_all {receiver : Expr} {d : Datum L} (evaluates : eval p σ receiver = pure d) {args : List Expr}
    {values : List (Datum L)} (arguments : evalAll p σ args = pure values) (name : String) :
    eval p σ (Expr.method receiver name args) = send p d name values := by
  simp [Expr.method, evaluates, arguments, send]

/-- The call of a method. -/
theorem eval_method {receiver : Expr} {d : Datum L} (evaluates : eval p σ receiver = pure d) (name : String) :
    eval p σ (Expr.method receiver name []) = send p d name [] :=
  eval_method_all evaluates evalAll_nil name

/-- The call of a method with an argument. -/
theorem eval_method_one {receiver arg : Expr} {d a : Datum L} (evaluates : eval p σ receiver = pure d)
    (argument : eval p σ arg = pure a) (name : String) :
    eval p σ (Expr.method receiver name [arg]) = send p d name [a] :=
  eval_method_all evaluates (by simp [argument]) name

/-- The call of a function by name. -/
theorem eval_apply {function : String} {f : Datum L} (known : readName p σ function = pure f) {arg : Expr}
    {a : Datum L} (argument : eval p σ arg = pure a) :
    eval p σ (Expr.apply function [arg]) = call p f [a] [] := by
  simp [Expr.apply, known, argument]

/-- A method of a datum that is no instance of a generated class. -/
theorem send_method {d : Datum L} {name : String} (known : name ∈ d.methods) (args : List (Datum L)) :
    send p d name args = callMethod d name args := by
  have bound : getAttribute p d name = pure (.method d name) := by
    rw [Program.getAttribute.eq_def]
    cases d <;> simp_all [Datum.methods]
  rw [send, bound, pure_bind, Program.call.eq_def]
  cases d <;> simp_all [Datum.methods]

/-! ### Calls of functions -/

/-- The values of parameters that are all given. -/
theorem bindParams_given (home : List Stmt) (params : List Param) (args : List (Datum L)) (length : args.length = params.length) :
    bindParams p home (suppliedTo [] params args) = pure ((params.map (·.name)).zip args) := by
  induction params generalizing args with
  | nil => simp [suppliedTo, bindParams]
  | cons param params ih =>
    cases args with
    | nil => simp at length
    | cons a args =>
      rw [suppliedTo, bindParams, ih args (by simpa using length), pure_bind]
      rfl

/-- The scope of a function that is called with as many arguments as it has parameters. -/
theorem enter_given (home : List Stmt) {s : Signature} {args : List (Datum L)} (wellFormed : s.wellFormed)
    (length : args.length = s.params.length) (noRest : s.rest = none) :
    enter p home s args [] = pure ⟨home, fun id => ((s.params.map (·.name)).zip args).lookup id⟩ := by
  have accepts : s.accepts args [] := by simp [Signature.accepts, length]
  rw [enter, if_pos wellFormed, if_pos accepts, bindParams_given home s.params args length, pure_bind]
  simp [Signature.spread, noRest]

/-- The result of a function that is called with as many arguments as it has parameters. -/
theorem invoke_given (home : List Stmt) {f : Function} {args : List (Datum L)} (wellFormed : f.signature.wellFormed)
    (length : args.length = f.signature.params.length) (noRest : f.signature.rest = none) :
    invoke p home f args [] = (do
      let flow ← runAll p ⟨home, fun id => ((f.signature.params.map (·.name)).zip args).lookup id⟩ f.body
      pure flow.returned) := by
  rw [invoke, enter_given home wellFormed length noRest, pure_bind]

/-- What a method makes of its receiver when it is called with as many arguments as it has parameters. -/
theorem update_given (home : List Stmt) {f : Function} {receiver : Datum L} {args : List (Datum L)}
    (wellFormed : f.signature.wellFormed) (length : args.length + 1 = f.signature.params.length)
    (noRest : f.signature.rest = none) :
    update p home f receiver args [] = (do
      match ← runAll p ⟨home, fun id => ((f.signature.params.map (·.name)).zip (receiver :: args)).lookup id⟩ f.body with
      | .next σ => .given (f.signature.params.head?.bind fun first => σ.locals first.name)
      | .result _ => .stuck) := by
  rw [update, enter_given home wellFormed (by simpa using length) noRest, pure_bind]

/-- A method that runs to its end leaves what its receiver has become. -/
theorem update_next (home : List Stmt) {f : Function} {receiver : Datum L} {args : List (Datum L)}
    (wellFormed : f.signature.wellFormed) (length : args.length + 1 = f.signature.params.length)
    (noRest : f.signature.rest = none) {σ : Frame L} (ends : runAll p
      ⟨home, fun id => ((f.signature.params.map (·.name)).zip (receiver :: args)).lookup id⟩ f.body = pure (.next σ)) :
    update p home f receiver args [] = .given (f.signature.params.head?.bind fun first => σ.locals first.name) := by
  rw [update_given home wellFormed length noRest, ends, pure_bind]

/-- A new instance of a class is what its constructor makes of an empty one. -/
theorem call_class {path : List String} {c : ClassDef} (cls : p.class? path = some c) (noEnum : c.isEnum = false)
    (noData : c.isData = false) {init : Function} (constructor : c.member? "__init__" = some (.method init))
    (args : List (Datum L)) (named : List (String × Datum L)) :
    call p (.cls path) args named = update p c.home init (.object path []) args named := by
  rw [call, cls]
  simp only [noEnum, noData, Bool.false_eq_true, if_false]
  rw [construct, constructor]

/-! ### Statements -/

@[simp] theorem run_assign (target e : Expr) : run p σ (.assign target e) = (do
    let value ← eval p σ e
    assign p σ target value) := by
  rw [run]

@[simp] theorem assign_name (id : String) (value : Datum L) :
    assign p σ (.name id) value = pure (.next (σ.put id value)) := by
  rw [assign]

/-- The assignment to an attribute of what a name stands for. -/
theorem assign_attr {owner : String} {receiver : Datum L} (known : σ.locals owner = some receiver) (member : String)
    (value : Datum L) : assign p σ (.attr (.name owner) member) value = (do
      let changed ← setAttribute p receiver member value
      pure (.next (σ.put owner changed))) := by
  rw [assign, known, Outcome.given_some, pure_bind]

/-- An attribute that is no property is set on the instance itself. -/
theorem setAttribute_plain {path : List String} {c : ClassDef} (cls : p.class? path = some c) (noData : c.isData = false)
    {name : String} (plain : ∀ getter setter, c.member? name ≠ some (.property getter setter))
    (attributes : List (String × Datum L)) (value : Datum L) :
    setAttribute p (.object path attributes) name value =
      pure (.object path (Datum.putAttribute attributes name value)) := by
  rw [setAttribute, cls]
  simp only [noData, Bool.false_eq_true, if_false]
  cases found : c.member? name with
  | none => rfl
  | some member =>
    cases member with
    | property getter setter => exact absurd found (plain getter setter)
    | _ => rfl

/-- An attribute that is no property is read from the instance itself. -/
theorem getAttribute_plain {path : List String} {attributes : List (String × Datum L)} {name : String}
    {value : Datum L} (has : attributes.lookup name = some value)
    (plain : ∀ c, p.class? path = some c → ∀ getter setter, c.member? name ≠ some (.property getter setter)) :
    getAttribute p (.object path attributes) name = pure value := by
  rw [getAttribute]
  cases cls : p.class? path with
  | none => simp [has]
  | some c =>
    cases found : c.member? name with
    | none => simp [found, has]
    | some member =>
      cases member with
      | property getter setter => exact absurd found (plain c cls getter setter)
      | _ => simp [found, has]

@[simp] theorem run_bind (target : String) (e : Expr) : run p σ (Stmt.bind target e) = (do
    let value ← eval p σ e
    pure (.next (σ.put target value))) := by
  simp [Stmt.bind]

@[simp] theorem run_annotated (target : String) (hint e : Expr) : run p σ (.annotated target hint (some e)) = (do
    let value ← eval p σ e
    pure (.next (σ.put target value))) := by
  rw [run]

@[simp] theorem run_result (e : Expr) : run p σ (.result e) = (do
    let value ← eval p σ e
    pure (.result value)) := by
  rw [run]

@[simp] theorem run_raise (e : Expr) : run p σ (.raise e) = (do
    let exception ← eval p σ e
    throw exception) := by
  rw [run]

/-- An expression that changes no datum behind a name. -/
theorem run_expr {e : Expr} (noEffect : e.effect? = none) : run p σ (.expr e) = (do
    let _ ← eval p σ e
    pure (.next σ)) := by
  rw [run, noEffect]

@[simp] theorem run_pass : run p σ .pass = pure (.next σ) := by
  rw [run]

@[simp] theorem run_ifThen (test : Expr) (body : List Stmt) : run p σ (.ifThen test body) = (do
    let test ← eval p σ test
    if test.truth then runAll p σ body else pure (.next σ)) := by
  rw [run]

/-- The statement that appends to a list. -/
theorem run_append {target : String} {items : List (Datum L)} (known : σ.locals target = some (.list items))
    (item : Expr) : run p σ (.expr (Expr.method (.name target) "append" [item])) = (do
      let value ← eval p σ item
      pure (.next (σ.put target (.list (items ++ [value]))))) := by
  rw [run]
  simp [Expr.method, Expr.effect?, runEffect, known]

/-- The part of the constructor that exceptions inherit keeps the message. -/
theorem run_inherited {path : List String} {c : ClassDef} {attributes : List (String × Datum L)}
    (known : σ.locals "self" = some (.object path attributes)) (cls : p.class? path = some c)
    (exception : c.isException) (message : Expr) :
    run p σ (.expr (Expr.method (Expr.apply "super" []) "__init__" [message])) = (do
      let text ← eval p σ message
      pure (.next (σ.put "self" (.object path (Datum.putAttribute attributes "args" (.tuple [text])))))) := by
  rw [run]
  simp [Expr.method, Expr.apply, Expr.effect?, Expr.isNamed, runEffect, known, cls, exception]

@[simp] theorem runAll_nil : runAll p σ [] = pure (.next σ) := by
  rw [runAll]

theorem runAll_cons (s : Stmt) (rest : List Stmt) : runAll p σ (s :: rest) = (do
    match ← run p σ s with
    | .next σ => runAll p σ rest
    | .result value => pure (.result value)) := by
  rw [runAll]

/-- A statement that goes on to the next one. -/
theorem runAll_next {s : Stmt} {σ' : Frame L} (next : run p σ s = pure (.next σ')) (rest : List Stmt) :
    runAll p σ (s :: rest) = runAll p σ' rest := by
  rw [runAll_cons, next, pure_bind]

theorem runAll_single (s : Stmt) : runAll p σ [s] = run p σ s := by
  rw [runAll_cons, ← bind_pure (run p σ s), bind_assoc]
  refine bind_congr fun flow => ?_
  cases flow <;> simp

theorem runAll_append (first second : List Stmt) : runAll p σ (first ++ second) = (do
    match ← runAll p σ first with
    | .next σ => runAll p σ second
    | .result value => pure (.result value)) := by
  induction first generalizing σ with
  | nil => simp
  | cons s rest ih =>
    rw [List.cons_append, runAll_cons, runAll_cons, bind_assoc]
    refine bind_congr fun flow => ?_
    cases flow with
    | next σ => exact ih
    | result value => simp

/-- Statements that go on to those after them. -/
theorem runAll_append_next {first : List Stmt} {σ' : Frame L} (next : runAll p σ first = pure (.next σ'))
    (second : List Stmt) : runAll p σ (first ++ second) = runAll p σ' second := by
  rw [runAll_append, next, pure_bind]

theorem readName_local {id : String} {value : Datum L} (known : σ.locals id = some value) :
    readName p σ id = pure value := by
  rw [readName, known]

theorem readName_congr {τ : Frame L} (home : τ.home = σ.home) {id : String} (locals : τ.locals id = σ.locals id) :
    readName p τ id = readName p σ id := by
  rw [readName, readName, home, locals]

theorem readName_put (name : String) (value : Datum L) (id : String) :
    readName p (σ.put name value) id = if id = name then pure value else readName p σ id := by
  by_cases same : id = name
  · rw [if_pos same]
    exact readName_local (by simp [same])
  · rw [if_neg same, readName, readName, Frame.put_locals, if_neg same, Frame.put_home]

@[simp] theorem call_builtin (name : String) (args : List (Datum L)) :
    call p (.builtin name) args [] = callBuiltin name args := by
  rw [call, List.isEmpty_nil, if_pos rfl]

@[simp] theorem call_imported (name : String) (args : List (Datum L)) :
    call p (.imported name) args [] = callImported name args := by
  rw [call, List.isEmpty_nil, if_pos rfl]

end

end Tablewright.Source
