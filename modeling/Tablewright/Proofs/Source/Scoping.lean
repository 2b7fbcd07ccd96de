import Mathlib
import Tablewright.Source.Syntax

/-!
# Scoping of generated source

Which names a module may read, and where.  A name is bound if it is a builtin, if the top level of the
module binds it, if an enclosing function has it as a parameter or assigns it, if it is the variable of an
enclosing comprehension, or, in the body of a class itself, if an earlier statement of the body binds it.
Functions and comprehensions inside a class do not see the names of its body.

* `Stmt.binds`: the names that a statement binds in the scope it stands in; `Stmt.locals` looks into blocks.
* `Expr.Bound`, `Stmt.Bound`: every name that is read is bound.
* `Module.NamesBound`: the same for a whole module.
-/

namespace Tablewright.Source

/-! ## Bindings -/

/-- The first part of a dotted name. -/
def firstPart (dotted : String) : String := (Text.split '.' dotted).headD ""

/-- The names that a statement binds in the scope that it stands in, the statements of blocks apart. -/
def Stmt.binds : Stmt → List String
  | .assign (.name target) _ => [target]
  | .annotated target _ _ => [target]
  | .increase target _ => [target]
  | .importModule module => [firstPart module]
  | .importFrom _ names => names
  | .forIn target _ _ => [target]
  | .function signature _ _ => [signature.name]
  | .classDef name _ _ _ _ => [name]
  | _ => []

mutual

/-- The names that a statement of a function makes local, those in its blocks included. -/
def Stmt.locals : Stmt → List String
  | .assign (.name target) _ => [target]
  | .annotated target _ _ => [target]
  | .increase target _ => [target]
  | .importModule module => [firstPart module]
  | .importFrom _ names => names
  | .ifThen _ body => localsAll body
  | .forIn target _ body => target :: localsAll body
  | .loop _ body => localsAll body
  | .withBlock _ body => localsAll body
  | .function signature _ _ => [signature.name]
  | .classDef name _ _ _ _ => [name]
  | _ => []

/-- The names that some statements of a function make local. -/
def localsAll : List Stmt → List String
  | [] => []
  | s :: rest => s.locals ++ localsAll rest

end

mutual

/-- The names that a statement of a function takes from the module. -/
def Stmt.globals : Stmt → List String
  | .global id => [id]
  | .ifThen _ body => globalsAll body
  | .forIn _ _ body => globalsAll body
  | .loop _ body => globalsAll body
  | .withBlock _ body => globalsAll body
  | _ => []

/-- The names that some statements of a function take from the module. -/
def globalsAll : List Stmt → List String
  | [] => []
  | s :: rest => s.globals ++ globalsAll rest

end

/-- The names that the top level of a module binds. -/
def Module.topLevel (m : Module) : List String := m.body.flatMap Stmt.binds

/-! ## Names that are read -/

def builtins : List String :=
  ["bool", "classmethod", "dict", "frozenset", "hash", "int", "isinstance", "len", "list", "object",
   "property", "set", "staticmethod", "str", "super", "tuple", "Exception", "NotImplemented", "TypeError"]

/-- The names that are bound in a scope, and those among them that the functions and comprehensions inside
it see. -/
structure Env where
  here : List String
  nested : List String

namespace Env

/-- A scope all of whose names are seen inside it. -/
def all (names : List String) : Env := ⟨names, names⟩

def comprehension (env : Env) (target : String) : Env := all (target :: env.nested)

/-- The scope of a function: its parameters and its local names. -/
def function (env : Env) (signature : Signature) (body : List Stmt) : Env :=
  all (signature.params.map (·.name) ++ signature.rest.toList.map (·.name)
    ++ (localsAll body).filter (fun name => !(globalsAll body).contains name) ++ env.nested)

/-- The scope of the body of a class after some of its statements. -/
def classBody (outer earlier : List String) : Env := ⟨earlier ++ outer, outer⟩

end Env

def Keyword.value : Keyword → Expr
  | .mk _ value => value

def Entry.key : Entry → Expr
  | .mk key _ => key

def Entry.value : Entry → Expr
  | .mk _ value => value

mutual

/-- Every name that an expression reads is bound. -/
def Expr.Bound (env : Env) : Expr → Prop
  | .name id => id ∈ env.here ∨ id ∈ builtins
  | .constant _ => True
  | .attr value _ => value.Bound env
  | .subscript value index => value.Bound env ∧ index.Bound env
  | .call callee args keywords => callee.Bound env ∧ Expr.AllBound env args ∧ Keyword.AllBound env keywords
  | .tuple items => Expr.AllBound env items
  | .list items => Expr.AllBound env items
  | .dict entries => Entry.AllBound env entries
  | .comprehension _ element target source => source.Bound env ∧ element.Bound (env.comprehension target)
  | .compare left _ right => left.Bound env ∧ right.Bound env
  | .not operand => operand.Bound env
  | .or left right => left.Bound env ∧ right.Bound env
  | .conditional body test orelse => body.Bound env ∧ test.Bound env ∧ orelse.Bound env
  | .formatted parts => Part.AllBound env parts

def Expr.AllBound (env : Env) : List Expr → Prop
  | [] => True
  | e :: rest => e.Bound env ∧ Expr.AllBound env rest

def Keyword.AllBound (env : Env) : List Keyword → Prop
  | [] => True
  | .mk _ value :: rest => value.Bound env ∧ Keyword.AllBound env rest

def Entry.AllBound (env : Env) : List Entry → Prop
  | [] => True
  | .mk key value :: rest => key.Bound env ∧ value.Bound env ∧ Entry.AllBound env rest

/-- Every name that the parts of a formatted text read is bound. -/
def Part.AllBound (env : Env) : List Part → Prop
  | [] => True
  | .text _ :: rest => Part.AllBound env rest
  | .field value _ :: rest => value.Bound env ∧ Part.AllBound env rest

end

/-- The hints and defaults of a parameter read bound names. -/
def Param.Bound (env : Env) (p : Param) : Prop :=
  (∀ hint ∈ p.hint, hint.Bound env) ∧ ∀ default ∈ p.default, default.Bound env

/-- What the head of a function reads is bound where the function is defined. -/
structure Signature.Bound (env : Env) (signature : Signature) : Prop where
  decorators : ∀ decorator ∈ signature.decorators, decorator.Bound env
  params : ∀ p ∈ signature.params, p.Bound env
  rest : ∀ p ∈ signature.rest, p.Bound env
  returns : ∀ returns ∈ signature.returns, returns.Bound env

theorem Signature.bound_iff {env : Env} {signature : Signature} : signature.Bound env ↔
    (∀ decorator ∈ signature.decorators, decorator.Bound env) ∧ (∀ p ∈ signature.params, p.Bound env) ∧
      (∀ p ∈ signature.rest, p.Bound env) ∧ ∀ returns ∈ signature.returns, returns.Bound env :=
  ⟨fun ⟨decorators, params, rest, returns⟩ => ⟨decorators, params, rest, returns⟩,
    fun ⟨decorators, params, rest, returns⟩ => ⟨decorators, params, rest, returns⟩⟩

/-- What a target of an assignment reads is bound: a name is only written. -/
def Expr.TargetBound (env : Env) : Expr → Prop
  | .name _ => True
  | target => target.Bound env

mutual

/-- Every name that a statement reads is bound. -/
def Stmt.Bound (env : Env) : Stmt → Prop
  | .expr value => value.Bound env
  | .assign target value => target.TargetBound env ∧ value.Bound env
  | .annotated _ hint value => hint.Bound env ∧ ∀ v ∈ value, v.Bound env
  | .increase target value => target ∈ env.here ∧ value.Bound env
  | .result value => value.Bound env
  | .raise exception => exception.Bound env
  | .pass => True
  | .global _ => True
  | .importModule _ => True
  | .importFrom _ _ => True
  | .ifThen test body => test.Bound env ∧ Stmt.AllBound env body
  | .forIn _ source body => source.Bound env ∧ Stmt.AllBound env body
  | .loop test body => test.Bound env ∧ Stmt.AllBound env body
  | .withBlock context body => context.Bound env ∧ Stmt.AllBound env body
  | .function signature _ body => signature.Bound env ∧ Stmt.AllBound (env.function signature body) body
  | .classDef _ decorators bases _ body =>
    (∀ decorator ∈ decorators, decorator.Bound env) ∧ (∀ base ∈ bases, base.Bound env) ∧
      Stmt.ClassBound env.nested [] body

/-- Every name that some statements of one scope read is bound. -/
def Stmt.AllBound (env : Env) : List Stmt → Prop
  | [] => True
  | s :: rest => s.Bound env ∧ Stmt.AllBound env rest

/-- Every name that the body of a class reads is bound: by an earlier statement of the body, or outside. -/
def Stmt.ClassBound (outer earlier : List String) : List Stmt → Prop
  | [] => True
  | s :: rest => s.Bound (.classBody outer earlier) ∧ Stmt.ClassBound outer (earlier ++ s.binds) rest

end

namespace Module

def env (m : Module) : Env := .all m.topLevel

def NamesBound (m : Module) : Prop := Stmt.AllBound m.env m.body

end Module

/-! ## Lists of expressions and statements -/

@[simp] theorem Expr.allBound_iff {env : Env} {es : List Expr} : AllBound env es ↔ ∀ e ∈ es, e.Bound env := by
  induction es with
  | nil => simp [AllBound]
  | cons e rest ih => simp [AllBound, ih]

@[simp] theorem Keyword.allBound_iff {env : Env} {keywords : List Keyword} :
    AllBound env keywords ↔ ∀ k ∈ keywords, k.value.Bound env := by
  induction keywords with
  | nil => simp [AllBound]
  | cons k rest ih =>
    obtain ⟨name, value⟩ := k
    simp [AllBound, ih, Keyword.value]

@[simp] theorem Entry.allBound_iff {env : Env} {entries : List Entry} :
    AllBound env entries ↔ ∀ entry ∈ entries, entry.key.Bound env ∧ entry.value.Bound env := by
  induction entries with
  | nil => simp [AllBound]
  | cons entry rest ih =>
    obtain ⟨key, value⟩ := entry
    simp [AllBound, ih, Entry.key, Entry.value, and_assoc]

/-- Every name that a part of a formatted text reads is bound. -/
def Part.Bound (env : Env) : Part → Prop
  | .text _ => True
  | .field value _ => value.Bound env

@[simp] theorem Part.allBound_iff {env : Env} {parts : List Part} :
    AllBound env parts ↔ ∀ part ∈ parts, part.Bound env := by
  induction parts with
  | nil => simp [AllBound]
  | cons part rest ih => cases part <;> simp [AllBound, ih, Part.Bound]

@[simp] theorem Stmt.allBound_iff {env : Env} {body : List Stmt} : AllBound env body ↔ ∀ s ∈ body, s.Bound env := by
  induction body with
  | nil => simp [AllBound]
  | cons s rest ih => simp [AllBound, ih]

namespace Module

variable {m : Module} {name : String}

theorem mem_topLevel : name ∈ m.topLevel ↔ ∃ s ∈ m.body, name ∈ s.binds := List.mem_flatMap

theorem namesBound_iff : m.NamesBound ↔ ∀ s ∈ m.body, s.Bound (.all m.topLevel) := Stmt.allBound_iff

end Module

/-! ## Functions -/

theorem localsAll_eq (body : List Stmt) : localsAll body = body.flatMap Stmt.locals := by
  induction body with
  | nil => rfl
  | cons s rest ih => rw [localsAll, ih, List.flatMap_cons]

theorem localsAll_append (body more : List Stmt) : localsAll (body ++ more) = localsAll body ++ localsAll more := by
  rw [localsAll_eq, localsAll_eq, localsAll_eq, List.flatMap_append]

@[simp] theorem mem_localsAll {name : String} {body : List Stmt} :
    name ∈ localsAll body ↔ ∃ s ∈ body, name ∈ s.locals := by
  rw [localsAll_eq, List.mem_flatMap]

@[simp] theorem globalsAll_eq_nil {body : List Stmt} : globalsAll body = [] ↔ ∀ s ∈ body, s.globals = [] := by
  induction body with
  | nil => simp [globalsAll]
  | cons s rest ih => simp [globalsAll, ih]

/-- The names inside a function: what is seen around it, its parameters and its local names. -/
structure Inside (outer : List String) (signature : Signature) (body : List Stmt) (names : List String) :
    Prop where
  outer : outer ⊆ names
  params : ∀ p ∈ signature.params, p.name ∈ names
  rest : ∀ p ∈ signature.rest, p.name ∈ names
  locals : ∀ s ∈ body, s.locals ⊆ names

/-- A function that takes no name from the module is bound if its head is, where it stands, and its body is,
inside. -/
theorem Stmt.function_bound {env : Env} {signature : Signature} {doc : Option String} {body : List Stmt}
    (head : signature.Bound env) (noGlobals : ∀ s ∈ body, s.globals = [])
    (inside : ∀ names, Inside env.nested signature body names → ∀ s ∈ body, s.Bound (.all names)) :
    (Stmt.function signature doc body).Bound env := by
  refine ⟨head, Stmt.allBound_iff.mpr (inside _ ⟨?_, ?_, ?_, ?_⟩)⟩
  · exact List.subset_append_right _ _
  · intro p member
    simp only [List.mem_append]
    exact .inl (.inl (.inl (List.mem_map_of_mem member)))
  · intro p member
    simp only [List.mem_append]
    exact .inl (.inl (.inr (List.mem_map_of_mem (Option.mem_toList.mpr member))))
  · -- no local name is taken away, since the body takes none from the module
    intro s member name isLocal
    simp only [globalsAll_eq_nil.mpr noGlobals, List.mem_append]
    exact .inl (.inr (List.mem_filter.mpr ⟨mem_localsAll.mpr ⟨s, member, isLocal⟩, rfl⟩))

theorem Param.plain_bound {env : Env} {name : String} : (Param.plain name).Bound env := by
  simp [Param.plain, Param.Bound]

theorem Param.required_bound {env : Env} {name : String} {hint : Expr} (bound : hint.Bound env) :
    (Param.required name hint).Bound env := by
  simpa [Param.required, Param.Bound] using bound

theorem Param.optional_bound {env : Env} {name : String} {hint : Expr} (bound : hint.Bound env) :
    (Param.optional name hint).Bound env := by
  simpa [Param.optional, Param.Bound, Expr.none, Expr.Bound] using bound

theorem noResult_bound {env : Env} : ∀ returns ∈ noResult, returns.Bound env := by
  simp [noResult, Expr.none, Expr.Bound]

/-! ## More names -/

/-- A scope in which at least the same names are bound. -/
structure Env.Le (env env' : Env) : Prop where
  here : env.here ⊆ env'.here
  nested : env.nested ⊆ env'.nested

theorem Env.Le.all {names names' : List String} (subset : names ⊆ names') : Env.Le (.all names) (.all names') :=
  ⟨subset, subset⟩

theorem Env.Le.comprehension {env env' : Env} (le : env.Le env') (target : String) :
    (env.comprehension target).Le (env'.comprehension target) :=
  .all (List.cons_subset_cons target le.nested)

theorem Env.Le.function {env env' : Env} (le : env.Le env') (signature : Signature) (body : List Stmt) :
    (env.function signature body).Le (env'.function signature body) :=
  .all (List.append_subset.mpr ⟨List.subset_append_left _ _,
    List.Subset.trans le.nested (List.subset_append_right _ _)⟩)

mutual

theorem Expr.Bound.mono {env env' : Env} (le : env.Le env') : (e : Expr) → e.Bound env → e.Bound env'
  | .name _, bound => bound.imp_left fun member => le.here member
  | .constant _, _ => trivial
  | .attr value _, bound => Expr.Bound.mono le value bound
  | .subscript value index, bound => ⟨Expr.Bound.mono le value bound.1, Expr.Bound.mono le index bound.2⟩
  | .call callee args keywords, bound =>
    ⟨Expr.Bound.mono le callee bound.1, Expr.AllBound.mono le args bound.2.1,
      Keyword.AllBound.mono le keywords bound.2.2⟩
  | .tuple items, bound => Expr.AllBound.mono le items bound
  | .list items, bound => Expr.AllBound.mono le items bound
  | .dict entries, bound => Entry.AllBound.mono le entries bound
  | .comprehension _ element target source, bound =>
    ⟨Expr.Bound.mono le source bound.1, Expr.Bound.mono (le.comprehension target) element bound.2⟩
  | .compare left _ right, bound => ⟨Expr.Bound.mono le left bound.1, Expr.Bound.mono le right bound.2⟩
  | .not operand, bound => Expr.Bound.mono le operand bound
  | .or left right, bound => ⟨Expr.Bound.mono le left bound.1, Expr.Bound.mono le right bound.2⟩
  | .conditional body test orelse, bound =>
    ⟨Expr.Bound.mono le body bound.1, Expr.Bound.mono le test bound.2.1, Expr.Bound.mono le orelse bound.2.2⟩
  | .formatted parts, bound => Part.AllBound.mono le parts bound

theorem Expr.AllBound.mono {env env' : Env} (le : env.Le env') :
    (es : List Expr) → Expr.AllBound env es → Expr.AllBound env' es
  | [], _ => trivial
  | e :: rest, bound => ⟨Expr.Bound.mono le e bound.1, Expr.AllBound.mono le rest bound.2⟩

theorem Keyword.AllBound.mono {env env' : Env} (le : env.Le env') :
    (keywords : List Keyword) → Keyword.AllBound env keywords → Keyword.AllBound env' keywords
  | [], _ => trivial
  | .mk _ value :: rest, bound => ⟨Expr.Bound.mono le value bound.1, Keyword.AllBound.mono le rest bound.2⟩

theorem Entry.AllBound.mono {env env' : Env} (le : env.Le env') :
    (entries : List Entry) → Entry.AllBound env entries → Entry.AllBound env' entries
  | [], _ => trivial
  | .mk key value :: rest, bound =>
    ⟨Expr.Bound.mono le key bound.1, Expr.Bound.mono le value bound.2.1, Entry.AllBound.mono le rest bound.2.2⟩

theorem Part.AllBound.mono {env env' : Env} (le : env.Le env') :
    (parts : List Part) → Part.AllBound env parts → Part.AllBound env' parts
  | [], _ => trivial
  | .text _ :: rest, bound => Part.AllBound.mono le rest bound
  | .field value _ :: rest, bound => ⟨Expr.Bound.mono le value bound.1, Part.AllBound.mono le rest bound.2⟩

end

theorem Expr.TargetBound.mono {env env' : Env} (le : env.Le env') {target : Expr} (bound : target.TargetBound env) :
    target.TargetBound env' := by
  cases target with
  | name => trivial
  | _ => exact Expr.Bound.mono le _ bound

theorem Signature.Bound.mono {env env' : Env} (le : env.Le env') {signature : Signature}
    (bound : signature.Bound env) : signature.Bound env' := by
  have param : ∀ p : Param, p.Bound env → p.Bound env' := fun p bound =>
    ⟨fun hint given => (bound.1 hint given).mono le, fun default given => (bound.2 default given).mono le⟩
  exact ⟨fun d member => (bound.decorators d member).mono le, fun p member => param p (bound.params p member),
    fun p member => param p (bound.rest p member), fun r member => (bound.returns r member).mono le⟩

mutual

theorem Stmt.Bound.mono {env env' : Env} (le : env.Le env') : (s : Stmt) → s.Bound env → s.Bound env'
  | .expr value, bound => Expr.Bound.mono le value bound
  | .assign _ value, bound => ⟨bound.1.mono le, Expr.Bound.mono le value bound.2⟩
  | .annotated _ hint _, bound => ⟨Expr.Bound.mono le hint bound.1, fun v given => (bound.2 v given).mono le⟩
  | .increase _ value, bound => ⟨le.here bound.1, Expr.Bound.mono le value bound.2⟩
  | .result value, bound => Expr.Bound.mono le value bound
  | .raise exception, bound => Expr.Bound.mono le exception bound
  | .pass, _ => trivial
  | .global _, _ => trivial
  | .importModule _, _ => trivial
  | .importFrom _ _, _ => trivial
  | .ifThen test body, bound => ⟨Expr.Bound.mono le test bound.1, Stmt.AllBound.mono le body bound.2⟩
  | .forIn _ source body, bound => ⟨Expr.Bound.mono le source bound.1, Stmt.AllBound.mono le body bound.2⟩
  | .loop test body, bound => ⟨Expr.Bound.mono le test bound.1, Stmt.AllBound.mono le body bound.2⟩
  | .withBlock context body, bound => ⟨Expr.Bound.mono le context bound.1, Stmt.AllBound.mono le body bound.2⟩
  | .function signature _ body, bound =>
    ⟨bound.1.mono le, Stmt.AllBound.mono (le.function signature body) body bound.2⟩
  | .classDef _ _ _ _ body, bound =>
    ⟨fun d member => (bound.1 d member).mono le, fun b member => (bound.2.1 b member).mono le,
      Stmt.ClassBound.mono le.nested (List.Subset.refl _) body bound.2.2⟩

theorem Stmt.AllBound.mono {env env' : Env} (le : env.Le env') :
    (body : List Stmt) → Stmt.AllBound env body → Stmt.AllBound env' body
  | [], _ => trivial
  | s :: rest, bound => ⟨Stmt.Bound.mono le s bound.1, Stmt.AllBound.mono le rest bound.2⟩

theorem Stmt.ClassBound.mono {outer outer' earlier earlier' : List String} (more : outer ⊆ outer')
    (moreEarlier : earlier ⊆ earlier') :
    (body : List Stmt) → Stmt.ClassBound outer earlier body → Stmt.ClassBound outer' earlier' body
  | [], _ => trivial
  | s :: rest, bound =>
    -- what the class has bound so far is seen by its own statements only
    have le : (Env.classBody outer earlier).Le (Env.classBody outer' earlier') :=
      ⟨List.append_subset.mpr ⟨List.Subset.trans moreEarlier (List.subset_append_left _ _),
        List.Subset.trans more (List.subset_append_right _ _)⟩, more⟩
    have grown : earlier ++ s.binds ⊆ earlier' ++ s.binds :=
      List.append_subset.mpr ⟨List.Subset.trans moreEarlier (List.subset_append_left _ _),
        List.subset_append_right _ _⟩
    ⟨Stmt.Bound.mono le s bound.1, Stmt.ClassBound.mono more grown rest bound.2⟩

end

/-! ## Bodies of classes -/

theorem Stmt.classBound_append {outer earlier : List String} {body more : List Stmt} :
    ClassBound outer earlier (body ++ more) ↔
      ClassBound outer earlier body ∧ ClassBound outer (earlier ++ body.flatMap Stmt.binds) more := by
  induction body generalizing earlier with
  | nil => simp [ClassBound]
  | cons s rest ih => simp [ClassBound, ih, and_assoc]

/-- Statements that do without the names of the class can stand anywhere in its body. -/
theorem Stmt.classBound_of_forall {outer earlier : List String} {body : List Stmt}
    (bound : ∀ s ∈ body, s.Bound (.all outer)) : ClassBound outer earlier body := by
  induction body generalizing earlier with
  | nil => trivial
  | cons s rest ih =>
    obtain ⟨here, there⟩ := List.forall_mem_cons.mp bound
    have le : (Env.all outer).Le (Env.classBody outer earlier) :=
      ⟨List.subset_append_right _ _, List.Subset.refl _⟩
    exact ⟨here.mono le, ih there⟩

/-- A function that reads nothing of its own is bound if its body is around it. -/
theorem Stmt.function_bound_of_outer {env : Env} {signature : Signature} {doc : Option String} {body : List Stmt}
    (head : signature.Bound env) (around : ∀ s ∈ body, s.Bound (.all env.nested)) :
    (Stmt.function signature doc body).Bound env := by
  refine ⟨head, Stmt.allBound_iff.mpr fun s member => ?_⟩
  exact (around s member).mono (.all (List.subset_append_right _ _))

end Tablewright.Source
