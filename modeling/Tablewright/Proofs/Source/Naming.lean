import Tablewright.Name.Reserved
import Tablewright.Proofs.Source.Scoping
import Tablewright.Proofs.Text.Pieces

/-!
# Names in generated source

The strings that a syntax tree has in the place of identifiers: names that are read and assigned, attributes, arguments
by name, parameters, functions, classes, and names that are imported.  A tree can only be source if each of them is an
identifier and no keyword.  The modules that names are imported from are told apart: `Module.imported` gives them.

* `Expr.identifiers`, `Stmt.identifiers`, `Module.identifiers`: these strings, wherever they stand in a tree.
* `Expr.NamedBy`, `Stmt.NamedBy`, `Module.NamedBy`: they all have some property, construct by construct.
* `Module.WellNamed`: they are identifiers and no keywords.
-/

namespace Tablewright.Source

/-! ## Identifiers of a tree -/

mutual

/-- The identifiers in an expression. -/
def Expr.identifiers : Expr → List String
  | .name id => [id]
  | .constant _ => []
  | .attr value member => member :: value.identifiers
  | .subscript value index => value.identifiers ++ index.identifiers
  | .call callee args keywords =>
    callee.identifiers ++ (Expr.identifiersAll args ++ Keyword.identifiersAll keywords)
  | .tuple items => Expr.identifiersAll items
  | .list items => Expr.identifiersAll items
  | .dict entries => Entry.identifiersAll entries
  | .comprehension _ element target source => target :: (element.identifiers ++ source.identifiers)
  | .compare left _ right => left.identifiers ++ right.identifiers
  | .not operand => operand.identifiers
  | .or left right => left.identifiers ++ right.identifiers
  | .conditional body test orelse => body.identifiers ++ (test.identifiers ++ orelse.identifiers)
  | .formatted parts => Part.identifiersAll parts

def Expr.identifiersAll : List Expr → List String
  | [] => []
  | e :: rest => e.identifiers ++ Expr.identifiersAll rest

/-- The identifiers in several arguments, their names included. -/
def Keyword.identifiersAll : List Keyword → List String
  | [] => []
  | .mk name value :: rest => name.toList ++ value.identifiers ++ Keyword.identifiersAll rest

def Entry.identifiersAll : List Entry → List String
  | [] => []
  | .mk key value :: rest => key.identifiers ++ value.identifiers ++ Entry.identifiersAll rest

def Part.identifiersAll : List Part → List String
  | [] => []
  | .text _ :: rest => Part.identifiersAll rest
  | .field value _ :: rest => value.identifiers ++ Part.identifiersAll rest

end

def Param.identifiers (p : Param) : List String :=
  p.name :: (p.hint.toList ++ p.default.toList).flatMap Expr.identifiers

def Signature.identifiers (s : Signature) : List String :=
  s.name :: ((s.decorators ++ s.returns.toList).flatMap Expr.identifiers
    ++ (s.params ++ s.rest.toList).flatMap Param.identifiers)

mutual

/-- The identifiers in a statement and in the statements in it. -/
def Stmt.identifiers : Stmt → List String
  | .expr value => value.identifiers
  | .assign target value => target.identifiers ++ value.identifiers
  | .annotated target hint value => target :: (hint :: value.toList).flatMap Expr.identifiers
  | .increase target value => target :: value.identifiers
  | .result value => value.identifiers
  | .raise exception => exception.identifiers
  | .pass => []
  | .global id => [id]
  | .importModule module => Text.split '.' module
  | .importFrom _ names => names
  | .ifThen test body => test.identifiers ++ Stmt.identifiersAll body
  | .forIn target source body => target :: (source.identifiers ++ Stmt.identifiersAll body)
  | .loop test body => test.identifiers ++ Stmt.identifiersAll body
  | .withBlock context body => context.identifiers ++ Stmt.identifiersAll body
  | .function signature _ body => signature.identifiers ++ Stmt.identifiersAll body
  | .classDef name decorators bases _ body =>
    name :: ((decorators ++ bases).flatMap Expr.identifiers ++ Stmt.identifiersAll body)

def Stmt.identifiersAll : List Stmt → List String
  | [] => []
  | s :: rest => s.identifiers ++ Stmt.identifiersAll rest

end

def Module.identifiers (m : Module) : List String := Stmt.identifiersAll m.body

theorem Expr.identifiersAll_eq (items : List Expr) : Expr.identifiersAll items = items.flatMap Expr.identifiers := by
  induction items with
  | nil => rfl
  | cons e rest ih => rw [Expr.identifiersAll, ih, List.flatMap_cons]

theorem Stmt.identifiersAll_eq (body : List Stmt) : Stmt.identifiersAll body = body.flatMap Stmt.identifiers := by
  induction body with
  | nil => rfl
  | cons s rest ih => rw [Stmt.identifiersAll, ih, List.flatMap_cons]

/-! ## Properties of identifiers -/

variable {P : String → Prop}

def Expr.NamedBy (P : String → Prop) (e : Expr) : Prop := ∀ name ∈ e.identifiers, P name

def Keyword.NamedBy (P : String → Prop) : Keyword → Prop
  | .mk name value => (∀ given ∈ name, P given) ∧ value.NamedBy P

def Entry.NamedBy (P : String → Prop) : Entry → Prop
  | .mk key value => key.NamedBy P ∧ value.NamedBy P

def Part.NamedBy (P : String → Prop) : Part → Prop
  | .text _ => True
  | .field value _ => value.NamedBy P

def Param.NamedBy (P : String → Prop) (p : Param) : Prop := ∀ name ∈ p.identifiers, P name

/-- Every identifier in the head of a function has a property. -/
def Signature.NamedBy (P : String → Prop) (s : Signature) : Prop := ∀ name ∈ s.identifiers, P name

def Stmt.NamedBy (P : String → Prop) (s : Stmt) : Prop := ∀ name ∈ s.identifiers, P name

def Module.NamedBy (P : String → Prop) (m : Module) : Prop := ∀ name ∈ m.identifiers, P name

instance [DecidablePred P] (m : Module) : Decidable (m.NamedBy P) :=
  inferInstanceAs (Decidable (∀ name ∈ m.identifiers, P name))

/-- Every identifier in a module is an identifier, and no keyword. -/
def Module.WellNamed (m : Module) : Prop := m.NamedBy fun name => Name.isPackagePart name

instance (m : Module) : Decidable m.WellNamed := inferInstanceAs (Decidable (∀ name ∈ m.identifiers, _))

/-! ## Expressions -/

namespace Expr

variable {value index callee left right source element body test orelse operand : Expr} {items : List Expr}

theorem namedByAll_iff : (∀ name ∈ identifiersAll items, P name) ↔ ∀ e ∈ items, e.NamedBy P := by
  rw [identifiersAll_eq, List.forall_mem_flatMap]
  rfl

@[simp] theorem namedBy_name {id : String} : (name id).NamedBy P ↔ P id := List.forall_mem_singleton

@[simp] theorem namedBy_constant (v : Value) : (constant v).NamedBy P := fun _ member => nomatch member

@[simp] theorem namedBy_attr {member : String} : (attr value member).NamedBy P ↔ P member ∧ value.NamedBy P :=
  List.forall_mem_cons

@[simp] theorem namedBy_subscript : (subscript value index).NamedBy P ↔ value.NamedBy P ∧ index.NamedBy P :=
  List.forall_mem_append

@[simp] theorem namedBy_call {args : List Expr} {keywords : List Keyword} : (call callee args keywords).NamedBy P ↔
    callee.NamedBy P ∧ (∀ a ∈ args, a.NamedBy P) ∧ ∀ k ∈ keywords, k.NamedBy P := by
  have named : (∀ name ∈ Keyword.identifiersAll keywords, P name) ↔ ∀ k ∈ keywords, k.NamedBy P := by
    induction keywords with
    | nil => simp [Keyword.identifiersAll]
    | cons k rest ih =>
      obtain ⟨name, value⟩ := k
      rw [Keyword.identifiersAll, List.forall_mem_append, List.forall_mem_append, ih, List.forall_mem_cons]
      simp only [Option.mem_toList]
      rfl
  rw [← named, ← namedByAll_iff]
  exact List.forall_mem_append.trans (and_congr_right' List.forall_mem_append)

@[simp] theorem namedBy_tuple : (tuple items).NamedBy P ↔ ∀ e ∈ items, e.NamedBy P := namedByAll_iff

@[simp] theorem namedBy_list : (list items).NamedBy P ↔ ∀ e ∈ items, e.NamedBy P := namedByAll_iff

@[simp] theorem namedBy_dict {entries : List Entry} : (dict entries).NamedBy P ↔ ∀ e ∈ entries, e.NamedBy P := by
  rw [NamedBy, identifiers]
  induction entries with
  | nil => simp [Entry.identifiersAll]
  | cons e rest ih =>
    obtain ⟨key, value⟩ := e
    rw [Entry.identifiersAll, List.forall_mem_append, List.forall_mem_append, ih, List.forall_mem_cons]
    rfl

@[simp] theorem namedBy_comprehension (shape : Shape) {target : String} :
    (comprehension shape element target source).NamedBy P ↔ P target ∧ element.NamedBy P ∧ source.NamedBy P :=
  List.forall_mem_cons.trans (and_congr_right' List.forall_mem_append)

@[simp] theorem namedBy_compare (op : Comparison) :
    (compare left op right).NamedBy P ↔ left.NamedBy P ∧ right.NamedBy P :=
  List.forall_mem_append

@[simp] theorem namedBy_not : (Expr.not operand).NamedBy P ↔ operand.NamedBy P := Iff.rfl

@[simp] theorem namedBy_or : (Expr.or left right).NamedBy P ↔ left.NamedBy P ∧ right.NamedBy P :=
  List.forall_mem_append

@[simp] theorem namedBy_conditional :
    (conditional body test orelse).NamedBy P ↔ body.NamedBy P ∧ test.NamedBy P ∧ orelse.NamedBy P :=
  List.forall_mem_append.trans (and_congr_right' List.forall_mem_append)

@[simp] theorem namedBy_formatted {parts : List Part} : (formatted parts).NamedBy P ↔ ∀ p ∈ parts, p.NamedBy P := by
  rw [NamedBy, identifiers]
  induction parts with
  | nil => simp [Part.identifiersAll]
  | cons p rest ih =>
    rw [List.forall_mem_cons, ← ih]
    cases p with
    | text s => simp [Part.identifiersAll, Part.NamedBy]
    | field value conversion =>
      rw [Part.identifiersAll, List.forall_mem_append]
      rfl

end Expr

@[simp] theorem Keyword.namedBy_mk {name : Option String} {value : Expr} :
    (Keyword.mk name value).NamedBy P ↔ (∀ given ∈ name, P given) ∧ value.NamedBy P := Iff.rfl

@[simp] theorem Entry.namedBy_mk {key value : Expr} : (Entry.mk key value).NamedBy P ↔ key.NamedBy P ∧ value.NamedBy P :=
  Iff.rfl

@[simp] theorem Part.namedBy_text (s : String) : (Part.text s).NamedBy P := trivial

@[simp] theorem Part.namedBy_field {value : Expr} {conversion : Option Char} :
    (Part.field value conversion).NamedBy P ↔ value.NamedBy P := Iff.rfl

namespace Expr

variable {receiver value : Expr} {args : List Expr}

@[simp] theorem namedBy_none : none.NamedBy P := namedBy_constant _

@[simp] theorem namedBy_text (s : String) : (text s).NamedBy P := namedBy_constant _

@[simp] theorem namedBy_bool (b : Bool) : (bool b).NamedBy P := namedBy_constant _

theorem namedBy_chain {parts : List String} (some : parts ≠ []) :
    (chain parts).NamedBy P ↔ ∀ part ∈ parts, P part := by
  have attributes : ∀ (parts : List String) (start : Expr),
      (parts.foldl attr start).NamedBy P ↔ start.NamedBy P ∧ ∀ part ∈ parts, P part := by
    intro parts
    induction parts with
    | nil => simp
    | cons part rest ih =>
      intro start
      rw [List.foldl_cons, ih, namedBy_attr, List.forall_mem_cons, and_comm (a := P part), and_assoc]
  cases parts with
  | nil => exact absurd rfl some
  | cons first rest => rw [chain, attributes, namedBy_name, List.forall_mem_cons]

@[simp] theorem namedBy_path {dotted : String} : (path dotted).NamedBy P ↔ ∀ part ∈ Text.split '.' dotted, P part :=
  namedBy_chain (Text.split_ne_nil dotted)

@[simp] theorem namedBy_apply {function : String} :
    (apply function args).NamedBy P ↔ P function ∧ ∀ a ∈ args, a.NamedBy P := by
  simp [apply]

@[simp] theorem namedBy_method {member : String} :
    (method receiver member args).NamedBy P ↔ P member ∧ receiver.NamedBy P ∧ ∀ a ∈ args, a.NamedBy P := by
  simp [method, and_assoc]

@[simp] theorem namedBy_generic {head : String} :
    (generic head args).NamedBy P ↔ (path head).NamedBy P ∧ ∀ a ∈ args, a.NamedBy P := by
  rw [generic.eq_def]
  split <;> simp

@[simp] theorem namedBy_isNone : (isNone value).NamedBy P ↔ value.NamedBy P := by simp [isNone]

@[simp] theorem namedBy_isNotNone : (isNotNone value).NamedBy P ↔ value.NamedBy P := by simp [isNotNone]

end Expr

/-! ## Heads of functions -/

@[simp] theorem Param.namedBy_plain {name : String} : (plain name).NamedBy P ↔ P name := List.forall_mem_singleton

@[simp] theorem Param.namedBy_required {name : String} {hint : Expr} :
    (required name hint).NamedBy P ↔ P name ∧ hint.NamedBy P := by
  simp [NamedBy, identifiers, required, Expr.NamedBy]

@[simp] theorem Param.namedBy_optional {name : String} {hint : Expr} :
    (optional name hint).NamedBy P ↔ P name ∧ hint.NamedBy P := by
  simp [NamedBy, identifiers, optional, Expr.NamedBy, Expr.none, Expr.identifiers]

@[simp] theorem Signature.namedBy_mk {name : String} {decorators : List Expr} {params : List Param}
    {rest : Option Param} {returns : Option Expr} : (Signature.mk name decorators params rest returns).NamedBy P ↔
      P name ∧ (∀ e ∈ decorators, e.NamedBy P) ∧ (∀ e ∈ returns, e.NamedBy P) ∧
        (∀ p ∈ params, p.NamedBy P) ∧ ∀ p ∈ rest, p.NamedBy P := by
  rw [NamedBy, identifiers, List.forall_mem_cons, List.forall_mem_append, List.forall_mem_flatMap,
    List.forall_mem_flatMap, List.forall_mem_append, List.forall_mem_append, and_assoc]
  simp only [Option.mem_toList]
  rfl

/-! ## Statements -/

namespace Stmt

variable {value target test hint : Expr} {body : List Stmt}

theorem namedByAll_iff : (∀ name ∈ identifiersAll body, P name) ↔ ∀ s ∈ body, s.NamedBy P := by
  rw [identifiersAll_eq, List.forall_mem_flatMap]
  rfl

@[simp] theorem namedBy_expr : (expr value).NamedBy P ↔ value.NamedBy P := Iff.rfl

@[simp] theorem namedBy_assign : (assign target value).NamedBy P ↔ target.NamedBy P ∧ value.NamedBy P :=
  List.forall_mem_append

@[simp] theorem namedBy_annotated {name : String} {value : Option Expr} :
    (annotated name hint value).NamedBy P ↔ P name ∧ hint.NamedBy P ∧ ∀ v ∈ value, v.NamedBy P := by
  rw [NamedBy, identifiers, List.forall_mem_cons, List.forall_mem_flatMap, List.forall_mem_cons]
  simp only [Option.mem_toList]
  rfl

@[simp] theorem namedBy_increase {name : String} : (increase name value).NamedBy P ↔ P name ∧ value.NamedBy P :=
  List.forall_mem_cons

@[simp] theorem namedBy_result : (result value).NamedBy P ↔ value.NamedBy P := Iff.rfl

@[simp] theorem namedBy_raise : (raise value).NamedBy P ↔ value.NamedBy P := Iff.rfl

@[simp] theorem namedBy_pass : pass.NamedBy P := fun _ member => nomatch member

@[simp] theorem namedBy_global {id : String} : (Stmt.global id).NamedBy P ↔ P id := List.forall_mem_singleton

@[simp] theorem namedBy_importModule {module : String} :
    (importModule module).NamedBy P ↔ ∀ part ∈ Text.split '.' module, P part := Iff.rfl

@[simp] theorem namedBy_importFrom (module : String) {names : List String} :
    (importFrom module names).NamedBy P ↔ ∀ name ∈ names, P name := Iff.rfl

/-- A block has the identifiers of its head and those of its body. -/
theorem namedBy_block {head : List String} :
    (∀ name ∈ head ++ identifiersAll body, P name) ↔ (∀ name ∈ head, P name) ∧ ∀ s ∈ body, s.NamedBy P := by
  rw [List.forall_mem_append, namedByAll_iff]

@[simp] theorem namedBy_ifThen : (ifThen test body).NamedBy P ↔ test.NamedBy P ∧ ∀ s ∈ body, s.NamedBy P :=
  namedBy_block

@[simp] theorem namedBy_forIn {name : String} :
    (forIn name test body).NamedBy P ↔ P name ∧ test.NamedBy P ∧ ∀ s ∈ body, s.NamedBy P :=
  List.forall_mem_cons.trans (and_congr_right' namedBy_block)

@[simp] theorem namedBy_loop : (loop test body).NamedBy P ↔ test.NamedBy P ∧ ∀ s ∈ body, s.NamedBy P := namedBy_block

@[simp] theorem namedBy_withBlock : (withBlock test body).NamedBy P ↔ test.NamedBy P ∧ ∀ s ∈ body, s.NamedBy P :=
  namedBy_block

@[simp] theorem namedBy_function {signature : Signature} {doc : Option String} :
    (function signature doc body).NamedBy P ↔ signature.NamedBy P ∧ ∀ s ∈ body, s.NamedBy P :=
  namedBy_block

@[simp] theorem namedBy_classDef {name : String} {decorators bases : List Expr} {doc : Option String} :
    (classDef name decorators bases doc body).NamedBy P ↔
      P name ∧ (∀ e ∈ decorators ++ bases, e.NamedBy P) ∧ ∀ s ∈ body, s.NamedBy P := by
  refine List.forall_mem_cons.trans (and_congr_right' ?_)
  rw [namedBy_block, List.forall_mem_flatMap]
  rfl

@[simp] theorem namedBy_bind {name : String} : (bind name value).NamedBy P ↔ P name ∧ value.NamedBy P := by
  simp [bind]

@[simp] theorem namedBy_put (key : String) : (put target key value).NamedBy P ↔ target.NamedBy P ∧ value.NamedBy P := by
  simp [put]

end Stmt

theorem Module.namedBy_iff {m : Module} : m.NamedBy P ↔ ∀ s ∈ m.body, s.NamedBy P := Stmt.namedByAll_iff

end Tablewright.Source
