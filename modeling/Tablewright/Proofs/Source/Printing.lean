import Tablewright.Proofs.Source.Scoping
import Tablewright.Source.Printer

/-!
# Trees that can be written

Two things can be wrong with a syntax tree that are only found when it is made or printed: a field of a formatted text
that would need a backslash, and a parameter without default after one with a default.

* `Expr.Writable`, `Stmt.Writable`, `Module.Writable`: trees without such faults, construct by construct.
* `Module.Writable.print_ok`: they have a text.
* `misplaced?_append`: parameters that have to be given before those that may be left out.
-/

namespace Tablewright.Source

/-! ## Parameters -/

@[simp] theorem Param.default_plain (name : String) : (plain name).default = none := rfl

@[simp] theorem Param.default_required (name : String) (hint : Expr) : (required name hint).default = none := rfl

@[simp] theorem Param.default_optional (name : String) (hint : Expr) :
    (optional name hint).default = some Expr.none := rfl

theorem misplaced?_append {required optional : List Param} (given : ∀ p ∈ required, p.default = none)
    (left : ∀ p ∈ optional, p.default.isSome) : misplaced? (required ++ optional) = none := by
  have leading : required.dropWhile (·.default.isNone) = [] :=
    List.dropWhile_eq_nil_iff.mpr fun p member => by rw [given p member]; rfl
  rw [misplaced?, List.dropWhile_append, leading]
  simp only [List.isEmpty_nil, if_true, Option.map_eq_none_iff, List.find?_eq_none]
  intro p member
  have some := left p ((List.dropWhile_sublist _).subset member)
  simpa using Option.isSome_iff_ne_none.mp some

/-- Parameters that all have to be given. -/
theorem misplaced?_required {params : List Param} (given : ∀ p ∈ params, p.default = none) :
    misplaced? params = none := by
  rw [← List.append_nil params]
  exact misplaced?_append given fun _ member => nomatch member

mutual

/-- The heads of the functions in a statement. -/
def Stmt.signatures : Stmt → List Signature
  | .ifThen _ body => signaturesAll body
  | .forIn _ _ body => signaturesAll body
  | .loop _ body => signaturesAll body
  | .withBlock _ body => signaturesAll body
  | .function signature _ body => signature :: signaturesAll body
  | .classDef _ _ _ _ body => signaturesAll body
  | _ => []

def signaturesAll : List Stmt → List Signature
  | [] => []
  | s :: rest => s.signatures ++ signaturesAll rest

end

def Module.signatures (m : Module) : List Signature := signaturesAll m.body

theorem signaturesAll_eq (body : List Stmt) : signaturesAll body = body.flatMap Stmt.signatures := by
  induction body with
  | nil => rfl
  | cons s rest ih => rw [signaturesAll, ih, List.flatMap_cons]

/-! ## Collected expressions -/

theorem Stmt.exprsAll_eq (body : List Stmt) : Stmt.exprsAll body = body.flatMap Stmt.exprs := by
  induction body with
  | nil => rfl
  | cons s rest ih => rw [Stmt.exprsAll, ih, List.flatMap_cons]

theorem Expr.formatFieldsAll_eq (items : List Expr) : Expr.formatFieldsAll items = items.flatMap Expr.formatFields := by
  induction items with
  | nil => rfl
  | cons e rest ih => rw [Expr.formatFieldsAll, ih, List.flatMap_cons]

theorem Keyword.formatFieldsAll_eq (keywords : List Keyword) :
    Keyword.formatFieldsAll keywords = keywords.flatMap fun k => k.value.formatFields := by
  induction keywords with
  | nil => rfl
  | cons k rest ih =>
    obtain ⟨name, value⟩ := k
    rw [Keyword.formatFieldsAll, ih, List.flatMap_cons, Keyword.value]

theorem Entry.formatFieldsAll_eq (entries : List Entry) :
    Entry.formatFieldsAll entries = entries.flatMap fun e => e.key.formatFields ++ e.value.formatFields := by
  induction entries with
  | nil => rfl
  | cons e rest ih =>
    obtain ⟨key, value⟩ := e
    rw [Entry.formatFieldsAll, ih, List.flatMap_cons, Entry.key, Entry.value]

/-! ## Expressions -/

/-- The formatted texts of an expression hold only fields that are written without a backslash. -/
def Expr.Writable (e : Expr) : Prop := ∀ field ∈ e.formatFields, '\\' ∉ (field.print .or).toList

/-- A part of a formatted text that can be written. -/
def Part.Writable : Part → Prop
  | .text _ => True
  | .field value _ => '\\' ∉ (value.print .or).toList ∧ value.Writable

namespace Expr

variable {value index callee left right source element body test orelse operand key : Expr}

@[simp] theorem writable_name (id : String) : (name id).Writable := fun _ member => nomatch member

@[simp] theorem writable_constant (v : Value) : (constant v).Writable := fun _ member => nomatch member

@[simp] theorem writable_attr (member : String) : (attr value member).Writable ↔ value.Writable := Iff.rfl

@[simp] theorem writable_subscript : (subscript value index).Writable ↔ value.Writable ∧ index.Writable :=
  List.forall_mem_append

/-- Expressions that are collected one by one can be written one by one. -/
theorem writableAll_iff {items : List Expr} : (∀ a ∈ items, a.Writable) ↔
    ∀ field ∈ formatFieldsAll items, '\\' ∉ (field.print .or).toList := by
  rw [formatFieldsAll_eq, List.forall_mem_flatMap]
  rfl

@[simp] theorem writable_call {args : List Expr} {keywords : List Keyword} : (call callee args keywords).Writable ↔
    callee.Writable ∧ (∀ a ∈ args, a.Writable) ∧ ∀ k ∈ keywords, k.value.Writable := by
  have named : (∀ k ∈ keywords, k.value.Writable) ↔
      ∀ field ∈ Keyword.formatFieldsAll keywords, '\\' ∉ (field.print .or).toList := by
    rw [Keyword.formatFieldsAll_eq, List.forall_mem_flatMap]
    rfl
  rw [writableAll_iff, named, ← and_assoc]
  exact List.forall_mem_append.trans (and_congr_left' List.forall_mem_append)

@[simp] theorem writable_tuple {items : List Expr} : (tuple items).Writable ↔ ∀ a ∈ items, a.Writable :=
  writableAll_iff.symm

@[simp] theorem writable_list {items : List Expr} : (list items).Writable ↔ ∀ a ∈ items, a.Writable :=
  writableAll_iff.symm

@[simp] theorem writable_dict {entries : List Entry} :
    (dict entries).Writable ↔ ∀ e ∈ entries, e.key.Writable ∧ e.value.Writable := by
  have collected : (dict entries).Writable ↔
      ∀ field ∈ Entry.formatFieldsAll entries, '\\' ∉ (field.print .or).toList := Iff.rfl
  rw [collected, Entry.formatFieldsAll_eq, List.forall_mem_flatMap]
  exact forall₂_congr fun e _ => List.forall_mem_append

@[simp] theorem writable_comprehension (shape : Shape) (target : String) :
    (comprehension shape element target source).Writable ↔ element.Writable ∧ source.Writable :=
  List.forall_mem_append

@[simp] theorem writable_compare (op : Comparison) :
    (compare left op right).Writable ↔ left.Writable ∧ right.Writable :=
  List.forall_mem_append

@[simp] theorem writable_not : (Expr.not operand).Writable ↔ operand.Writable := Iff.rfl

@[simp] theorem writable_or : (Expr.or left right).Writable ↔ left.Writable ∧ right.Writable :=
  List.forall_mem_append

@[simp] theorem writable_conditional :
    (conditional body test orelse).Writable ↔ body.Writable ∧ test.Writable ∧ orelse.Writable := by
  rw [← and_assoc]
  exact List.forall_mem_append.trans (and_congr_left' List.forall_mem_append)

@[simp] theorem writable_formatted {parts : List Part} : (formatted parts).Writable ↔ ∀ p ∈ parts, p.Writable := by
  rw [Writable, formatFields]
  induction parts with
  | nil => simp [Part.formatFieldsAll]
  | cons p rest ih =>
    rw [List.forall_mem_cons, ← ih]
    cases p with
    | text s => simp [Part.formatFieldsAll, Part.Writable]
    | field value conversion =>
      rw [Part.formatFieldsAll, List.forall_mem_cons, List.forall_mem_append, ← and_assoc]
      rfl

end Expr

namespace Expr

variable {receiver value : Expr} {args : List Expr}

@[simp] theorem writable_none : none.Writable := writable_constant _

@[simp] theorem writable_text (s : String) : (text s).Writable := writable_constant _

@[simp] theorem writable_bool (b : Bool) : (bool b).Writable := writable_constant _

@[simp] theorem writable_path (dotted : String) : (path dotted).Writable := by
  have attributes : ∀ (parts : List String) (start : Expr), start.Writable → (parts.foldl attr start).Writable := by
    intro parts
    induction parts with
    | nil => exact fun _ writable => writable
    | cons part rest ih => exact fun start writable => ih _ ((writable_attr part).mpr writable)
  rw [path, chain.eq_def]
  split
  · exact writable_name _
  · exact attributes _ _ (writable_name _)

@[simp] theorem writable_apply (function : String) : (apply function args).Writable ↔ ∀ a ∈ args, a.Writable := by
  simp [apply]

@[simp] theorem writable_method (member : String) :
    (method receiver member args).Writable ↔ receiver.Writable ∧ ∀ a ∈ args, a.Writable := by
  simp [method]

@[simp] theorem writable_generic (head : String) : (generic head args).Writable ↔ ∀ a ∈ args, a.Writable := by
  rw [generic.eq_def]
  split <;> simp

@[simp] theorem writable_isNone : (isNone value).Writable ↔ value.Writable := by simp [isNone]

@[simp] theorem writable_isNotNone : (isNotNone value).Writable ↔ value.Writable := by simp [isNotNone]

end Expr

/-! ## Heads of functions -/

/-- The hint and the default of a parameter can be written. -/
structure Param.Writable (p : Param) : Prop where
  hint : ∀ e ∈ p.hint, e.Writable
  default : ∀ e ∈ p.default, e.Writable

@[simp] theorem Param.writable_plain (name : String) : (plain name).Writable := by
  constructor <;> exact fun _ member => nomatch member

@[simp] theorem Param.writable_required (name : String) {hint : Expr} :
    (required name hint).Writable ↔ hint.Writable :=
  ⟨fun writable => writable.hint hint rfl, fun writable =>
    ⟨fun _ same => Option.some.inj same ▸ writable, fun _ member => nomatch member⟩⟩

@[simp] theorem Param.writable_optional (name : String) {hint : Expr} :
    (optional name hint).Writable ↔ hint.Writable :=
  ⟨fun writable => writable.hint hint rfl, fun writable =>
    ⟨fun _ same => Option.some.inj same ▸ writable, fun _ same => Option.some.inj same ▸ Expr.writable_none⟩⟩

/-- The head of a function that can be written, with its parameters in order. -/
structure Signature.Writable (s : Signature) : Prop where
  exprs : ∀ e ∈ s.exprs, e.Writable
  params : misplaced? s.params = none

theorem Signature.writable_mk {name : String} {decorators : List Expr} {params : List Param} {rest : Option Param}
    {returns : Option Expr} : (Signature.mk name decorators params rest returns).Writable ↔
      (∀ e ∈ decorators, e.Writable) ∧ (∀ p ∈ params ++ rest.toList, p.Writable) ∧ (∀ e ∈ returns, e.Writable) ∧
        misplaced? params = none := by
  have hinted : ∀ ps : List Param, (∀ e ∈ ps.flatMap fun p => p.hint.toList ++ p.default.toList, e.Writable) ↔
      ∀ p ∈ ps, p.Writable := by
    intro ps
    rw [List.forall_mem_flatMap]
    refine forall₂_congr fun p _ => ?_
    rw [List.forall_mem_append]
    simp only [Option.mem_toList]
    exact ⟨fun ⟨hint, default⟩ => ⟨hint, default⟩, fun ⟨hint, default⟩ => ⟨hint, default⟩⟩
  have parts : (Signature.mk name decorators params rest returns).Writable ↔
      (∀ e ∈ (Signature.mk name decorators params rest returns).exprs, e.Writable) ∧ misplaced? params = none :=
    ⟨fun ⟨exprs, params⟩ => ⟨exprs, params⟩, fun ⟨exprs, params⟩ => ⟨exprs, params⟩⟩
  rw [parts, Signature.exprs, List.forall_mem_append, List.forall_mem_append, hinted]
  simp only [Option.mem_toList, and_assoc]
  rfl

/-! ## Statements -/

/-- The expressions of a statement can be written, and its functions have their parameters in order. -/
structure Stmt.Writable (s : Stmt) : Prop where
  exprs : ∀ e ∈ s.exprs, e.Writable
  signatures : ∀ signature ∈ s.signatures, misplaced? signature.params = none

theorem Stmt.writable_iff {s : Stmt} :
    s.Writable ↔ (∀ e ∈ s.exprs, e.Writable) ∧ ∀ signature ∈ s.signatures, misplaced? signature.params = none :=
  ⟨fun ⟨exprs, signatures⟩ => ⟨exprs, signatures⟩, fun ⟨exprs, signatures⟩ => ⟨exprs, signatures⟩⟩

namespace Stmt

variable {s : Stmt} {value target test hint : Expr} {body : List Stmt}

/-- Statements can be written one by one. -/
theorem writableAll_iff : (∀ s ∈ body, s.Writable) ↔
    (∀ e ∈ exprsAll body, e.Writable) ∧ ∀ signature ∈ signaturesAll body, misplaced? signature.params = none := by
  simp only [writable_iff, exprsAll_eq, signaturesAll_eq, List.forall_mem_flatMap, forall_and]

/-- A statement without functions can be written if its expressions can. -/
theorem writable_of_exprs (items : List Expr) (parts : s.exprs = items) (noFunction : s.signatures = []) :
    s.Writable ↔ ∀ e ∈ items, e.Writable := by
  rw [writable_iff, parts, noFunction]
  exact and_iff_left fun _ member => nomatch member

theorem writable_of_nothing (noExpr : s.exprs = []) (noFunction : s.signatures = []) : s.Writable :=
  (writable_of_exprs [] noExpr noFunction).mpr fun _ member => nomatch member

/-- A block can be written if its head and its body can. -/
theorem writable_of_block (items : List Expr) (parts : s.exprs = items ++ exprsAll body)
    (functions : s.signatures = signaturesAll body) :
    s.Writable ↔ (∀ e ∈ items, e.Writable) ∧ ∀ s ∈ body, s.Writable := by
  rw [writable_iff, parts, functions, List.forall_mem_append, writableAll_iff, and_assoc]

@[simp] theorem writable_expr : (expr value).Writable ↔ value.Writable :=
  (writable_of_exprs [value] rfl rfl).trans List.forall_mem_singleton

@[simp] theorem writable_assign : (assign target value).Writable ↔ target.Writable ∧ value.Writable := by
  rw [writable_of_exprs [target, value] rfl rfl, List.forall_mem_cons, List.forall_mem_singleton]

@[simp] theorem writable_annotated {name : String} {value : Option Expr} :
    (annotated name hint value).Writable ↔ hint.Writable ∧ ∀ v ∈ value, v.Writable := by
  rw [writable_of_exprs (hint :: value.toList) rfl rfl, List.forall_mem_cons]
  simp

@[simp] theorem writable_increase {name : String} : (increase name value).Writable ↔ value.Writable :=
  (writable_of_exprs [value] rfl rfl).trans List.forall_mem_singleton

@[simp] theorem writable_result : (result value).Writable ↔ value.Writable :=
  (writable_of_exprs [value] rfl rfl).trans List.forall_mem_singleton

@[simp] theorem writable_raise : (raise value).Writable ↔ value.Writable :=
  (writable_of_exprs [value] rfl rfl).trans List.forall_mem_singleton

@[simp] theorem writable_pass : pass.Writable := writable_of_nothing rfl rfl

@[simp] theorem writable_global (id : String) : (Stmt.global id).Writable :=
  writable_of_nothing rfl rfl

@[simp] theorem writable_importModule (name : String) : (importModule name).Writable :=
  writable_of_nothing rfl rfl

@[simp] theorem writable_importFrom (name : String) (names : List String) : (importFrom name names).Writable :=
  writable_of_nothing rfl rfl

@[simp] theorem writable_ifThen : (ifThen test body).Writable ↔ test.Writable ∧ ∀ s ∈ body, s.Writable := by
  rw [writable_of_block [test] rfl rfl, List.forall_mem_singleton]

@[simp] theorem writable_forIn {name : String} :
    (forIn name test body).Writable ↔ test.Writable ∧ ∀ s ∈ body, s.Writable := by
  rw [writable_of_block [test] rfl rfl, List.forall_mem_singleton]

@[simp] theorem writable_loop : (loop test body).Writable ↔ test.Writable ∧ ∀ s ∈ body, s.Writable := by
  rw [writable_of_block [test] rfl rfl, List.forall_mem_singleton]

@[simp] theorem writable_withBlock : (withBlock test body).Writable ↔ test.Writable ∧ ∀ s ∈ body, s.Writable := by
  rw [writable_of_block [test] rfl rfl, List.forall_mem_singleton]

@[simp] theorem writable_function {signature : Signature} {doc : Option String} :
    (function signature doc body).Writable ↔ signature.Writable ∧ ∀ s ∈ body, s.Writable := by
  have parts : (function signature doc body).Writable ↔ (∀ e ∈ signature.exprs ++ exprsAll body, e.Writable) ∧
      ∀ head ∈ signature :: signaturesAll body, misplaced? head.params = none := writable_iff
  rw [parts, writableAll_iff, List.forall_mem_append, List.forall_mem_cons]
  exact ⟨fun ⟨⟨head, below⟩, params, inner⟩ => ⟨⟨head, params⟩, below, inner⟩,
    fun ⟨⟨head, params⟩, below, inner⟩ => ⟨⟨head, below⟩, params, inner⟩⟩

@[simp] theorem writable_classDef {name : String} {decorators bases : List Expr} {doc : Option String} :
    (classDef name decorators bases doc body).Writable ↔
      (∀ e ∈ decorators ++ bases, e.Writable) ∧ ∀ s ∈ body, s.Writable :=
  writable_of_block (decorators ++ bases) rfl rfl

@[simp] theorem writable_bind (name : String) : (bind name value).Writable ↔ value.Writable := by simp [bind]

@[simp] theorem writable_put (key : String) : (put target key value).Writable ↔ target.Writable ∧ value.Writable := by
  simp [put]

end Stmt

/-! ## Modules -/

def Module.Writable (m : Module) : Prop := ∀ s ∈ m.body, s.Writable

theorem Module.Writable.print_ok {m : Module} (writable : m.Writable) : ∃ text, m.print = .ok text := by
  have fields : printable (Stmt.exprsAll m.body) = true := by
    rw [printable, List.all_eq_true, Expr.formatFieldsAll_eq]
    intro field member
    obtain ⟨e, listed, inside⟩ := List.mem_flatMap.mp member
    simpa using (Stmt.writableAll_iff.mp writable).1 e listed field inside
  rw [Module.print, guardFields, if_pos fields]
  exact ⟨_, rfl⟩

theorem Module.Writable.params {m : Module} (writable : m.Writable) {signature : Signature}
    (member : signature ∈ m.signatures) : misplaced? signature.params = none :=
  (Stmt.writableAll_iff.mp writable).2 signature member

end Tablewright.Source
