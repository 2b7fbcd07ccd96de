import Tablewright.Proofs.Source.Scoping

/-!
# Calls of methods

Where generated source calls a method, on what, and with which arguments.

* `Expr.sends`, `Stmt.sends`: the calls of a method of some name, in the order in which they stand.
* `Stmt.sendsAll_append`, `Stmt.sendsAll_eq_nil`: the calls in the parts of a body.
-/

namespace Tablewright.Source

/-- What a method of some name is taken from, where an expression names one. -/
@[simp] def Expr.receiver? (member : String) : Expr → Option Expr
  | .attr value called => if called = member then some value else Option.none
  | _ => Option.none

mutual

/-- The calls of a method in an expression: on what each is called, and with which arguments. -/
@[simp] def Expr.sends (member : String) : Expr → List (Expr × List Expr)
  | .name _ | .constant _ => []
  | .attr value _ => value.sends member
  | .subscript value index => value.sends member ++ index.sends member
  | .call callee args keywords =>
    (callee.receiver? member).toList.map (·, args)
      ++ (callee.sends member ++ (Expr.sendsAll member args ++ Keyword.sendsAll member keywords))
  | .tuple items => Expr.sendsAll member items
  | .list items => Expr.sendsAll member items
  | .dict entries => Entry.sendsAll member entries
  | .comprehension _ element _ source => element.sends member ++ source.sends member
  | .compare left _ right => left.sends member ++ right.sends member
  | .not operand => operand.sends member
  | .or left right => left.sends member ++ right.sends member
  | .conditional body test orelse => body.sends member ++ (test.sends member ++ orelse.sends member)
  | .formatted parts => Part.sendsAll member parts

@[simp] def Expr.sendsAll (member : String) : List Expr → List (Expr × List Expr)
  | [] => []
  | e :: rest => e.sends member ++ Expr.sendsAll member rest

@[simp] def Keyword.sendsAll (member : String) : List Keyword → List (Expr × List Expr)
  | [] => []
  | .mk _ value :: rest => value.sends member ++ Keyword.sendsAll member rest

@[simp] def Entry.sendsAll (member : String) : List Entry → List (Expr × List Expr)
  | [] => []
  | .mk key value :: rest => key.sends member ++ value.sends member ++ Entry.sendsAll member rest

@[simp] def Part.sendsAll (member : String) : List Part → List (Expr × List Expr)
  | [] => []
  | .text _ :: rest => Part.sendsAll member rest
  | .field value _ :: rest => value.sends member ++ Part.sendsAll member rest

end

/-- The calls of a method in the hint and the default of a parameter. -/
@[simp] def Param.sends (member : String) (p : Param) : List (Expr × List Expr) :=
  Expr.sendsAll member (p.hint.toList ++ p.default.toList)

/-- The calls of a method in the head of a function. -/
@[simp] def Signature.sends (member : String) (s : Signature) : List (Expr × List Expr) :=
  Expr.sendsAll member (s.decorators ++ s.returns.toList) ++ (s.params ++ s.rest.toList).flatMap (Param.sends member)

mutual

/-- The calls of a method in a statement and in the statements in it. -/
@[simp] def Stmt.sends (member : String) : Stmt → List (Expr × List Expr)
  | .expr value => value.sends member
  | .assign target value => target.sends member ++ value.sends member
  | .annotated _ hint value => Expr.sendsAll member (hint :: value.toList)
  | .increase _ value => value.sends member
  | .result value => value.sends member
  | .raise exception => exception.sends member
  | .pass | .global _ | .importModule _ | .importFrom _ _ => []
  | .ifThen test body => test.sends member ++ Stmt.sendsAll member body
  | .forIn _ source body => source.sends member ++ Stmt.sendsAll member body
  | .loop test body => test.sends member ++ Stmt.sendsAll member body
  | .withBlock context body => context.sends member ++ Stmt.sendsAll member body
  | .function signature _ body => signature.sends member ++ Stmt.sendsAll member body
  | .classDef _ decorators bases _ body =>
    Expr.sendsAll member (decorators ++ bases) ++ Stmt.sendsAll member body

@[simp] def Stmt.sendsAll (member : String) : List Stmt → List (Expr × List Expr)
  | [] => []
  | s :: rest => s.sends member ++ Stmt.sendsAll member rest

end

variable {member : String}

theorem Stmt.sendsAll_eq (body : List Stmt) : Stmt.sendsAll member body = body.flatMap (Stmt.sends member) := by
  induction body with
  | nil => rfl
  | cons s rest ih => rw [Stmt.sendsAll, ih, List.flatMap_cons]

theorem Stmt.sendsAll_append (first second : List Stmt) :
    Stmt.sendsAll member (first ++ second) = Stmt.sendsAll member first ++ Stmt.sendsAll member second := by
  simp only [Stmt.sendsAll_eq, List.flatMap_append]

theorem Stmt.sendsAll_eq_nil {body : List Stmt} (none : ∀ s ∈ body, s.sends member = []) :
    Stmt.sendsAll member body = [] := by
  rw [Stmt.sendsAll_eq, List.flatMap_eq_nil_iff]
  exact none

end Tablewright.Source
