import Tablewright.Proofs.Source.Instances

/-!
# Dialogues with a table

The table behind a repository is not part of the program, and what it answers may change from one request to the next.
So a method that asks it is followed along a list of answers.

* `Request`, `Dialogue`: what is asked, and what is left of the answers in the end.
* `converse`: statements, where each question takes the next answer; all others do what `run` says.
* `converse_append`: statements that ask nothing do what `runAll` says.
* `ask`: the call of a method.
-/

namespace Tablewright.Source

variable {L : Library}

/-! ## Questions -/

/-- A request: what is asked, the method, and the arguments by name. -/
structure Request (L : Library) where
  receiver : Datum L
  method : String
  named : List (String × Datum L)

/-- What running comes to: how it ends, the requests on the way in order, and the answers that are left. -/
structure Dialogue (L : Library) (α : Type) where
  result : α
  asked : List (Request L)
  left : List (Datum L)

/-- A statement that asks a table: the name for the answer, and the request. -/
structure Question where
  target : String
  receiver : Expr
  method : String
  keywords : List Keyword

/-- The question that a statement asks the table of an instance. -/
def Stmt.question? : Stmt → Option Question
  | .assign (.name target) (.call (.attr (.attr (.name owner) "_table") method) [] keywords) =>
    some ⟨target, .attr (.name owner) "_table", method, keywords⟩
  | _ => none

mutual

/-- Whether a statement asks nothing and repeats nothing that might ask. -/
def Stmt.isQuiet : Stmt → Bool
  | .ifThen _ body => Stmt.allQuiet body
  | .loop _ _ => false
  | s => s.question?.isNone

def Stmt.allQuiet : List Stmt → Bool
  | [] => true
  | s :: rest => s.isQuiet && Stmt.allQuiet rest

end

/-! ## Running along answers -/

/-- Statements along the answers to what they ask. -/
def Program.converse (p : Program) (σ : Frame L) (body : List Stmt) (answers : List (Datum L)) :
    Outcome L (Dialogue L (Flow L)) :=
  match body with
  | [] => pure ⟨.next σ, [], answers⟩
  | .ifThen test inner :: rest => do
    let test ← eval p σ test
    p |>.converse σ (if test.truth then inner ++ rest else rest) answers
  | .loop test inner :: rest => do
    let again ← eval p σ test
    p |>.converse σ (if again.truth then inner ++ .loop test inner :: rest else rest) answers
  | s :: rest =>
    match s.question? with
    | some q => do
      let receiver ← eval p σ q.receiver
      let named ← evalNamed p σ q.keywords
      -- a question takes the next answer; without one the dialogue does not go on
      match answers with
      | [] => .stuck
      | answer :: left => do
        let d ← p |>.converse (σ.put q.target answer) rest left
        pure { d with asked := ⟨receiver, q.method, named⟩ :: d.asked }
    | none => do
      match ← run p σ s with
      | .next σ => p |>.converse σ rest answers
      | .result value => pure ⟨.result value, [], answers⟩
partial_fixpoint

export Program (converse)

def Program.methodOf? (p : Program) (receiver : Datum L) (name : String) : Option (List Stmt × Function) :=
  match receiver with
  | .object path _ => do
    let c ← p.class? path
    match c.member? name with
    | some (.method f) => some (c.home, f)
    | _ => none
  | _ => none

/-- The call of a method with arguments by name, along the answers to what it asks. -/
def Program.ask (p : Program) (receiver : Datum L) (name : String) (named : List (String × Datum L))
    (answers : List (Datum L)) : Outcome L (Dialogue L (Datum L)) := do
  let (home, f) ← .given (p.methodOf? receiver name)
  let σ ← enter p home f.signature [receiver] named
  let d ← converse p σ f.body answers
  pure ⟨d.result.returned, d.asked, d.left⟩

export Program (ask)

variable {p : Program} {σ : Frame L} {answers : List (Datum L)}

theorem converse_nil : converse p σ [] answers = pure ⟨.next σ, [], answers⟩ := by
  rw [converse]

theorem converse_ifThen (test : Expr) (body rest : List Stmt) : converse p σ (.ifThen test body :: rest) answers = (do
    let test ← eval p σ test
    converse p σ (if test.truth then body ++ rest else rest) answers) := by
  rw [converse]

theorem converse_loop {test : Expr} {d : Datum L} (again : eval p σ test = pure d) (holds : d.truth) (body rest : List Stmt) :
    converse p σ (.loop test body :: rest) answers = converse p σ (body ++ .loop test body :: rest) answers := by
  rw [converse, again, pure_bind, if_pos holds]

theorem converse_question {s : Stmt} {q : Question} (asks : s.question? = some q) {receiver : Datum L}
    (receives : eval p σ q.receiver = pure receiver) {named : List (String × Datum L)}
    (arguments : evalNamed p σ q.keywords = pure named) (rest : List Stmt) (answer : Datum L) :
    converse p σ (s :: rest) (answer :: answers) = (do
      let d ← converse p (σ.put q.target answer) rest answers
      pure { d with asked := ⟨receiver, q.method, named⟩ :: d.asked }) := by
  cases s with
  | assign target value =>
    rw [converse, asks]
    simp only [receives, arguments, pure_bind]
    all_goals exact nofun
  | _ => cases asks

def Flow.resume (p : Program) (rest : List Stmt) (answers : List (Datum L)) : Flow L → Outcome L (Dialogue L (Flow L))
  | .next σ => converse p σ rest answers
  | .result value => pure ⟨.result value, [], answers⟩

/-- A statement that is neither compound nor a question does what it does without answers. -/
theorem converse_simple {s : Stmt} (quiet : s.isQuiet) (simple : ∀ test body, s ≠ .ifThen test body) (rest : List Stmt) :
    converse p σ (s :: rest) answers = (do
      let flow ← run p σ s
      flow.resume p rest answers) := by
  have noLoop : ∀ test body, s ≠ .loop test body := by
    rintro test body rfl
    cases quiet
  have noQuestion : s.question? = none := by
    cases s with
    | ifThen test body => exact absurd rfl (simple test body)
    | loop test body => exact absurd rfl (noLoop test body)
    | _ => simpa [Stmt.isQuiet] using quiet
  rw [converse, noQuestion]
  · refine bind_congr fun flow => ?_
    cases flow <;> rfl
  · exact simple
  · exact noLoop

/-- Statements that ask nothing leave the answers to those after them. -/
theorem converse_append (rest : List Stmt) {body : List Stmt} {σ : Frame L} (quiet : Stmt.allQuiet body) :
    converse p σ (body ++ rest) answers = (do
      let flow ← runAll p σ body
      flow.resume p rest answers) := by
  match body, quiet with
  | [], _ =>
    rw [runAll_nil, pure_bind]
    rfl
  | s :: others, quiet =>
    rw [Stmt.allQuiet, Bool.and_eq_true] at quiet
    obtain ⟨quiet, quietOthers⟩ := quiet
    have after (flow : Flow L) : flow.resume p (others ++ rest) answers = ((match flow with
        | .next σ => runAll p σ others
        | .result value => pure (.result value)) >>= fun flow => flow.resume p rest answers) := by
      cases flow with
      | next σ => exact converse_append rest quietOthers
      | result value => rfl
    -- a branch is opened, since the statements behind it go on inside of both ends
    by_cases simple : ∀ test inner, s ≠ .ifThen test inner
    · rw [List.cons_append, converse_simple quiet simple, runAll_cons, bind_assoc]
      exact bind_congr after
    · simp only [not_forall, not_not] at simple
      obtain ⟨test, inner, rfl⟩ := simple
      rw [List.cons_append, converse_ifThen, runAll_cons, run_ifThen, bind_assoc, bind_assoc]
      refine bind_congr fun d => ?_
      cases d.truth with
      | true =>
        rw [if_pos rfl, if_pos rfl, converse_append (others ++ rest) quiet]
        exact bind_congr after
      | false =>
        rw [if_neg Bool.false_ne_true, if_neg Bool.false_ne_true, pure_bind]
        exact converse_append rest quietOthers
termination_by sizeOf body

end Tablewright.Source
