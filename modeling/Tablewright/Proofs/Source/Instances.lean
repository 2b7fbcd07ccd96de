import Tablewright.Proofs.Lists
import Tablewright.Proofs.Source.Running

/-!
# Instances and loops

What generated classes do with their instances, whatever schema they come from.

* `get_foldl`, `runAll_foldl`: what is built up one key at a time, and bodies that do so.
* `ClassDef.member?_one`, `ClassDef.member?_two`: members, from the statements that bind them.
* `send_classMethod`, `send_instance`, `getAttribute_property`, `setAttribute_property`: methods and properties.
* `update_alone`, `invoke_result`: methods that only change their receiver, or only give a result.
-/

namespace Tablewright.Source

variable {L : Library}

/-! ## Keys one after the other -/

/-- What is found under the keys of a list, after each of them has got its new value, if there is one. -/
theorem get_foldl {α S D : Type} {get : S → String → Option D} {put : S → String → D → S}
    (get_put : ∀ s key value other, get (put s key value) other = if other = key then some value else get s other)
    (key : α → String) (value : α → Option D) {items : List α} (distinct : (items.map key).Nodup) (s : S) :
    (∀ a ∈ items, get (items.foldl (fun s a => (value a).elim s (put s (key a))) s) (key a) =
      (value a).or (get s (key a))) ∧
    ∀ other, other ∉ items.map key →
      get (items.foldl (fun s a => (value a).elim s (put s (key a))) s) other = get s other := by
  induction items generalizing s with
  | nil => simp
  | cons a rest ih =>
    obtain ⟨fresh, distinct⟩ := List.nodup_cons.mp distinct
    obtain ⟨found, kept⟩ := ih distinct ((value a).elim s (put s (key a)))
    have step : ∀ other, other ≠ key a → get ((value a).elim s (put s (key a))) other = get s other := by
      intro other different
      cases value a with
      | none => rfl
      | some v => rw [Option.elim_some, get_put, if_neg different]
    rw [List.foldl_cons]
    refine ⟨fun b member => ?_, fun other absent => ?_⟩
    · rcases List.mem_cons.mp member with rfl | member
      · rw [kept _ fresh]
        cases value b with
        | none => rfl
        | some v => rw [Option.elim_some, get_put, if_pos rfl, Option.some_or]
      · rw [found b member, step]
        intro same
        exact fresh (same ▸ List.mem_map_of_mem member)
    · rw [List.map_cons, List.mem_cons, not_or] at absent
      rw [kept other absent.2, step other absent.1]

namespace Datum

/-- A text and another key are the same if the other one is this text. -/
theorem same_text (key : Datum L) (s : String) : key.same (.text s) = (key.text? == some s) := by
  cases key <;> simp [same, text?, number?]

/-- An entry of a text has its new value afterwards, and the entries of other texts have their old ones. -/
theorem get?_put (entries : List (Datum L × Datum L)) (key : String) (value : Datum L) (other : String) :
    get? (put entries (.text key) value) (.text other) = if other = key then some value else get? entries (.text other) := by
  have apart : ∀ (s t : String) (k : Datum L), k.same (.text s) → k.same (.text t) = decide (s = t) := by
    intro s t k hit
    rw [same_text, beq_iff_eq] at hit
    simp [same_text, hit, beq_eq_decide]
  have own : (text key : Datum L).same (.text key) := by simp [same_text, text?]
  exact (find?_setEntry (fun s k => k.same (.text s)) apart own value entries other).trans (if_congr eq_comm rfl rfl)

end Datum

section

variable {α : Type} (key : α → String) (value : α → Option (Datum L)) {items : List α}
  (distinct : (items.map key).Nodup)
include distinct

theorem lookup_foldl (attributes : List (String × Datum L)) :
    (∀ a ∈ items, (items.foldl (fun s a => (value a).elim s (Datum.putAttribute s (key a))) attributes).lookup (key a) =
      (value a).or (attributes.lookup (key a))) ∧
    ∀ other, other ∉ items.map key →
      (items.foldl (fun s a => (value a).elim s (Datum.putAttribute s (key a))) attributes).lookup other =
        attributes.lookup other :=
  @get_foldl α (List (String × Datum L)) (Datum L) (fun s name => s.lookup name) Datum.putAttribute
    (fun s name v other => Datum.lookup_putAttribute s name other v) key value items distinct attributes

theorem get?_foldl (entries : List (Datum L × Datum L)) :
    ∀ a ∈ items, Datum.get? (items.foldl (fun s a => (value a).elim s (Datum.put s (.text (key a)))) entries)
      (.text (key a)) = (value a).or (Datum.get? entries (.text (key a))) :=
  (@get_foldl α (List (Datum L × Datum L)) (Datum L) (fun s name => Datum.get? s (.text name))
    (fun s name => Datum.put s (.text name)) Datum.get?_put key value items distinct entries).1

end

/-! ## Bodies that build something up -/

variable {p : Program} {σ : Frame L}

/-- Statements each of which takes one step. -/
theorem runAll_foldl {α S : Type} (frame : S → Frame L) {stmt : α → Stmt} {step : S → α → S} {items : List α}
    (each : ∀ a ∈ items, ∀ s, run p (frame s) (stmt a) = pure (.next (frame (step s a)))) (s : S) :
    runAll p (frame s) (items.map stmt) = pure (.next (frame (items.foldl step s))) := by
  induction items generalizing s with
  | nil => simp
  | cons a rest ih =>
    rw [List.map_cons, runAll_next (each a List.mem_cons_self s), List.foldl_cons]
    exact ih (fun b member => each b (List.mem_cons_of_mem _ member)) (step s a)

/-- The assignment to an entry of the mapping behind a name. -/
theorem run_put {owner : String} {entries : List (Datum L × Datum L)} (known : σ.locals owner = some (.dict entries))
    (key : String) (e : Expr) : run p σ (Stmt.put (.name owner) key e) = (do
      let value ← eval p σ e
      pure (.next (σ.put owner (.dict (Datum.put entries (.text key) value))))) := by
  rw [Stmt.put, run_assign]
  refine bind_congr fun value => ?_
  simp [assign, known, putEntry, Datum.isScalar]

section

variable {owner key : String} {entries : List (Datum L × Datum L)} (known : readName p σ owner = pure (.dict entries))
include known

/-- The value under a key, or `None`. -/
theorem eval_get : eval p σ (Expr.method (.name owner) "get" [Expr.text key]) =
    pure ((Datum.get? entries (.text key)).getD .none) := by
  have receiver : eval p σ (.name owner) = pure (.dict entries) := by
    rw [eval_name, known]
  rw [eval_method_one receiver (eval_text key), send_method (by simp [Datum.methods])]
  simp [callMethod, Datum.isScalar]

/-- The value under a key, or another one. -/
theorem eval_getOr {e : Expr} {default : Datum L} (evaluates : eval p σ e = pure default) :
    eval p σ (Expr.method (.name owner) "get" [Expr.text key, e]) =
      pure ((Datum.get? entries (.text key)).getD default) := by
  have receiver : eval p σ (.name owner) = pure (.dict entries) := by
    rw [eval_name, known]
  have arguments : evalAll p σ [Expr.text key, e] = pure [.text key, default] := by
    simp [evaluates]
  rw [eval_method_all receiver arguments, send_method (by simp [Datum.methods])]
  simp [callMethod, Datum.isScalar]

/-- The value under a key that is there. -/
theorem eval_entry {value : Datum L} (has : Datum.get? entries (.text key) = some value) :
    eval p σ (.subscript (.name owner) (Expr.text key)) = pure value := by
  simp [known, entry, Datum.isScalar, has]

end

@[simp] theorem evalEntries_nil : evalEntries p σ [] = pure [] := by
  rw [evalEntries]

@[simp] theorem evalEntries_cons (key value : Expr) (rest : List Entry) :
    evalEntries p σ (.mk key value :: rest) = (do
      let key ← eval p σ key
      let value ← eval p σ value
      let entries ← evalEntries p σ rest
      pure ((key, value) :: entries)) := by
  rw [evalEntries]

/-- A mapping without entries. -/
theorem eval_empty : eval p σ (.dict []) = pure (.dict []) := by
  simp [Datum.dictOf?]

@[simp] theorem evalNamed_cons (name : String) (e : Expr) (rest : List Keyword) :
    evalNamed p σ (.mk (some name) e :: rest) = (do
      let value ← eval p σ e
      let named ← evalNamed p σ rest
      pure ((name, value) :: named)) := by
  rw [evalNamed]

/-- The arguments that a mapping is spread to. -/
theorem evalNamed_spread {e : Expr} {named : List (String × Datum L)}
    (evaluates : eval p σ e = pure (.dict (named.map fun (name, v) => (.text name, v)))) :
    evalNamed p σ [.mk none e] = pure named := by
  have texts : (named.map fun (name, v) => ((.text name, v) : Datum L × Datum L)).mapM
      (fun entry => entry.1.text?.map (·, entry.2)) = some named := by
    clear evaluates
    induction named with
    | nil => rfl
    | cons argument rest ih =>
      rw [List.map_cons, List.mapM_cons, ih]
      rfl
  rw [evalNamed, evaluates, pure_bind]
  simp [texts]

/-- The statement that appends to a text. -/
theorem run_increase {target : String} {s more : String} (known : readName p σ target = pure (.text s)) :
    run p σ (.increase target (Expr.text more)) = pure (.next (σ.put target (.text (s ++ more)))) := by
  rw [run, known, eval_text, pure_bind, pure_bind]

/-- The statement that extends a list by what an iteration goes through. -/
theorem run_extend {target : String} {items : List (Datum L)} (known : σ.locals target = some (.list items)) (more : Expr) :
    run p σ (.expr (Expr.method (.name target) "extend" [more])) = (do
      let value ← eval p σ more
      let more ← membersOf value
      pure (.next (σ.put target (.list (items ++ more))))) := by
  rw [run]
  simp [Expr.method, Expr.effect?, runEffect, known]

/-! ## Parameters -/

/-- A parameter takes the next argument by position, or else the one of its name. -/
theorem suppliedTo_cons (named : List (String × Datum L)) (param : Param) (params : List Param) (args : List (Datum L)) :
    suppliedTo named (param :: params) args =
      (param, args.head?.or (named.lookup param.name)) :: suppliedTo named params args.tail := by
  cases args with
  | nil => rw [suppliedTo, List.head?_nil, Option.none_or, List.tail_nil]
  | cons a rest => rw [suppliedTo, List.head?_cons, Option.some_or, List.tail_cons]

theorem bindParams_nil (home : List Stmt) : bindParams p home [] = (pure [] : Outcome L (List (String × Datum L))) := by
  rw [bindParams]

theorem bindParams_some (home : List Stmt) (param : Param) (v : Datum L) (rest : List (Param × Option (Datum L))) :
    bindParams p home ((param, some v) :: rest) = (do
      let params ← bindParams p home rest
      pure ((param.name, v) :: params)) := by
  rw [bindParams]

/-! ## Members of classes -/

/-- The last statement of a body that binds a name. -/
theorem getLast?_bindings {name : String} {before after : List Stmt} {s : Stmt} (binds : name ∈ s.binds)
    (unbound : ∀ t ∈ after, name ∉ t.binds) : (bindings name (before ++ s :: after)).getLast? = some s := by
  have here : bindings name (s :: after) = [s] := by
    rw [bindings, List.filter_cons_of_pos (by simpa using binds)]
    exact congrArg _ (bindings_eq_nil unbound)
  rw [bindings_append, here, List.getLast?_concat]

variable {c : ClassDef} {path : List String} {name : String}

theorem ClassDef.member?_one {s : Stmt} (only : bindings name c.body = [s]) : c.member? name = some (s.member []) := by
  rw [member?, only]
  rfl

/-- The last statement that binds a name counts, whatever stands before it. -/
theorem ClassDef.member?_last {s : Stmt} {after : List Stmt} (ending : s :: after <:+ c.body) (binds : name ∈ s.binds)
    (unbound : ∀ t ∈ after, name ∉ t.binds) : ∃ earlier, c.member? name = some (s.member earlier) := by
  obtain ⟨before, body⟩ := ending
  have last : (bindings name (before ++ s :: after)).getLast? = some s := getLast?_bindings binds unbound
  rw [body, List.getLast?_eq_some_iff] at last
  obtain ⟨earlier, split⟩ := last
  refine ⟨earlier.reverse, ?_⟩
  rw [member?, split, List.reverse_concat]

theorem ClassDef.member?_two {first second : Stmt} (both : bindings name c.body = [first, second]) :
    c.member? name = some (second.member [first]) := by
  rw [member?, both]
  rfl

/-- A class inside the class of a module. -/
theorem Program.class?_inner {d : ClassDef} {inner : String} (outer : p.class? [name] = some c)
    (named : classNamed? c.home c.body inner = some d) : p.class? [name, inner] = some d := by
  simp only [Program.class?, Option.bind_eq_bind, Option.bind_eq_some_iff, List.foldlM_cons, List.foldlM_nil] at outer ⊢
  obtain ⟨m, module, c', top, same⟩ := outer
  obtain rfl : c' = c := Option.some.inj same
  exact ⟨m, module, c', top, d, named, rfl⟩

section

variable (cls : p.class? path = some c)
include cls

/-- A property is read by its getter. -/
theorem getAttribute_property {getter : Function} {setter : Option Function}
    (member : c.member? name = some (.property getter setter)) (attributes : List (String × Datum L)) :
    getAttribute p (.object path attributes) name = invoke p c.home getter [.object path attributes] [] := by
  rw [getAttribute, cls]
  simp [member]

/-- A property is written by its setter. -/
theorem setAttribute_property (noData : c.isData = false) {getter setter : Function}
    (member : c.member? name = some (.property getter (some setter))) (attributes : List (String × Datum L))
    (value : Datum L) : setAttribute p (.object path attributes) name value =
      update p c.home setter (.object path attributes) [value] [] := by
  rw [setAttribute, cls]
  simp [noData, member]

/-- The call of a method on an instance. -/
theorem send_instance {f : Function} (member : c.member? name = some (.method f))
    {attributes : List (String × Datum L)} (absent : attributes.lookup name = none) (args : List (Datum L)) :
    send p (.object path attributes) name args = invoke p c.home f (.object path attributes :: args) [] := by
  have bound : getAttribute p (.object path attributes) name = pure (.method (.object path attributes) name) := by
    rw [getAttribute, cls]
    simp [member, absent]
  rw [send, bound, pure_bind, call]
  simp [cls, member]

variable (noEnum : c.isEnum = false)
include noEnum

/-- The call of a class method. -/
theorem send_classMethod {f : Function} (member : c.member? name = some (.classMethod f)) (args : List (Datum L)) :
    send p (.cls path) name args = invoke p c.home f (.cls path :: args) [] := by
  have bound : getAttribute p (.cls path : Datum L) name = pure (.method (.cls path) name) := by
    rw [getAttribute, cls]
    simp [member, noEnum]
  rw [send, bound, pure_bind, call]
  simp [cls, member]

/-- The call of a static method. -/
theorem send_staticMethod {f : Function} (member : c.member? name = some (.staticMethod f)) (args : List (Datum L)) :
    send p (.cls path) name args = invoke p c.home f args [] := by
  have bound : getAttribute p (.cls path : Datum L) name = pure (.method (.cls path) name) := by
    rw [getAttribute, cls]
    simp [member, noEnum]
  rw [send, bound, pure_bind, call]
  simp [cls, member]

/-- A constant of a class is evaluated at the top level of its module. -/
theorem getAttribute_constant {value : Expr} (member : c.member? name = some (.constant value)) :
    getAttribute p (.cls path : Datum L) name = eval p (.top c.home) value := by
  rw [getAttribute, cls]
  simp [member, noEnum]

/-- A class inside another one. -/
theorem getAttribute_inner (member : c.member? name = some .inner) :
    getAttribute p (.cls path : Datum L) name = pure (.cls (path ++ [name])) := by
  rw [getAttribute, cls]
  simp [member, noEnum]

end

/-- The scope of a function whose first parameter is its receiver. -/
theorem Frame.scope_cons (home : List Stmt) (name : String) (v : Datum L) (params : List (String × Datum L)) :
    (⟨home, fun id => ((name, v) :: params).lookup id⟩ : Frame L) = Frame.put ⟨home, fun id => params.lookup id⟩ name v := by
  simp only [Frame.put, Datum.lookup_cons_ite]

/-- A method without parameters of its own that changes its receiver. -/
theorem update_alone {home : List Stmt} {f : Function} {receiver x : Datum L} {τ : Frame L} {self : Param}
    (params : f.signature.params = [self]) (noRest : f.signature.rest = none)
    (ran : runAll p ((Frame.top home).put self.name receiver) f.body = pure (.next τ))
    (changed : τ.locals self.name = some x) : update p home f receiver [] [] = pure x := by
  have wellFormed : f.signature.wellFormed := by simp [Signature.wellFormed, params, noRest]
  have scope : (⟨home, fun id => ((f.signature.params.map (·.name)).zip [receiver]).lookup id⟩ : Frame L) =
      (Frame.top home).put self.name receiver := by
    rw [params]
    exact Frame.scope_cons home self.name receiver []
  rw [update_next home wellFormed (by simp [params]) noRest (scope ▸ ran)]
  simp [params, changed]

/-- A function that only gives a result. -/
theorem invoke_result (home : List Stmt) {f : Function} {args : List (Datum L)} {e : Expr} (body : f.body = [.result e])
    (wellFormed : f.signature.wellFormed) (length : args.length = f.signature.params.length)
    (noRest : f.signature.rest = none) :
    invoke p home f args [] = eval p ⟨home, fun id => ((f.signature.params.map (·.name)).zip args).lookup id⟩ e := by
  rw [invoke_given home wellFormed length noRest, body, runAll_single, run_result, bind_assoc]
  simp [Flow.returned]

end Tablewright.Source
