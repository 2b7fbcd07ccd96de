import Tablewright.Proofs.Access.Queries
import Tablewright.Proofs.Source.Dialogue

/-!
# Result pages

A table answers a query page by page.  Every page but the last names the key that the next one starts after, and the loop
of a repository asks until a page names none.

* `Page`: an answer, with the items that it lists and the key that it names.
* `AtPage`: the scope in which the next page is asked for; `converse_page`: what the loop does with one page.
* `queryAll_reads`: the loop asks once for each page and reads all items of all pages.
-/

namespace Tablewright.Access

open Source (Expr Stmt Param Program Frame Flow Datum Library Outcome Request Dialogue eval evalNamed readName send call
  getAttribute enter bindParams suppliedTo run runAll converse ask)

variable {L : Library} {p : Program} {σ : Frame L} {e : Entity} {t : Table}

/-! ## Pages and requests -/

/-- A page of results: its entries, and the items that they list.  A page without such an entry has no items. -/
structure Page (L : Library) where
  entries : List (Datum L × Datum L)
  items : List (Datum L)
  lists : (Datum.get? entries (.text "Items")).getD (.list []) = .list items

namespace Page

def response (page : Page L) : Datum L := .dict page.entries

/-- The key that the next page starts after. -/
def lastKey (page : Page L) : Datum L := (Datum.get? page.entries (.text "LastEvaluatedKey")).getD .none

end Page

def mapping (named : List (String × Datum L)) : Datum L := .dict (named.map fun (name, v) => (.text name, v))

/-- The arguments of a query that starts after a key; the first one starts at the beginning. -/
def startingAt (named : List (String × Datum L)) (start : Option (Datum L)) : List (String × Datum L) :=
  named ++ start.toList.map ("ExclusiveStartKey", ·)

def pageRequest (table : Datum L) (named : List (String × Datum L)) (start : Option (Datum L)) : Request L :=
  ⟨table, "query", startingAt named start⟩

def fromItemOf (p : Program) (e : Entity) (item : Datum L) : Outcome L (Datum L) := send p (.cls [e.name]) "from_item" [item]

/-- The key that a later page starts after takes the place of the one before. -/
theorem put_startKey {named : List (String × Datum L)} (fresh : "ExclusiveStartKey" ∉ named.map (·.1))
    (start : Option (Datum L)) (key : Datum L) :
    (.dict (Datum.put ((startingAt named start).map fun (name, v) => (.text name, v)) (.text "ExclusiveStartKey") key)) =
      mapping (startingAt named (some key)) := by
  -- only the last argument can have this name
  have others : ∀ argument ∈ named, (Datum.text argument.1 : Datum L).same (.text "ExclusiveStartKey") = false := by
    intro argument member
    rw [Datum.same_text, Datum.text?, beq_eq_false_iff_ne, Ne, Option.some.injEq]
    rintro same
    exact fresh (same ▸ List.mem_map_of_mem member)
  have own : (Datum.text "ExclusiveStartKey" : Datum L).same (.text "ExclusiveStartKey") = true := by
    rw [Datum.same_text]
    rfl
  have kept : (named.map fun (name, v) => (Datum.text name, v)).map (fun entry : Datum L × Datum L =>
      if entry.1.same (.text "ExclusiveStartKey") then (entry.1, key) else entry) =
      named.map fun (name, v) => (Datum.text name, v) := by
    rw [List.map_map]
    refine List.map_congr_left fun argument member => ?_
    simp [others argument member]
  have absent : (named.map fun (name, v) => ((Datum.text name, v) : Datum L × Datum L)).any
      (·.1.same (.text "ExclusiveStartKey")) = false := by
    simpa [List.any_eq_false] using others
  cases start with
  | none => simp [mapping, startingAt, Datum.put, absent]
  | some old => simp [mapping, startingAt, Datum.put, own, kept]

/-! ## The loop -/

def pageLocals : List String := ["kwargs", "results", "response", "last_key"]

/-- A scope in which a page is asked for, after some results have been read. -/
structure AtPage (e : Entity) (t : Table) (table : Datum L) (named : List (String × Datum L)) (results : List (Datum L))
    (start : Option (Datum L)) (σ : Frame L) : Prop where
  home : σ.home = (repositoryModule e t).value.body
  self : σ.locals "self" = some (repositoryOf e table)
  kwargs : σ.locals "kwargs" = some (mapping (startingAt named start))
  results : σ.locals "results" = some (.list results)
  others : ∀ name ∉ "self" :: pageLocals, σ.locals name = none

def pageRead (e : Entity) : List Stmt := (pageBody e).tail

def turned (σ : Frame L) (page : Page L) (read : List (Datum L)) (named : List (String × Datum L)) : Frame L :=
  (((σ.put "response" page.response).put "results" (.list read)).put "last_key" page.lastKey).put "kwargs"
    (mapping (startingAt named (some page.lastKey)))

/-- What the loop makes of an item of a page. -/
def itemRead (p : Program) (e : Entity) (σ : Frame L) (page : Page L) (item : Datum L) : Outcome L (Datum L) :=
  eval p ((σ.put "response" page.response).put "item" item) (Expr.method (.name e.name) "from_item" [.name "item"])

theorem eval_items (σ : Frame L) (page : Page L) :
    eval p (σ.put "response" page.response) (.comprehension .generator
      (Expr.method (.name e.name) "from_item" [.name "item"]) "item"
      (Expr.method (.name "response") "get" [Expr.text "Items", .list []])) = (do
        let xs ← page.items.mapM (itemRead p e σ page)
        pure (.generator xs)) := by
  have known : readName p (σ.put "response" page.response) "response" = pure (.dict page.entries) :=
    Source.readName_local (Frame.put_locals_self ..)
  rw [Source.eval_comprehension, Source.eval_getOr known (by rw [Source.eval_list, Source.evalAll_nil, pure_bind]),
    page.lists, pure_bind, Source.membersOf]
  simp only [Datum.members?, Outcome.given_some, pure_bind]
  rfl

/-- The loop ends with the results if there is no further key. -/
theorem run_ending {key : Datum L} (named : σ.locals "last_key" = some key) {results : List (Datum L)}
    (held : σ.locals "results" = some (.list results)) :
    run p σ (.ifThen (.not (.name "last_key")) [.result (.name "results")]) =
      pure (if key.truth then .next σ else .result (.list results)) := by
  rw [Source.run_ifThen, Source.eval_not, Source.eval_name, Source.readName_local named, pure_bind, pure_bind]
  cases key.truth with
  | true => rfl
  | false => simp [Datum.truth, Source.runAll_single, Source.readName_local held]

section

variable {table : Datum L} {named : List (String × Datum L)} {results : List (Datum L)} {start : Option (Datum L)}
  (reached : AtPage e t table named results start σ)
include reached

theorem AtPage.turned (page : Page L) (read : List (Datum L)) :
    AtPage e t table named read (some page.lastKey) (turned σ page read named) := by
  refine ⟨reached.home, reached.self, rfl, rfl, fun name other => ?_⟩
  have before := reached.others name other
  simp only [pageLocals, List.mem_cons, List.not_mem_nil, or_false, not_or] at other
  simp [Access.turned, other, before]

/-- After the answer the results grow by the items of the page, and the loop ends if the page names no key. -/
theorem AtPage.runAll_pageRead (fresh : "ExclusiveStartKey" ∉ named.map (·.1)) (page : Page L) :
    runAll p (σ.put "response" page.response) (pageRead e) = (do
      let xs ← page.items.mapM (itemRead p e σ page)
      pure (if page.lastKey.truth then .next (Access.turned σ page (results ++ xs) named)
        else .result (.list (results ++ xs)))) := by
  have held : (σ.put "response" page.response).locals "results" = some (.list results) := reached.results
  have body : pageRead e = .expr (Expr.method (.name "results") "extend"
      [.comprehension .generator (Expr.method (.name e.name) "from_item" [.name "item"]) "item"
        (Expr.method (.name "response") "get" [Expr.text "Items", .list []])])
      :: Stmt.bind "last_key" (Expr.method (.name "response") "get" [Expr.text "LastEvaluatedKey"])
      :: .ifThen (.not (.name "last_key")) [.result (.name "results")]
      :: [Stmt.put (.name "kwargs") "ExclusiveStartKey" (.name "last_key")] := rfl
  rw [body, Source.runAll_cons, Source.run_extend held, eval_items, bind_assoc, bind_assoc]
  refine bind_congr fun xs => ?_
  -- the items are there; what is left is the key
  let read : Frame L := (σ.put "response" page.response).put "results" (.list (results ++ xs))
  have next : run p read (Stmt.bind "last_key" (Expr.method (.name "response") "get" [Expr.text "LastEvaluatedKey"])) =
      pure (.next (read.put "last_key" page.lastKey)) := by
    have known : readName p read "response" = pure (.dict page.entries) := Source.readName_local rfl
    rw [Source.run_bind, Source.eval_get known, pure_bind]
    rfl
  have again : run p (read.put "last_key" page.lastKey) (Stmt.put (.name "kwargs") "ExclusiveStartKey" (.name "last_key")) =
      pure (.next (Access.turned σ page (results ++ xs) named)) := by
    have asked : (read.put "last_key" page.lastKey).locals "kwargs" =
        some (.dict ((startingAt named start).map fun (name, v) => (.text name, v))) := reached.kwargs
    rw [Source.run_put asked, Source.eval_name, Source.readName_local (Frame.put_locals_self ..), pure_bind,
      put_startKey fresh]
    rfl
  simp only [Source.membersOf, Datum.members?, Outcome.given_some, pure_bind]
  rw [Source.runAll_next next, Source.runAll_cons, run_ending (Frame.put_locals_self ..) rfl, pure_bind]
  cases page.lastKey.truth with
  | true =>
    show runAll p _ [_] = _
    rw [Source.runAll_single, again]
    rfl
  | false => rfl

/-- A local name of the loop that the entity is called like has no function that reads items. -/
theorem AtPage.itemRead_captured (captured : e.name ∈ ["kwargs", "results", "response"]) (page : Page L) (item : Datum L) :
    itemRead p e σ page item = Outcome.stuck := by
  have ofDict (entries : List (Datum L × Datum L)) : getAttribute p (.dict entries) "from_item" = Outcome.stuck := by
    rw [getAttribute]
    · rfl
    all_goals simp
  have ofList (items : List (Datum L)) : getAttribute p (.list items) "from_item" = Outcome.stuck := by
    rw [getAttribute]
    · rfl
    all_goals simp
  obtain ⟨d, known, noFunction⟩ : ∃ d, readName p ((σ.put "response" page.response).put "item" item) e.name = pure d ∧
      getAttribute p d "from_item" = Outcome.stuck := by
    simp only [List.mem_cons, List.not_mem_nil, or_false] at captured
    rcases captured with same | same | same <;> rw [same]
    · exact ⟨_, Source.readName_local reached.kwargs, ofDict _⟩
    · exact ⟨_, Source.readName_local reached.results, ofList _⟩
    · exact ⟨_, Source.readName_local rfl, ofDict _⟩
  rw [itemRead, Expr.method, Source.eval_call, Source.eval_attr, Source.eval_name, known, pure_bind, noFunction]
  rfl

variable (loads : LoadsHelpers p e t)
include loads

/-- One page is asked for and read.  Then the loop comes back or ends. -/
theorem AtPage.converse_page (fresh : "ExclusiveStartKey" ∉ named.map (·.1)) (page : Page L) (answers : List (Datum L)) :
    converse p σ [.loop (Expr.bool true) (pageBody e)] (page.response :: answers) = (do
      let xs ← page.items.mapM (itemRead p e σ page)
      let d ← if page.lastKey.truth then
          converse p (Access.turned σ page (results ++ xs) named) [.loop (Expr.bool true) (pageBody e)] answers
        else pure ⟨.result (.list (results ++ xs)), [], answers⟩
      pure { d with asked := pageRequest table named start :: d.asked }) := by
  have receives : eval p σ (.attr (.name "self") "_table") = pure table := loads.eval_table reached.self
  have arguments : evalNamed p σ [.mk none (.name "kwargs")] = pure (startingAt named start) := by
    refine Source.evalNamed_spread ?_
    rw [Source.eval_name, Source.readName_local reached.kwargs]
    rfl
  have body : pageBody e ++ [.loop (Expr.bool true) (pageBody e)] =
      Stmt.bind "response" (tableCall "query" [.mk none (.name "kwargs")])
        :: (pageRead e ++ [.loop (Expr.bool true) (pageBody e)]) := rfl
  rw [Source.converse_loop (Source.eval_bool true) rfl, body, Source.converse_question rfl receives arguments,
    Source.converse_append _ rfl, reached.runAll_pageRead fresh, bind_assoc, bind_assoc]
  refine bind_congr fun xs => ?_
  rw [pure_bind]
  cases page.lastKey.truth with
  | true => rfl
  | false => rfl

theorem AtPage.itemRead_eq (unshadowed : e.name ∉ pageLocals) (page : Page L) :
    itemRead p e σ page = fromItemOf p e := by
  funext item
  have other : ∀ name ∈ moduleNames, e.name ≠ name := fun name listed same =>
    loads.free e.name (List.mem_append_left _ List.mem_cons_self) (same ▸ listed)
  have noItem : e.name ≠ "item" := other "item" (by decide)
  have noSelf : e.name ≠ "self" := other "self" (by decide)
  have noResponse : e.name ≠ "response" := fun same => unshadowed (by rw [same]; decide)
  have entity : readName p ((σ.put "response" page.response).put "item" item) e.name = pure (.cls [e.name]) := by
    refine readName_entity reached.home ?_
    rw [Frame.put_locals, if_neg noItem, Frame.put_locals, if_neg noResponse]
    exact reached.others e.name (List.not_mem_cons_of_ne_of_not_mem noSelf unshadowed)
  have argument : eval p ((σ.put "response" page.response).put "item" item) (.name "item") = pure item := by
    rw [Source.eval_name, Source.readName_local (Frame.put_locals_self ..)]
  exact Source.eval_method_one ((Source.eval_name _).trans entity) argument "from_item"

/-- As long as pages name keys, the loop asks for another one: it reads them all, and asks once for each. -/
theorem AtPage.converse_pages (unshadowed : e.name ∉ pageLocals) (fresh : "ExclusiveStartKey" ∉ named.map (·.1))
    {pages : List (Page L)} (more : ∀ page ∈ pages, page.lastKey.truth) {last : Page L} (ends : last.lastKey.truth = false)
    (later : List (Datum L)) :
    converse p σ [.loop (Expr.bool true) (pageBody e)] ((pages ++ [last]).map Page.response ++ later) = (do
      let xs ← ((pages ++ [last]).flatMap Page.items).mapM (fromItemOf p e)
      pure ⟨.result (.list (results ++ xs)), (start :: pages.map (some ·.lastKey)).map (pageRequest table named), later⟩) := by
  -- by the pages; each turn changes the scope, the results and the key to start after
  induction pages generalizing σ results start with
  | nil =>
    rw [List.nil_append, List.map_singleton, List.singleton_append, reached.converse_page loads fresh, ends,
      reached.itemRead_eq loads unshadowed]
    simp
  | cons page pages ih =>
    obtain ⟨goesOn, more⟩ := List.forall_mem_cons.mp more
    rw [List.cons_append, List.map_cons, List.cons_append, reached.converse_page loads fresh, goesOn,
      reached.itemRead_eq loads unshadowed, List.flatMap_cons, List.mapM_append, bind_assoc]
    refine bind_congr fun xs => ?_
    rw [if_pos rfl, ih (reached.turned page (results ++ xs)) more]
    simp

end

/-! ## The method -/

def pagerScope (e : Entity) (t : Table) (table : Datum L) (named : List (String × Datum L)) : Frame L :=
  ⟨(repositoryModule e t).value.body, fun id =>
    [("self", repositoryOf e table), ("kwargs", mapping named)].lookup id⟩

theorem enter_pager (table : Datum L) {named : List (String × Datum L)} (given : ("self" :: named.map (·.1)).Nodup) :
    enter p (repositoryModule e t).value.body (pager e).signature [repositoryOf e table] named =
      pure (pagerScope e t table named) := by
  obtain ⟨noSelf, distinct⟩ := List.nodup_cons.mp given
  have wellFormed : (pager e).signature.wellFormed := rfl
  have accepts : (pager e).signature.accepts [repositoryOf e table] named := by
    simpa [Source.Signature.accepts, pager] using distinct
  have bound : bindParams p (repositoryModule e t).value.body
      (suppliedTo named (pager e).signature.params [repositoryOf e table]) = pure [("self", repositoryOf e table)] := by
    rw [pager, Source.suppliedTo_cons, suppliedTo, List.head?_cons, Option.some_or, Source.bindParams_some,
      Source.bindParams_nil, pure_bind]
    rfl
  have others : named.filter (fun argument => !(pager e).signature.params.any (·.name == argument.1)) = named := by
    refine List.filter_eq_self.mpr fun argument member => ?_
    have other : "self" ≠ argument.1 := fun same => noSelf (same ▸ List.mem_map_of_mem member)
    simp [pager, Param.plain, other]
  have spread : (pager e).signature.spread named = [("kwargs", mapping named)] := by
    rw [Source.Signature.spread, others]
    rfl
  rw [enter, if_pos wellFormed, if_pos accepts, bound, pure_bind, spread]
  rfl

section

variable (loads : LoadsHelpers p e t) (indexed : t.indexes ≠ []) (table : Datum L) {named : List (String × Datum L)}
  (given : ("self" :: named.map (·.1)).Nodup)
include loads indexed given

theorem LoadsHelpers.ask_pages (answers : List (Datum L)) : ∃ σ, AtPage e t table named [] none σ ∧
    ask p (repositoryOf e table) "_query_all" named answers = (do
      let d ← converse p σ [.loop (Expr.bool true) (pageBody e)] answers
      pure ⟨d.result.returned, d.asked, d.left⟩) := by
  have method : p.methodOf? (repositoryOf e table) "_query_all" = some ((repositoryModule e t).value.body, pager e) := by
    rw [repositoryOf, Program.methodOf?, loads.class_repository]
    simp only [Option.bind_eq_bind, Option.bind_some, repositoryCls_pager indexed]
    rfl
  have body : (pager e).body = .annotated "results" (Expr.generic "List" [.name e.name]) (some (.list []))
      :: [.loop (Expr.bool true) (pageBody e)] := rfl
  refine ⟨(pagerScope e t table named).put "results" (.list []), ⟨rfl, rfl, ?_, rfl, fun name other => ?_⟩, ?_⟩
  · simp [pagerScope, startingAt, Datum.lookup_cons_ite]
  · simp only [pageLocals, List.mem_cons, List.not_mem_nil, or_false, not_or] at other
    simp [pagerScope, Datum.lookup_cons_ite, other]
  · rw [ask, method, Outcome.given_some, pure_bind]
    simp only [enter_pager table given, pure_bind]
    rw [body, Source.converse_simple rfl (by simp), Source.run_annotated, Source.eval_list, Source.evalAll_nil,
      pure_bind, pure_bind, pure_bind]
    rfl

variable (fresh : "ExclusiveStartKey" ∉ named.map (·.1))
include fresh

/-- An item of the first page cannot be read if the entity is called like a local name of the loop. -/
theorem LoadsHelpers.ask_captured (captured : e.name ∈ ["kwargs", "results", "response"]) {first : Page L}
    (some : first.items ≠ []) (later : List (Datum L)) (d : Dialogue L (Datum L)) :
    ask p (repositoryOf e table) "_query_all" named (first.response :: later) ≠ pure d := by
  obtain ⟨σ, reached, asked⟩ := loads.ask_pages indexed table given (first.response :: later)
  obtain ⟨item, rest, items⟩ := List.exists_cons_of_ne_nil some
  rw [asked, reached.converse_page loads fresh, items, List.mapM_cons, reached.itemRead_captured captured]
  -- the first item of the page comes to nothing
  exact nofun

end

/-- The loop of a repository asks the table once for every page, up to the first one that names no key, and gives what the
class of the entity makes of the items of all pages in order.  Each request has the arguments of the caller, and all but
the first one start after the key that the page before names.  An entity that is called like a local name which is set by
then is hidden by it, and no item can be read. -/
theorem queryAll_reads (loads : LoadsHelpers p e t) (indexed : t.indexes ≠ []) (table : Datum L)
    {named : List (String × Datum L)} (given : ("self" :: named.map (·.1)).Nodup)
    (fresh : "ExclusiveStartKey" ∉ named.map (·.1)) :
    (e.name ∉ pageLocals → ∀ (pages : List (Page L)) (last : Page L) (later : List (Datum L)),
      (∀ page ∈ pages, page.lastKey.truth) → last.lastKey.truth = false →
      ask p (repositoryOf e table) "_query_all" named ((pages ++ [last]).map Page.response ++ later) = (do
        let xs ← ((pages ++ [last]).flatMap Page.items).mapM (fromItemOf p e)
        pure ⟨.list xs, (none :: pages.map (some ·.lastKey)).map (pageRequest table named), later⟩)) ∧
    (e.name ∈ ["kwargs", "results", "response"] → ∀ (first : Page L) (later : List (Datum L)) (d : Dialogue L (Datum L)),
      first.items ≠ [] → ask p (repositoryOf e table) "_query_all" named (first.response :: later) ≠ pure d) := by
  constructor
  · intro unshadowed pages last later more ends
    obtain ⟨σ, reached, asked⟩ :=
      loads.ask_pages indexed table given ((pages ++ [last]).map Page.response ++ later)
    rw [asked, reached.converse_pages loads unshadowed fresh more ends]
    simp [Source.Flow.returned]
  · intro captured first later d some
    exact loads.ask_captured indexed table given fresh captured some later d

/-! ## Articles -/

def articleItem : Datum Library.plain := .dict [(.text "sku", .text "7")]

/-- A page with an article, and the key of that. -/
def articlePage : Page Library.plain where
  entries := [(.text "Items", .list [articleItem]), (.text "LastEvaluatedKey", articleItem)]
  items := [articleItem]
  lists := rfl

def emptyPage : Page Library.plain := ⟨[], [], rfl⟩

/-- The articles of a maker are asked for twice if the first answer names a key and the second one does not. -/
theorem makersTable_pages : ∃ e, (describe shopArticle).value = .ok e ∧
    ask (helpersProgram e makersTable) (repositoryOf e .none) "_query_all" [("IndexName", .text "by-maker")]
      [articlePage.response, emptyPage.response, articlePage.response] = (do
        let xs ← [articleItem].mapM (fromItemOf (helpersProgram e makersTable) e)
        pure ⟨.list xs, [⟨.none, "query", [("IndexName", .text "by-maker")]⟩,
          ⟨.none, "query", [("IndexName", .text "by-maker"), ("ExclusiveStartKey", articleItem)]⟩],
          [articlePage.response]⟩) := by
  obtain ⟨e, described, checked⟩ := exists_described (s := shopArticle) (P := fun e =>
    decide (TextKeyed e "Article" ["sku"])) (by decide +kernel)
  have keyed := of_decide_eq_true checked
  have loads := keyed.loads makersTable (by decide) (by decide)
  have unshadowed : e.name ∉ pageLocals := by
    rw [keyed.name]
    decide
  have given : ("self" :: [("IndexName", (.text "by-maker" : Datum Library.plain))].map (·.1)).Nodup := by decide
  have reads := (queryAll_reads loads (List.cons_ne_nil _ _) .none given (by decide)).1 unshadowed
  exact ⟨e, described, reads [articlePage] emptyPage [articlePage.response] (List.forall_mem_singleton.mpr rfl) rfl⟩

/-- An entity that is called like the answer of a table. -/
def answeredArticle : Schema := { shopArticle with entityName := some "response", fields := [skuField] }

theorem answeredArticle_read {e : Entity} (described : (describe answeredArticle).value = .ok e)
    (loads : Loads p e) : ∃ x : Datum Library.plain, fromItemOf p e articleItem = pure x := by
  have describes := describe_ok described
  have fields : e.record.fields = [⟨skuField, "sku", .scalar .string⟩] := by
    rw [describes.fields]
    rfl
  have usable : Usable e.record := by
    refine ⟨?_, by rw [fields]; decide⟩
    constructor <;> rw [fields] <;> decide
  have starts : Starts p e.enums e.record (fun _ => (.none : Datum Library.plain)) := by
    rw [Starts, fields]
    exact List.forall_mem_singleton.mpr (.inl ⟨rfl, rfl⟩)
  have accepts : (initFunction e.enums e.record).signature.accepts
      [(.object [e.record.name] [] : Datum Library.plain)] [] := by
    simp [Source.Signature.accepts, initFunction, fields]
  obtain ⟨blank, new, holds⟩ := starts.call_returns usable loads List.mem_cons_self accepts
  have entries : ∀ f ∈ e.record.fields, Datum.get? [(.text "sku", .text "7")] (.text f.storageName) =
      some (.text "7" : Datum Library.plain) := by
    rw [fields]
    exact List.forall_mem_singleton.mpr rfl
  have restores : ∀ f ∈ e.record.fields, Read p f.type (some (.text "7")) (initially (fun _ => .none)
      (givenBy e.record [] []) f) (.text "7" : Datum Library.plain) := by
    rw [fields]
    exact List.forall_mem_singleton.mpr (.inr ⟨.text "7", rfl, by simp, restores_self (fun _ _ => rfl) _⟩)
  obtain ⟨x, read, -⟩ := loads.send_fromItem describes List.mem_cons_self usable new holds entries restores
  exact ⟨x, read⟩

/-- A page of such items is not read. -/
theorem answeredArticle_unread : ¬ ∀ (s : Schema) (e : Entity) (t : Table) (p : Program) (table : Datum Library.plain)
    (named : List (String × Datum Library.plain)) (pages : List (Page Library.plain)) (last : Page Library.plain),
    checkCollisions s = .ok () → (describe s).value = .ok e → checkTypeNames [e] = .ok () → LoadsHelpers p e t →
      t.indexes ≠ [] → ("self" :: named.map (·.1)).Nodup → "ExclusiveStartKey" ∉ named.map (·.1) →
      (∀ page ∈ pages, page.lastKey.truth) → last.lastKey.truth = false →
      ask p (repositoryOf e table) "_query_all" named ((pages ++ [last]).map Page.response) = (do
        let xs ← ((pages ++ [last]).flatMap Page.items).mapM (fromItemOf p e)
        pure ⟨.list xs, (none :: pages.map (some ·.lastKey)).map (pageRequest table named), []⟩) := by
  intro always
  -- the name is no import and has a module of its own, so it is accepted
  obtain ⟨e, described, checked⟩ := exists_described (s := answeredArticle) (P := fun e =>
    decide (TextKeyed e "response" ["sku"]) && (checkTypeNames [e]).isOk) (by decide +kernel)
  rw [Bool.and_eq_true] at checked
  have keyed := of_decide_eq_true checked.1
  obtain ⟨⟨⟩, typesChecked⟩ := exists_ok_of_isOk checked.2
  have loads := keyed.loads makersTable (by decide) (by decide)
  have collisions : checkCollisions answeredArticle = .ok () := checkCollisions_ok.mpr (by decide +kernel)
  have captured : e.name ∈ ["kwargs", "results", "response"] := by
    rw [keyed.name]
    decide
  have answers := always _ e makersTable _ .none [] [articlePage] emptyPage collisions described typesChecked loads
    (List.cons_ne_nil _ _) (by decide) (by decide) (List.forall_mem_singleton.mpr rfl) rfl
  obtain ⟨x, read⟩ := answeredArticle_read described loads.toLoads
  have items : ([articlePage] ++ [emptyPage]).flatMap Page.items = [articleItem] := rfl
  rw [items, List.mapM_cons, List.mapM_nil, read] at answers
  exact loads.ask_captured (List.cons_ne_nil _ _) .none (by decide) (by decide) captured (List.cons_ne_nil _ _) _ _ answers

end Tablewright.Access
