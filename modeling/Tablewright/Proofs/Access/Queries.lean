import Tablewright.Proofs.Access.Lookups
import Tablewright.Proofs.Plan.Indexes

/-!
# Requests of index queries

The query of an index puts its request together in local names of its own and hands it to the loop over the result pages.
Its parameters are called like fields of the entity, so a field can be called like one of these local names.  Then the
assignment replaces the argument before it is read.

* `indexRequest?`: the request that a query is meant to make of some arguments.
* `handedRequest`: what a query hands to the loop; `runAll_partition`, `run_sortCondition`: how it is put together.
* `Unshadowed`: the parameters of a query that keep out of its way.
* `queries_handRequest`: such queries hand over what they are meant to.
-/

namespace Tablewright.Access

open Source (Expr Stmt Param Keyword Program Frame Function Datum Library Outcome ClassDef bindings eval evalNamed readName
  getAttribute call invoke enter bindParams suppliedTo run runAll)

variable {L : Library} {p : Program} {σ : Frame L} {e : Entity} {t : Table} {i : Index} {k : KeyAttribute}

/-! ## Key attributes of indexes -/

def partitionOf (e : Entity) (i : Index) : KeyAttribute := (e.keyAttribute i.partitionKey).value

/-- The sort key of an index, if it has one. -/
def sortOf (e : Entity) (i : Index) : Option KeyAttribute :=
  i.sortKey?.map fun storageName => (e.keyAttribute storageName).value

theorem indexKeys_value (e : Entity) (i : Index) : (indexKeys e i).value = (partitionOf e i, sortOf e i) := by
  unfold indexKeys sortOf
  cases i.sortKey? <;> rfl

theorem keyAttribute_storageName (e : Entity) (storageName : String) :
    (e.keyAttribute storageName).value.storageName = storageName := by
  rw [Entity.keyAttribute]
  rcases keyAttribute_cases e.schema.name e.record.fields storageName with ⟨_, f, _, -, -, -, value⟩ | ⟨-, value⟩
  · rw [value]
  · rw [value]

/-! ## What queries are meant to ask for -/

/-- What is stored of a value: a point in time and a constant of an enum become texts. -/
def storedForm? : TypeRef → Datum L → Option (Datum L)
  | .scalar .timestamp, .time t => some (.text (L.timeText t))
  | .enum _, .member _ _ value => some (.text value)
  | .scalar .timestamp, _ | .enum _, _ => none
  | _, v => some v

/-- The request for the items of an index whose key attributes meet a condition. -/
def indexRequest (i : Index) (condition : String) (names : List (String × String)) (values : List (String × Datum L)) :
    List (String × Datum L) :=
  [("IndexName", .text i.name), ("KeyConditionExpression", .text condition),
   ("ExpressionAttributeNames", .dict (names.map fun (place, name) => (.text place, .text name))),
   ("ExpressionAttributeValues", .dict (values.map fun (place, value) => (.text place, value)))]

def argumentFor (args : List (Datum L)) (named : List (String × Datum L)) (position : Nat) (k : KeyAttribute) :
    Option (Datum L) :=
  args[position]?.or (named.lookup k.identifier)

/-- The request that the query of an index is meant to make: the sort key takes part in it if the index has one and the
caller gives a value for it. -/
def indexRequest? (e : Entity) (i : Index) (args : List (Datum L)) (named : List (String × Datum L)) :
    Option (List (String × Datum L)) := do
  let v ← argumentFor args named 0 (partitionOf e i)
  let stored ← storedForm? (partitionOf e i).type v
  match (sortOf e i).bind fun k => ((argumentFor args named 1 k).filter (!·.isNone)).map (k, ·) with
  | none => some (indexRequest i "#pk = :pk" [("#pk", i.partitionKey)] [(":pk", stored)])
  | some (k, w) => do
    let sorted ← storedForm? k.type w
    some (indexRequest i "#pk = :pk AND #sk = :sk" [("#pk", i.partitionKey), ("#sk", k.storageName)]
      [(":pk", stored), (":sk", sorted)])

/-! ## Methods -/

def requestKeywords (e : Entity) (i : Index) : List Keyword :=
  [argument "IndexName" (.attr (.name (keysClass e.name)) (Name.indexConstant i.name)),
   argument "KeyConditionExpression" (.name "key_condition"),
   argument "ExpressionAttributeNames" (.name "expression_names"),
   argument "ExpressionAttributeValues" (.name "expression_values")]

def conditions (e : Entity) (i : Index) : List Stmt :=
  Stmt.bind "key_condition" (Expr.text "#pk = :pk")
    :: Stmt.bind "expression_names" (.dict [.mk (Expr.text "#pk") (Expr.text (partitionOf e i).storageName)])
    :: Stmt.bind "expression_values" (.dict [.mk (Expr.text ":pk") (keyArgument (partitionOf e i))])
    :: (sortOf e i).toList.map sortCondition

def querier (e : Entity) (i : Index) : Function :=
  ⟨⟨queryName i, [], Param.plain "self" :: (keyParams [partitionOf e i] ++ (sortOf e i).toList.map fun k =>
      Param.optional k.identifier (Expr.generic "Optional" [typeHint k.type])), none,
      some (Expr.generic "List" [.name e.name])⟩,
    conditions e i ++ [.result (.call (.attr (.name "self") "_query_all") [] (requestKeywords e i))]⟩

def pageBody (e : Entity) : List Stmt :=
  [Stmt.bind "response" (tableCall "query" [.mk none (.name "kwargs")]),
   .expr (Expr.method (.name "results") "extend"
     [.comprehension .generator (Expr.method (.name e.name) "from_item" [.name "item"]) "item"
       (Expr.method (.name "response") "get" [Expr.text "Items", .list []])]),
   Stmt.bind "last_key" (Expr.method (.name "response") "get" [Expr.text "LastEvaluatedKey"]),
   .ifThen (.not (.name "last_key")) [.result (.name "results")],
   Stmt.put (.name "kwargs") "ExclusiveStartKey" (.name "last_key")]

def pager (e : Entity) : Function :=
  ⟨⟨"_query_all", [], [Param.plain "self"], some (Param.required "kwargs" (.name "Any")),
      some (Expr.generic "List" [.name e.name])⟩,
    [.annotated "results" (Expr.generic "List" [.name e.name]) (some (.list [])), .loop (Expr.bool true) (pageBody e)]⟩

theorem indexQuery_member (e : Entity) (i : Index) : (indexQuery e i).member [] = .method (querier e i) := by
  rw [indexQuery, indexKeys_value]
  rfl

theorem repositoryCls_query (different : (t.indexes.map fun i => Name.snakeCase i.name).Nodup) (member : i ∈ t.indexes) :
    (repositoryCls e t).member? (queryName i) = some (.method (querier e i)) := by
  rw [ClassDef.member?_one (asksForIndex different e member).query, indexQuery_member]

theorem repositoryCls_pager (indexed : t.indexes ≠ []) :
    (repositoryCls e t).member? "_query_all" = some (.method (pager e)) := by
  have ending : [queryAllMethod e] <:+ (repositoryCls e t).body := by
    rw [repositoryCls_body, if_neg (by simpa using indexed), ← List.append_assoc]
    exact List.suffix_append _ _
  obtain ⟨earlier, found⟩ : ∃ earlier,
      (repositoryCls e t).member? "_query_all" = some ((queryAllMethod e).member earlier) :=
    ClassDef.member?_last ending List.mem_cons_self (by simp)
  rw [found]
  rfl

theorem keysCls_index (different : (t.indexes.map fun i => Name.snakeCase i.name).Nodup) (member : i ∈ t.indexes) :
    (keysCls e t).member? (Name.indexConstant i.name) = some (.constant (Expr.text i.name)) := by
  rw [ClassDef.member?_one (asksForIndex different e member).constant]
  rfl

/-! ## Putting a request together -/

/-- The local names that a query puts its request together in. -/
def requestLocals : List String := ["key_condition", "expression_names", "expression_values"]

def namedScope (σ : Frame L) (k : KeyAttribute) : Frame L :=
  (σ.put "key_condition" (.text "#pk = :pk")).put "expression_names" (.dict [(.text "#pk", .text k.storageName)])

def partitionScope (σ : Frame L) (k : KeyAttribute) (stored : Datum L) : Frame L :=
  (namedScope σ k).put "expression_values" (.dict [(.text ":pk", stored)])

def sortedNamedScope (σ : Frame L) (pk k : KeyAttribute) : Frame L :=
  (σ.put "key_condition" (.text "#pk = :pk AND #sk = :sk")).put "expression_names"
    (.dict [(.text "#pk", .text pk.storageName), (.text "#sk", .text k.storageName)])

/-- The scope of a request for both keys. -/
def sortedScope (σ : Frame L) (pk k : KeyAttribute) (stored sorted : Datum L) : Frame L :=
  (sortedNamedScope σ pk k).put "expression_values" (.dict [(.text ":pk", stored), (.text ":sk", sorted)])

theorem partitionScope_other {name : String} (other : name ∉ requestLocals) (pk : KeyAttribute) (stored : Datum L) :
    (partitionScope σ pk stored).locals name = σ.locals name := by
  simp only [requestLocals, List.mem_cons, List.not_mem_nil, or_false, not_or] at other
  simp [partitionScope, namedScope, other]

theorem sortedNamedScope_other {name : String} (other : name ∉ requestLocals) (pk k : KeyAttribute) :
    (sortedNamedScope σ pk k).locals name = σ.locals name := by
  simp only [requestLocals, List.mem_cons, List.not_mem_nil, or_false, not_or] at other
  simp [sortedNamedScope, other]

theorem sortedScope_other {name : String} (other : name ∉ requestLocals) (pk k : KeyAttribute) (stored sorted : Datum L) :
    (sortedScope σ pk k stored sorted).locals name = σ.locals name := by
  rw [sortedScope, Frame.put_locals, if_neg, sortedNamedScope_other other]
  rintro rfl
  exact other (by decide)

theorem runAll_partition {stored : Datum L}
    (handed : eval p (namedScope σ (partitionOf e i)) (keyArgument (partitionOf e i)) = pure stored) :
    runAll p σ (conditions e i) =
      runAll p (partitionScope σ (partitionOf e i) stored) ((sortOf e i).toList.map sortCondition) := by
  -- the key is handed over last, in a scope where the other two names are already assigned
  have names : run p (σ.put "key_condition" (.text "#pk = :pk")) (Stmt.bind "expression_names"
      (.dict [.mk (Expr.text "#pk") (Expr.text (partitionOf e i).storageName)])) =
      pure (.next (namedScope σ (partitionOf e i))) := by
    rw [Source.run_bind]
    simp [Datum.dictOf?, Datum.put, Datum.isScalar, namedScope]
  have values : run p (namedScope σ (partitionOf e i)) (Stmt.bind "expression_values"
      (.dict [.mk (Expr.text ":pk") (keyArgument (partitionOf e i))])) =
      pure (.next (partitionScope σ (partitionOf e i) stored)) := by
    rw [Source.run_bind]
    simp [handed, Datum.dictOf?, Datum.put, Datum.isScalar, partitionScope]
  rw [conditions, Source.runAll_next (by rw [Source.run_bind, Source.eval_text, pure_bind]), Source.runAll_next names,
    Source.runAll_next values]

theorem run_sortCondition_absent (absent : readName p σ k.identifier = pure .none) :
    run p σ (sortCondition k) = pure (.next σ) := by
  rw [sortCondition, Source.run_ifThen, Source.eval_isNotNone, Source.eval_name, absent]
  rfl

/-- A value for the sort key extends all parts of a request. -/
theorem run_sortCondition {pk : KeyAttribute} {stored sorted w : Datum L}
    (given : readName p (partitionScope σ pk stored) k.identifier = pure w) (present : w.isNone = false)
    (handed : eval p (sortedNamedScope (partitionScope σ pk stored) pk k) (keyArgument k) = pure sorted) :
    run p (partitionScope σ pk stored) (sortCondition k) =
      pure (.next (sortedScope (partitionScope σ pk stored) pk k stored sorted)) := by
  have longer : ("#pk = :pk" : String) ++ " AND #sk = :sk" = "#pk = :pk AND #sk = :sk" := by decide
  have condition : run p (partitionScope σ pk stored) (.increase "key_condition" (Expr.text " AND #sk = :sk")) =
      pure (.next ((partitionScope σ pk stored).put "key_condition" (.text "#pk = :pk AND #sk = :sk"))) := by
    rw [Source.run_increase (s := "#pk = :pk") (Source.readName_local rfl), longer]
  have names : run p ((partitionScope σ pk stored).put "key_condition" (.text "#pk = :pk AND #sk = :sk"))
      (Stmt.put (.name "expression_names") "#sk" (Expr.text k.storageName)) =
      pure (.next (sortedNamedScope (partitionScope σ pk stored) pk k)) := by
    have held : ((partitionScope σ pk stored).put "key_condition" (.text "#pk = :pk AND #sk = :sk")).locals
        "expression_names" = some (.dict [(.text "#pk", .text pk.storageName)]) := rfl
    rw [Source.run_put held, Source.eval_text, pure_bind]
    simp [Datum.put, Datum.same_text, Datum.text?, sortedNamedScope]
  have values : run p (sortedNamedScope (partitionScope σ pk stored) pk k)
      (Stmt.put (.name "expression_values") ":sk" (keyArgument k)) =
      pure (.next (sortedScope (partitionScope σ pk stored) pk k stored sorted)) := by
    have held : (sortedNamedScope (partitionScope σ pk stored) pk k).locals "expression_values" =
        some (.dict [(.text ":pk", stored)]) := rfl
    rw [Source.run_put held, handed, pure_bind]
    simp [Datum.put, Datum.same_text, Datum.text?, sortedScope]
  rw [sortCondition, Source.run_ifThen, Source.eval_isNotNone, Source.eval_name, given, pure_bind, pure_bind]
  simp only [present, Bool.not_false, Datum.truth, if_true]
  rw [Source.runAll_next condition, Source.runAll_next names, Source.runAll_single, values]

theorem LoadsHelpers.evalNamed_request (loads : LoadsHelpers p e t)
    (different : (t.indexes.map fun i => Name.snakeCase i.name).Nodup) (member : i ∈ t.indexes)
    (helper : readName p σ (keysClass e.name) = pure (.cls [keysClass e.name])) {condition : String}
    {names : List (String × String)} {values : List (String × Datum L)}
    (hasCondition : σ.locals "key_condition" = some (.text condition))
    (hasNames : σ.locals "expression_names" = some (.dict (names.map fun (place, name) => (.text place, .text name))))
    (hasValues : σ.locals "expression_values" = some (.dict (values.map fun (place, value) => (.text place, value)))) :
    evalNamed p σ (requestKeywords e i) = pure (indexRequest i condition names values) := by
  have index : eval p σ (.attr (.name (keysClass e.name)) (Name.indexConstant i.name)) = pure (.text i.name) := by
    rw [Source.eval_attr, Source.eval_name, helper, pure_bind,
      Source.getAttribute_constant loads.class_keys rfl (keysCls_index different member), Source.eval_text]
  simp [requestKeywords, argument, index, Source.readName_local hasCondition, Source.readName_local hasNames,
    Source.readName_local hasValues, indexRequest]

/-! ## Parameters -/

def queryParameters (e : Entity) (i : Index) (receiver v : Datum L) (args : List (Datum L))
    (named : List (String × Datum L)) : List (String × Datum L) :=
  ("self", receiver) :: ((partitionOf e i).identifier, v)
    :: (sortOf e i).toList.map fun k => (k.identifier, (argumentFor args named 1 k).getD .none)

def queryScope (e : Entity) (t : Table) (i : Index) (receiver v : Datum L) (args : List (Datum L))
    (named : List (String × Datum L)) : Frame L :=
  ⟨(repositoryModule e t).value.body, fun id => (queryParameters e i receiver v args named).lookup id⟩

theorem querier_params (e : Entity) (i : Index) : (querier e i).signature.params.map (·.name) =
    "self" :: (partitionOf e i :: (sortOf e i).toList).map (·.identifier) := by
  simp [querier, keyParams, Param.plain, Param.required, Param.optional]

theorem bindParams_query (home : List Stmt) {receiver v : Datum L} {args : List (Datum L)} {named : List (String × Datum L)}
    (given : argumentFor args named 0 (partitionOf e i) = some v) :
    bindParams p home (suppliedTo named (querier e i).signature.params (receiver :: args)) =
      pure (queryParameters e i receiver v args named) := by
  have first : args.head?.or (named.lookup (partitionOf e i).identifier) = some v := by
    rw [List.head?_eq_getElem?]
    exact given
  have params : (querier e i).signature.params = Param.plain "self" :: Param.required (partitionOf e i).identifier
      (typeHint (partitionOf e i).type) :: (sortOf e i).toList.map fun k =>
        Param.optional k.identifier (Expr.generic "Optional" [typeHint k.type]) := rfl
  rw [params, Source.suppliedTo_cons, Source.suppliedTo_cons, List.head?_cons, List.tail_cons, Option.some_or,
    queryParameters]
  simp only [Param.required, first, Source.bindParams_some]
  cases sortOf e i with
  | none =>
    rw [Option.toList_none, List.map_nil, suppliedTo, Source.bindParams_nil]
    rfl
  | some k =>
    have second : args.tail.head? = args[1]? := by cases args <;> simp [List.head?_eq_getElem?]
    simp only [Option.toList_some, List.map_cons, List.map_nil, Source.suppliedTo_cons, suppliedTo, Param.optional, second,
      argumentFor]
    cases args[1]?.or (named.lookup k.identifier) with
    | none =>
      -- the default is `None`
      rw [bindParams]
      simp [Source.bindParams_nil]
      rfl
    | some w =>
      simp only [Source.bindParams_some, Source.bindParams_nil, pure_bind, Option.getD_some]
      rfl

theorem enter_query (parameters : ("self" :: (partitionOf e i :: (sortOf e i).toList).map (·.identifier)).Nodup)
    {receiver v : Datum L} {args : List (Datum L)} {named : List (String × Datum L)}
    (accepts : (querier e i).signature.accepts (receiver :: args) named)
    (given : argumentFor args named 0 (partitionOf e i) = some v) :
    enter p (repositoryModule e t).value.body (querier e i).signature (receiver :: args) named =
      pure (queryScope e t i receiver v args named) := by
  have wellFormed : (querier e i).signature.wellFormed := by
    have noRest : (querier e i).signature.rest = none := rfl
    rw [Source.Signature.wellFormed, querier_params, noRest]
    simpa using parameters
  rw [enter, if_pos wellFormed, if_pos accepts, bindParams_query _ given, pure_bind]
  simp [Source.Signature.spread, querier, queryScope]

/-- What a query hands to the loop over the result pages. -/
def handedRequest (p : Program) (e : Entity) (t : Table) (i : Index) (receiver : Datum L) (args : List (Datum L))
    (named : List (String × Datum L)) : Outcome L (List (String × Datum L)) := do
  let σ ← enter p (repositoryModule e t).value.body (querier e i).signature (receiver :: args) named
  match ← runAll p σ (conditions e i) with
  | .next σ => evalNamed p σ (requestKeywords e i)
  | .result _ => .stuck

/-- The parameters of a query keep out of its way: they differ from each other, from the local names that are assigned
before they are read, and from the key helper, which no type is called like either.  Names with two underscores in front
have a meaning of their own in classes. -/
structure Unshadowed (e : Entity) (t : Table) (i : Index) : Prop where
  parameters : ("self" :: (partitionOf e i :: (sortOf e i).toList).map (·.identifier)).Nodup
  partition : (partitionOf e i).identifier ∉ ["key_condition", "expression_names"]
  sort : ∀ k ∈ sortOf e i, k.identifier ∉ requestLocals
  helper : keysClass e.name ∉ (partitionOf e i :: (sortOf e i).toList).map (·.identifier)
  noType : keysClass e.name ∉ repositoryTypes e t
  plain : ∀ k ∈ partitionOf e i :: (sortOf e i).toList, ¬ "__".toList <+: k.identifier.toList

theorem eval_keyArgument {v stored : Datum L} (known : readName p σ k.identifier = pure v)
    (form : storedForm? k.type v = some stored) : eval p σ (keyArgument k) = pure stored := by
  have evaluates : eval p σ (.name k.identifier) = pure v := by rw [Source.eval_name, known]
  obtain ⟨storageName, identifier, type⟩ := k
  have asItIs (argument : keyArgument ⟨storageName, identifier, type⟩ = .name identifier)
      (same : storedForm? type v = some v) : eval p σ (keyArgument ⟨storageName, identifier, type⟩) = pure stored := by
    obtain rfl := Option.some.inj (same.symm.trans form)
    rw [argument, evaluates]
  -- only points in time and constants of enums are converted
  cases type with
  | scalar kind =>
    cases kind with
    | timestamp =>
      cases v with
      | time t =>
        obtain rfl := Option.some.inj form
        show eval p σ (toStorage 0 (.scalar .timestamp) (.name identifier)) = _
        exact eval_toStorage_timestamp evaluates
      | _ => cases form
    | string => exact asItIs rfl rfl
    | number => exact asItIs rfl rfl
    | boolean => exact asItIs rfl rfl
  | enum name =>
    cases v with
    | member enum constant value =>
      obtain rfl := Option.some.inj form
      show eval p σ (toStorage 0 (.enum name) (.name identifier)) = _
      exact eval_toStorage_enum evaluates (by rw [getAttribute, if_pos rfl])
    | _ => cases form
  | list _ => exact asItIs rfl rfl
  | set _ => exact asItIs rfl rfl
  | record _ => exact asItIs rfl rfl
  | any => exact asItIs rfl rfl

section

variable {receiver v : Datum L} {args : List (Datum L)} {named : List (String × Datum L)}

theorem queryScope_partition (parameters : ("self" :: (partitionOf e i :: (sortOf e i).toList).map (·.identifier)).Nodup) :
    (queryScope e t i receiver v args named).locals (partitionOf e i).identifier = some v := by
  have other : (partitionOf e i).identifier ≠ "self" :=
    Ne.symm (List.ne_of_not_mem_cons (List.nodup_cons.mp parameters).1)
  simp [queryScope, queryParameters, Datum.lookup_cons_ite, other]

theorem queryScope_sort (parameters : ("self" :: (partitionOf e i :: (sortOf e i).toList).map (·.identifier)).Nodup)
    (isSort : sortOf e i = some k) : (queryScope e t i receiver v args named).locals k.identifier =
      some ((argumentFor args named 1 k).getD .none) := by
  rw [isSort] at parameters
  have others : k.identifier ≠ "self" ∧ k.identifier ≠ (partitionOf e i).identifier := by
    simp only [Option.toList_some, List.map_cons, List.map_nil, List.nodup_cons, List.mem_cons, List.not_mem_nil, or_false,
      not_or] at parameters
    exact ⟨Ne.symm parameters.1.2, Ne.symm parameters.2.1⟩
  simp [queryScope, queryParameters, isSort, Datum.lookup_cons_ite, others]

theorem queryScope_helper (helper : keysClass e.name ∉ (partitionOf e i :: (sortOf e i).toList).map (·.identifier)) :
    (queryScope e t i receiver v args named).locals (keysClass e.name) = none := by
  have noSelf : keysClass e.name ∉ ["self"] := ending_notMem (by decide) e.name
  simp only [List.map_cons, List.mem_cons, List.mem_map, Option.mem_toList, not_or, not_exists, not_and] at helper
  refine List.lookup_eq_none_iff.mpr fun parameter member => ?_
  rw [bne_iff_ne]
  rintro same
  -- a parameter is the receiver, the partition key or the sort key
  rcases List.mem_cons.mp member with rfl | member
  · exact List.ne_of_not_mem_cons noSelf same
  · rcases List.mem_cons.mp member with rfl | member
    · exact helper.1 same
    · obtain ⟨k, isSort, rfl⟩ := List.mem_map.mp member
      exact helper.2 k (Option.mem_toList.mp isSort) same.symm

/-- What a query hands over where only its own local names are assigned. -/
theorem LoadsHelpers.evalNamed_query (loads : LoadsHelpers p e t)
    (different : (t.indexes.map fun i => Name.snakeCase i.name).Nodup) (member : i ∈ t.indexes)
    (helper : keysClass e.name ∉ (partitionOf e i :: (sortOf e i).toList).map (·.identifier))
    (noType : keysClass e.name ∉ repositoryTypes e t) {σ : Frame L} (home : σ.home = (repositoryModule e t).value.body)
    (locals : ∀ name, name ∉ requestLocals → σ.locals name = (queryScope e t i receiver v args named).locals name)
    {condition : String} {names : List (String × String)} {values : List (String × Datum L)}
    (hasCondition : σ.locals "key_condition" = some (.text condition))
    (hasNames : σ.locals "expression_names" = some (.dict (names.map fun (place, name) => (.text place, .text name))))
    (hasValues : σ.locals "expression_values" = some (.dict (values.map fun (place, value) => (.text place, value)))) :
    σ.locals "self" = some receiver ∧
      evalNamed p σ (requestKeywords e i) = pure (indexRequest i condition names values) := by
  have fixed : keysClass e.name ∉ requestLocals := ending_notMem (by decide) e.name
  have found : readName p σ (keysClass e.name) = pure (.cls [keysClass e.name]) := by
    refine readName_keysClass home noType ?_
    rw [locals _ fixed, queryScope_helper helper]
  exact ⟨locals "self" (by decide), loads.evalNamed_request different member found hasCondition hasNames hasValues⟩

end

section

variable (unshadowed : Unshadowed e t i) (receiver : Datum L) {args : List (Datum L)} {named : List (String × Datum L)}
include unshadowed

variable (loads : LoadsHelpers p e t) (different : (t.indexes.map fun i => Name.snakeCase i.name).Nodup)
  (member : i ∈ t.indexes) {request : List (String × Datum L)}
include loads different member

/-- The statements of a query put together the request that it is meant to make. -/
theorem conditions_request (meant : indexRequest? e i args named = some request) :
    ∃ v σ, argumentFor args named 0 (partitionOf e i) = some v ∧
      runAll p (queryScope e t i receiver v args named) (conditions e i) = pure (.next σ) ∧
      σ.locals "self" = some receiver ∧ evalNamed p σ (requestKeywords e i) = pure request := by
  simp only [indexRequest?, Option.bind_eq_bind, Option.bind_eq_some_iff] at meant
  obtain ⟨v, given, stored, form, meant⟩ := meant
  let start := queryScope e t i receiver v args named
  let unsorted := partitionScope start (partitionOf e i) stored
  have handed : eval p (namedScope start (partitionOf e i)) (keyArgument (partitionOf e i)) = pure stored := by
    have others := unshadowed.partition
    simp only [List.mem_cons, List.not_mem_nil, or_false, not_or] at others
    refine eval_keyArgument (Source.readName_local ?_) form
    simp only [namedScope, Frame.put_locals, others, if_false]
    exact queryScope_partition unshadowed.parameters
  have stays : unsorted.locals "self" = some receiver ∧ evalNamed p unsorted (requestKeywords e i) =
      pure (indexRequest i "#pk = :pk" [("#pk", i.partitionKey)] [(":pk", stored)]) := by
    refine loads.evalNamed_query different member unshadowed.helper unshadowed.noType rfl
      (fun name other => partitionScope_other other _ _) rfl ?_ rfl
    simp [partitionScope, namedScope, partitionOf, keyAttribute_storageName]
  refine ⟨v, ?_⟩
  rw [runAll_partition handed]
  cases isSort : sortOf e i with
  | none =>
    simp only [isSort, Option.bind_none, Option.some.injEq] at meant
    subst meant
    exact ⟨unsorted, given, Source.runAll_nil, stays⟩
  | some k =>
    have free := unshadowed.sort k isSort
    have parameter : unsorted.locals k.identifier = some ((argumentFor args named 1 k).getD .none) :=
      (partitionScope_other free _ _).trans (queryScope_sort unshadowed.parameters isSort)
    rw [isSort, Option.bind_some] at meant
    rw [Option.toList_some, List.map_singleton, Source.runAll_single]
    -- the sort key takes part unless the caller leaves it out or gives `None`
    cases value : (argumentFor args named 1 k).filter (!·.isNone) with
    | none =>
      have absent : (argumentFor args named 1 k).getD .none = .none := by
        cases found : argumentFor args named 1 k with
        | none => rfl
        | some w =>
          rw [found] at value
          exact Datum.isNone_iff.mp (by simpa using Option.filter_eq_none_iff.mp value w rfl)
      rw [value] at meant
      obtain rfl := Option.some.inj meant
      exact ⟨unsorted, given, run_sortCondition_absent (Source.readName_local (absent ▸ parameter)), stays⟩
    | some w =>
      obtain ⟨found, present⟩ := Option.filter_eq_some_iff.mp value
      rw [value, Option.map_some] at meant
      obtain ⟨sorted, sortForm, meant⟩ := Option.bind_eq_some_iff.mp meant
      obtain rfl := Option.some.inj meant
      rw [found, Option.getD_some] at parameter
      have handedSort : eval p (sortedNamedScope unsorted (partitionOf e i) k) (keyArgument k) = pure sorted :=
        eval_keyArgument (Source.readName_local ((sortedNamedScope_other free _ _).trans parameter)) sortForm
      refine ⟨sortedScope unsorted (partitionOf e i) k stored sorted, given,
        run_sortCondition (Source.readName_local parameter) (by simpa using present) handedSort, ?_⟩
      have locals : ∀ name, name ∉ requestLocals →
          (sortedScope unsorted (partitionOf e i) k stored sorted).locals name = start.locals name := by
        intro name other
        rw [sortedScope_other other, partitionScope_other other]
      refine loads.evalNamed_query different member unshadowed.helper unshadowed.noType rfl locals rfl ?_ rfl
      simp [sortedScope, sortedNamedScope, partitionOf, keyAttribute_storageName]

end

/-- The query of an index hands its request to the loop over the result pages: the name of the index, the condition on
the partition key and on the sort key if there is one, the storage names of both, and the stored forms of the arguments.
No parameter may stand in the way of this. -/
theorem queries_handRequest (loads : LoadsHelpers p e t) (accepted : checkIndexNames t = .ok ()) (member : i ∈ t.indexes)
    (unshadowed : Unshadowed e t i) (table : Datum L) {args : List (Datum L)} {named : List (String × Datum L)}
    (accepts : (querier e i).signature.accepts (repositoryOf e table :: args) named) {request : List (String × Datum L)}
    (meant : indexRequest? e i args named = some request) :
    handedRequest p e t i (repositoryOf e table) args named = pure request ∧
      call p (.method (repositoryOf e table) (queryName i)) args named =
        call p (.method (repositoryOf e table) "_query_all") [] request := by
  have different := checkIndexNames_iff.mp accepted
  obtain ⟨v, σ, given, ran, self, evaluates⟩ :=
    conditions_request unshadowed (repositoryOf e table) loads different member meant
  have entered := enter_query (p := p) (t := t) unshadowed.parameters accepts given
  have loop : getAttribute p (repositoryOf e table) "_query_all" = pure (.method (repositoryOf e table) "_query_all") := by
    rw [repositoryOf, getAttribute, loads.class_repository]
    simp [repositoryCls_pager (List.ne_nil_of_mem member), Datum.lookup_cons_ite]
  constructor
  · rw [handedRequest, entered, pure_bind, ran, pure_bind]
    exact evaluates
  · have invoked : call p (.method (repositoryOf e table) (queryName i)) args named =
        invoke p (repositoryModule e t).value.body (querier e i) (repositoryOf e table :: args) named := by
      rw [repositoryOf, call, loads.class_repository]
      simp only [repositoryCls_query (e := e) different member]
      rfl
    have body : (querier e i).body = conditions e i ++
        [.result (.call (.attr (.name "self") "_query_all") [] (requestKeywords e i))] := rfl
    rw [invoked, invoke, entered, pure_bind, body, Source.runAll_append_next ran, Source.runAll_single, Source.run_result,
      Source.eval_call, Source.eval_attr, Source.eval_name, Source.readName_local self, pure_bind, loop, pure_bind,
      Source.evalAll_nil, pure_bind, evaluates, pure_bind, bind_assoc]
    simp [Source.Flow.returned]

/-! ## Articles and orders -/

/-- A table in which the articles of a maker are found by their numbers. -/
def makersTable : Table := ⟨"articles", none, none, [⟨"by-maker", "maker", some "sku"⟩], []⟩

/-- The articles of a maker are asked for by both keys. -/
theorem makersTable_handsRequest : ∃ e, (describe shopArticle).value = .ok e ∧ checkIndexNames makersTable = .ok () ∧
    LoadsHelpers (helpersProgram e makersTable) e makersTable ∧ ∀ i ∈ makersTable.indexes, Unshadowed e makersTable i ∧
      handedRequest (helpersProgram e makersTable) e makersTable i (repositoryOf e .none) [.text "acme", .text "7"] [] =
        (pure (indexRequest i "#pk = :pk AND #sk = :sk" [("#pk", "maker"), ("#sk", "sku")]
          [(":pk", .text "acme"), (":sk", .text "7")]) : Outcome Library.plain _) := by
  obtain ⟨e, described, checked⟩ := exists_described (s := shopArticle) (P := fun e =>
    decide (TextKeyed e "Article" ["sku"] ∧ keysClass e.name ∉ repositoryTypes e makersTable ∧
      ∀ i ∈ makersTable.indexes, partitionOf e i = ⟨"maker", "maker", .scalar .string⟩ ∧
        sortOf e i = some ⟨"sku", "sku", .scalar .string⟩)) (by decide +kernel)
  obtain ⟨keyed, noType, keys⟩ := of_decide_eq_true checked
  have loads := keyed.loads makersTable (by decide) (by decide)
  have accepted : checkIndexNames makersTable = .ok () := checkIndexNames_iff.mpr (by decide +kernel)
  refine ⟨e, described, accepted, loads, fun i member => ?_⟩
  obtain ⟨partition, sort⟩ := keys i member
  -- no key of the index is called like a local name of the query
  have unshadowed : Unshadowed e makersTable i := by
    refine ⟨?_, ?_, fun k isSort => ?_, ?_, noType, ?_⟩
    · rw [partition, sort]
      decide
    · rw [partition]
      decide
    · rw [sort] at isSort
      obtain rfl := Option.mem_some_iff.mp isSort
      decide
    · rw [partition, sort, keyed.name]
      decide
    · rw [partition, sort]
      decide
  have accepts : (querier e i).signature.accepts
      (repositoryOf e (.none : Datum Library.plain) :: [.text "acme", .text "7"]) [] := by
    rw [querier, partition, sort]
    rfl
  have meant : indexRequest? e i [.text "acme", .text "7"] [] = some (indexRequest i "#pk = :pk AND #sk = :sk"
      [("#pk", "maker"), ("#sk", "sku")] [(":pk", .text "acme"), (":sk", (.text "7" : Datum Library.plain))]) := by
    obtain rfl := List.mem_singleton.mp member
    rw [indexRequest?, partition, sort]
    rfl
  exact ⟨unshadowed, (queries_handRequest loads accepted member unshadowed .none accepts meant).1⟩

/-- An order with a field that is called like a local name of queries. -/
def conditionedOrder : Schema :=
  { entityName := some "Order"
    primaryKey := ⟨"id", none⟩
    fields := [bareField "id" "string", bareField "key_condition" "string"]
    description := none
    schemaVersion := none }

def conditionsTable : Table := ⟨"orders", none, none, [⟨"by-condition", "key_condition", none⟩], []⟩

/-- The query for such orders asks for those whose condition is that of the query. -/
theorem conditionsTable_asksForItself : ¬ ∀ (s : Schema) (e : Entity) (t : Table) (p : Program) (i : Index)
    (table : Datum Library.plain) (args : List (Datum Library.plain)) (named : List (String × Datum Library.plain))
    (request : List (String × Datum Library.plain)), checkCollisions s = .ok () → (describe s).value = .ok e →
      checkIndexNames t = .ok () → LoadsHelpers p e t → i ∈ t.indexes →
      ("self" :: (partitionOf e i :: (sortOf e i).toList).map (·.identifier)).Nodup →
      (querier e i).signature.accepts (repositoryOf e table :: args) named → indexRequest? e i args named = some request →
      handedRequest p e t i (repositoryOf e table) args named = pure request := by
  intro always
  let i : Index := ⟨"by-condition", "key_condition", none⟩
  obtain ⟨e, described, checked⟩ := exists_described (s := conditionedOrder) (P := fun e =>
    decide (TextKeyed e "Order" ["id"] ∧ keysClass e.name ∉ repositoryTypes e conditionsTable ∧
      partitionOf e i = ⟨"key_condition", "key_condition", .scalar .string⟩)) (by decide +kernel)
  obtain ⟨keyed, noType, partition⟩ := of_decide_eq_true checked
  have sort : sortOf e i = none := rfl
  have loads := keyed.loads conditionsTable (by decide) (by decide)
  have collisions : checkCollisions conditionedOrder = .ok () := checkCollisions_ok.mpr (by decide +kernel)
  have accepted : checkIndexNames conditionsTable = .ok () := checkIndexNames_iff.mpr (by decide +kernel)
  have member : i ∈ conditionsTable.indexes := List.mem_cons_self
  have parameters : ("self" :: (partitionOf e i :: (sortOf e i).toList).map (·.identifier)).Nodup := by
    rw [partition, sort]
    decide
  have accepts : (querier e i).signature.accepts (repositoryOf e (.none : Datum Library.plain) :: [.text "7"]) [] := by
    rw [querier, partition, sort]
    rfl
  have given : argumentFor [.text "7"] [] 0 (partitionOf e i) = some (.text "7" : Datum Library.plain) := rfl
  have answers := always _ e conditionsTable _ i .none [.text "7"] []
    (indexRequest i "#pk = :pk" [("#pk", "key_condition")] [(":pk", .text "7")]) collisions described accepted loads member
    parameters accepts (by rw [indexRequest?, partition, sort]; rfl)
  -- the parameter is assigned before it is handed over
  let start : Frame Library.plain := queryScope e conditionsTable i (repositoryOf e .none) (.text "7") [.text "7"] []
  have handed : eval (helpersProgram e conditionsTable) (namedScope start (partitionOf e i)) (keyArgument (partitionOf e i)) =
      (pure (.text "#pk = :pk") : Outcome Library.plain _) := by
    rw [partition]
    exact eval_keyArgument (Source.readName_local rfl) rfl
  have helper : keysClass e.name ∉ (partitionOf e i :: (sortOf e i).toList).map (·.identifier) := by
    rw [partition, sort, keyed.name]
    decide
  let condition := partitionScope start (partitionOf e i) (.text "#pk = :pk")
  have asks : evalNamed (helpersProgram e conditionsTable) condition (requestKeywords e i) =
      pure (indexRequest i "#pk = :pk" [("#pk", (partitionOf e i).storageName)] [(":pk", .text "#pk = :pk")]) :=
    (loads.evalNamed_query (checkIndexNames_iff.mp accepted) member helper noType rfl
      (fun name other => partitionScope_other other _ _) rfl rfl rfl).2
  rw [handedRequest, enter_query parameters accepts given, pure_bind, runAll_partition handed, sort] at answers
  simp only [Option.toList_none, List.map_nil, Source.runAll_nil, pure_bind] at answers
  rw [asks] at answers
  simpa [indexRequest] using Outcome.pure_inj answers

end Tablewright.Access
