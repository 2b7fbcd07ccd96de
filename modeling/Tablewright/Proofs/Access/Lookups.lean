import Tablewright.Proofs.Access.HelperClasses
import Tablewright.Proofs.Access.Items
import Tablewright.Proofs.Schema.Keys

/-!
# Stored keys and lookups

A repository finds and deletes an item by the key that it builds of the key components.  The key helper names the
attributes of that key and the repository converts the components, while the item itself is written by the class of the
entity.  The two agree: a lookup asks for what is stored.

* `LoadsHelpers`: a program with the generated types of an entity, its key helper and its repository.
* `AsksFor`: what the two lookups of a repository ask the table for.
* `Saves`: what the item of an instance has under the name of a key attribute.
* `lookups_askForStored`: the lookups ask for what is stored, unless a key component is called like the key helper.
-/

namespace Tablewright

def TypeRef.isPlain : TypeRef → Bool
  | .scalar _ | .enum _ => true
  | _ => false

namespace Access

open Source (Expr Stmt Param Program Frame Function Datum Library Outcome ClassDef bindings eval evalAll readName send
  getAttribute call invoke update run runAll)

variable {L : Library} {p : Program} {σ : Frame L} {s : Schema} {e : Entity} {t : Table} {k : KeyAttribute}

/-! ## Classes of helpers -/

/-- A program that also has the key helper and the repository of an entity.  Names with two underscores in front have a
meaning of their own in classes. -/
structure LoadsHelpers (p : Program) (e : Entity) (t : Table) : Prop extends Loads p e where
  keys : p.module? (keysClass e.name) = some (keysModule e (some t)).value
  repository : p.module? (repositoryClass e.name) = some (repositoryModule e t).value
  plain : ∀ name ∈ e.name :: e.keys.map (·.identifier), ¬ "__".toList <+: name.toList

def keysCls (e : Entity) (t : Table) : ClassDef :=
  ⟨(keysModule e (some t)).value.body, [], [], (keysHelper e (some t)).suite⟩

def repositoryCls (e : Entity) (t : Table) : ClassDef :=
  ⟨(repositoryModule e t).value.body, [], [], (repositoryHelper e t).value.suite⟩

namespace LoadsHelpers

variable (loads : LoadsHelpers p e t)
include loads

theorem class_keys : p.class? [keysClass e.name] = some (keysCls e t) := by
  simp only [Program.class?, loads.keys, Option.bind_eq_bind, Option.bind_some, Source.classNamed?, keysHelper_bindings,
    List.getLast?_singleton]
  rfl

theorem class_repository : p.class? [repositoryClass e.name] = some (repositoryCls e t) := by
  have last : (bindings (repositoryClass e.name) (repositoryModule e t).value.body).getLast? =
      some (repositoryHelper e t).value := by
    have ending : [(repositoryHelper e t).value] <:+ (repositoryModule e t).value.body := by
      rw [repositoryModule_body]
      exact List.IsSuffix.trans ⟨[_, _, _], rfl⟩ (List.suffix_append _ _)
    obtain ⟨before, body⟩ := ending
    rw [← body]
    exact Source.getLast?_bindings List.mem_cons_self (by simp)
  simp only [Program.class?, loads.repository, Option.bind_eq_bind, Option.bind_some, Source.classNamed?, last]
  rfl

end LoadsHelpers

/-! ### Members -/

def keyBuilder (e : Entity) : Function :=
  ⟨⟨"key", [.name "staticmethod"], e.keys.map fun k => Param.required k.identifier (componentHint k), none,
      some itemType⟩,
    [.result (.dict (.mk (.attr (.name (keysClass e.name)) "PARTITION_KEY_FIELD") (.name e.partitionKey.identifier)
      :: (e.sortKey.map fun k =>
        Source.Entry.mk (.attr (.name (keysClass e.name)) "SORT_KEY_FIELD") (.name k.identifier)).toList))]⟩

/-- The statements of a lookup that follow the answer of the table. -/
def answered (e : Entity) : List Stmt :=
  [Stmt.bind "item" (Expr.method (.name "response") "get" [Expr.text "Item"]),
   .ifThen (Expr.isNone (.name "item")) [.result Expr.none],
   .result (Expr.method (.name e.name) "from_item" [.name "item"])]

def finder (e : Entity) : Function :=
  ⟨⟨"find_by_key", [], Param.plain "self" :: keyParams e.keys, none, some (Expr.generic "Optional" [.name e.name])⟩,
    Stmt.bind "response" (tableCall "get_item" [argument "Key" (keyCall e)]) :: answered e⟩

def deleter (e : Entity) : Function :=
  ⟨⟨"delete_by_key", [], Param.plain "self" :: keyParams e.keys, none, Source.noResult⟩,
    [.expr (tableCall "delete_item" [argument "Key" (keyCall e)])]⟩

def connector : Function :=
  ⟨⟨"__init__", [], [Param.plain "self", Param.required "client" (Expr.text clientClass)], none, Source.noResult⟩,
    [.assign (.attr (.name "self") "_table") (.attr (.name "client") "table")]⟩

theorem indexConstants_unbound {name : String} (other : ¬ "INDEX_".toList <+: name.toList) (table : Option Table) :
    ∀ s ∈ indexConstants table, name ∉ s.binds := by
  refine List.forall_mem_map.mpr fun i _ bound => other ?_
  obtain rfl := List.mem_singleton.mp bound
  rw [Name.toList_indexConstant]
  exact List.prefix_append _ _

theorem keysCls_body (e : Entity) (t : Table) : (keysCls e t).body =
    Stmt.bind "PARTITION_KEY_FIELD" (Expr.text e.partitionKey.storageName)
      :: ((e.sortKey.map fun k => Stmt.bind "SORT_KEY_FIELD" (Expr.text k.storageName)).toList
        ++ (indexConstants (some t) ++ [refusingConstructor (keysClass e.name), keyFunction e])) := by
  simp [keysCls, keysHelper, Stmt.suite]

theorem keysCls_key (e : Entity) (t : Table) : (keysCls e t).member? "key" = some (.staticMethod (keyBuilder e)) := by
  have ending : [keyFunction e] <:+ (keysCls e t).body := by
    rw [keysCls_body, ← List.append_assoc]
    exact List.IsSuffix.trans ⟨[_], rfl⟩ ((List.suffix_append _ _).trans (List.suffix_cons _ _))
  obtain ⟨earlier, found⟩ : ∃ earlier, (keysCls e t).member? "key" = some ((keyFunction e).member earlier) :=
    ClassDef.member?_last ending List.mem_cons_self (by simp)
  rw [found]
  rfl

theorem keysCls_constant {name : String} {value : Expr} {after : List Stmt}
    (ending : Stmt.bind name value :: (after ++ (indexConstants (some t) ++
      [refusingConstructor (keysClass e.name), keyFunction e])) <:+ (keysCls e t).body)
    (listed : name ∈ ["PARTITION_KEY_FIELD", "SORT_KEY_FIELD"]) (unbound : ∀ t ∈ after, name ∉ t.binds) :
    (keysCls e t).member? name = some (.constant value) := by
  have others : ∀ name ∈ ["PARTITION_KEY_FIELD", "SORT_KEY_FIELD"],
      ¬ "INDEX_".toList <+: name.toList ∧ name ≠ "__init__" ∧ name ≠ "key" := by decide
  obtain ⟨noIndex, noConstructor, noFunction⟩ := others name listed
  obtain ⟨earlier, found⟩ : ∃ earlier, (keysCls e t).member? name = some ((Stmt.bind name value).member earlier) :=
    ClassDef.member?_last ending List.mem_cons_self
      (List.forall_mem_append.mpr ⟨unbound, List.forall_mem_append.mpr ⟨indexConstants_unbound noIndex _,
        by simp [refusingConstructor, keyFunction, Stmt.binds, noConstructor, noFunction]⟩⟩)
  rw [found]
  rfl

theorem keysCls_partition (e : Entity) (t : Table) : (keysCls e t).member? "PARTITION_KEY_FIELD" =
    some (.constant (Expr.text e.partitionKey.storageName)) := by
  refine keysCls_constant (by rw [keysCls_body]) (by simp) ?_
  cases e.sortKey <;> simp [Stmt.bind, Stmt.binds]

theorem keysCls_sort {k : KeyAttribute} (isKey : e.sortKey = some k) (t : Table) :
    (keysCls e t).member? "SORT_KEY_FIELD" = some (.constant (Expr.text k.storageName)) := by
  have ending : Stmt.bind "SORT_KEY_FIELD" (Expr.text k.storageName) :: ([] ++ (indexConstants (some t) ++
      [refusingConstructor (keysClass e.name), keyFunction e])) <:+ (keysCls e t).body := by
    rw [keysCls_body, isKey]
    exact List.suffix_cons _ _
  exact keysCls_constant ending (by simp) (by simp)

/-- The statements of a repository that follow its fixed members bind other names. -/
theorem queries_unbound {name : String} (other : ¬ "query_by_".toList <+: name.toList) (noLoop : name ≠ "_query_all") :
    ∀ s ∈ t.indexes.map (indexQuery e) ++ (if t.indexes.isEmpty then [] else [queryAllMethod e]), name ∉ s.binds := by
  refine List.forall_mem_append.mpr ⟨List.forall_mem_map.mpr fun i _ bound => other ?_, ?_⟩
  · obtain rfl := List.mem_singleton.mp bound
    rw [queryName_toList]
    exact List.prefix_append _ _
  · split
    · simp
    · exact List.forall_mem_singleton.mpr (mt List.mem_singleton.mp noLoop)

theorem repositoryCls_body (e : Entity) (t : Table) : (repositoryCls e t).body =
    [repositoryConstructor, fromResource e, saveMethod e, findByKey e, deleteByKey e]
      ++ (t.indexes.map (indexQuery e) ++ (if t.indexes.isEmpty then [] else [queryAllMethod e])) := by
  rw [repositoryCls, repositoryHelper_suite, List.append_assoc]
  rfl

theorem repositoryCls_member {name : String} {s : Stmt} {after : List Stmt}
    (fixed : s :: after <:+ [repositoryConstructor, fromResource e, saveMethod e, findByKey e, deleteByKey e])
    (binds : name ∈ s.binds) (listed : name ∈ ["__init__", "find_by_key", "delete_by_key"])
    (unbound : ∀ t ∈ after, name ∉ t.binds) : ∃ earlier, (repositoryCls e t).member? name = some (s.member earlier) := by
  have others : ∀ name ∈ ["__init__", "find_by_key", "delete_by_key"],
      ¬ "query_by_".toList <+: name.toList ∧ name ≠ "_query_all" := by decide
  obtain ⟨noQuery, noLoop⟩ := others name listed
  have ending : s :: (after ++ (t.indexes.map (indexQuery e) ++ (if t.indexes.isEmpty then [] else [queryAllMethod e])))
      <:+ (repositoryCls e t).body := by
    obtain ⟨before, split⟩ := fixed
    rw [repositoryCls_body, ← split, List.append_assoc]
    exact List.suffix_append _ _
  exact ClassDef.member?_last ending binds (List.forall_mem_append.mpr ⟨unbound, queries_unbound noQuery noLoop⟩)

theorem repositoryCls_init (e : Entity) (t : Table) :
    (repositoryCls e t).member? "__init__" = some (.method connector) := by
  obtain ⟨earlier, found⟩ : ∃ earlier, (repositoryCls e t).member? "__init__" =
      some (repositoryConstructor.member earlier) :=
    repositoryCls_member (List.suffix_refl _) List.mem_cons_self (by simp)
      (by simp [fromResource, saveMethod, findByKey, deleteByKey, Stmt.binds])
  rw [found]
  rfl

theorem repositoryCls_find (e : Entity) (t : Table) :
    (repositoryCls e t).member? "find_by_key" = some (.method (finder e)) := by
  obtain ⟨earlier, found⟩ : ∃ earlier, (repositoryCls e t).member? "find_by_key" = some ((findByKey e).member earlier) :=
    repositoryCls_member ⟨[_, _, _], rfl⟩ List.mem_cons_self (by simp) (by simp [deleteByKey, Stmt.binds])
  rw [found]
  rfl

theorem repositoryCls_delete (e : Entity) (t : Table) :
    (repositoryCls e t).member? "delete_by_key" = some (.method (deleter e)) := by
  obtain ⟨earlier, found⟩ : ∃ earlier, (repositoryCls e t).member? "delete_by_key" =
      some ((deleteByKey e).member earlier) :=
    repositoryCls_member ⟨[_, _, _, _], rfl⟩ List.mem_cons_self (by simp) (by simp)
  rw [found]
  rfl

/-- The table is an attribute of the repository itself. -/
theorem repositoryCls_table (e : Entity) (t : Table) : (repositoryCls e t).member? "_table" = none := by
  refine ClassDef.member?_eq_none ?_
  rw [repositoryCls_body]
  refine List.forall_mem_append.mpr ⟨?_, queries_unbound (by decide) (by decide)⟩
  simp [repositoryConstructor, fromResource, saveMethod, findByKey, deleteByKey, Stmt.binds]

/-! ## Keys -/

/-- The entries of a key whose components are stored as some data. -/
def keyEntries (e : Entity) (w : KeyAttribute → Datum L) : List (Datum L × Datum L) :=
  e.keys.map fun k => (.text k.storageName, w k)

/-- The value of a parameter, where all of them have different names. -/
theorem lookup_parameter {α β : Type} {name : α → String} {value : α → β} {items : List α}
    (distinct : (items.map name).Nodup) {a : α} (member : a ∈ items) :
    ((items.map name).zip (items.map value)).lookup (name a) = some (value a) := by
  induction items with
  | nil => cases member
  | cons first rest ih =>
    obtain ⟨fresh, distinct⟩ := List.nodup_cons.mp distinct
    rw [List.map_cons, List.map_cons, List.zip_cons_cons, Datum.lookup_cons_ite]
    rcases List.mem_cons.mp member with rfl | member
    · rw [if_pos rfl]
    · rw [if_neg, ih distinct member]
      rintro same
      exact fresh (same ▸ List.mem_map_of_mem member)

theorem lookup_noParameter {α : Type} {names : List String} {values : List α} {name : String} (other : name ∉ names) :
    (names.zip values).lookup name = none := by
  refine List.lookup_eq_none_iff.mpr fun entry member => ?_
  rw [bne_iff_ne]
  rintro rfl
  exact other (List.of_mem_zip member).1

/-- Key attributes of different identifiers have different storage names. -/
theorem Describes.storageNames_nodup (describes : Describes s e) (distinct : (e.keys.map (·.identifier)).Nodup) :
    (e.keys.map (·.storageName)).Nodup := by
  refine List.Nodup.map_on (fun k isKey l isKey' same => ?_) (List.Nodup.of_map _ distinct)
  rw [(describes.ofEntity_keys k isKey).ext (describes.ofEntity_keys l isKey') same]

theorem dictOf?_keyEntries (different : (e.keys.map (·.storageName)).Nodup) (w : KeyAttribute → Datum L) :
    Datum.dictOf? (keyEntries e w) = some (.dict (keyEntries e w)) := by
  rw [keyEntries, Entity.keys] at *
  cases sortKey : e.sortKey with
  | none => simp [Datum.dictOf?, Datum.put, Datum.isScalar]
  | some k =>
    have other : e.partitionKey.storageName ≠ k.storageName := by simpa [sortKey] using different
    simp [Datum.dictOf?, Datum.put, Datum.isScalar, Datum.same_text, Datum.text?, other]

/-- The key helper makes a key of the storage names of the key attributes and of what it is given. -/
theorem LoadsHelpers.build_key (loads : LoadsHelpers p e t) (distinct : (e.keys.map (·.identifier)).Nodup)
    (own : keysClass e.name ∉ e.keys.map (·.identifier)) (different : (e.keys.map (·.storageName)).Nodup)
    (w : KeyAttribute → Datum L) :
    send p (.cls [keysClass e.name]) "key" (e.keys.map w) = pure (.dict (keyEntries e w)) := by
  have wellFormed : (keyBuilder e).signature.wellFormed := by
    simpa [Source.Signature.wellFormed, keyBuilder, Param.required, Function.comp_def] using distinct
  have params : (keyBuilder e).signature.params.map (·.name) = e.keys.map (·.identifier) := by
    simp [keyBuilder, Param.required]
  rw [Source.send_staticMethod loads.class_keys rfl (keysCls_key e t),
    Source.invoke_result _ rfl wellFormed (by simp [keyBuilder]) rfl, params, Source.eval_dict]
  -- in the scope of the function only the parameters are local, and the helper is not among them
  generalize scope : (⟨(keysCls e t).home, fun id => ((e.keys.map (·.identifier)).zip (e.keys.map w)).lookup id⟩ :
    Frame L) = σ
  have helper : readName p σ (keysClass e.name) = pure (.cls [keysClass e.name]) := by
    have noLocal : σ.locals (keysClass e.name) = none := by
      rw [← scope]
      exact lookup_noParameter own
    have bound : bindings (keysClass e.name) σ.home = [keysHelper e (some t)] := by
      rw [← scope]
      exact keysHelper_bindings e (some t)
    rw [readName, noLocal, bound]
    rfl
  have constant {name storageName : String} (named : (keysCls e t).member? name = some (.constant (Expr.text storageName))) :
      eval p σ (.attr (.name (keysClass e.name)) name) = pure (.text storageName) := by
    rw [Source.eval_attr, Source.eval_name, helper, pure_bind,
      Source.getAttribute_constant loads.class_keys rfl named, Source.eval_text]
  have component : ∀ k ∈ e.keys, eval p σ (.name k.identifier) = pure (w k) := by
    intro k isKey
    rw [Source.eval_name, ← scope]
    exact Source.readName_local (lookup_parameter distinct isKey)
  have entries : Source.evalEntries p σ (.mk (.attr (.name (keysClass e.name)) "PARTITION_KEY_FIELD")
      (.name e.partitionKey.identifier) :: (e.sortKey.map fun k => Source.Entry.mk
        (.attr (.name (keysClass e.name)) "SORT_KEY_FIELD") (.name k.identifier)).toList) = pure (keyEntries e w) := by
    rw [Source.evalEntries_cons, constant (keysCls_partition e t), component e.partitionKey List.mem_cons_self]
    cases sortKey : e.sortKey with
    | none => simp [keyEntries, Entity.keys, sortKey]
    | some k =>
      rw [Option.map_some, Option.toList_some, Source.evalEntries_cons, constant (keysCls_sort sortKey t),
        component k (by simp [Entity.keys, sortKey])]
      simp [keyEntries, Entity.keys, sortKey]
  rw [entries, pure_bind, dictOf?_keyEntries different w, Outcome.given_some]

/-! ## Lookups -/

def repositoryOf (e : Entity) (table : Datum L) : Datum L := .object [repositoryClass e.name] [("_table", table)]

def request (p : Program) (table : Datum L) (method : String) (key : Datum L) : Outcome L (Datum L) := do
  let f ← getAttribute p table method
  call p f [] [("Key", key)]

/-- The scope of a lookup that is given some key components. -/
def lookupScope (e : Entity) (t : Table) (table : Datum L) (values : KeyAttribute → Datum L) : Frame L :=
  ⟨(repositoryModule e t).value.body, fun id =>
    (("self" :: e.keys.map (·.identifier)).zip (repositoryOf e table :: e.keys.map values)).lookup id⟩

/-- Given some key components, both lookups ask the table for a key, and then do what they do with the answer. -/
structure AsksFor (p : Program) (e : Entity) (t : Table) (values : KeyAttribute → Datum L) (key : Datum L) : Prop where
  deletes : ∀ table, send p (repositoryOf e table) "delete_by_key" (e.keys.map values) = (do
    let _ ← request p table "delete_item" key
    pure .none)
  finds : ∀ table, send p (repositoryOf e table) "find_by_key" (e.keys.map values) = (do
    let response ← request p table "get_item" key
    let flow ← runAll p ((lookupScope e t table values).put "response" response) (answered e)
    pure flow.returned)

/-- A key component is read under the identifier of its key attribute. -/
theorem lookupScope_parameter (distinct : ("self" :: e.keys.map (·.identifier)).Nodup) (isKey : k ∈ e.keys)
    (table : Datum L) (values : KeyAttribute → Datum L) :
    readName p (lookupScope e t table values) k.identifier = pure (values k) := by
  obtain ⟨noSelf, parameters⟩ := List.nodup_cons.mp distinct
  have other : k.identifier ≠ "self" := fun same => noSelf (same ▸ List.mem_map_of_mem isKey)
  have found : ((e.keys.map (·.identifier)).zip (e.keys.map values)).lookup k.identifier = some (values k) :=
    lookup_parameter parameters isKey
  exact Source.readName_local ((Datum.lookup_cons_ite ..).trans ((if_neg other).trans found))

/-- In the methods of a repository the name of the key helper stands for the key helper, unless it is that of a local or
of a type that the repository imports. -/
theorem readName_keysClass (home : σ.home = (repositoryModule e t).value.body) (noType : keysClass e.name ∉ repositoryTypes e t)
    (noLocal : σ.locals (keysClass e.name) = none) : readName p σ (keysClass e.name) = pure (.cls [keysClass e.name]) := by
  have last : (bindings (keysClass e.name) σ.home).getLast? = some (keysImport e) := by
    rw [home]
    exact (keysClass_bindings e t).mpr noType
  have relative : (s!"..{keysPackage}." ++ Name.snakeCase (keysClass e.name)).toList.head? = some '.' := by
    rw [String.toList_append]
    rfl
  rw [readName, noLocal, last, keysImport]
  simp only [relative, if_true]

/-- In the methods of a repository the name of the entity stands for the entity, unless it is that of a local. -/
theorem readName_entity (home : σ.home = (repositoryModule e t).value.body) (noLocal : σ.locals e.name = none) :
    readName p σ e.name = pure (.cls [e.name]) := by
  have last : (bindings e.name σ.home).getLast? = some (.importFrom (".." ++ Name.snakeCase e.name) [e.name]) := by
    have noValidator : e.name ≠ validatorClass e.name := (ending_ne_self (by decide) e.name).symm
    have repository : (repositoryHelper e t).value.binds = [repositoryClass e.name] := rfl
    have ending : classStatements e t <:+ (repositoryModule e t).value.body := by
      rw [repositoryModule_parts]
      exact ((List.suffix_append _ _).trans (List.suffix_cons _ _)).trans (List.suffix_append _ _)
    obtain ⟨before, body⟩ := ending
    rw [home, ← body]
    refine Source.getLast?_bindings List.mem_cons_self (List.forall_mem_cons.mpr ⟨?_, List.forall_mem_cons.mpr ⟨?_,
      List.forall_mem_singleton.mpr ?_⟩⟩)
    · exact mt List.mem_singleton.mp noValidator
    · exact List.not_mem_nil
    · rw [repository]
      exact mt List.mem_singleton.mp (repositoryClass_ne_name e).symm
  have relative : (".." ++ Name.snakeCase e.name).toList.head? = some '.' := by
    rw [String.toList_append]
    rfl
  rw [readName, noLocal, last]
  simp only [relative, if_true]

theorem evalAll_map {α : Type} {expr : α → Expr} {value : α → Datum L} {items : List α}
    (each : ∀ a ∈ items, eval p σ (expr a) = pure (value a)) :
    evalAll p σ (items.map expr) = pure (items.map value) := by
  induction items with
  | nil => simp
  | cons a rest ih =>
    obtain ⟨here, there⟩ := List.forall_mem_cons.mp each
    simp [here, ih there]

namespace LoadsHelpers

variable (loads : LoadsHelpers p e t)
include loads

/-- A repository that is made of a connection works on the table of that. -/
theorem connect (client : Datum L) : call p (.cls [repositoryClass e.name]) [client] [] = (do
    let table ← getAttribute p client "table"
    pure (repositoryOf e table)) := by
  have kept (table : Datum L) : Source.setAttribute p (.object [repositoryClass e.name] []) "_table" table =
      pure (repositoryOf e table) :=
    Source.setAttribute_plain loads.class_repository rfl (by simp [repositoryCls_table]) [] table
  rw [Source.call_class loads.class_repository rfl rfl (repositoryCls_init e t), Source.update_given _ rfl rfl rfl,
    connector, Source.runAll_single, Source.run_assign, Source.eval_attr, Source.eval_name,
    Source.readName_local rfl, pure_bind, bind_assoc]
  refine bind_congr fun table => ?_
  rw [@Source.assign_attr _ p _ "self" (.object [repositoryClass e.name] []) rfl, kept, pure_bind, pure_bind]
  simp [Param.plain]

theorem eval_table {table : Datum L} (self : σ.locals "self" = some (repositoryOf e table)) :
    eval p σ (.attr (.name "self") "_table") = pure table := by
  rw [Source.eval_attr, Source.eval_name, Source.readName_local self, pure_bind, repositoryOf]
  refine Source.getAttribute_plain rfl fun c cls getter setter property => ?_
  obtain rfl : repositoryCls e t = c := Option.some.inj (loads.class_repository.symm.trans cls)
  rw [repositoryCls_table] at property
  cases property

/-- A lookup runs in its scope. -/
theorem send_lookup {f : Function} {name : String} (member : (repositoryCls e t).member? name = some (.method f))
    (params : f.signature.params = Param.plain "self" :: keyParams e.keys) (noRest : f.signature.rest = none)
    (other : name ≠ "_table") (distinct : ("self" :: e.keys.map (·.identifier)).Nodup)
    (table : Datum L) (values : KeyAttribute → Datum L) :
    send p (repositoryOf e table) name (e.keys.map values) = (do
      let flow ← runAll p (lookupScope e t table values) f.body
      pure flow.returned) := by
  have names : f.signature.params.map (·.name) = "self" :: e.keys.map (·.identifier) := by
    simp [params, Param.plain, keyParams, Param.required]
  have wellFormed : f.signature.wellFormed := by
    simpa [Source.Signature.wellFormed, names, noRest] using distinct
  have length : (repositoryOf e table :: e.keys.map values).length = f.signature.params.length := by
    simp [params, keyParams]
  rw [repositoryOf, Source.send_instance loads.class_repository member (by simp [other]), ← repositoryOf,
    Source.invoke_given _ wellFormed length noRest, names]
  rfl

theorem eval_request (table : Datum L) (values : KeyAttribute → Datum L) (method : String) :
    eval p (lookupScope e t table values) (tableCall method [argument "Key" (keyCall e)]) = (do
      let f ← getAttribute p table method
      let key ← eval p (lookupScope e t table values) (keyCall e)
      call p f [] [("Key", key)]) := by
  rw [tableCall, Source.eval_call, Source.eval_attr, loads.eval_table rfl, pure_bind]
  simp [argument]

/-- The key of a lookup, if its parameters and the types that the repository imports are not called like the key
helper. -/
theorem eval_keyCall (distinct : ("self" :: e.keys.map (·.identifier)).Nodup)
    (own : keysClass e.name ∉ e.keys.map (·.identifier)) (noType : keysClass e.name ∉ repositoryTypes e t)
    (different : (e.keys.map (·.storageName)).Nodup) (table : Datum L) {values w : KeyAttribute → Datum L}
    (handed : ∀ k ∈ e.keys, ∀ σ : Frame L, readName p σ k.identifier = pure (values k) →
      eval p σ (keyArgument k) = pure (w k)) :
    eval p (lookupScope e t table values) (keyCall e) = pure (.dict (keyEntries e w)) := by
  have helper : readName p (lookupScope e t table values) (keysClass e.name) = pure (.cls [keysClass e.name]) := by
    have noSelf : keysClass e.name ∉ ["self"] := ending_notMem (by decide) e.name
    refine readName_keysClass rfl noType ?_
    exact lookup_noParameter (List.not_mem_cons_of_ne_of_not_mem (List.ne_of_not_mem_cons noSelf) own)
  have components : evalAll p (lookupScope e t table values) (e.keys.map keyArgument) = pure (e.keys.map w) :=
    evalAll_map fun k isKey => handed k isKey _ (lookupScope_parameter distinct isKey table values)
  rw [keyCall, Source.eval_method_all ((Source.eval_name _).trans helper) components,
    loads.build_key (List.nodup_cons.mp distinct).2 own different]

/-- Lookups ask for what the key components come to. -/
theorem asksFor (distinct : ("self" :: e.keys.map (·.identifier)).Nodup)
    (own : keysClass e.name ∉ e.keys.map (·.identifier)) (noType : keysClass e.name ∉ repositoryTypes e t)
    (different : (e.keys.map (·.storageName)).Nodup) {values w : KeyAttribute → Datum L}
    (handed : ∀ k ∈ e.keys, ∀ σ : Frame L, readName p σ k.identifier = pure (values k) →
      eval p σ (keyArgument k) = pure (w k)) : AsksFor p e t values (.dict (keyEntries e w)) where
  deletes table := by
    have key := loads.eval_keyCall distinct own noType different table handed
    rw [loads.send_lookup (repositoryCls_delete e t) rfl rfl (by decide) distinct, deleter, Source.runAll_single,
      Source.run_expr rfl, loads.eval_request, key]
    simp [request, Source.Flow.returned]
  finds table := by
    have key := loads.eval_keyCall distinct own noType different table handed
    rw [loads.send_lookup (repositoryCls_find e t) rfl rfl (by decide) distinct, finder, Source.runAll_cons,
      Source.run_bind, loads.eval_request, key]
    simp [request]

section

variable (distinct : ("self" :: e.keys.map (·.identifier)).Nodup) (isKey : k ∈ e.keys)
  (captured : k.identifier = keysClass e.name) {values : KeyAttribute → Datum L}
  (noKey : getAttribute p (values k) "key" = Outcome.stuck)
include distinct isKey captured noKey

/-- A lookup whose parameter is called like the key helper asks that parameter for a key. -/
theorem eval_request_captured (table : Datum L) (method : String) :
    eval p (lookupScope e t table values) (tableCall method [argument "Key" (keyCall e)]) = (do
      let _ ← getAttribute p table method
      Outcome.stuck) := by
  have parameter := lookupScope_parameter (p := p) (t := t) distinct isKey table values
  rw [captured] at parameter
  rw [loads.eval_request, keyCall, Expr.method, Source.eval_call, Source.eval_attr, Source.eval_name, parameter, pure_bind,
    noKey]
  rfl

/-- Lookups whose parameter is called like the key helper come to nothing. -/
theorem send_captured (table : Datum L) :
    send p (repositoryOf e table) "delete_by_key" (e.keys.map values) = (do
      let _ ← getAttribute p table "delete_item"
      Outcome.stuck) ∧
    send p (repositoryOf e table) "find_by_key" (e.keys.map values) = (do
      let _ ← getAttribute p table "get_item"
      Outcome.stuck) := by
  have request := loads.eval_request_captured distinct isKey captured noKey table
  constructor
  · rw [loads.send_lookup (repositoryCls_delete e t) rfl rfl (by decide) distinct, deleter, Source.runAll_single,
      Source.run_expr rfl, request, bind_assoc, bind_assoc]
    rfl
  · rw [loads.send_lookup (repositoryCls_find e t) rfl rfl (by decide) distinct, finder, Source.runAll_cons,
      Source.run_bind, request, bind_assoc, bind_assoc, bind_assoc]
    rfl

end

end LoadsHelpers

/-! ## Items -/

/-- An instance of an entity whose own attributes leave the methods of the class alone. -/
def IsInstance (e : Entity) (x : Datum L) : Prop :=
  ∃ attributes, x = .object [e.name] attributes ∧ attributes.lookup "to_item" = none

/-- The item of an instance that holds a value behind a key attribute has some datum under the name of that. -/
def Saves (p : Program) (e : Entity) (k : KeyAttribute) (v w : Datum L) : Prop :=
  ∀ x d, IsInstance e x → getAttribute p x (backing k.identifier) = pure v → send p x "to_item" [] = pure d →
    ∃ item, d = .dict item ∧ Datum.get? item (.text k.storageName) = some w

/-- A field of an instance holds something that can be stored, or nothing. -/
def Storable (p : Program) (x : Datum L) (f : ResolvedField) : Prop :=
  ∃ v stored, getAttribute p x (backing f.identifier) = pure v ∧ Written p f.type v stored

/-- The scope of the method that gives the item of an instance. -/
def itemScope (e : Entity) (x : Datum L) : Frame L :=
  (Frame.top (recordModule e.enums e.record).value.body).put "self" x

theorem eval_backingOf {f : ResolvedField} {x v : Datum L} (holds : getAttribute p x (backing f.identifier) = pure v)
    (item : List (Datum L × Datum L)) : eval p ((itemScope e x).put "item" (.dict item)) (backingOf "self" f) = pure v := by
  have self : readName p ((itemScope e x).put "item" (.dict item)) "self" = pure x := Source.readName_local rfl
  rw [backingOf, Source.eval_attr, Source.eval_name, self, pure_bind, holds]

theorem runAll_itemResult (x : Datum L) (item : List (Datum L × Datum L)) :
    runAll p ((itemScope e x).put "item" (.dict item)) [.result (.name "item")] = pure (.result (.dict item)) := by
  rw [Source.runAll_single, Source.run_result, Source.eval_name, Source.readName_local (Frame.put_locals_self ..), pure_bind]

section

variable (describes : Describes s e) (loads : Loads p e)
include loads

theorem send_toItem_instance {x : Datum L} (isInstance : IsInstance e x) : send p x "to_item" [] = (do
    let flow ← runAll p ((itemScope e x).put "item" (.dict []))
      (e.record.fields.map writeEntry ++ [.result (.name "item")])
    pure flow.returned) := by
  obtain ⟨attributes, rfl, absent⟩ := isInstance
  have cls : p.class? [e.name] = some (recordCls e.enums e.record) := loads.class_record List.mem_cons_self
  have empty : run p (itemScope e (.object [e.name] attributes)) (.annotated "item" itemType (some (.dict []))) =
      pure (.next ((itemScope e (.object [e.name] attributes)).put "item" (.dict []))) := by
    rw [Source.run_annotated, Source.eval_empty, pure_bind]
  have scope : (⟨(recordCls e.enums e.record).home, fun id =>
      (((toItemFunction e.record).signature.params.map (·.name)).zip [.object [e.name] attributes]).lookup id⟩ : Frame L) =
      itemScope e (.object [e.name] attributes) := Frame.scope_cons _ "self" _ []
  have body : (toItemFunction e.record).body = .annotated "item" itemType (some (.dict []))
      :: (e.record.fields.map writeEntry ++ [.result (.name "item")]) := rfl
  rw [Source.send_instance cls (member_toItem _ _) absent, Source.invoke_given _ rfl rfl rfl, scope, body,
    Source.runAll_next empty]

include describes

theorem run_writeEntry_instance {x : Datum L} {f : ResolvedField} (inRecord : f ∈ e.record.fields) {v : Datum L}
    (holds : getAttribute p x (backing f.identifier) = pure v) {stored : Option (Datum L)}
    (written : Written p f.type v stored) (item : List (Datum L × Datum L)) :
    run p ((itemScope e x).put "item" (.dict item)) (writeEntry f) = pure (.next ((itemScope e x).put "item"
      (.dict (stored.elim item (Datum.put item (.text f.storageName)))))) := by
  refine loads.run_writeEntry describes List.mem_cons_self rfl (fun name other => ?_) inRecord
    (eval_backingOf holds item) written
  simp only [List.mem_cons, not_or] at other
  simp [itemScope, other, Frame.top]

/-- An instance has an item if all of its fields can be stored. -/
theorem toItem_returns {x : Datum L} (isInstance : IsInstance e x) (storable : ∀ f ∈ e.record.fields, Storable p x f) :
    ∃ item, send p x "to_item" [] = pure (.dict item) := by
  choose! v stored holds written using storable
  have ran := Source.runAll_foldl (fun item => (itemScope e x).put "item" (.dict item))
    (fun f inRecord item => run_writeEntry_instance describes loads inRecord (holds f inRecord) (written f inRecord) item) []
  rw [send_toItem_instance loads isInstance, Source.runAll_append_next ran, runAll_itemResult, pure_bind]
  exact ⟨_, rfl⟩

/-- The item of an instance has what the last field of a storage name holds. -/
theorem saves_declared (isKey : k ∈ e.keys) (declares : e.Declares k.storageName) {v w : Datum L}
    (written : Written p k.type v (some w)) : Saves p e k v w := by
  intro x d isInstance holds sent
  obtain ⟨entityName, value⟩ := describes.ofEntity_keys k isKey
  rcases keyAttribute_cases entityName e.record.fields k.storageName with
    ⟨before, f, after, split, others, same, found⟩ | ⟨absent, -⟩
  · rw [found] at value
    have inRecord : f ∈ e.record.fields := split ▸ List.mem_append_right _ List.mem_cons_self
    rw [value] at holds written
    rw [send_toItem_instance loads isInstance, split, List.map_append, List.map_cons, List.append_assoc,
      List.cons_append] at sent
    obtain ⟨flow, ran, returned⟩ := Outcome.bind_eq_pure sent
    obtain ⟨item, ran, -⟩ := runAll_writeEntry_returns ran
    rw [Source.runAll_next (run_writeEntry_instance describes loads inRecord holds written item)] at ran
    -- later fields have other storage names
    obtain ⟨item', ran, kept⟩ := runAll_writeEntry_returns ran
    rw [runAll_itemResult] at ran
    obtain rfl := Outcome.pure_inj ran
    refine ⟨item', (Outcome.pure_inj returned).symm, ?_⟩
    have fresh : f.storageName ∉ after.map (·.storageName) := by
      intro later
      obtain ⟨g, member, again⟩ := List.mem_map.mp later
      exact others g member (again.trans same)
    rw [← same, kept _ fresh, Option.elim_some, Datum.get?_put, if_pos rfl]
  · exact absurd declares absent

end

/-! ## Key components -/

section

variable (describes : Describes s e) (loads : LoadsHelpers p e t) (isKey : k ∈ e.keys)
  {instances : String → Datum L → Prop} {v : Datum L} (typed : Typed instances (Listed p) k.type v)
include describes loads isKey typed

/-- What a lookup hands to the key helper is what is stored of the same value. -/
theorem exists_handed (faithful : L.Faithful) : ∃ w : Datum L,
    (∀ σ : Frame L, readName p σ k.identifier = pure v → eval p σ (keyArgument k) = pure w) ∧
      (k.type.isPlain → Written p k.type v (some w)) := by
  have provided := repositoryKeys_provided (t := t) describes (List.mem_append_left _ isKey)
  obtain ⟨storageName, identifier, type⟩ := k
  have asItIs (argument : keyArgument ⟨storageName, identifier, type⟩ = .name identifier) (σ : Frame L)
      (known : readName p σ identifier = pure v) : eval p σ (keyArgument ⟨storageName, identifier, type⟩) = pure v := by
    rw [argument, Source.eval_name, known]
  cases typed with
  | string s => exact ⟨_, asItIs rfl, fun _ => .inr ⟨_, rfl, by simp, stores_self (fun _ _ => rfl) _, rfl⟩⟩
  | number d => exact ⟨_, asItIs rfl, fun _ => .inr ⟨_, rfl, by simp, stores_number faithful d, rfl⟩⟩
  | boolean b => exact ⟨_, asItIs rfl, fun _ => .inr ⟨_, rfl, by simp, stores_self (fun _ _ => rfl) _, rfl⟩⟩
  | timestamp t =>
    refine ⟨_, fun σ known => ?_, fun _ => .inr ⟨_, rfl, by simp, stores_timestamp t, rfl⟩⟩
    show eval p σ (toStorage 0 (.scalar .timestamp) (.name identifier)) = _
    exact eval_toStorage_timestamp ((Source.eval_name _).trans known)
  | @enum name _ listed =>
    obtain ⟨constant, gives⟩ := listed
    obtain ⟨present, s, value, -⟩ := loads.constant_comesBack (provided.enums name (List.mem_singleton_self _)) gives
    refine ⟨.text s, fun σ known => ?_, fun _ => .inr ⟨_, ?_, by simp, stores_enum value, rfl⟩⟩
    · show eval p σ (toStorage 0 (.enum name) (.name identifier)) = _
      exact eval_toStorage_enum ((Source.eval_name _).trans known) value
    · cases v <;> first | rfl | exact absurd rfl present
  | list each => exact ⟨_, asItIs rfl, fun plain => absurd plain Bool.false_ne_true⟩
  | set different each => exact ⟨_, asItIs rfl, fun plain => absurd plain Bool.false_ne_true⟩
  | record made => exact ⟨_, asItIs rfl, fun plain => absurd plain Bool.false_ne_true⟩
  | any => exact ⟨_, asItIs rfl, fun plain => absurd plain Bool.false_ne_true⟩

/-- The values of key attributes have no function that builds keys. -/
theorem getAttribute_noKey (plain : k.type.isPlain) : getAttribute p v "key" = Outcome.stuck := by
  have provided := repositoryKeys_provided (t := t) describes (List.mem_append_left _ isKey)
  obtain ⟨storageName, identifier, type⟩ := k
  cases typed with
  | string s | number d | boolean b | timestamp t =>
    rw [getAttribute]
    · rfl
    all_goals simp
  | @enum name _ listed =>
    obtain ⟨constant, gives⟩ := listed
    obtain ⟨enum, member, rfl⟩ := List.mem_map.mp (provided.enums name (List.mem_singleton_self _))
    obtain ⟨c, -, rfl⟩ := loads.constant_first member gives
    rw [getAttribute]
    rfl
  | list _ | set _ _ | record _ | any _ => cases plain

end

/-- Both lookups of a repository ask for the key attributes by the names and with the data that the item of an instance
has of them, if the instance holds what the lookups are given; and an instance whose fields can be stored has an item.
A key component of a plain type that is called like the key helper stands in the way: then the lookups ask that component
for a key and come to nothing. -/
theorem lookups_askForStored (described : (describe s).value = .ok e) (faithful : L.Faithful)
    (loads : LoadsHelpers p e t) (distinct : ("self" :: e.keys.map (·.identifier)).Nodup)
    (noType : keysClass e.name ∉ repositoryTypes e t) {instances : String → Datum L → Prop}
    {values : KeyAttribute → Datum L} (typed : ∀ k ∈ e.keys, Typed instances (Listed p) k.type (values k)) :
    (keysClass e.name ∉ e.keys.map (·.identifier) → ∃ w : KeyAttribute → Datum L,
      AsksFor p e t values (.dict (keyEntries e w)) ∧
        ∀ k ∈ e.keys, e.Declares k.storageName → k.type.isPlain → Saves p e k (values k) (w k)) ∧
    (∀ x : Datum L, IsInstance e x → (∀ f ∈ e.record.fields, Storable p x f) →
      ∃ item, send p x "to_item" [] = pure (.dict item)) ∧
    ∀ k ∈ e.keys, k.type.isPlain → k.identifier = keysClass e.name → ∀ table d,
      send p (repositoryOf e table) "delete_by_key" (e.keys.map values) ≠ pure d ∧
        send p (repositoryOf e table) "find_by_key" (e.keys.map values) ≠ pure d := by
  have describes := describe_ok described
  refine ⟨fun own => ?_, fun x isInstance storable => toItem_returns describes loads.toLoads isInstance storable,
    fun k isKey plain taken table d => ?_⟩
  rotate_left
  · have noKey := getAttribute_noKey describes loads isKey (typed k isKey) plain
    obtain ⟨deletes, finds⟩ := loads.send_captured distinct isKey taken noKey table
    rw [deletes, finds]
    exact ⟨Outcome.bind_stuck_ne_pure, Outcome.bind_stuck_ne_pure⟩
  -- a component exists for every key attribute; the others, which no call asks for, get none
  have each : ∀ k, ∃ w : Datum L, k ∈ e.keys →
      (∀ σ : Frame L, readName p σ k.identifier = pure (values k) → eval p σ (keyArgument k) = pure w) ∧
        (k.type.isPlain → Written p k.type (values k) (some w)) := by
    intro k
    by_cases isKey : k ∈ e.keys
    · obtain ⟨w, both⟩ := exists_handed describes loads isKey (typed k isKey) faithful
      exact ⟨w, fun _ => both⟩
    · exact ⟨.none, fun inside => absurd inside isKey⟩
  choose w handed using each
  have different := Describes.storageNames_nodup describes (List.nodup_cons.mp distinct).2
  exact ⟨w, loads.asksFor distinct own noType different fun k isKey => (handed k isKey).1,
    fun k isKey declares plain => saves_declared describes loads.toLoads isKey declares ((handed k isKey).2 plain)⟩

/-! ## Articles and orders -/

/-- A program with an entity that has no other types, its key helper and its repository. -/
def helpersProgram (e : Entity) (t : Table) : Program :=
  ⟨fun name =>
    if name = e.name then some (recordModule e.enums e.record).value
    else if name = keysClass e.name then some (keysModule e (some t)).value
    else if name = repositoryClass e.name then some (repositoryModule e t).value
    else none⟩

/-- A description without other types, whose key attributes are texts. -/
structure TextKeyed (e : Entity) (name : String) (identifiers : List String) : Prop where
  name : e.name = name
  nested : e.nested = []
  enums : e.enums = []
  identifiers : e.keys.map (·.identifier) = identifiers
  texts : ∀ k ∈ e.keys, k.type = .scalar .string

instance (e : Entity) (name : String) (identifiers : List String) : Decidable (TextKeyed e name identifiers) :=
  decidable_of_iff (e.name = name ∧ e.nested.isEmpty ∧ e.enums.isEmpty ∧ e.keys.map (·.identifier) = identifiers ∧
      ∀ k ∈ e.keys, k.type = .scalar .string)
    ⟨fun ⟨name, nested, enums, identifiers, texts⟩ =>
      ⟨name, List.isEmpty_iff.mp nested, List.isEmpty_iff.mp enums, identifiers, texts⟩,
     fun ⟨name, nested, enums, identifiers, texts⟩ =>
      ⟨name, List.isEmpty_iff.mpr nested, List.isEmpty_iff.mpr enums, identifiers, texts⟩⟩

namespace TextKeyed

variable {name : String} {identifiers : List String} (keyed : TextKeyed e name identifiers)
include keyed

theorem loads (t : Table) (free : name ∉ moduleNames) (plain : ∀ other ∈ name :: identifiers, ¬ "__".toList <+: other.toList) :
    LoadsHelpers (helpersProgram e t) e t := by
  refine ⟨⟨fun r member => ?_, fun t member => ?_, fun other member => ?_⟩, ?_, ?_, ?_⟩
  · rw [keyed.nested] at member
    obtain rfl := List.mem_singleton.mp member
    exact if_pos rfl
  · rw [keyed.enums] at member
    cases member
  · have only : other = e.name := by simpa [keyed.nested, keyed.enums, Entity.name] using member
    rw [only, keyed.name]
    exact free
  · rw [helpersProgram]
    simp [keysClass_ne_name]
  · have noRecord : repositoryClass e.name ≠ e.name := repositoryClass_ne_name e
    have noHelper : repositoryClass e.name ≠ keysClass e.name := ending_ne (by decide) (by decide) e.name e.name
    rw [helpersProgram]
    simp [noRecord, noHelper]
  · rw [keyed.name, keyed.identifiers]
    exact plain

theorem typed (t : Table) (s : String) : ∀ k ∈ e.keys,
    Typed (fun _ _ => False) (Listed (helpersProgram e t)) k.type (.text s : Datum L) := by
  intro k isKey
  rw [keyed.texts k isKey]
  exact .string s

end TextKeyed

def articlesTable : Table := ⟨"articles", none, none, [], []⟩

/-- Articles are looked up by the number that is stored. -/
theorem shopArticle_lookedUp : ∃ e, (describe shopArticle).value = .ok e ∧
    LoadsHelpers (helpersProgram e articlesTable) e articlesTable ∧ ∃ w : KeyAttribute → Datum Library.plain,
      AsksFor (helpersProgram e articlesTable) e articlesTable (fun _ => .text "7") (.dict (keyEntries e w)) ∧
        ∀ k ∈ e.keys, Saves (helpersProgram e articlesTable) e k (.text "7") (w k) := by
  obtain ⟨e, described, checked⟩ := exists_described (s := shopArticle) (P := fun e =>
    decide (TextKeyed e "Article" ["sku"] ∧ keysClass e.name ∉ repositoryTypes e articlesTable ∧
      ∀ k ∈ e.keys, e.Declares k.storageName)) (by decide +kernel)
  obtain ⟨keyed, noType, declares⟩ := of_decide_eq_true checked
  have loads := keyed.loads articlesTable (by decide) (by decide)
  obtain ⟨finds, -, -⟩ := lookups_askForStored described Library.plain_faithful loads (by rw [keyed.identifiers]; decide)
    noType (keyed.typed articlesTable "7")
  obtain ⟨w, asks, saves⟩ := finds (by rw [keyed.identifiers, keyed.name]; decide)
  refine ⟨e, described, loads, w, asks, fun k isKey => saves k isKey (declares k isKey) ?_⟩
  rw [keyed.texts k isKey]
  rfl

/-- Orders that are found by a text which is called like their key helper. -/
def helperKeyedOrder : Schema :=
  { entityName := some "Order"
    primaryKey := ⟨"OrderKeys", none⟩
    fields := [bareField "OrderKeys" "string"]
    description := none
    schemaVersion := none }

/-- The lookups of such orders come to nothing. -/
theorem helperKeyedOrder_notFound : ¬ ∀ (s : Schema) (e : Entity) (t : Table) (p : Program)
    (values : KeyAttribute → Datum Library.plain), (describe s).value = .ok e → LoadsHelpers p e t →
      ("self" :: e.keys.map (·.identifier)).Nodup → keysClass e.name ∉ repositoryTypes e t →
      (∀ k ∈ e.keys, Typed (fun _ _ => False) (Listed p) k.type (values k)) → ∃ w : KeyAttribute → Datum Library.plain,
        AsksFor p e t values (.dict (keyEntries e w)) ∧
          ∀ k ∈ e.keys, e.Declares k.storageName → k.type.isPlain → Saves p e k (values k) (w k) := by
  intro found
  obtain ⟨e, described, checked⟩ := exists_described (s := helperKeyedOrder) (P := fun e =>
    decide (TextKeyed e "Order" ["OrderKeys"] ∧ keysClass e.name ∉ repositoryTypes e articlesTable)) (by decide +kernel)
  obtain ⟨keyed, noType⟩ := of_decide_eq_true checked
  have loads := keyed.loads articlesTable (by decide) (by decide)
  have distinct : ("self" :: e.keys.map (·.identifier)).Nodup := by
    rw [keyed.identifiers]
    decide
  obtain ⟨w, asks, -⟩ := found _ e articlesTable _ (fun _ => .text "7") described loads distinct noType
    (keyed.typed articlesTable "7")
  have isKey : e.partitionKey ∈ e.keys := List.mem_cons_self
  have named : e.partitionKey.identifier = keysClass e.name := by
    have identifiers := keyed.identifiers
    rw [Entity.keys, List.map_cons, List.cons.injEq] at identifiers
    rw [identifiers.1, keyed.name]
    rfl
  -- a table whose requests cannot be called
  have noMethod : getAttribute (helpersProgram e articlesTable) (.object [] [("delete_item", .none)]) "delete_item" =
      pure (.none : Datum Library.plain) := Source.getAttribute_plain rfl (fun _ cls => by cases cls)
  have asked := asks.deletes (.object [] [("delete_item", .none)])
  have noKey := getAttribute_noKey (describe_ok described) loads isKey (keyed.typed (L := Library.plain) articlesTable "7" _ isKey)
    (by rw [keyed.texts _ isKey]; rfl)
  rw [(loads.send_captured distinct isKey named noKey _).1, request, noMethod, pure_bind, pure_bind, Source.call] at asked
  cases asked

end Access

end Tablewright
