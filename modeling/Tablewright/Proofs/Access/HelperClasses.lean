import Tablewright.Proofs.Access.Bindings
import Tablewright.Proofs.Access.Members
import Tablewright.Proofs.Name.Constant
import Tablewright.Proofs.Name.Identifier

/-!
# Members of key helpers and repositories

The class of a key helper and that of a repository define fixed members and one member for every secondary index, which
is named after the index.  If the indexes differ in snake case, all of these names differ.

A repository refers to its key helper by name, from functions that have parameters of their own and from a module that
imports types.

* `keysHelper_binds`, `repositoryHelper_binds`: the members of the two classes.
* `DistinctIdentifiers`: names that can stand beside each other; `keysHelper_members`, `repositoryHelper_members`.
* `Source.Module.resolve`: the statement that gives a name its meaning; `resolve_keysClass`: when it is the import of
  the key helper.
-/

namespace Tablewright

namespace Source

/-- The names that are local to a function: its parameters and what its body binds. -/
def Stmt.localNames : Stmt → List String
  | .function signature _ body => signature.params.map (·.name) ++ signature.rest.toList.map (·.name)
      ++ (localsAll body).filter fun name => !(globalsAll body).contains name
  | _ => []

/-- What a name that is read in a function stands for: the last statement of the top level that binds it, unless it is
local to the function. -/
def Module.resolve (m : Module) (function : Stmt) (name : String) : Option Stmt :=
  if name ∈ function.localNames then none else (bindings name m.body).getLast?

end Source

/-- Names that can be bound beside each other: they are different, and each is an identifier and no keyword. -/
def DistinctIdentifiers (names : List String) : Prop := names.Nodup ∧ ∀ name ∈ names, Name.isPackagePart name

namespace Access

open Source (Expr Stmt Param Module bindings)

variable {e : Entity} {table : Option Table} {t : Table}

/-! ## Names of members -/

/-- The secondary indexes of a table, if there is one. -/
def indexesOf (table : Option Table) : List Index := (table.map Table.indexes).getD []

theorem keysHelper_binds (e : Entity) (table : Option Table) : (keysHelper e table).suite.flatMap Stmt.binds =
    "PARTITION_KEY_FIELD" :: (e.sortKey.toList.map fun _ => "SORT_KEY_FIELD")
      ++ (indexesOf table).map (fun i => Name.indexConstant i.name) ++ ["__init__", "key"] := by
  have constants : (indexConstants table).flatMap Stmt.binds =
      (indexesOf table).map fun i => Name.indexConstant i.name := by
    rw [indexConstants, indexesOf, List.flatMap_map, List.map_eq_flatMap]
    rfl
  rw [keysHelper, Stmt.suite, List.flatMap_append, List.flatMap_append, constants]
  cases e.sortKey <;> rfl

theorem repositoryHelper_suite (e : Entity) (t : Table) : (repositoryHelper e t).value.suite =
    [repositoryConstructor, fromResource e, saveMethod e, findByKey e, deleteByKey e]
      ++ (t.indexes.map fun i => queryMethod e i (indexKeys e i).value.1 (indexKeys e i).value.2)
      ++ (if t.indexes.isEmpty then [] else [queryAllMethod e]) := by
  simp only [repositoryHelper, Noted.value_bind, Noted.value_pure, Noted.value_each, Stmt.suite]

theorem repositoryHelper_binds (e : Entity) (t : Table) : (repositoryHelper e t).value.suite.flatMap Stmt.binds =
    ["__init__", "from_resource", "save", "find_by_key", "delete_by_key"] ++ t.indexes.map queryName
      ++ (if t.indexes.isEmpty then [] else ["_query_all"]) := by
  have queries : (t.indexes.map fun i => queryMethod e i (indexKeys e i).value.1 (indexKeys e i).value.2).flatMap
      Stmt.binds = t.indexes.map queryName := by
    rw [List.flatMap_map, List.map_eq_flatMap]
    rfl
  rw [repositoryHelper_suite, List.flatMap_append, List.flatMap_append, queries]
  split <;> rfl

/-! ## Identifiers -/

theorem queryName_toList (i : Index) : (queryName i).toList = "query_by_".toList ++ Name.snakeChars i.name.toList := by
  rw [queryName, String.toList_append, Name.toList_snakeCase]

theorem queryName_inj {i j : Index} : queryName i = queryName j ↔ Name.snakeCase i.name = Name.snakeCase j.name := by
  rw [queryName, queryName, String.append_right_inj]

theorem isPackagePart_queryName (i : Index) : Name.isPackagePart (queryName i) := by
  have start : Text.isIdentifier "query_by_" := by decide
  have continues : ∀ c ∈ (Name.snakeCase i.name).toList, Text.isIdentifierContinue c := by
    rw [Name.toList_snakeCase]
    exact fun c member => Name.isIdentifierContinue_of_isModuleChar (Name.isModuleChar_of_mem_snakeChars member)
  refine Name.isPackagePart_of_underscore (Name.isIdentifier_append start continues) ?_
  rw [queryName_toList]
  simp

section

variable (different : (t.indexes.map fun i => Name.snakeCase i.name).Nodup)
include different

theorem indexConstants_nodup : (t.indexes.map fun i => Name.indexConstant i.name).Nodup :=
  List.pairwise_map.mpr ((List.pairwise_map.mp different).imp fun other same => other (Name.indexConstant_inj.mp same))

theorem queryNames_nodup : (t.indexes.map queryName).Nodup :=
  List.pairwise_map.mpr ((List.pairwise_map.mp different).imp fun other same => other (queryName_inj.mp same))

omit different in
/-- Fixed names around the names of indexes, which have a beginning of their own. -/
theorem distinctIdentifiers_around {first names last : List String} (fixed : List String) (start : String)
    (among : (first ++ last).Sublist fixed) (distinct : fixed.Nodup)
    (identifiers : ∀ name ∈ fixed, Name.isPackagePart name ∧ ¬ start.toList <+: name.toList) (own : DistinctIdentifiers names)
    (begin : ∀ name ∈ names, start.toList <+: name.toList) : DistinctIdentifiers (first ++ names ++ last) := by
  have perm : (first ++ names ++ last).Perm (first ++ last ++ names) := by
    rw [List.append_assoc, List.append_assoc]
    exact List.perm_append_comm.append_left first
  constructor
  · refine perm.nodup_iff.mpr ((among.nodup distinct).append own.1 ?_)
    exact fun name isFixed isOwn => (identifiers name (among.subset isFixed)).2 (begin name isOwn)
  · intro name member
    rcases List.mem_append.mp (perm.mem_iff.mp member) with isFixed | isOwn
    · exact (identifiers name (among.subset isFixed)).1
    · exact own.2 name isOwn

/-- The members of a key helper are different identifiers. -/
theorem keysHelper_members (e : Entity) :
    DistinctIdentifiers ((keysHelper e (some t)).suite.flatMap Stmt.binds) := by
  have constants : DistinctIdentifiers (t.indexes.map fun i => Name.indexConstant i.name) :=
    ⟨indexConstants_nodup different,
      List.forall_mem_map.mpr fun i _ => (Name.isConstant_indexConstant i.name).isPackagePart⟩
  rw [keysHelper_binds]
  refine distinctIdentifiers_around ["PARTITION_KEY_FIELD", "SORT_KEY_FIELD", "__init__", "key"] "INDEX_"
    ?_ (by decide) (by decide +kernel) constants (List.forall_mem_map.mpr fun i _ => ?_)
  · cases e.sortKey <;> simp
  · rw [Name.toList_indexConstant]
    exact List.prefix_append _ _

/-- The members of a repository are different identifiers. -/
theorem repositoryHelper_members (e : Entity) :
    DistinctIdentifiers ((repositoryHelper e t).value.suite.flatMap Stmt.binds) := by
  have queries : DistinctIdentifiers (t.indexes.map queryName) :=
    ⟨queryNames_nodup different, List.forall_mem_map.mpr fun i _ => isPackagePart_queryName i⟩
  rw [repositoryHelper_binds]
  refine distinctIdentifiers_around
    ["__init__", "from_resource", "save", "find_by_key", "delete_by_key", "_query_all"] "query_by_"
    ?_ (by decide) (by decide +kernel) queries (List.forall_mem_map.mpr fun i _ => ?_)
  · split <;> simp
  · rw [queryName_toList]
    exact List.prefix_append _ _

end

/-! ## The key helper in a repository -/

def keysImport (e : Entity) : Stmt :=
  .importFrom (s!"..{keysPackage}." ++ Name.snakeCase (keysClass e.name)) [keysClass e.name]

/-- The query of an index, with the key attributes of the index. -/
def indexQuery (e : Entity) (i : Index) : Stmt := queryMethod e i (indexKeys e i).value.1 (indexKeys e i).value.2

theorem indexQuery_locals (e : Entity) (i : Index) (name : String) : name ∈ (indexQuery e i).localNames ↔
    name ∈ "self" :: (indexAttributes e i).map (·.identifier) ∨
      name ∈ ["key_condition", "expression_names", "expression_values"] := by
  have noGlobals : (indexQuery e i).globals = [] := rfl
  rw [indexQuery, indexAttributes]
  cases (indexKeys e i).value.2 with
  | none =>
    simp [queryMethod, Stmt.localNames, Source.localsAll, Stmt.locals, Source.globalsAll, Stmt.globals, Stmt.bind, keyParams,
      Param.plain, Param.required, or_assoc]
  | some k =>
    simp only [queryMethod, Stmt.localNames, keyParams, Param.plain, Param.required, Param.optional, sortCondition,
      Option.toList_some, List.map_cons, List.map_nil, List.cons_append, List.nil_append, Source.localsAll, Stmt.locals,
      Source.globalsAll, Stmt.globals, Stmt.bind, Stmt.put, List.append_nil]
    simp
    tauto

/-- The import of a nested type in the module of a repository. -/
def typeImport (type : String) : Stmt := .importFrom (s!"..{nestedPackage}." ++ Name.snakeCase type) [type]

/-- The statements of the module of a repository that follow the imports of types. -/
def classStatements (e : Entity) (t : Table) : List Stmt :=
  [.importFrom (".." ++ Name.snakeCase e.name) [e.name],
   .importFrom (s!"..{validatorsPackage}." ++ Name.snakeCase (validatorClass e.name)) [validatorClass e.name],
   .ifThen (.name "TYPE_CHECKING") [.importFrom s!"..{clientPackage}.{clientModule}" [clientClass]],
   (repositoryHelper e t).value]

theorem repositoryModule_parts (e : Entity) (t : Table) : (repositoryModule e t).value.body =
    (repositoryUsage e t).value.standardImports
      ++ keysImport e :: ((repositoryUsage e t).value.types.map typeImport ++ classStatements e t) := by
  rw [repositoryModule_body]
  simp [keysImport, typeImport, classStatements]

theorem ending_ne_self {ending : String} (some : ending ≠ "") (start : String) : start ++ ending ≠ start := by
  intro same
  have lengths := congrArg String.length same
  rw [String.length_append] at lengths
  exact some (String.length_eq_zero_iff.mp (by omega))

theorem keysClass_ne_name (e : Entity) : keysClass e.name ≠ e.name := ending_ne_self (by decide) e.name

theorem repositoryClass_ne_name (e : Entity) : repositoryClass e.name ≠ e.name := ending_ne_self (by decide) e.name

theorem keysClass_notMem_classStatements (e : Entity) (t : Table) :
    ∀ s ∈ classStatements e t, keysClass e.name ∉ s.binds := by
  have repository : (repositoryHelper e t).value.binds = [repositoryClass e.name] := rfl
  rw [classStatements]
  refine List.forall_mem_cons.mpr ⟨?_, List.forall_mem_cons.mpr ⟨?_, List.forall_mem_cons.mpr ⟨?_,
    List.forall_mem_singleton.mpr ?_⟩⟩⟩
  · exact mt List.mem_singleton.mp (keysClass_ne_name e)
  · exact mt List.mem_singleton.mp (ending_ne (by decide) (by decide) e.name e.name)
  · exact List.not_mem_nil
  · rw [repository]
    exact mt List.mem_singleton.mp (ending_ne (by decide) (by decide) e.name e.name)

theorem typeImport_ne_keysImport (type : String) (e : Entity) : typeImport type ≠ keysImport e := by
  intro same
  rw [typeImport, keysImport, Stmt.importFrom.injEq] at same
  have third := congrArg (fun module : String => module.toList[2]?) same.1
  have types : (s!"..{nestedPackage}.").toList = ['.', '.', 'n', 'e', 's', 't', 'e', 'd', '.'] := by decide
  have helpers : (s!"..{keysPackage}.").toList = ['.', '.', 'k', 'e', 'y', 's', '.'] := by decide
  simp only [String.toList_append, types, helpers, List.cons_append, List.getElem?_cons_succ, List.getElem?_cons_zero] at third
  exact absurd third (by decide)

/-- The module of a key helper binds the name of its class once. -/
theorem keysHelper_bindings (e : Entity) (table : Option Table) :
    bindings (keysClass e.name) (keysModule e table).value.body = [keysHelper e table] := by
  have other : keysClass e.name ∉ ["Decimal", "Any", "Dict"] := ending_notMem (by decide) e.name
  simp only [List.mem_cons, List.not_mem_nil, or_false, not_or] at other
  rw [keysModule_body]
  split <;> simp [bindings, Stmt.binds, keysHelper, other]

/-- In the module of a repository the name of the key helper stands for the key helper, unless a type that the module
imports has this name. -/
theorem keysClass_bindings (e : Entity) (t : Table) :
    (bindings (keysClass e.name) (repositoryModule e t).value.body).getLast? = some (keysImport e) ↔
      keysClass e.name ∉ repositoryTypes e t := by
  have others := keysClass_notMem_classStatements e t
  rw [repositoryModule_parts, repositoryTypes, List.mem_cons, not_or]
  constructor
  · refine fun last => ⟨keysClass_ne_name e, fun isType => ?_⟩
    obtain ⟨before, after, split⟩ := List.append_of_mem isType
    have distinct : (repositoryUsage e t).value.types.Nodup := Text.sortNames_nodup _
    rw [split, List.nodup_append', List.nodup_cons] at distinct
    -- the import of the type comes after that of the key helper
    have later : ∀ s ∈ after.map typeImport ++ classStatements e t, keysClass e.name ∉ s.binds := by
      refine List.forall_mem_append.mpr ⟨List.forall_mem_map.mpr fun type member bound => ?_, others⟩
      obtain rfl := List.mem_singleton.mp bound
      exact distinct.2.1.1 member
    have found := @Source.getLast?_bindings (keysClass e.name)
      ((repositoryUsage e t).value.standardImports ++ keysImport e :: before.map typeImport) _
      (typeImport (keysClass e.name)) List.mem_cons_self later
    rw [split, List.map_append, List.map_cons] at last
    simp only [List.append_assoc, List.cons_append] at last found
    exact typeImport_ne_keysImport _ e (Option.some.inj (found.symm.trans last))
  · rintro ⟨-, noType⟩
    refine Source.getLast?_bindings List.mem_cons_self ?_
    refine List.forall_mem_append.mpr ⟨List.forall_mem_map.mpr fun type member bound => ?_, others⟩
    obtain rfl := List.mem_singleton.mp bound
    exact noType member

/-- In the query of an index the name of the key helper stands for the key helper, unless a key attribute of the index or
a type that the module imports has this name. -/
theorem resolve_keysClass (e : Entity) (t : Table) (i : Index) :
    (repositoryModule e t).value.resolve (indexQuery e i) (keysClass e.name) = some (keysImport e) ↔
      keysClass e.name ∉ (indexAttributes e i).map (·.identifier) ∧ keysClass e.name ∉ repositoryTypes e t := by
  have fixed : keysClass e.name ∉ ["self", "key_condition", "expression_names", "expression_values"] :=
    ending_notMem (by decide) e.name
  have isLocal : keysClass e.name ∈ (indexQuery e i).localNames ↔
      keysClass e.name ∈ (indexAttributes e i).map (·.identifier) := by
    rw [indexQuery_locals]
    simp only [List.mem_cons, List.not_mem_nil, or_false, not_or] at fixed ⊢
    simp [fixed]
  rw [Module.resolve]
  by_cases taken : keysClass e.name ∈ (indexAttributes e i).map (·.identifier)
  · simp [isLocal, taken]
  · rw [if_neg (mt isLocal.mp taken), keysClass_bindings]
    simp [taken]

end Access

end Tablewright
