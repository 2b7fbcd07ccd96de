import Tablewright.Access.Client
import Tablewright.Proofs.Access.Keys
import Tablewright.Proofs.Access.RecordClass
import Tablewright.Proofs.Access.Repository
import Tablewright.Proofs.Access.TableConfig
import Tablewright.Proofs.Access.Validation

/-!
# Names that emitted modules bind

The top level of a module is made of imports, constants, functions and classes.  Some of their names are the same for
all schemas, some are put together from the names of types.  A type may have any name that the check of type names
accepts, and the check knows only some of the names that stand beside types.

* `Source.Module.BindsOnce`: the top level binds no name twice.
* `recordHelpers`, `validatorHelpers`, `repositoryHelpers`: the names beside types that the check does not know.
* `recordModule_bindsOnce`, `validatorModule_bindsOnce`, `repositoryModule_bindsOnce`: such a module binds its names
  once if and only if its types have none of these names.
-/

namespace Tablewright

namespace Source

/-- The names that the top level of a module binds, those in its blocks included, one for every binding. -/
def Module.boundNames (m : Module) : List String := localsAll m.body

/-- The top level of a module binds no name twice. -/
def Module.BindsOnce (m : Module) : Prop := m.boundNames.Nodup

instance (m : Module) : Decidable m.BindsOnce := inferInstanceAs (Decidable m.boundNames.Nodup)

theorem localsAll_unless (absent : Prop) [Decidable absent] (s : Stmt) :
    localsAll (if absent then [] else [s]) = if absent then [] else s.locals := by
  split
  · rfl
  · exact List.append_nil _

theorem localsAll_given (present : Prop) [Decidable present] (s : Stmt) :
    localsAll (if present then [s] else []) = if present then s.locals else [] := by
  split
  · exact List.append_nil _
  · rfl

theorem localsAll_map {α : Type} {stmt : α → Stmt} {name : α → String} (one : ∀ a, (stmt a).locals = [name a])
    (items : List α) : localsAll (items.map stmt) = items.map name := by
  induction items with
  | nil => rfl
  | cons a rest ih =>
    rw [List.map_cons, localsAll, one, ih]
    rfl

end Source

namespace Access

open Source (Stmt Module localsAll localsAll_append localsAll_unless localsAll_given localsAll_map)

variable {enums : List EnumType} {r : Record} {e : Entity} {t : Table}

/-! ## Endings -/

theorem ending_notMem {ending : String} {names : List String} (other : ∀ name ∈ names, ¬ ending.toList <:+ name.toList)
    (start : String) : start ++ ending ∉ names := by
  intro member
  refine other _ member ?_
  rw [String.toList_append]
  exact List.suffix_append _ _

theorem ending_ne {ending ending' : String} (apart : ¬ ending.toList <:+ ending'.toList)
    (apart' : ¬ ending'.toList <:+ ending.toList) (start start' : String) : start ++ ending ≠ start' ++ ending' := by
  intro same
  have left : ending.toList <:+ (start ++ ending).toList := by
    rw [String.toList_append]
    exact List.suffix_append _ _
  have right : ending'.toList <:+ (start ++ ending).toList := by
    rw [same, String.toList_append]
    exact List.suffix_append _ _
  -- of two endings of one name, the shorter one ends the longer one
  cases List.suffix_or_suffix_of_suffix left right with
  | inl within => exact apart within
  | inr within => exact apart' within

/-! ## Names beside types -/

theorem nodup_iff_of_perm {bound known unknown types : List String} (perm : bound.Perm (known ++ unknown ++ types))
    (distinct : (known ++ unknown).Nodup) (imported : known ⊆ importedNames) (typesDistinct : types.Nodup)
    (free : ∀ name ∈ types, name ∉ importedNames) : bound.Nodup ↔ ∀ name ∈ types, name ∉ unknown := by
  rw [perm.nodup_iff, List.nodup_append']
  constructor
  · rintro ⟨-, -, apart⟩ name isType isUnknown
    exact apart (List.mem_append_right _ isUnknown) isType
  · intro unshadowed
    refine ⟨distinct, typesDistinct, ?_⟩
    intro name isBeside isType
    -- the names that the check knows are no types, so that only the others can be bound again
    cases List.mem_append.mp isBeside with
    | inl isKnown => exact free name isType (imported isKnown)
    | inr isUnknown => exact unshadowed name isType isUnknown

/-- The class of moments, where a module imports it. -/
def Usage.moments (u : Usage) : List String := if u.datetime then ["datetime"] else []

/-- The class of numbers, where a module imports it. -/
def Usage.decimals (u : Usage) : List String := if u.decimal then ["Decimal"] else []

theorem Usage.decimals_known (u : Usage) : u.decimals ⊆ importedNames := by
  rw [Usage.decimals]
  split <;> decide

theorem Usage.localsAll_standardImports (u : Usage) :
    localsAll u.standardImports = u.moments ++ u.decimals ++ Text.sortNames u.typing := by
  rw [Usage.standardImports, localsAll_append, localsAll_append, localsAll_given, localsAll_given, localsAll_unless,
    Usage.moments, Usage.decimals]
  cases u.typing <;> rfl

theorem Usage.localsAll_typeImports (u : Usage) (module : String → String) :
    localsAll (u.types.map fun type => Stmt.importFrom (module type) [type]) = u.types := by
  have one : ∀ type, (Stmt.importFrom (module type) [type]).locals = [id type] := fun _ => rfl
  rw [localsAll_map one, List.map_id]

theorem nodup_generic_append {generic fixed all : List String} (distinct : generic.Nodup)
    (isGeneric : generic ⊆ typingNames) (some : fixed.Sublist all) (apart : (typingNames ++ all).Nodup) :
    (generic ++ fixed).Nodup := by
  rw [List.nodup_append'] at apart
  refine distinct.append (some.nodup apart.2.1) ?_
  exact fun name here there => apart.2.2 (isGeneric here) (some.subset there)

/-! ## Records and enums -/

/-- The function for values without hash, where the module of a record defines it. -/
def hashables (r : Record) : List String := if r.fields.any fun f => needsHashable f.type then ["_hashable"] else []

/-- The names beside its types that the module of a record binds and the check of type names does not know. -/
def recordHelpers (r : Record) : List String := (recordUsage r).moments ++ hashables r

/-- The types that the module of a record binds: the record, and those that its fields mention. -/
def recordTypes (r : Record) : List String := r.name :: (recordUsage r).types

/-- The names that the module of a record imports and the check of type names knows. -/
def recordKnown (r : Record) : List String := Text.sortNames (recordUsage r).typing ++ (recordUsage r).decimals

theorem recordModule_boundNames :
    (recordModule enums r).value.boundNames.Perm (recordKnown r ++ recordHelpers r ++ recordTypes r) := by
  have helper : localsAll (hashableHelper r) = hashables r := by
    rw [hashableHelper, hashables]
    split <;> rfl
  have itself : localsAll [(recordClass enums r).value] = [r.name] := rfl
  rw [Module.boundNames, recordModule_body, recordImports, localsAll_append, localsAll_append, localsAll_append,
    Usage.localsAll_standardImports, Usage.localsAll_typeImports, helper, itself, recordKnown, recordHelpers,
    recordTypes, List.perm_iff_count]
  intro name
  simp only [List.count_append, List.count_cons, List.count_nil]
  omega

theorem recordModule_bindsOnce (typesDistinct : (recordTypes r).Nodup)
    (free : ∀ name ∈ recordTypes r, name ∉ importedNames) :
    (recordModule enums r).value.BindsOnce ↔ ∀ name ∈ recordTypes r, name ∉ recordHelpers r := by
  have generic : Text.sortNames (recordUsage r).typing ⊆ typingNames := fun name member =>
    recordUsage_typing r (Text.mem_sortNames.mp member)
  have fixed : ((recordUsage r).decimals ++ recordHelpers r).Sublist ["Decimal", "datetime", "_hashable"] := by
    rw [recordHelpers, Usage.decimals, Usage.moments, hashables]
    split <;> split <;> split <;> simp
  have distinct : (recordKnown r ++ recordHelpers r).Nodup := by
    rw [recordKnown, List.append_assoc]
    exact nodup_generic_append (Text.sortNames_nodup _) generic fixed (by decide)
  have known : recordKnown r ⊆ importedNames :=
    List.append_subset.mpr ⟨List.Subset.trans generic (by decide), (recordUsage r).decimals_known⟩
  exact nodup_iff_of_perm recordModule_boundNames distinct known typesDistinct free

theorem enumModule_bindsOnce {t : EnumType} (free : t.name ∉ importedNames) : (enumModule t).BindsOnce := by
  have bound : (enumModule t).boundNames = ["Enum", t.name] := rfl
  have other : "Enum" ≠ t.name := fun same => free (same ▸ by decide)
  rw [Module.BindsOnce, bound]
  simpa using other

/-! ## Key helpers -/

theorem keysModule_bindsOnce (e : Entity) (table : Option Table) : (keysModule e table).value.BindsOnce := by
  have bound : (keysModule e table).value.boundNames =
      (if e.keys.any (·.type == .scalar .number) then ["Decimal"] else []) ++ ["Any", "Dict", keysClass e.name] := by
    rw [Module.boundNames, keysModule_body]
    split <;> rfl
  have itself : keysClass e.name ∉ ["Decimal", "Any", "Dict"] := ending_notMem (by decide) _
  rw [Module.BindsOnce, bound]
  have different : (["Decimal", "Any", "Dict"] ++ [keysClass e.name]).Nodup :=
    List.Nodup.append (by decide) (List.nodup_singleton _) (List.disjoint_singleton.mpr itself)
  refine different.sublist ?_
  split <;> simp

/-! ## Validators -/

/-- The names beside the entity that its validator module binds and the check of type names does not know. -/
def validatorHelpers (e : Entity) : List String :=
  (if (patternsOf e).isEmpty then [] else ["re"]) ++ (patternsOf e).map (·.constant) ++ [validatorClass e.name]

theorem patternName_ending (taken : List String) (identifier : String) :
    ∃ start, patternName (some taken) identifier = start ++ "_PATTERN" := by
  cases Name.fresh_cases taken s!"_{patternBase identifier}_PATTERN"
    (fun n => s!"_{patternBase identifier}_{n}_PATTERN") with
  | inl same => exact ⟨_, same⟩
  | inr numbered =>
    obtain ⟨k, same⟩ := numbered
    exact ⟨_, same⟩

/-- The constants of patterns are named after fields. -/
theorem patternsIn_constant {taken : List String} {fields : List ResolvedField} {q : CompiledPattern}
    (member : q ∈ patternsIn taken fields) :
    ∃ before, ∃ f ∈ fields, q.constant = patternName (some before) f.identifier := by
  induction fields generalizing taken with
  | nil => cases member
  | cons f rest ih =>
    rw [patternsIn_cons] at member
    cases List.mem_append.mp member with
    | inl own =>
      obtain ⟨c, -, -, constant⟩ := fieldChecks_pattern (Option.mem_toList.mp own)
      exact ⟨taken, f, List.mem_cons_self, constant⟩
    | inr later =>
      obtain ⟨before, g, inRest, constant⟩ := ih later
      exact ⟨before, g, List.mem_cons_of_mem _ inRest, constant⟩

theorem patternsIn_ending {taken : List String} {fields : List ResolvedField} {q : CompiledPattern}
    (member : q ∈ patternsIn taken fields) : ∃ start, q.constant = start ++ "_PATTERN" := by
  obtain ⟨before, f, -, constant⟩ := patternsIn_constant member
  rw [constant]
  exact patternName_ending before f.identifier

/-- The names that a validator module imports and the check of type names knows. -/
def validatorKnown (e : Entity) : List String :=
  (if e.record.fields.any comparesNumbers then ["Decimal"] else [])
    ++ (if (checksOf e).isEmpty then [] else ["List"])
    ++ (if (checksOf e).isEmpty then [] else [violationClass, validationErrorClass])

theorem validatorModule_boundNames (e : Entity) :
    (validatorModule e).value.boundNames.Perm (validatorKnown e ++ validatorHelpers e ++ [e.name]) := by
  have re : (Stmt.importModule "re").locals = ["re"] := by decide
  have constants : localsAll ((patternsOf e).map CompiledPattern.stmt) = (patternsOf e).map (·.constant) :=
    localsAll_map (fun _ => rfl) _
  have entity : localsAll [.importFrom (".." ++ Name.snakeCase e.name) [e.name]] = [e.name] := rfl
  have itself : localsAll [validatorHelper e (checksOf e)] = [validatorClass e.name] := rfl
  rw [Module.boundNames, validatorModule_body, validatorKnown, validatorHelpers, List.perm_iff_count]
  simp only [localsAll_append, localsAll_unless, localsAll_given, re, constants, entity, itself]
  intro name
  simp only [List.count_append, Stmt.locals]
  omega

theorem validatorModule_bindsOnce (free : e.name ∉ importedNames) :
    (validatorModule e).value.BindsOnce ↔ e.name ∉ validatorHelpers e := by
  have fixed : (validatorKnown e ++ if (patternsOf e).isEmpty then [] else ["re"]).Sublist
      ["Decimal", "List", violationClass, validationErrorClass, "re"] := by
    rw [validatorKnown]
    split <;> split <;> split <;> simp
  have constants := patternsIn_constants [] e.record.fields
  -- constants start with an underscore, which no import does; the class has an ending of its own
  have distinct : (validatorKnown e ++ validatorHelpers e).Nodup := by
    rw [validatorHelpers, ← List.append_assoc, ← List.append_assoc]
    refine ((fixed.nodup (by decide)).append constants.1 ?_).append (List.nodup_singleton _) ?_
    · intro name isFixed isConstant
      obtain ⟨q, member, rfl⟩ := List.mem_map.mp isConstant
      have plain : ∀ name ∈ ["Decimal", "List", violationClass, validationErrorClass, "re"],
        name.toList.head? ≠ some '_' := by decide
      exact plain _ (fixed.subset isFixed) (constants.2 q member).2
    · rw [List.disjoint_singleton, List.mem_append]
      rintro (isFixed | isConstant)
      · exact ending_notMem (by decide) e.name (fixed.subset isFixed)
      · obtain ⟨q, member, same⟩ := List.mem_map.mp isConstant
        obtain ⟨start, ends⟩ := patternsIn_ending member
        exact ending_ne (by decide) (by decide) start e.name (ends.symm.trans same)
  have known : validatorKnown e ⊆ importedNames := by
    rw [validatorKnown]
    split <;> split <;> decide
  rw [← List.forall_mem_singleton (p := (· ∉ validatorHelpers e))]
  exact nodup_iff_of_perm (validatorModule_boundNames e) distinct known (List.nodup_singleton _)
    (List.forall_mem_singleton.mpr free)

/-! ## Repositories -/

/-- The classes that are generated for an entity beside its types. -/
def helperClasses (e : Entity) : List String := [keysClass e.name, validatorClass e.name, repositoryClass e.name]

/-- The names beside its types that the module of a repository binds and the check of type names does not know. -/
def repositoryHelpers (e : Entity) (t : Table) : List String :=
  ["TYPE_CHECKING"] ++ (repositoryUsage e t).value.moments ++ helperClasses e

/-- The types that the module of a repository binds: the entity, and those that its key attributes mention. -/
def repositoryTypes (e : Entity) (t : Table) : List String := e.name :: (repositoryUsage e t).value.types

theorem repositoryUsage_typing (e : Entity) (t : Table) :
    (repositoryUsage e t).value.typing ⊆ "TYPE_CHECKING" :: typingNames := by
  rw [repositoryUsage_value]
  refine List.foldlRecOn (repositoryKeys e t) (fun u k => Usage.addPlain u k.type)
    (motive := fun u : Usage => u.typing ⊆ "TYPE_CHECKING" :: typingNames) ?_ ?_
  · rw [Usage.ofTyping]
    split <;> decide
  · exact fun u known k _ => typing_addPlain (List.subset_cons_self _ _) known

theorem typing_subset_addPlain (u : Usage) (type : TypeRef) : u.typing ⊆ (u.addPlain type).typing := by
  induction type generalizing u with
  | scalar kind =>
    rw [Usage.addPlain, typing_addScalar]
    exact List.Subset.refl _
  | list element ih =>
    intro name member
    exact ih { u with typing := "List" :: u.typing } (List.mem_cons_of_mem _ member)
  | set element =>
    rw [Usage.addPlain, typing_addScalar]
    exact List.subset_cons_self _ _
  | record name => exact List.Subset.refl _
  | enum name => exact List.Subset.refl _
  | any => exact List.subset_cons_self _ _

theorem repositoryUsage_typeChecking (e : Entity) (t : Table) :
    "TYPE_CHECKING" ∈ Text.sortNames (repositoryUsage e t).value.typing := by
  rw [Text.mem_sortNames, repositoryUsage_value]
  refine List.foldlRecOn (repositoryKeys e t) (fun u k => Usage.addPlain u k.type)
    (motive := fun u : Usage => "TYPE_CHECKING" ∈ u.typing) List.mem_cons_self ?_
  exact fun u member k _ => typing_subset_addPlain u k.type member

/-- The names that the module of a repository imports and the check of type names knows. -/
def repositoryKnown (e : Entity) (t : Table) : List String :=
  (Text.sortNames (repositoryUsage e t).value.typing).erase "TYPE_CHECKING"
    ++ ((repositoryUsage e t).value.decimals ++ [clientClass])

theorem repositoryModule_boundNames (e : Entity) (t : Table) : (repositoryModule e t).value.boundNames.Perm
    (repositoryKnown e t ++ repositoryHelpers e t ++ repositoryTypes e t) := by
  -- the name for type checking is among the generic types, but the check does not know it
  have typing := List.perm_cons_erase (repositoryUsage_typeChecking e t)
  have itself : (repositoryHelper e t).value.locals = [repositoryClass e.name] := rfl
  rw [Module.boundNames, repositoryModule_body, repositoryTypes, repositoryHelpers, helperClasses, repositoryKnown,
    List.perm_iff_count]
  simp only [localsAll_append, Usage.localsAll_standardImports, Usage.localsAll_typeImports]
  intro name
  have counted := List.perm_iff_count.mp typing name
  simp only [localsAll, Stmt.locals, itself]
  simp only [List.count_append, List.count_cons, List.count_nil] at counted ⊢
  omega

theorem helperClasses_nodup (e : Entity) : (helperClasses e).Nodup := by
  have endings : ["Keys", "Validator", "Repository"].Nodup := by decide
  exact endings.map (f := (e.name ++ ·)) fun _ _ same => (String.append_right_inj _).mp same

theorem helperClasses_disjoint {names : List String}
    (other : ∀ ending ∈ ["Keys", "Validator", "Repository"], ∀ name ∈ names, ¬ ending.toList <:+ name.toList)
    (e : Entity) : names.Disjoint (helperClasses e) := by
  intro name member helper
  have classes : helperClasses e = ["Keys", "Validator", "Repository"].map (e.name ++ ·) := rfl
  rw [classes] at helper
  obtain ⟨ending, isEnding, rfl⟩ := List.mem_map.mp helper
  exact ending_notMem (other ending isEnding) e.name member

theorem repositoryModule_bindsOnce (typesDistinct : (repositoryTypes e t).Nodup)
    (free : ∀ name ∈ repositoryTypes e t, name ∉ importedNames) :
    (repositoryModule e t).value.BindsOnce ↔ ∀ name ∈ repositoryTypes e t, name ∉ repositoryHelpers e t := by
  let typing := (Text.sortNames (repositoryUsage e t).value.typing).erase "TYPE_CHECKING"
  have sorted := Text.sortNames_nodup (repositoryUsage e t).value.typing
  have generic : typing ⊆ typingNames := by
    intro name member
    obtain ⟨other, isTyping⟩ := sorted.mem_erase_iff.mp member
    cases List.mem_cons.mp (repositoryUsage_typing e t (Text.mem_sortNames.mp isTyping)) with
    | inl same => exact absurd same other
    | inr isGeneric => exact isGeneric
  have fixed : ((repositoryUsage e t).value.decimals ++ [clientClass]
      ++ (["TYPE_CHECKING"] ++ (repositoryUsage e t).value.moments)).Sublist
        ["Decimal", clientClass, "TYPE_CHECKING", "datetime"] := by
    rw [Usage.decimals, Usage.moments]
    split <;> split <;> simp
  -- only the three classes depend on the entity, and they have endings of their own
  have distinct : (repositoryKnown e t ++ repositoryHelpers e t).Nodup := by
    rw [repositoryKnown, repositoryHelpers, ← List.append_assoc, List.append_assoc typing]
    refine (nodup_generic_append (sorted.erase _) generic fixed (by decide)).append (helperClasses_nodup e) ?_
    have beside := List.append_subset.mpr ⟨List.subset_append_of_subset_left _ generic,
      List.subset_append_of_subset_right typingNames fixed.subset⟩
    exact List.disjoint_of_subset_left beside (helperClasses_disjoint (by decide) e)
  have known : repositoryKnown e t ⊆ importedNames := by
    refine List.append_subset.mpr ⟨List.Subset.trans generic (by decide), List.append_subset.mpr ⟨?_, by decide⟩⟩
    exact (repositoryUsage e t).value.decimals_known
  exact nodup_iff_of_perm (repositoryModule_boundNames e t) distinct known typesDistinct free

/-! ## The table -/

theorem clientSource_bindsOnce : clientSource.BindsOnce := by decide +kernel

theorem validationErrorSource_bindsOnce : validationErrorSource.BindsOnce := by decide +kernel

/-- The names that the module of the table configuration binds for all tables and entities. -/
def configFixed : List String :=
  ["os", "threading", "Optional", clientClass, "TABLE_NAME", "TABLE_ARN", "REGION", "_shared_client", "_lock",
   "get_client", "client_builder"]

theorem tableConfigModule_boundNames (t : Table) (entities : List Entity) : (tableConfigModule t entities).value.boundNames.Perm
    (configFixed ++ (entities.map (repositoryClass ·.name) ++ entities.map (factoryName ·.name))) := by
  have os : Source.firstPart "os" = "os" := by decide
  have threading : Source.firstPart "threading" = "threading" := by decide
  have factories : localsAll (entities.map repositoryFactory) = entities.map (factoryName ·.name) :=
    localsAll_map (fun _ => rfl) _
  have imports : localsAll (repositoryImports entities) = (sortByName entities).map (repositoryClass ·.name) :=
    localsAll_map (fun _ => rfl) _
  have repositories := (sortByName_perm entities).map (repositoryClass ·.name)
  rw [Module.boundNames, tableConfigModule_body, List.perm_iff_count]
  simp only [localsAll_append, imports, factories]
  intro name
  have counted := List.perm_iff_count.mp repositories name
  simp only [localsAll, Stmt.locals, Stmt.bind, getClient, clientBuilderFunction, os, threading, configFixed]
  simp only [List.count_append, List.count_cons, List.count_nil] at counted ⊢
  omega

theorem tableConfigModule_bindsOnce {entities : List Entity}
    (modules : (entities.map fun e => Name.snakeCase e.name).Nodup) :
    (tableConfigModule t entities).value.BindsOnce := by
  have repositories : (entities.map (repositoryClass ·.name)).Nodup :=
    List.pairwise_map.mpr ((List.pairwise_map.mp modules).imp fun different same =>
      different (congrArg Name.snakeCase ((String.append_left_inj _).mp same)))
  have factories : (entities.map (factoryName ·.name)).Nodup :=
    List.pairwise_map.mpr ((List.pairwise_map.mp modules).imp fun different same =>
      different ((String.append_left_inj _).mp same))
  rw [Module.BindsOnce, (tableConfigModule_boundNames t entities).nodup_iff]
  -- repositories and factories differ from each other and from the fixed names in their endings
  refine List.Nodup.append (by decide) (repositories.append factories ?_) ?_
  · intro name isRepository isFactory
    obtain ⟨e, -, rfl⟩ := List.mem_map.mp isRepository
    obtain ⟨e', -, same⟩ := List.mem_map.mp isFactory
    exact ending_ne (by decide) (by decide) _ _ same
  · intro name isFixed isOther
    cases List.mem_append.mp isOther with
    | inl isRepository =>
      obtain ⟨e, -, rfl⟩ := List.mem_map.mp isRepository
      exact ending_notMem (by decide) e.name isFixed
    | inr isFactory =>
      obtain ⟨e, -, rfl⟩ := List.mem_map.mp isFactory
      exact ending_notMem (by decide) (Name.snakeCase e.name) isFixed

end Access

end Tablewright
