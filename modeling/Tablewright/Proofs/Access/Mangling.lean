import Tablewright.Proofs.Access.Spelling
import Tablewright.Proofs.Source.Mangling

/-!
# Private names in emitted classes

Camel case and the guards around backing attributes bring no two underscores to the front of a name.  What is taken as it
is may start with them: the name of an entity, an override, and a storage name that is an identifier already.  The
constant of a pattern starts with them if its field is called without any ASCII letter or digit.

* `Entity.Unmangled`: none of these names is private.
* `Entity.Unmangled.names`: then no name that the modules of the entity are spelled with is.
* `recordModule_fields`, `keysModule_name`, `validatorModule_patterns`: the classes of the entity hold these names.
-/

namespace Tablewright

open Access Source

variable {s : Schema} {e : Entity} {r : Record} {table : Option Table}

/-- An identifier that is taken as it is, from the override or from the storage name, is not private. -/
def Declaration.Unmangled (d : Declaration) : Prop :=
  match given d.nameOverride with
  | some identifier => ¬ IsPrivate identifier
  | none => Name.isFieldIdentifier d.name → ¬ IsPrivate d.name

instance (d : Declaration) : Decidable d.Unmangled :=
  decidable_of_iff ((∀ identifier ∈ given d.nameOverride, ¬ IsPrivate identifier) ∧
      (given d.nameOverride = none → Name.isFieldIdentifier d.name → ¬ IsPrivate d.name))
    (by rw [Declaration.Unmangled]; cases given d.nameOverride <;> simp)

def ResolvedField.matchesPattern (f : ResolvedField) : Bool :=
  f.type == .scalar .string && (f.field.constraints.bind (·.pattern)).isSome

/-- The name of an entity does not start with two underscores, the names of its nested types and those that its fields are
called by as they are are not private, and every field with a pattern has an ASCII letter or digit in its identifier. -/
structure Entity.Unmangled (e : Entity) : Prop where
  name : ¬ "__".toList <+: e.name.toList
  types : ∀ type ∈ e.nested.map (·.name) ++ e.enums.map (·.name), ¬ IsPrivate type
  fields : ∀ r ∈ e.record :: e.nested, ∀ f ∈ r.fields, f.field.Unmangled
  patterns : ∀ f ∈ e.record.fields, f.matchesPattern → f.identifier.toList.any Text.isWordChar

instance (e : Entity) : Decidable e.Unmangled :=
  decidable_of_iff (¬ "__".toList <+: e.name.toList ∧
      (∀ type ∈ e.nested.map (·.name) ++ e.enums.map (·.name), ¬ IsPrivate type) ∧
      (∀ r ∈ e.record :: e.nested, ∀ f ∈ r.fields, f.field.Unmangled) ∧
      ∀ f ∈ e.record.fields, f.matchesPattern → f.identifier.toList.any Text.isWordChar)
    ⟨fun ⟨name, types, fields, patterns⟩ => ⟨name, types, fields, patterns⟩,
      fun ⟨name, types, fields, patterns⟩ => ⟨name, types, fields, patterns⟩⟩

/-! ## Identifiers -/

/-- Camel case never makes a private name. -/
theorem Declaration.not_isPrivate_identifier {d : Declaration} : ¬ IsPrivate d.identifier ↔ d.Unmangled := by
  rw [identifier, Unmangled]
  cases given d.nameOverride with
  | some identifier => rfl
  | none =>
    dsimp only
    split
    · rename_i asItIs
      exact ⟨fun plain _ => plain, fun plain => plain asItIs⟩
    · rename_i converted
      exact iff_of_true (fun isPrivate => Name.camelCase_plain d.name isPrivate.1) fun asItIs => absurd asItIs converted

namespace Access

theorem not_isPrivate_backing (identifier : String) : ¬ IsPrivate (backing identifier) := by
  obtain ⟨rest, spelled, other⟩ := backing_spelled identifier
  rintro ⟨⟨more, two⟩, -⟩
  rw [spelled] at two
  obtain rfl : '_' :: more = rest := (List.cons.inj two).2
  exact other rfl

/-- A class that is named after an entity starts like the name of the entity, and ends in a letter. -/
theorem isPrivate_class {name ending : String} (known : ending ∈ ["Keys", "Validator", "Repository"]) :
    IsPrivate (name ++ ending) ↔ "__".toList <+: name.toList := by
  have words : ∀ ending ∈ ["Keys", "Validator", "Repository"],
      ending.toList.head? ≠ some '_' ∧ ending.toList.getLast? ≠ some '_' ∧ ending.toList ≠ [] := by decide
  obtain ⟨start, last, nonempty⟩ := words ending known
  rw [IsPrivate, String.toList_append]
  generalize ending.toList = word at start last nonempty
  have letter : ¬ "__".toList <:+ name.toList ++ word := by
    rintro ⟨front, spelled⟩
    refine last ?_
    rw [← List.getLast?_append_of_ne_nil name.toList nonempty, ← spelled,
      List.getLast?_append_of_ne_nil front (by decide)]
    rfl
  have two : "__".toList = ['_', '_'] := by decide
  rw [and_iff_left letter, two]
  -- the underscores cannot reach into the word
  match name.toList with
  | [] =>
    refine iff_of_false (fun ⟨rest, spelled⟩ => ?_) (by simp)
    exact start (congrArg List.head? spelled.symm)
  | [first] =>
    refine iff_of_false (fun ⟨rest, spelled⟩ => ?_) (by simp)
    obtain ⟨-, spelled⟩ := List.cons.inj spelled
    exact start (congrArg List.head? spelled.symm)
  | first :: second :: others => simp

/-! ## Constants -/

theorem toList_patternBase (identifier : String) :
    (patternBase identifier).toList = (Name.snakeChars identifier.toList).map Char.toUpper := by
  have spelled := Name.toList_indexConstant identifier
  rw [Name.indexConstant, String.toList_append] at spelled
  exact List.append_cancel_left spelled

/-- What the constant of a pattern is called by has no underscore at the front. -/
theorem head?_patternBase_ne_underscore (identifier : String) : (patternBase identifier).toList.head? ≠ some '_' := by
  rw [patternBase, String.toList_ofList]
  intro underscore
  have kept := List.head?_dropWhile_not (· == '_') (Name.constantCase identifier).toList
  rw [underscore] at kept
  cases kept

theorem patternBase_eq_empty {identifier : String} :
    patternBase identifier = "" ↔ identifier.toList.any Text.isWordChar = false := by
  have flat : (Name.words identifier.toList).flatten = identifier.toList.filter Text.isWordChar :=
    Name.flatten_wordsFrom [] _
  have none : Name.words identifier.toList = [] ↔ (Name.words identifier.toList).flatten = [] := by
    rw [List.flatten_eq_nil_iff]
    refine ⟨fun empty => by simp [empty], fun empty => List.eq_nil_iff_forall_not_mem.mpr fun word member => ?_⟩
    exact (Name.mem_words member).1 (empty word member)
  rw [← String.toList_inj, toList_patternBase, String.toList_empty, List.map_eq_nil_iff, Name.snakeChars_eq_nil, none,
    flat, List.filter_eq_nil_iff, List.any_eq_false]

theorem patternName_spelled (taken : List String) (identifier : String) : ∃ rest : List Char,
    (patternName (some taken) identifier).toList = '_' :: ((patternBase identifier).toList ++ '_' :: rest) := by
  have chosen : patternName (some taken) identifier = Name.fresh taken s!"_{patternBase identifier}_PATTERN"
    fun n => s!"_{patternBase identifier}_{n}_PATTERN" := rfl
  have plain : ∀ s : String, toString s = s := fun _ => rfl
  rw [chosen]
  rcases Name.fresh_cases taken s!"_{patternBase identifier}_PATTERN"
    (fun n => s!"_{patternBase identifier}_{n}_PATTERN") with same | ⟨n, same⟩
  · exact ⟨"PATTERN".toList, by rw [same]; simp [plain, String.toList_append]⟩
  · exact ⟨(toString n).toList ++ "_PATTERN".toList, by rw [same]; simp [plain, String.toList_append]⟩

/-- Only the constant of a field without ASCII letters and digits is private. -/
theorem isPrivate_patternName (taken : List String) (identifier : String) :
    IsPrivate (patternName (some taken) identifier) ↔ identifier.toList.any Text.isWordChar = false := by
  have letter : ¬ "__".toList <:+ (patternName (some taken) identifier).toList := by
    obtain ⟨start, same⟩ := patternName_ending taken identifier
    rintro ⟨front, spelled⟩
    have last := congrArg List.getLast? spelled
    rw [same, String.toList_append, List.getLast?_append_of_ne_nil _ (by decide),
      List.getLast?_append_of_ne_nil _ (by decide)] at last
    exact absurd last (by decide)
  have two : "__".toList = ['_', '_'] := by decide
  have first := head?_patternBase_ne_underscore identifier
  obtain ⟨rest, spelled⟩ := patternName_spelled taken identifier
  rw [← patternBase_eq_empty, IsPrivate, and_iff_left letter, two, spelled, ← String.toList_inj, String.toList_empty]
  cases base : (patternBase identifier).toList with
  | nil => simp
  | cons c others =>
    rw [base] at first
    have other : '_' ≠ c := fun same => first (same ▸ rfl)
    simp [other]

/-- The checks of some fields are those of the fields one after the other, with more and more taken names. -/
theorem allChecks_forall₂ (taken : List String) (fields : List ResolvedField) :
    List.Forall₂ (fun f checks => ∃ before, checks = fieldChecks (some before) f) fields (allChecks taken fields) := by
  induction fields generalizing taken with
  | nil => exact .nil
  | cons f rest ih => exact .cons ⟨taken, rfl⟩ (ih _)

/-- A field with a pattern is one that a pattern is compiled for. -/
theorem matchesPattern_iff {f : ResolvedField} (taken : List String) : f.matchesPattern ↔
    ∃ c p, applicable f = some c ∧
      (boundChecks (some taken) f c).pattern = some ⟨patternName (some taken) f.identifier, p⟩ := by
  rw [ResolvedField.matchesPattern, Bool.and_eq_true, beq_iff_eq, Option.isSome_iff_exists]
  constructor
  · rintro ⟨text, p, given⟩
    obtain ⟨c, constraints, pattern⟩ := Option.bind_eq_some_iff.mp given
    refine ⟨c, p, ?_, ?_⟩
    · rw [applicable, text]
      exact constraints
    · rw [boundChecks, if_pos text, pattern]
      rfl
  · rintro ⟨c, p, applies, given⟩
    rw [boundChecks] at given
    split at given
    · rename_i text
      obtain ⟨p, pattern, -⟩ := Option.map_eq_some_iff.mp given
      rw [applicable, text] at applies
      exact ⟨text, p, Option.bind_eq_some_iff.mpr ⟨c, applies, pattern⟩⟩
    · cases given

/-- A compiled pattern is checked. -/
theorem patternCheck_mem {taken : Option (List String)} {f : ResolvedField} {c : Constraints} {q : CompiledPattern}
    (given : (boundChecks taken f c).pattern = some q) :
    patternCheck f q.constant q.pattern ∈ (boundChecks taken f c).statements := by
  rw [boundChecks] at given ⊢
  split at given
  · rename_i text
    dsimp only at given
    rw [if_pos text, given]
    simp
  · cases given

/-- Every pattern of an entity belongs to a field with a pattern. -/
theorem exists_of_mem_patternsOf {q : CompiledPattern} (member : q ∈ patternsOf e) : ∃ f ∈ e.record.fields,
    f.matchesPattern ∧ ∃ before, q.constant = patternName (some before) f.identifier := by
  obtain ⟨checks, listed, given⟩ := List.mem_filterMap.mp member
  obtain ⟨f, inRecord, before, rfl⟩ := (forall₂_mem (allChecks_forall₂ [] e.record.fields)).2 checks listed
  obtain ⟨c, applies, -, constant⟩ := fieldChecks_pattern given
  refine ⟨f, inRecord, (matchesPattern_iff before).mpr ⟨c, q.pattern, applies, ?_⟩, before, constant⟩
  rw [fieldChecks, applies] at given
  rw [← constant]
  exact given

/-! ## Fixed words -/

theorem not_isPrivate_elementName (depth : Nat) : ¬ IsPrivate (elementName depth) := by
  obtain ⟨digits, spelled, -⟩ := elementName_spelled depth
  exact not_isPrivate_of_head (by simp [spelled])

theorem fixedNames_public : FixedNames fun name => ¬ IsPrivate name :=
  .of_all (by decide +kernel) not_isPrivate_elementName

theorem not_isPrivate_factoryName (entityName : String) : ¬ IsPrivate (factoryName entityName) := by
  have first := Name.head?_snakeChars_ne_underscore entityName.toList
  have spelled : (factoryName entityName).toList = Name.snakeChars entityName.toList ++ "_repository".toList := by
    rw [factoryName, String.toList_append, Name.toList_snakeCase]
  cases chars : Name.snakeChars entityName.toList with
  | nil =>
    rw [chars] at spelled
    rw [IsPrivate, spelled]
    decide
  | cons c rest =>
    rw [chars] at spelled first
    refine not_isPrivate_of_head ?_
    rw [spelled]
    exact first

theorem not_isPrivate_queryName (i : Index) : ¬ IsPrivate (queryName i) := by
  refine not_isPrivate_of_head ?_
  simp [queryName_toList]

theorem not_isPrivate_indexConstant (name : String) : ¬ IsPrivate (Name.indexConstant name) := by
  refine not_isPrivate_of_head ?_
  simp [Name.toList_indexConstant]

end Access

/-! ## Entities -/

namespace Entity.Unmangled

variable (unmangled : e.Unmangled) (describes : Describes s e)
include unmangled describes

theorem identifiers : ∀ r ∈ e.record :: e.nested, ∀ f ∈ r.fields, ¬ IsPrivate f.identifier := by
  intro r member f inRecord
  rw [describes.identifier_eq member inRecord]
  exact Declaration.not_isPrivate_identifier.mpr (unmangled.fields r member f inRecord)

theorem key_identifiers : ∀ k ∈ keyAttributes e table, ¬ IsPrivate k.identifier :=
  keyAttributes_identifier (¬ IsPrivate ·) describes (unmangled.identifiers describes _ List.mem_cons_self)
    fun _ _ _ isPrivate => Name.camelCase_plain _ isPrivate.1

omit describes in
theorem pattern_constants : ∀ q ∈ patternsOf e, ¬ IsPrivate q.constant := by
  intro q member
  obtain ⟨f, inRecord, matchesPattern, before, constant⟩ := exists_of_mem_patternsOf member
  rw [constant, isPrivate_patternName, unmangled.patterns f inRecord matchesPattern]
  simp

/-- No name that the modules of the entity are spelled with is private. -/
theorem names : EntityNames (fun name => ¬ IsPrivate name) e table where
  toSharedNames := fixedNames_public.toSharedNames
  recordWords := fixedNames_public.recordWords
  words := fixedNames_public.helperWords
  name isPrivate := unmangled.name isPrivate.1
  nested := unmangled.types
  keysClass := (isPrivate_class (by simp)).not.mpr unmangled.name
  validatorClass := (isPrivate_class (by simp)).not.mpr unmangled.name
  repositoryClass := (isPrivate_class (by simp)).not.mpr unmangled.name
  identifiers := unmangled.identifiers describes
  backings _ _ f _ := not_isPrivate_backing f.identifier
  constants t member constant listed := by
    rw [describes.enums] at member
    obtain ⟨f, -, owner, rfl⟩ := (forall₂_mem describes.collects.enums).2 t member
    exact not_isPrivate_of_head (Name.head?_ne_underscore_of_mem_memberNames listed)
  patterns := unmangled.pattern_constants
  keys := unmangled.key_identifiers describes
  queries _ _ i _ := ⟨not_isPrivate_queryName i, not_isPrivate_indexConstant i.name⟩
  factory _ := not_isPrivate_factoryName e.name

end Entity.Unmangled

/-! ## Names that the classes hold -/

/-- Every nested type is the type of some field. -/
theorem Describes.types_named (describes : Describes s e) {P : String → Prop}
    (types : ∀ r ∈ e.record :: e.nested, ∀ f ∈ r.fields, TypeNames P f.type) :
    ∀ type ∈ e.nested.map (·.name) ++ e.enums.map (·.name), P type := by
  have known : ∀ f ∈ e.record.fields ++ e.nested.flatMap (·.fields), TypeNames P f.type := by
    rw [List.forall_mem_append, List.forall_mem_flatMap]
    exact List.forall_mem_cons.mp types
  obtain ⟨-, -, -, recordNames, enumNames, -⟩ := describes.collects
  rw [← describes.nested] at recordNames enumNames
  rw [← describes.enums] at enumNames
  rw [List.forall_mem_append, List.forall_mem_map, List.forall_mem_map]
  constructor
  · intro r member
    obtain ⟨f, inEntity, mentioned⟩ := List.mem_flatMap.mp (recordNames.symm.subset (List.mem_map_of_mem member))
    exact known f inEntity r.name (.inl mentioned)
  · intro t member
    obtain ⟨f, inEntity, mentioned⟩ := List.mem_flatMap.mp (enumNames.symm.subset (List.mem_map_of_mem member))
    exact known f inEntity t.name (.inr mentioned)

namespace Access

section

variable {P : String → Prop} {type : TypeRef} {enums : List EnumType}

/-- The statements in the body of a class have no private names. -/
theorem namedBy_of_unmangled {m : Module} (unmangled : m.Unmangled) {c member : Stmt} (inBody : c ∈ m.body)
    (inSuite : member ∈ c.suite) : member.NamedBy fun name => ¬ IsPrivate name := by
  intro name identifier
  refine unmangled name ?_
  rw [Stmt.classIdentifiersAll_eq]
  refine List.mem_flatMap.mpr ⟨c, inBody, ?_⟩
  cases c with
  | classDef _ _ _ _ body =>
    rw [Stmt.classIdentifiers, Stmt.identifiersAll_eq]
    exact List.mem_flatMap.mpr ⟨member, inSuite, identifier⟩
  | _ => cases inSuite

/-- A hint has the names of the generated types in it. -/
theorem typeNames_of_typeHint (named : (typeHint type).NamedBy P) : TypeNames P type := by
  induction type with
  | list element ih => exact ih ((Expr.namedBy_generic.mp named).2 _ List.mem_cons_self)
  | record name => simpa [TypeNames, TypeRef.recordNames, TypeRef.enumNames, typeHint] using named
  | enum name => simpa [TypeNames, TypeRef.recordNames, TypeRef.enumNames, typeHint] using named
  | _ => simp [TypeNames, TypeRef.recordNames, TypeRef.enumNames]

theorem typeNames_of_optionalHint (named : (optionalHint type).NamedBy P) : TypeNames P type := by
  cases type with
  | any => simp [TypeNames, TypeRef.recordNames, TypeRef.enumNames]
  | _ =>
    rw [optionalHint, Expr.namedBy_generic, List.forall_mem_singleton] at named
    · exact typeNames_of_typeHint named.2
    · simp

/-- The constructor of a record takes its fields, with their types. -/
theorem constructor_named (named : (constructor enums r).value.NamedBy P) :
    ∀ f ∈ r.fields, P f.identifier ∧ TypeNames P f.type := by
  rw [constructor_value, Stmt.namedBy_function, Signature.namedBy_mk] at named
  intro f inRecord
  have param := named.1.2.2.2.1 _ (List.mem_cons_of_mem _ (List.mem_map_of_mem inRecord))
  exact (Param.namedBy_optional.mp param).imp_right typeNames_of_optionalHint

/-- The class of a record has the names of its fields and their types. -/
theorem recordModule_fields (unmangled : (recordModule enums r).value.Unmangled) :
    ∀ f ∈ r.fields, ¬ IsPrivate f.identifier ∧ TypeNames (fun name => ¬ IsPrivate name) f.type := by
  have init : (constructor enums r).value.NamedBy fun name => ¬ IsPrivate name := by
    refine namedBy_of_unmangled unmangled (c := (recordClass enums r).value) ?_ ?_
    · rw [recordModule_body]
      exact List.mem_append_right _ List.mem_cons_self
    · rw [recordClass_body]
      simp [Stmt.suite, recordBody]
  exact constructor_named init

/-- The class of a key helper has its own name. -/
theorem keysModule_name (unmangled : (keysModule e table).value.Unmangled) : ¬ IsPrivate (keysClass e.name) := by
  have function : (keyFunction e).NamedBy fun name => ¬ IsPrivate name := by
    refine namedBy_of_unmangled unmangled (c := keysHelper e table) ?_ ?_
    · rw [keysModule_body]
      simp
    · simp [keysHelper, Stmt.suite]
  rw [keyFunction, Stmt.namedBy_function, List.forall_mem_singleton, Stmt.namedBy_result, Expr.namedBy_dict] at function
  have entry := Entry.namedBy_mk.mp (function.2 _ List.mem_cons_self)
  exact Expr.namedBy_name.mp (Expr.namedBy_attr.mp entry.1).2

/-- The checks of an entity stand in the class of its validator. -/
theorem validatorModule_checks (unmangled : (validatorModule e).value.Unmangled) :
    ∀ check ∈ checksOf e, check.NamedBy fun name => ¬ IsPrivate name := by
  intro check listed
  have function := namedBy_of_unmangled unmangled (c := validatorHelper e (checksOf e))
    (by rw [validatorModule_body]; simp) (List.mem_cons_of_mem _ List.mem_cons_self)
  refine (Stmt.namedBy_function.mp function).2 check ?_
  rw [validateBody, if_neg (by simpa using List.ne_nil_of_mem listed)]
  simp [listed]

/-- The class of a validator has the constants of the patterns. -/
theorem validatorModule_patterns (unmangled : (validatorModule e).value.Unmangled) :
    ∀ f ∈ e.record.fields, f.matchesPattern → f.identifier.toList.any Text.isWordChar := by
  intro f inRecord matchesPattern
  obtain ⟨checks, listed, before, rfl⟩ := (forall₂_mem (allChecks_forall₂ [] e.record.fields)).1 f inRecord
  obtain ⟨c, p, applies, pattern⟩ := (matchesPattern_iff before).mp matchesPattern
  have inBounds := patternCheck_mem pattern
  have check : Stmt.ifThen (Expr.isNotNone (validated f)) (boundChecks (some before) f c).statements ∈ checksOf e := by
    refine List.mem_flatMap.mpr ⟨_, listed, ?_⟩
    rw [fieldChecks, applies]
    simp [List.ne_nil_of_mem inBounds]
  have named := (Stmt.namedBy_ifThen.mp (validatorModule_checks unmangled _ check)).2 _ inBounds
  have constant : ¬ IsPrivate (patternName (some before) f.identifier) := by
    simp only [patternCheck, Stmt.namedBy_ifThen, Expr.namedBy_not, Expr.namedBy_method, Expr.namedBy_name] at named
    exact named.1.2.1
  rw [isPrivate_patternName] at constant
  simpa using constant

end

end Access

end Tablewright
