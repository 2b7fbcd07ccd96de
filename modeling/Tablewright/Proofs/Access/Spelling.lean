import Tablewright.Proofs.Access.Naming
import Tablewright.Proofs.Schema.Spelling

/-!
# Spelling of emitted names

Names that are put together for a module, with an underscore or a capitalised word at one end, are identifiers as long as
the names of the entity and of its fields are.  The exception is the factory of a repository, which starts with the name of
the entity in snake case, and so with a digit if this is the first thing in the name that snake case keeps.

* `Entity.Spelled`: what the description of an entity has to give.
* `Entity.Spelled.names`: then all names that its modules are spelled with are identifiers and no keywords.
-/

namespace Tablewright

open Access Source

variable {s : Schema} {e : Entity} {table : Option Table}

/-- The name of an entity is an identifier and no keyword, every field of its records has such an override or a name to
make an identifier of, and so has every undeclared key attribute.  With a table, the first letter or digit in the name of
the entity is a letter. -/
structure Entity.Spelled (e : Entity) (table : Option Table) : Prop where
  name : Name.isPackagePart e.name
  fields : ∀ r ∈ e.record :: e.nested, ∀ f ∈ r.fields, f.field.Spelled
  keys : ∀ k ∈ keyAttributes e table, ¬ e.Declares k.storageName → k.storageName ≠ ""
  factory : table.isSome → (e.name.toList.find? Text.isWordChar).all Char.isAlpha

instance (e : Entity) (table : Option Table) : Decidable (e.Spelled table) :=
  decidable_of_iff (Name.isPackagePart e.name ∧ (∀ r ∈ e.record :: e.nested, ∀ f ∈ r.fields, f.field.Spelled) ∧
      (∀ k ∈ keyAttributes e table, ¬ e.Declares k.storageName → k.storageName ≠ "") ∧
      (table.isSome → (e.name.toList.find? Text.isWordChar).all Char.isAlpha))
    ⟨fun ⟨name, fields, keys, factory⟩ => ⟨name, fields, keys, factory⟩,
      fun ⟨name, fields, keys, factory⟩ => ⟨name, fields, keys, factory⟩⟩

namespace Access

/-! ## Names that are put together -/

theorem isPackagePart_backing {identifier : String} (valid : Text.isIdentifier identifier) :
    Name.isPackagePart (backing identifier) := by
  have continues := Name.isIdentifierContinue_of_mem valid
  have short : Text.isIdentifier "_" := by decide
  have long : Text.isIdentifier "_field" := by decide
  rw [backing]
  split
  · refine Name.isPackagePart_of_underscore (Name.isIdentifier_append long continues) ?_
    simp
  · refine Name.isPackagePart_of_underscore (Name.isIdentifier_append short continues) ?_
    simp

theorem isPackagePart_elementName (depth : Nat) : Name.isPackagePart (elementName depth) := by
  obtain ⟨digits, spelled, areDigits⟩ := elementName_spelled depth
  have word : Text.isIdentifier "element" := by decide
  have same : elementName depth = "element" ++ String.ofList digits := by
    rw [← String.toList_inj, spelled, String.toList_append, @String.toList_ofList digits]
  have continues : ∀ c ∈ (String.ofList digits).toList, Text.isIdentifierContinue c := by
    rw [String.toList_ofList]
    exact fun c member =>
      Name.isIdentifierContinue_of_isConstantChar (Name.isConstantChar_of_isDigit (areDigits c member))
  -- no keyword starts with this word
  have noKeyword : Name.isKeyword (elementName depth) = false := by
    have others : ∀ keyword ∈ Name.keywords, ¬ "element".toList <+: keyword.toList := by decide
    rw [Bool.eq_false_iff]
    intro keyword
    refine others _ (by simpa [Name.isKeyword] using keyword) ?_
    rw [spelled]
    exact List.prefix_append _ _
  rw [Name.isPackagePart, noKeyword, same, Name.isIdentifier_append word continues]
  rfl

/-- A class that is named after an entity with a capitalised word. -/
theorem isPackagePart_class {name ending : String} (identifier : Text.isIdentifier name)
    (known : ending ∈ ["Keys", "Validator", "Repository"]) : Name.isPackagePart (name ++ ending) := by
  have words : ["Keys", "Validator", "Repository"].all fun ending =>
      ending.toList.all Text.isIdentifierContinue && ending.toList.any (!·.isLower) := by decide
  have word := List.all_eq_true.mp words ending known
  rw [Bool.and_eq_true, List.all_eq_true, List.any_eq_true] at word
  obtain ⟨continues, c, inside, other⟩ := word
  exact Name.isPackagePart_extend identifier continues inside (Bool.not_eq_true' _ ▸ other)

/-- The constant of a pattern is spelled in capitals, whatever is taken. -/
theorem isConstant_patternName (taken : List String) (identifier : String) :
    Name.IsConstant (patternName (some taken) identifier) := by
  have base : ∀ c ∈ (patternBase identifier).toList, Name.isConstantChar c := by
    rw [patternBase, String.toList_ofList]
    exact fun c member => Name.isConstantChar_of_mem_constantCase c ((List.dropWhile_sublist _).subset member)
  have ending : ∀ c ∈ "_PATTERN".toList, Name.isConstantChar c := List.all_eq_true.mp (by decide)
  have underscore : Name.IsConstant "_" := ⟨'_', [], by decide, .inr rfl, rfl⟩
  have start : Name.IsConstant ("_" ++ patternBase identifier) := by
    simpa using underscore.append base
  have chosen : patternName (some taken) identifier = Name.fresh taken s!"_{patternBase identifier}_PATTERN"
    fun n => s!"_{patternBase identifier}_{n}_PATTERN" := rfl
  rw [chosen]
  rcases Name.fresh_cases taken s!"_{patternBase identifier}_PATTERN"
    (fun n => s!"_{patternBase identifier}_{n}_PATTERN") with same | ⟨n, same⟩
  · have plain := start.append ending
    rw [String.ofList_toList] at plain
    rwa [same]
  · have numbered := (Name.isConstant_numbered start n).append ending
    rw [String.ofList_toList] at numbered
    rwa [same]

theorem patternsOf_spelled (e : Entity) : ∀ q ∈ patternsOf e, Name.isPackagePart q.constant := by
  intro q member
  have inFields : q ∈ patternsIn [] e.record.fields := member
  obtain ⟨before, f, -, constant⟩ := patternsIn_constant inFields
  rw [constant]
  exact (isConstant_patternName before f.identifier).isPackagePart

theorem fixedNames_spelled : FixedNames fun name => Name.isPackagePart name :=
  .of_all (by decide +kernel) isPackagePart_elementName

theorem isPackagePart_factoryName {entityName : String} : Name.isPackagePart (factoryName entityName) ↔
    (entityName.toList.find? Text.isWordChar).all Char.isAlpha :=
  Name.isPackagePart_snakeCase_append (by decide) (by decide)

end Access

/-! ## Entities -/

namespace Entity.Spelled

variable (spelled : e.Spelled table) (describes : Describes s e)
include spelled

theorem identifier : Text.isIdentifier e.name := Name.isIdentifier_of_isPackagePart spelled.name

include describes

theorem identifiers : ∀ r ∈ e.record :: e.nested, ∀ f ∈ r.fields, Name.isPackagePart f.identifier := by
  intro r member f inRecord
  rw [describes.identifier_eq member inRecord]
  exact Declaration.isPackagePart_identifier.mpr (spelled.fields r member f inRecord)

theorem key_identifiers : ∀ k ∈ keyAttributes e table, Name.isPackagePart k.identifier :=
  keyAttributes_identifier (Name.isPackagePart ·) describes (spelled.identifiers describes _ List.mem_cons_self)
    fun k known undeclared =>
      Name.isPackagePart_of_isFieldIdentifier (Name.isFieldIdentifier_camelCase (spelled.keys k known undeclared))

/-- All names that the entity gives its modules are identifiers and no keywords. -/
theorem names : EntityNames (fun name => Name.isPackagePart name) e table where
  toSharedNames := fixedNames_spelled.toSharedNames
  recordWords := fixedNames_spelled.recordWords
  words := fixedNames_spelled.helperWords
  name := spelled.name
  nested := describes.nested_spelled spelled.identifier fun r member f inRecord =>
    Name.isIdentifier_of_isPackagePart (spelled.identifiers describes r member f inRecord)
  keysClass := isPackagePart_class spelled.identifier (by simp)
  validatorClass := isPackagePart_class spelled.identifier (by simp)
  repositoryClass := isPackagePart_class spelled.identifier (by simp)
  identifiers := spelled.identifiers describes
  backings r member f inRecord :=
    isPackagePart_backing (Name.isIdentifier_of_isPackagePart (spelled.identifiers describes r member f inRecord))
  constants := describes.constants_spelled
  patterns := patternsOf_spelled e
  keys := spelled.key_identifiers describes
  queries _ _ i _ := ⟨isPackagePart_queryName i, (Name.isConstant_indexConstant i.name).isPackagePart⟩
  factory given := isPackagePart_factoryName.mpr (spelled.factory given)

end Entity.Spelled

end Tablewright
