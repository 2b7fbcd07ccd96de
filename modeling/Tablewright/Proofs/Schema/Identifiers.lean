import Tablewright.Proofs.Name.Camel
import Tablewright.Proofs.Schema.Description

/-!
# Identifiers without overrides

The identifier of a field is its storage name, kept or in camel case, unless the schema overrides it.  So it is never
reserved, and it starts with two underscores only if the storage name was kept.
-/

namespace Tablewright

/-- An identifier only holds characters that may start or continue one. -/
theorem Text.notMem_of_isIdentifier {name : String} (valid : Text.isIdentifier name) {c : Char}
    (foreign : ¬ Text.isIdentifierStart c ∧ ¬ Text.isIdentifierContinue c) : c ∉ name.toList := by
  rw [Text.isIdentifier] at valid
  intro member
  cases spelled : name.toList with
  | nil =>
    rw [spelled] at member
    cases member
  | cons first rest =>
    rw [spelled, Text.isIdentifierChars, Bool.and_eq_true, List.all_eq_true] at valid
    rw [spelled] at member
    rcases List.mem_cons.mp member with rfl | later
    · exact foreign.1 valid.1
    · exact foreign.2 (valid.2 _ later)

variable {d : Declaration}

namespace Declaration

theorem identifier_cases (noOverride : given d.nameOverride = none) :
    (Name.isFieldIdentifier d.name ∧ d.identifier = d.name) ∨ d.identifier = Name.camelCase d.name := by
  rw [identifier, noOverride]
  by_cases kept : Name.isFieldIdentifier d.name
  · exact .inl ⟨kept, if_pos kept⟩
  · exact .inr (if_neg kept)

theorem identifier_unreserved (noOverride : given d.nameOverride = none) : d.identifier ∉ Name.reserved := by
  have free : Name.isReserved d.identifier = false := by
    cases identifier_cases noOverride with
    | inl kept =>
      obtain ⟨valid, same⟩ := kept
      rw [Name.isFieldIdentifier, Bool.and_eq_true, Bool.not_eq_true'] at valid
      rw [same, valid.2]
    | inr cased => rw [cased, Name.camelCase_unreserved]
  simpa [Name.isReserved] using free

theorem identifier_of_underscores (noOverride : given d.nameOverride = none)
    (two : "__".toList <+: d.identifier.toList) : d.identifier = d.name := by
  cases identifier_cases noOverride with
  | inl kept => exact kept.2
  | inr cased =>
    rw [cased] at two
    exact absurd two (Name.camelCase_plain d.name)

theorem identifier_congr {other : Declaration} (noOverride : given d.nameOverride = none)
    (noOverride' : given other.nameOverride = none) (same : d.name = other.name) : d.identifier = other.identifier := by
  rw [identifier, identifier, noOverride, noOverride', same]

end Declaration

/-- A field whose identifier comes from its storage name. -/
structure ResolvedField.Inferred (f : ResolvedField) : Prop where
  noOverride : given f.field.nameOverride = none
  resolved : f.identifier = f.field.identifier

namespace ResolvedField.Inferred

variable {f : ResolvedField} (inferred : f.Inferred)
include inferred

theorem unreserved : f.identifier ∉ Name.reserved := by
  rw [inferred.resolved]
  exact Declaration.identifier_unreserved inferred.noOverride

theorem of_underscores (two : "__".toList <+: f.identifier.toList) : f.identifier = f.storageName := by
  rw [inferred.resolved] at two ⊢
  exact Declaration.identifier_of_underscores inferred.noOverride two

/-- A storage name with two underscores in front is kept, if it can be used at all. -/
theorem of_storageName (valid : Name.isFieldIdentifier f.storageName) : f.identifier = f.storageName := by
  rw [inferred.resolved, Declaration.identifier, inferred.noOverride]
  exact if_pos valid

end ResolvedField.Inferred

theorem storageNames_nodup {fields : List ResolvedField} (inferred : ∀ f ∈ fields, f.Inferred)
    (distinct : (fields.map (·.identifier)).Nodup) : (fields.map (·.storageName)).Nodup := by
  refine List.Nodup.map_on ?_ (List.Nodup.of_map _ distinct)
  intro f member g member' same
  -- without overrides, one storage name gives one identifier
  refine List.inj_on_of_nodup_map distinct member member' ?_
  rw [(inferred f member).resolved, (inferred g member').resolved]
  exact Declaration.identifier_congr (inferred f member).noOverride (inferred g member').noOverride same

/-- No field of a schema, however deep, has an override. -/
def Schema.NoOverrides (s : Schema) : Prop := ∀ scope, Scope s.fields scope → ∀ f ∈ scope, given f.nameOverride = none

theorem shopOrder_noOverrides : shopOrder.NoOverrides := by
  have all : ∀ scope ∈ scopes shopOrder.fields, ∀ f ∈ scope, given f.nameOverride = none := by decide +kernel
  exact fun scope is => all scope is.mem_scopes

theorem Describes.inferred {s : Schema} {e : Entity} (describes : Describes s e) (noOverrides : s.NoOverrides)
    {r : Record} (member : r ∈ e.record :: e.nested) {f : ResolvedField} (inRecord : f ∈ r.fields) : f.Inferred := by
  obtain ⟨scope, is, fields, -⟩ := describes.scope member
  rw [fields, mapFields_fields] at inRecord
  obtain ⟨g, inScope, rfl⟩ := List.mem_map.mp inRecord
  exact ⟨noOverrides scope is g inScope, rfl⟩

theorem checkCollisions_ok {s : Schema} : checkCollisions s = .ok () ↔ collisions s.fields = [] := by
  rw [checkCollisions]
  split
  · simpa
  · simpa

/-- A schema that is accepted, with a property of its description. -/
theorem exists_described {s : Schema} {P : Entity → Bool} (checked : (describe s).value.toOption.any P = true) :
    ∃ e, (describe s).value = .ok e ∧ P e = true := by
  cases outcome : (describe s).value with
  | error shared =>
    rw [outcome] at checked
    cases checked
  | ok e =>
    rw [outcome] at checked
    exact ⟨e, rfl, checked⟩

end Tablewright
