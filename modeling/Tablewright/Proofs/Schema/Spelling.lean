import Tablewright.Proofs.Lists
import Tablewright.Proofs.Name.Constant
import Tablewright.Proofs.Name.Identifier
import Tablewright.Proofs.Schema.Nesting

/-!
# Spelling of descriptions

What a description gives for identifiers: the identifiers of fields, the names of nested types and the constants of enums.
The name of a nested type is put together from that of the record around it and the identifier of a field, so it is an
identifier as long as these are.

* `Declaration.Spelled`: the identifier of a declaration is one.
* `Describes.nested_spelled`: the names of nested types are identifiers, and no keywords.
* `Describes.constants_spelled`: so are the constants of enums.
-/

namespace Tablewright

variable {s : Schema} {e : Entity} {r : Record} {f : ResolvedField}

/-! ## Identifiers of fields -/

/-- An override is an identifier and no keyword; without override there is a storage name to make one of. -/
def Declaration.Spelled (d : Declaration) : Prop :=
  match given d.nameOverride with
  | some identifier => Name.isPackagePart identifier
  | none => d.name ≠ ""

instance (d : Declaration) : Decidable d.Spelled := by
  unfold Declaration.Spelled
  split <;> infer_instance

theorem Declaration.isPackagePart_identifier {d : Declaration} : Name.isPackagePart d.identifier ↔ d.Spelled := by
  have nothing : ¬ Name.isPackagePart (if Name.isFieldIdentifier "" then "" else Name.camelCase "") := by decide
  rw [identifier, Spelled]
  cases given d.nameOverride with
  | some identifier => rfl
  | none =>
    by_cases empty : d.name = ""
    · rw [empty]
      exact iff_of_false nothing (fun some => some rfl)
    · refine iff_of_true ?_ empty
      dsimp only
      split
      · exact Name.isPackagePart_of_isFieldIdentifier ‹_›
      · exact Name.isPackagePart_of_isFieldIdentifier (Name.isFieldIdentifier_camelCase empty)

/-- The fields of a description have the identifiers of their declarations. -/
theorem Describes.identifier_eq (describes : Describes s e) (member : r ∈ e.record :: e.nested) (inRecord : f ∈ r.fields) :
    f.identifier = f.field.identifier := by
  obtain ⟨scope, -, fields, -⟩ := describes.scope member
  rw [fields, mapFields_fields] at inRecord
  obtain ⟨g, -, rfl⟩ := List.mem_map.mp inRecord
  rfl

/-! ## Names of nested types -/

/-- The names of needed types are identifiers and no keywords. -/
structure Needs.Spelled (needs : Needs) : Prop where
  records : ∀ r ∈ needs.records, Name.isPackagePart r.name
  enums : ∀ t ∈ needs.enums, Name.isPackagePart t.name

theorem Field.isPackagePart_recordOf {f : Field} {owner : String} (front : Text.isIdentifier owner)
    (here : Text.isIdentifier f.identifier) : Name.isPackagePart (f.recordOf owner).name := by
  have own : Name.isPackagePart (f.ownTypeName owner) := Name.isPackagePart_capitalize front here
  have item : "Item".toList.all Text.isIdentifierContinue := by decide
  unfold Field.recordOf
  split
  · exact Name.isPackagePart_extend (Name.isIdentifier_of_isPackagePart own) (List.all_eq_true.mp item)
      (c := 'I') (by decide) (by decide)
  · exact own

mutual

/-- A field with an identifier needs types with such names, if the fields of the needed records have identifiers too. -/
theorem mapField_spelled {owner : String} (front : Text.isIdentifier owner) (f : Field)
    (here : Text.isIdentifier f.identifier)
    (below : ∀ r ∈ (mapField owner f).2.records, ∀ g ∈ r.fields, Text.isIdentifier g.identifier) :
    (mapField owner f).2.Spelled := by
  rcases mapField_cases owner f with ⟨-, -, mapped⟩ | ⟨-, -, -, -, needs⟩ | ⟨-, -, -, -, records, enums⟩
  · rw [mapped]
    exact ⟨List.forall_mem_nil _, List.forall_mem_singleton.mpr (Name.isPackagePart_capitalize front here)⟩
  · have name : Name.isPackagePart (f.recordOf owner).name := Field.isPackagePart_recordOf front here
    rw [needs] at below ⊢
    obtain ⟨deeper, own⟩ := List.forall_mem_append.mp below
    -- the fields of the record itself are those that it is closed over
    have fields := List.forall_mem_singleton.mp own
    rw [f.recordOf_fields] at fields
    obtain ⟨records, enums⟩ :=
      mapFields_spelled (Name.isIdentifier_of_isPackagePart name) f.recordFields fields deeper
    exact ⟨List.forall_mem_append.mpr ⟨records, List.forall_mem_singleton.mpr name⟩,
      List.forall_mem_append.mpr ⟨enums, List.forall_mem_nil _⟩⟩
  · constructor
    · simp [records]
    · simp [enums]
termination_by sizeOf f
decreasing_by exact f.sizeOf_recordFields

theorem mapFields_spelled {owner : String} (front : Text.isIdentifier owner) (fields : List Field)
    (here : ∀ g ∈ (mapFields owner fields).1, Text.isIdentifier g.identifier)
    (below : ∀ r ∈ (mapFields owner fields).2.records, ∀ g ∈ r.fields, Text.isIdentifier g.identifier) :
    (mapFields owner fields).2.Spelled := by
  cases fields with
  | nil =>
    rw [mapFields]
    exact ⟨List.forall_mem_nil _, List.forall_mem_nil _⟩
  | cons f rest =>
    rw [mapFields_cons] at below ⊢
    rw [mapFields] at here
    obtain ⟨first, others⟩ := List.forall_mem_cons.mp here
    obtain ⟨belowFirst, belowOthers⟩ := List.forall_mem_append.mp below
    obtain ⟨records, enums⟩ := mapField_spelled front f first belowFirst
    obtain ⟨records', enums'⟩ := mapFields_spelled front rest others belowOthers
    exact ⟨List.forall_mem_append.mpr ⟨records, records'⟩, List.forall_mem_append.mpr ⟨enums, enums'⟩⟩
termination_by sizeOf fields

end

/-- The names of nested types are put together from identifiers. -/
theorem Describes.nested_spelled (describes : Describes s e) (name : Text.isIdentifier e.name)
    (identifiers : ∀ r ∈ e.record :: e.nested, ∀ f ∈ r.fields, Text.isIdentifier f.identifier) :
    ∀ type ∈ e.nested.map (·.name) ++ e.enums.map (·.name), Name.isPackagePart type := by
  obtain ⟨own, below⟩ := List.forall_mem_cons.mp identifiers
  have front : Text.isIdentifier s.name := describes.name ▸ name
  rw [describes.fields] at own
  rw [describes.nested] at below
  obtain ⟨records, enums⟩ := mapFields_spelled front s.fields own below
  rw [describes.nested, describes.enums, List.forall_mem_append, List.forall_mem_map, List.forall_mem_map]
  exact ⟨records, enums⟩

/-! ## Constants of enums -/

/-- The constants of enums are spelled in capitals, whatever the values are. -/
theorem Describes.constants_spelled (describes : Describes s e) :
    ∀ t ∈ e.enums, ∀ constant ∈ t.constants, Name.isPackagePart constant := by
  intro t member constant listed
  rw [describes.enums] at member
  obtain ⟨f, -, owner, rfl⟩ := (forall₂_mem describes.collects.enums).2 t member
  exact (Name.isConstant_of_mem_memberNames listed).isPackagePart

end Tablewright
