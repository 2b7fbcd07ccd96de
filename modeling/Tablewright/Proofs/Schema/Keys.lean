import Tablewright.Proofs.Schema.Description

/-!
# Key attributes and fields

A key attribute is looked up among the fields of its entity by storage name, and the last field of that name counts.  If
no field declares it, its identifier is its name in camel case, whatever the fields are called.

* `keyAttribute_cases`: the two ways in which a key attribute is found.
* `Entity.Declares`: the storage names that fields of an entity declare.
* `OfEntity`: the key attributes of an entity, with `OfEntity.identifier_inj` for when two of them have one identifier.
-/

namespace Tablewright

/-- A key attribute is that of the last field of its storage name, or no field declares it. -/
theorem keyAttribute_cases (entityName : String) (fields : List ResolvedField) (storageName : String) :
    (∃ before f after, fields = before ++ f :: after ∧ (∀ g ∈ after, g.storageName ≠ storageName) ∧
        f.storageName = storageName ∧
        (keyAttribute entityName fields storageName).value = ⟨storageName, f.identifier, f.type⟩) ∨
      storageName ∉ fields.map (·.storageName) ∧
        (keyAttribute entityName fields storageName).value =
          ⟨storageName, Name.camelCase storageName, .scalar .string⟩ := by
  rw [keyAttribute]
  cases found : fields.reverse.find? (·.storageName == storageName) with
  | none =>
    right
    rw [List.find?_eq_none] at found
    refine ⟨fun declared => ?_, rfl⟩
    obtain ⟨f, member, same⟩ := List.mem_map.mp declared
    exact found f (List.mem_reverse.mpr member) (beq_iff_eq.mpr same)
  | some f =>
    left
    obtain ⟨same, after, before, split, others⟩ := List.find?_eq_some_iff_append.mp found
    refine ⟨before.reverse, f, after.reverse, ?_, ?_, beq_iff_eq.mp same, rfl⟩
    · rw [← List.reverse_reverse fields, split]
      simp
    · intro g member
      simpa using others g (List.mem_reverse.mp member)

/-- A field of an entity is stored under a name. -/
def Entity.Declares (e : Entity) (storageName : String) : Prop := storageName ∈ e.record.fields.map (·.storageName)

instance (e : Entity) (storageName : String) : Decidable (e.Declares storageName) :=
  inferInstanceAs (Decidable (storageName ∈ _))

/-- A key attribute that was looked up among the fields of an entity. -/
def OfEntity (e : Entity) (k : KeyAttribute) : Prop :=
  ∃ entityName, k = (keyAttribute entityName e.record.fields k.storageName).value

section

variable {s : Schema} {e : Entity} {k l : KeyAttribute}

theorem ofEntity_keyAttribute (e : Entity) (entityName storageName : String) :
    OfEntity e (keyAttribute entityName e.record.fields storageName).value := by
  have named : (keyAttribute entityName e.record.fields storageName).value.storageName = storageName := by
    rcases keyAttribute_cases entityName e.record.fields storageName with ⟨_, f, _, -, -, -, value⟩ | ⟨-, value⟩
    · rw [value]
    · rw [value]
  exact ⟨entityName, by rw [named]⟩

/-- A key attribute of an entity is determined by its storage name. -/
theorem OfEntity.ext (known : OfEntity e k) (other : OfEntity e l) (same : k.storageName = l.storageName) : k = l := by
  obtain ⟨_, value⟩ := known
  obtain ⟨_, value'⟩ := other
  rw [value, value', same, keyAttribute, keyAttribute]
  split <;> rfl

theorem Describes.ofEntity_keys (describes : Describes s e) : ∀ k ∈ e.keys, OfEntity e k := by
  refine List.forall_mem_cons.mpr ⟨?_, fun k given => ?_⟩
  · rw [describes.partitionKey]
    exact ofEntity_keyAttribute e _ _
  · rw [Option.mem_toList, describes.sortKey] at given
    obtain ⟨storageName, -, rfl⟩ := Option.map_eq_some_iff.mp given
    exact ofEntity_keyAttribute e _ _

namespace OfEntity

variable (known : OfEntity e k)
include known

theorem declared (declares : e.Declares k.storageName) :
    ∃ f ∈ e.record.fields, f.storageName = k.storageName ∧ f.identifier = k.identifier ∧ f.type = k.type := by
  obtain ⟨entityName, value⟩ := known
  rcases keyAttribute_cases entityName e.record.fields k.storageName with ⟨before, f, after, split, -, same, found⟩ | absent
  · rw [found] at value
    refine ⟨f, split ▸ List.mem_append_right _ List.mem_cons_self, same, ?_, ?_⟩
    · rw [value]
    · rw [value]
  · exact absurd declares absent.1

theorem undeclared (absent : ¬ e.Declares k.storageName) :
    k.identifier = Name.camelCase k.storageName ∧ k.type = .scalar .string := by
  obtain ⟨entityName, value⟩ := known
  rcases keyAttribute_cases entityName e.record.fields k.storageName with ⟨before, f, after, split, -, same, -⟩ | ⟨-, found⟩
  · refine absurd ?_ absent
    exact List.mem_map.mpr ⟨f, split ▸ List.mem_append_right _ List.mem_cons_self, same⟩
  · rw [found] at value
    rw [value]
    exact ⟨rfl, rfl⟩

/-- A key attribute is called like fields of its own storage name only, unless it is undeclared and camel case makes it
the identifier of a field. -/
theorem names_field (distinct : (e.record.fields.map (·.identifier)).Nodup)
    (apart : ¬ e.Declares k.storageName → Name.camelCase k.storageName ∉ e.record.fields.map (·.identifier))
    {f : ResolvedField} (inRecord : f ∈ e.record.fields) (same : f.identifier = k.identifier) :
    f.storageName = k.storageName := by
  by_cases declares : e.Declares k.storageName
  · obtain ⟨g, inRecord', stored, identifier, -⟩ := known.declared declares
    obtain rfl := List.inj_on_of_nodup_map distinct inRecord inRecord' (same.trans identifier.symm)
    exact stored
  · refine absurd (List.mem_map.mpr ⟨f, inRecord, ?_⟩) (apart declares)
    rw [same, (known.undeclared declares).1]

/-- Two key attributes of one identifier have one storage name, unless both are undeclared and share their camel case,
or the camel case of one of them is the identifier of a field. -/
theorem identifier_inj (distinct : (e.record.fields.map (·.identifier)).Nodup)
    (apart : ¬ e.Declares k.storageName → Name.camelCase k.storageName ∉ e.record.fields.map (·.identifier))
    (other : OfEntity e l)
    (apart' : ¬ e.Declares l.storageName → Name.camelCase l.storageName ∉ e.record.fields.map (·.identifier))
    (both : ¬ e.Declares k.storageName → ¬ e.Declares l.storageName →
      Name.camelCase k.storageName = Name.camelCase l.storageName → k.storageName = l.storageName)
    (same : k.identifier = l.identifier) : k.storageName = l.storageName := by
  by_cases declares : e.Declares k.storageName
  · obtain ⟨f, inRecord, stored, identifier, -⟩ := known.declared declares
    rw [← stored]
    exact other.names_field distinct apart' inRecord (identifier.trans same)
  · by_cases declares' : e.Declares l.storageName
    · obtain ⟨f, inRecord, stored, identifier, -⟩ := other.declared declares'
      rw [← stored]
      exact (known.names_field distinct apart inRecord (identifier.trans same.symm)).symm
    · refine both declares declares' ?_
      rw [← (known.undeclared declares).1, ← (other.undeclared declares').1, same]

end OfEntity

end

end Tablewright
