import Tablewright.Proofs.Schema.Identifiers
import Tablewright.Proofs.Schema.Keys

/-!
# Looking up key attributes

An attribute of a key is looked up among the fields of its entity three times: for its identifier, for its field and for
its description.  The first two take the first field that is stored under its name, the description takes the last.  They
agree on the names that one field declares at most.  The identifiers of a schema may differ where two fields are stored
under one name, so a description can give the identifier and the type of another field.

* `find?_reverse_eq_iff`: when the first match is the last.
* `keyAttribute_mapFields`: the key attribute in terms of the declared fields.
* `lookupsAgree_iff`: the names that the lookups agree on.
-/

namespace Tablewright

theorem find?_reverse_eq_iff {α : Type} {p : α → Bool} {as : List α} (distinct : as.Nodup) :
    as.reverse.find? p = as.find? p ↔ as.countP p ≤ 1 := by
  induction as with
  | nil => simp
  | cons a rest ih =>
    obtain ⟨absent, distinctRest⟩ := List.nodup_cons.mp distinct
    rw [List.reverse_cons, List.find?_append]
    cases holds : p a with
    | false =>
      rw [List.find?_cons_of_neg (by simp [holds]), List.countP_cons_of_neg (by simp [holds]), ← ih distinctRest]
      simp [holds]
    | true =>
      rw [List.find?_cons_of_pos holds, List.find?_cons_of_pos holds, List.countP_cons_of_pos holds]
      -- a match behind `a` is found first from the back, and it is not `a`
      cases last : rest.reverse.find? p with
      | none =>
        have none : rest.countP p = 0 := by
          rw [List.countP_eq_zero]
          intro b member
          exact List.find?_eq_none.mp last b (List.mem_reverse.mpr member)
        simp [none]
      | some b =>
        have member : b ∈ rest := List.mem_reverse.mp (List.mem_of_find?_eq_some last)
        have more : 0 < rest.countP p := List.countP_pos_iff.mpr ⟨b, member, List.find?_some last⟩
        constructor
        · intro same
          obtain rfl : b = a := Option.some_inj.mp same
          exact absurd member absent
        · intro once
          omega

/-- A key attribute is that of the last field that is declared under its name. -/
theorem keyAttribute_mapFields (owner entityName : String) (fields : List Field) (storageName : String) :
    (keyAttribute entityName (mapFields owner fields).1 storageName).value =
      match fields.reverse.find? (·.name == storageName) with
      | some f => ⟨storageName, f.identifier, (mapField owner f).1⟩
      | none => ⟨storageName, Name.camelCase storageName, .scalar .string⟩ := by
  have found : (mapFields owner fields).1.reverse.find? (·.storageName == storageName) =
      (fields.reverse.find? (·.name == storageName)).map fun f => ⟨f, f.identifier, (mapField owner f).1⟩ := by
    rw [mapFields_fields, ← List.map_reverse, List.find?_map]
    rfl
  rw [keyAttribute, found]
  cases fields.reverse.find? (·.name == storageName) with
  | none => rfl
  | some f => rfl

/-- The lookups of an attribute agree: its identifier is that of its description, and if a field is found for it, the
description has the identifier and the type of this field. -/
structure LookupsAgree (s : Schema) (e : Entity) (storageName : String) : Prop where
  identifier : (keyIdentifier s.fields storageName).1 = (e.keyAttribute storageName).value.identifier
  field : ∀ f, s.find? storageName = some f →
    (e.keyAttribute storageName).value = ⟨storageName, f.identifier, (mapField s.name f).1⟩

section

variable {s : Schema} {e : Entity}

theorem Describes.keyAttribute (describes : Describes s e) (storageName : String) :
    (e.keyAttribute storageName).value =
      match s.fields.reverse.find? (·.name == storageName) with
      | some f => ⟨storageName, f.identifier, (mapField s.name f).1⟩
      | none => ⟨storageName, Name.camelCase storageName, .scalar .string⟩ := by
  rw [Entity.keyAttribute, describes.fields, keyAttribute_mapFields]

theorem Describes.lookupsAgree (describes : Describes s e) {storageName : String}
    (same : s.fields.reverse.find? (·.name == storageName) = s.fields.find? (·.name == storageName)) :
    LookupsAgree s e storageName := by
  have described := describes.keyAttribute storageName
  rw [same] at described
  constructor
  · rw [described, keyIdentifier]
    cases s.fields.find? (·.name == storageName) with
    | none => rfl
    | some f => rfl
  · intro f found
    rw [Schema.find?] at found
    rw [described, found]

/-- Fields of different identifiers that the lookups agree on are one field. -/
theorem LookupsAgree.same {storageName : String} (agree : LookupsAgree s e storageName) (describes : Describes s e)
    (distinct : (s.fields.map (·.identifier)).Nodup) :
    s.fields.reverse.find? (·.name == storageName) = s.fields.find? (·.name == storageName) := by
  have described := describes.keyAttribute storageName
  cases last : s.fields.reverse.find? (·.name == storageName) with
  | none =>
    symm
    rw [List.find?_eq_none] at last ⊢
    exact fun f member => last f (List.mem_reverse.mpr member)
  | some g =>
    cases first : s.fields.find? (·.name == storageName) with
    | none =>
      have member : g ∈ s.fields := List.mem_reverse.mp (List.mem_of_find?_eq_some last)
      exact absurd (List.find?_some last) (List.find?_eq_none.mp first g member)
    | some f =>
      rw [last, agree.field f first, KeyAttribute.mk.injEq] at described
      obtain ⟨-, identifier, -⟩ := described
      have inFields : f ∈ s.fields := List.mem_of_find?_eq_some first
      have inFields' : g ∈ s.fields := List.mem_reverse.mp (List.mem_of_find?_eq_some last)
      rw [List.inj_on_of_nodup_map distinct inFields inFields' identifier]

end

/-- In an accepted schema, the lookups of a name agree if and only if at most one field is stored under it. -/
theorem lookupsAgree_iff {s : Schema} {e : Entity} (checked : checkCollisions s = .ok ())
    (described : (describe s).value = .ok e) (storageName : String) :
    LookupsAgree s e storageName ↔ (s.fields.map (·.name)).count storageName ≤ 1 := by
  have describes := describe_ok described
  have distinct : (s.fields.map (·.identifier)).Nodup :=
    identifiers_nodup (checkCollisions_ok.mp checked) (.self s.fields)
  have counted : (s.fields.map (·.name)).count storageName = s.fields.countP (·.name == storageName) := by
    rw [List.count_eq_countP, List.countP_map]
    rfl
  rw [counted, ← find?_reverse_eq_iff (List.Nodup.of_map _ distinct)]
  constructor
  · intro agree
    exact agree.same describes distinct
  · exact describes.lookupsAgree

theorem shopOrder_lookupsAgree :
    ∃ e, checkCollisions shopOrder = .ok () ∧ (describe shopOrder).value = .ok e ∧
      LookupsAgree shopOrder e "placed-at" := by
  have checked : checkCollisions shopOrder = .ok () := checkCollisions_ok.mpr (by decide +kernel)
  obtain ⟨e, described, -⟩ := exists_described (s := shopOrder) (P := fun _ => true) (by decide +kernel)
  refine ⟨e, checked, described, ?_⟩
  exact (lookupsAgree_iff checked described "placed-at").mpr (by decide +kernel)

def twoOwnersOrder : Schema :=
  { shopOrder with
    fields := [bareField "id" "string", { bareField "owner" "string" with nameOverride := some "ownerId" },
      { bareField "owner" "string" with nameOverride := some "ownerName" }]
    primaryKey := ⟨"id", none⟩ }

/-- The identifier of the owner is that of the first field, its description is that of the second. -/
theorem twoOwnersOrder_disagrees : ¬ ∀ s e, checkCollisions s = .ok () → (describe s).value = .ok e →
    ∀ storageName, LookupsAgree s e storageName := by
  intro agrees
  have checked : checkCollisions twoOwnersOrder = .ok () := checkCollisions_ok.mpr (by decide +kernel)
  obtain ⟨e, described, other⟩ := exists_described (s := twoOwnersOrder) (P := fun e =>
    (keyIdentifier twoOwnersOrder.fields "owner").1 != (e.keyAttribute "owner").value.identifier) (by decide +kernel)
  have agree := agrees twoOwnersOrder e checked described "owner"
  rw [agree.identifier, bne_self_eq_false] at other
  exact Bool.false_ne_true other

end Tablewright
