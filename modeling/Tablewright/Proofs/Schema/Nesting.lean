import Tablewright.Proofs.Lists
import Tablewright.Proofs.Schema.Description

/-!
# Nested types

Which records and enums a description consists of.  They are collected while the fields are mapped, under
names that are put together along the way, and one look at the finished lists refuses names that occur
twice; what they have to do with the declarations is an invariant of the mapping.

* `Field.recordFields`, `reachedAll`: the record that a field declares, and the declarations that are reached.
* `Needs.Collects`: what the needs of some fields have to do with the declarations that are reached from them.
* `describe_nesting`: every declaration has its type, every type its declaration and the one field that
  refers to it, and no record stands before one that it refers to.
-/

namespace Tablewright

/-! ## Declarations -/

/-- The fields of the record that a field declares: those of a map, or those of the maps in a list.  A field
that declares no record has none. -/
def Field.recordFields (f : Field) : List Field :=
  match f.kind with
  | .map => f.fields
  | .list => if f.itemKind? = some .map then f.itemFields else []
  | _ => []

/-- Whether a field declares a record: it is a map with fields, or a list of maps with fields. -/
def Field.declaresRecord (f : Field) : Bool := !f.recordFields.isEmpty

/-- The record that a field declares inside the record `owner`. -/
def Field.recordOf (f : Field) (owner : String) : Record :=
  match f.kind with
  | .list => nestedRecord (f.ownTypeName owner ++ "Item") f.recordFields none
  | _ => nestedRecord (f.ownTypeName owner) f.recordFields f.description

mutual

/-- The declarations that are reached from a field: those of the record that it declares, and then the field
itself. -/
def Field.reached : Field → List Field
  | ⟨d, fields, itemType, itemFields⟩ =>
    (match d.kind with
      | .map => reachedAll fields
      | .list => if itemType.map Kind.ofName = some .map then reachedAll itemFields else []
      | _ => [])
    ++ [⟨d, fields, itemType, itemFields⟩]

def reachedAll : List Field → List Field
  | [] => []
  | f :: rest => f.reached ++ reachedAll rest

end

theorem Field.reached_eq (f : Field) : f.reached = reachedAll f.recordFields ++ [f] := by
  obtain ⟨d, fields, itemType, itemFields⟩ := f
  rw [Field.reached, Field.recordFields]
  cases d.kind with
  | list =>
    by_cases maps : itemType.map Kind.ofName = some .map <;> simp [Field.itemKind?, maps, reachedAll]
  | _ => simp [reachedAll]

/-- The type of a field: an enum, or the record that it declares, on its own or in a list, or a type that
mentions no generated type. -/
theorem mapField_cases (owner : String) (f : Field) :
    (f.isEnum ∧ f.recordFields = [] ∧
      mapField owner f = (.enum (f.ownTypeName owner), .enum (enumOf owner f.toDeclaration))) ∨
    (¬ f.isEnum ∧ f.recordFields ≠ [] ∧
      (mapField owner f).1.recordNames = [(f.recordOf owner).name] ∧ (mapField owner f).1.enumNames = [] ∧
      (mapField owner f).2 = (mapFields (f.recordOf owner).name f.recordFields).2 ++ .record (f.recordOf owner)) ∨
    (¬ f.isEnum ∧ f.recordFields = [] ∧
      (mapField owner f).1.recordNames = [] ∧ (mapField owner f).1.enumNames = [] ∧
      (mapField owner f).2.records = [] ∧ (mapField owner f).2.enums = []) := by
  obtain ⟨d, fields, itemType, itemFields⟩ := f
  have plain : ∀ name, (mapName name).1.recordNames = [] ∧ (mapName name).1.enumNames = [] ∧
      (mapName name).2.records = [] ∧ (mapName name).2.enums = [] := fun name =>
    ⟨(TypeRef.ofName_names name).1, (TypeRef.ofName_names name).2, mapName_records name, mapName_enums name⟩
  rw [mapField.eq_def, Field.recordFields, Field.recordOf]
  -- an enum has no fields; of the others only maps and lists of maps can have some
  by_cases isEnum : d.isEnum
  · have text : d.kind = .string := by
      simp only [Declaration.isEnum, Bool.and_eq_true, beq_iff_eq] at isEnum
      exact isEnum.1
    exact .inl (by simp [isEnum, text])
  · right
    simp only [isEnum, Bool.false_eq_true, if_false, not_false_eq_true, true_and]
    cases kind : d.kind with
    | map =>
      by_cases empty : fields = []
      · exact .inr (by simp [empty, TypeRef.recordNames, TypeRef.enumNames])
      · exact .inl (by simp [empty, kind, nestedRecord, Field.recordFields, TypeRef.recordNames, TypeRef.enumNames])
    | list =>
      cases itemType with
      | none => exact .inr (by simp [Field.itemKind?, TypeRef.recordNames, TypeRef.enumNames])
      | some itemType =>
        by_cases isRecord : Kind.ofName itemType = .map ∧ itemFields ≠ []
        · exact .inl (by
            simp [isRecord.1, isRecord.2, kind, nestedRecord, Field.recordFields, Field.itemKind?,
              TypeRef.recordNames, TypeRef.enumNames])
        · have noFields : (if (Field.mk d fields (some itemType) itemFields).itemKind? = some .map
              then itemFields else []) = [] := by
            simpa [Field.itemKind?] using not_and_not_right.mp isRecord
          refine .inr ⟨noFields, ?_⟩
          simpa [isRecord, TypeRef.recordNames, TypeRef.enumNames] using plain itemType
    | _ => exact .inr ⟨rfl, plain d.typeName⟩

/-! ## The invariant of the mapping -/

namespace Record

/-- The records that the fields of a record mention, field by field. -/
def references (r : Record) : List String := r.fields.flatMap (·.type.recordNames)

/-- Every record of a list mentions only records before it. -/
def Ordered (records : List Record) : Prop :=
  ∀ before r after, records = before ++ r :: after → r.references ⊆ before.map (·.name)

theorem Ordered.append {as bs : List Record} (left : Ordered as) (right : Ordered bs) : Ordered (as ++ bs) := by
  intro before r after split
  rcases List.append_eq_append_iff.mp split with ⟨middle, rfl, inRight⟩ | ⟨middle, inLeft, rest⟩
  · rw [List.map_append]
    exact List.subset_append_of_subset_right _ (right middle r after inRight)
  · cases middle with
    | nil =>
      -- the record is the first one of `bs`, so it mentions none
      intro name mentioned
      cases right [] r after rest.symm mentioned
    | cons first middle =>
      obtain ⟨rfl, -⟩ := List.cons.inj rest
      exact left before r middle inLeft

theorem Ordered.concat {records : List Record} {r : Record} (ordered : Ordered records)
    (known : r.references ⊆ records.map (·.name)) : Ordered (records ++ [r]) := by
  intro before s after split
  rcases List.eq_nil_or_concat after with rfl | ⟨rest, last, rfl⟩
  · obtain ⟨rfl, same⟩ := List.append_inj' split rfl
    obtain rfl := List.singleton_inj.mp same
    exact known
  · have shorter : records = before ++ s :: rest := by
      have split : records ++ [r] = (before ++ s :: rest) ++ [last] := by simpa using split
      exact (List.append_inj' split rfl).1
    exact ordered before s rest shorter

/-- Where names are different, a record is mentioned only behind its place. -/
theorem Ordered.lt {records : List Record} (ordered : Ordered records) (distinct : (records.map (·.name)).Nodup)
    {i j : Nat} (inside : i < records.length) (inside' : j < records.length)
    (mentioned : records[j].name ∈ records[i].references) : j < i := by
  have split : records = records.take i ++ records[i] :: records.drop (i + 1) := by simp
  have before := ordered _ _ _ split mentioned
  obtain ⟨k, bound, same⟩ := List.mem_iff_getElem.mp before
  simp only [List.length_map, List.length_take] at bound
  simp only [List.getElem_map, List.getElem_take] at same
  have left : k < (records.map (·.name)).length := by
    rw [List.length_map]
    omega
  have right : j < (records.map (·.name)).length := by rwa [List.length_map]
  have names : (records.map (·.name))[k] = (records.map (·.name))[j] := by simpa using same
  have place : k = j := distinct.getElem_inj_iff.mp names
  omega

end Record

/-- A record is the one that a field declares, inside some record. -/
def Field.Declares (f : Field) (r : Record) : Prop := ∃ owner, r = f.recordOf owner

/-- An enum is the one that a field declares, inside some record. -/
def Field.DeclaresEnum (f : Field) (t : EnumType) : Prop := ∃ owner, t = enumOf owner f.toDeclaration

/-- What the needs of some resolved fields have to do with the declarations that are reached from them. The
fields that count are the given ones and those of the needed records. -/
structure Needs.Collects (needs : Needs) (fields : List ResolvedField) (reached : List Field) : Prop where
  /-- One record for every declaration of a record, in the same order. -/
  records : List.Forall₂ Field.Declares (reached.filter (·.declaresRecord)) needs.records
  /-- One enum for every declaration of an enum, in the same order. -/
  enums : List.Forall₂ Field.DeclaresEnum (reached.filter (·.isEnum)) needs.enums
  declarations : ((fields ++ needs.records.flatMap (·.fields)).map (·.field)).Perm reached
  recordNames : ((fields ++ needs.records.flatMap (·.fields)).flatMap (·.type.recordNames)).Perm
    (needs.records.map (·.name))
  enumNames : ((fields ++ needs.records.flatMap (·.fields)).flatMap (·.type.enumNames)).Perm
    (needs.enums.map (·.name))
  ordered : Record.Ordered needs.records

namespace Needs.Collects

/-- Nothing is needed by no fields. -/
theorem nothing : Collects .nothing [] [] where
  records := .nil
  enums := .nil
  declarations := .refl _
  recordNames := .refl _
  enumNames := .refl _
  ordered := by simp [Record.Ordered]

/-- A field that declares no type needs none. -/
theorem plain {needs : Needs} (f : ResolvedField) (noEnum : ¬ f.field.isEnum) (noFields : f.field.recordFields = [])
    (records : needs.records = []) (enums : needs.enums = []) (recordNames : f.type.recordNames = [])
    (enumNames : f.type.enumNames = []) : Collects needs [f] [f.field] where
  records := by simp [records, Field.declaresRecord, noFields]
  enums := by simp [enums, noEnum]
  declarations := by simp [records]
  recordNames := by simp [records, recordNames]
  enumNames := by simp [records, enums, enumNames]
  ordered := by simp [records, Record.Ordered]

/-- An enum is needed by the field that declares it. -/
theorem enum (f : ResolvedField) (owner : String) (isEnum : f.field.isEnum) (noFields : f.field.recordFields = [])
    (type : f.type = .enum (f.field.ownTypeName owner)) :
    Collects (.enum (enumOf owner f.field.toDeclaration)) [f] [f.field] where
  records := by simp [Field.declaresRecord, noFields]
  enums := by
    have filtered : [f.field].filter (·.isEnum) = [f.field] := List.filter_cons_of_pos isEnum
    rw [filtered]
    exact .cons ⟨owner, rfl⟩ .nil
  declarations := by simp
  recordNames := by simp [type, TypeRef.recordNames]
  enumNames := by simp [type, TypeRef.enumNames, enumOf]
  ordered := by simp [Record.Ordered]

theorem append {a b : Needs} {as bs : List ResolvedField} {reached reached' : List Field}
    (left : Collects a as reached) (right : Collects b bs reached') :
    Collects (a ++ b) (as ++ bs) (reached ++ reached') := by
  have fields : ((as ++ bs) ++ (a ++ b).records.flatMap (·.fields)).Perm
      ((as ++ a.records.flatMap (·.fields)) ++ (bs ++ b.records.flatMap (·.fields))) := by
    rw [records_append, List.flatMap_append, List.append_assoc, List.append_assoc]
    exact (List.perm_append_comm_assoc ..).append_left as
  constructor
  · simpa using List.rel_append left.records right.records
  · simpa using List.rel_append left.enums right.enums
  · refine (fields.map _).trans ?_
    rw [List.map_append]
    exact left.declarations.append right.declarations
  · refine (fields.flatMap_right _).trans ?_
    rw [List.flatMap_append, records_append, List.map_append]
    exact left.recordNames.append right.recordNames
  · refine (fields.flatMap_right _).trans ?_
    rw [List.flatMap_append, enums_append, List.map_append]
    exact left.enumNames.append right.enumNames
  · exact left.ordered.append right.ordered

/-- A record comes after what its own fields need; from then on only the field that declares it counts. -/
theorem close {needs : Needs} {reached : List Field} {owner : String} (f : ResolvedField)
    (collects : Collects needs (f.field.recordOf owner).fields reached) (noEnum : ¬ f.field.isEnum)
    (declares : f.field.declaresRecord) (recordNames : f.type.recordNames = [(f.field.recordOf owner).name])
    (enumNames : f.type.enumNames = []) :
    Collects (needs ++ .record (f.field.recordOf owner)) [f] (reached ++ [f.field]) := by
  have fields : ([f] ++ (needs ++ .record (f.field.recordOf owner)).records.flatMap (·.fields)).Perm
      (((f.field.recordOf owner).fields ++ needs.records.flatMap (·.fields)) ++ [f]) := by
    simp only [records_append, records_record, List.flatMap_append, List.flatMap_singleton]
    exact List.perm_append_comm.trans (List.perm_append_comm.append_right [f])
  constructor
  · rw [List.filter_append, List.filter_cons_of_pos declares]
    exact List.rel_append collects.records (.cons ⟨owner, rfl⟩ .nil)
  · simpa [noEnum] using collects.enums
  · refine (fields.map _).trans ?_
    rw [List.map_append]
    exact collects.declarations.append_right _
  · refine (fields.flatMap_right _).trans ?_
    rw [List.flatMap_append, List.flatMap_singleton, recordNames, records_append, List.map_append]
    exact collects.recordNames.append_right _
  · refine (fields.flatMap_right _).trans ?_
    rw [List.flatMap_append, List.flatMap_singleton, enumNames, List.append_nil, enums_append, enums_record,
      List.append_nil]
    exact collects.enumNames
  · refine collects.ordered.concat fun name mentioned => collects.recordNames.subset ?_
    rw [List.flatMap_append]
    exact List.mem_append_left _ mentioned

end Needs.Collects

theorem Field.recordOf_fields (f : Field) (owner : String) :
    (f.recordOf owner).fields = (mapFields (f.recordOf owner).name f.recordFields).1 := by
  unfold Field.recordOf
  split <;> rfl

theorem Field.sizeOf_recordFields (f : Field) : sizeOf f.recordFields < sizeOf f := by
  obtain ⟨d, fields, itemType, itemFields⟩ := f
  have some : 0 < sizeOf fields := by cases fields <;> simp
  unfold Field.recordFields
  split
  · simp only [Field.mk.sizeOf_spec]
    omega
  · split
    · simp
    · simp
      omega
  · simp
    omega

mutual

/-- What a field needs is collected from the declarations that are reached from it. -/
theorem mapField_collects (owner : String) (f : Field) :
    (mapField owner f).2.Collects [⟨f, f.identifier, (mapField owner f).1⟩] f.reached := by
  rw [f.reached_eq]
  rcases mapField_cases owner f with ⟨isEnum, noFields, mapped⟩ |
    ⟨noEnum, fields, recordNames, enumNames, needs⟩ | ⟨noEnum, noFields, recordNames, enumNames, records, enums⟩
  · rw [noFields, reachedAll, mapped]
    exact .enum ⟨f, f.identifier, _⟩ owner isEnum noFields rfl
  · rw [needs]
    refine .close ⟨f, f.identifier, _⟩ ?_ noEnum (by simpa [Field.declaresRecord] using fields) recordNames enumNames
    rw [f.recordOf_fields]
    exact mapFields_collects (f.recordOf owner).name f.recordFields
  · rw [noFields, reachedAll]
    exact .plain ⟨f, f.identifier, _⟩ noEnum noFields records enums recordNames enumNames
termination_by sizeOf f
decreasing_by exact f.sizeOf_recordFields

/-- What the fields of a scope need is collected from the declarations that are reached from them. -/
theorem mapFields_collects (owner : String) (fields : List Field) :
    (mapFields owner fields).2.Collects (mapFields owner fields).1 (reachedAll fields) := by
  cases fields with
  | nil =>
    rw [mapFields, reachedAll]
    exact .nothing
  | cons f rest =>
    rw [mapFields_cons, mapFields_fields, List.map_cons, ← mapFields_fields, reachedAll]
    exact (mapField_collects owner f).append (mapFields_collects owner rest)
termination_by sizeOf fields

end

/-! ## Descriptions -/

/-- Of names that are looked at one after the other none is shared, if and only if they are different. -/
theorem sharedTypeName?_eq_none_iff {seen names : List (String × TypeRole)} (distinct : (seen.map (·.1)).Nodup) :
    sharedTypeName? seen names = none ↔ ((seen ++ names).map (·.1)).Nodup := by
  induction names generalizing seen with
  | nil => simpa [sharedTypeName?] using distinct
  | cons first rest ih =>
    obtain ⟨name, role⟩ := first
    have next : seen ++ (name, role) :: rest = (seen ++ [(name, role)]) ++ rest := by simp
    rw [sharedTypeName?, next]
    cases found : seen.lookup name with
    | some first =>
      have taken := mem_of_lookup found
      refine ⟨nofun, fun different => ?_⟩
      rw [List.map_append, List.map_append] at different
      exact absurd rfl ((List.nodup_append.mp (List.nodup_append.mp different).1).2.2 name taken name (by simp))
    | none => exact ih (by simpa using distinct.concat (lookup_eq_none_iff.mp found))

theorem describe_typeNames {s : Schema} {e : Entity} (described : (describe s).value = .ok e) :
    (e.typeNames.map (·.1)).Nodup := by
  rw [describe_value] at described
  split at described
  · cases described
  · rename_i unshared
    obtain rfl := Except.ok.inj described
    have nothing : (([] : List (String × TypeRole)).map (·.1)).Nodup := List.nodup_nil
    exact (sharedTypeName?_eq_none_iff nothing).mp unshared

/-- The fields of all records of an entity. -/
def Entity.allFields (e : Entity) : List ResolvedField := (e.record :: e.nested).flatMap (·.fields)

theorem Describes.collects {s : Schema} {e : Entity} (describes : Describes s e) :
    (mapFields s.name s.fields).2.Collects e.record.fields (reachedAll s.fields) := by
  rw [describes.fields]
  exact mapFields_collects s.name s.fields

theorem TypeRef.length_recordNames (type : TypeRef) : type.recordNames.length ≤ 1 := by
  induction type with
  | list element ih => exact ih
  | _ => simp [recordNames]

theorem TypeRef.length_enumNames (type : TypeRef) : type.enumNames.length ≤ 1 := by
  induction type with
  | list element ih => exact ih
  | _ => simp [enumNames]

/-- As many members mention a name as there are mentions, if none mentions more than one. -/
theorem countP_mem_eq_count {α : Type} {mentions : α → List String} (short : ∀ a, (mentions a).length ≤ 1)
    (name : String) (members : List α) :
    members.countP (fun a => name ∈ mentions a) = (members.flatMap mentions).count name := by
  induction members with
  | nil => rfl
  | cons a rest ih =>
    have one : (mentions a).count name = if name ∈ mentions a then 1 else 0 := by
      match mentions a, short a with
      | [], _ => simp
      | [only], _ =>
        by_cases same : only = name
        · simp [same]
        · simp [same, Ne.symm same]
    rw [List.flatMap_cons, List.count_append, one, List.countP_cons, ih, Nat.add_comm]
    simp

theorem countP_name_eq_one {α : Type} {name : α → String} {members : List α} {wanted : String}
    (distinct : (members.map name).Nodup) (member : wanted ∈ members.map name) :
    members.countP (fun a => name a = wanted) = 1 := by
  have one := List.count_eq_one_of_mem distinct member
  rw [List.count_eq_countP, List.countP_map] at one
  simpa [Function.comp_def, ← beq_eq_decide] using one

/-- The types of a description against the declarations that its schema reaches. -/
structure Nesting (s : Schema) (e : Entity) : Prop where
  /-- The names of the entity, its nested records and its enums are different. -/
  names : (e.typeNames.map (·.1)).Nodup
  /-- Every record that a field mentions is described once. -/
  mentionedRecord : ∀ f ∈ e.allFields, ∀ name ∈ f.type.recordNames, e.nested.countP (·.name = name) = 1
  /-- Every enum that a field mentions is described once. -/
  mentionedEnum : ∀ f ∈ e.allFields, ∀ name ∈ f.type.enumNames, e.enums.countP (·.name = name) = 1
  /-- Every nested record is mentioned by one field. -/
  ownedRecord : ∀ r ∈ e.nested, e.allFields.countP (fun f => r.name ∈ f.type.recordNames) = 1
  /-- Every enum is mentioned by one field. -/
  ownedEnum : ∀ t ∈ e.enums, e.allFields.countP (fun f => t.name ∈ f.type.enumNames) = 1
  /-- The reached declarations are the fields of the records. -/
  declarations : (e.allFields.map (·.field)).Perm (reachedAll s.fields)
  /-- Every reached declaration of a record has one nested record, and there are no others. -/
  records : List.Forall₂ Field.Declares ((reachedAll s.fields).filter (·.declaresRecord)) e.nested
  /-- Every reached declaration of an enum has one enum, and there are no others. -/
  enums : List.Forall₂ Field.DeclaresEnum ((reachedAll s.fields).filter (·.isEnum)) e.enums
  /-- A nested record that is mentioned by another one comes before it. -/
  ordered : ∀ (i j : Nat) (inside : i < e.nested.length) (inside' : j < e.nested.length),
    e.nested[j].name ∈ e.nested[i].references → j < i

section

variable {s : Schema} {e : Entity} (described : (describe s).value = .ok e)
include described

theorem describe_nodup_records : (e.nested.map (·.name)).Nodup := by
  have names := describe_typeNames described
  simp only [Entity.typeNames, List.map_append, List.map_cons, List.map_map] at names
  exact (List.nodup_cons.mp names.of_append_left).2

theorem describe_nodup_enums : (e.enums.map (·.name)).Nodup := by
  have names := describe_typeNames described
  simp only [Entity.typeNames, List.map_append, List.map_cons, List.map_map] at names
  exact names.of_append_right

end

/-- The types of an accepted description are those that its schema declares. -/
theorem describe_nesting {s : Schema} {e : Entity} (described : (describe s).value = .ok e) : Nesting s e := by
  have describes := describe_ok described
  obtain ⟨records, enums, declarations, recordNames, enumNames, ordered⟩ := describes.collects
  rw [← describes.nested] at records declarations recordNames enumNames ordered
  rw [← describes.enums] at enums enumNames
  have distinctRecords := describe_nodup_records described
  have distinctEnums := describe_nodup_enums described
  refine ⟨describe_typeNames described, ?_, ?_, ?_, ?_, declarations, records, enums, ?_⟩
  · intro f member name mentioned
    exact countP_name_eq_one distinctRecords
      (recordNames.subset (List.mem_flatMap.mpr ⟨f, member, mentioned⟩))
  · intro f member name mentioned
    exact countP_name_eq_one distinctEnums (enumNames.subset (List.mem_flatMap.mpr ⟨f, member, mentioned⟩))
  · intro r member
    rw [countP_mem_eq_count (fun f => f.type.length_recordNames)]
    exact (recordNames.count_eq _).trans
      (List.count_eq_one_of_mem distinctRecords (List.mem_map_of_mem member))
  · intro t member
    rw [countP_mem_eq_count (fun f => f.type.length_enumNames)]
    exact (enumNames.count_eq _).trans (List.count_eq_one_of_mem distinctEnums (List.mem_map_of_mem member))
  · intro i j inside inside' mentioned
    exact ordered.lt distinctRecords inside inside' mentioned

/-- The nested types of an order: the size of a line comes before the line. -/
theorem shopOrder_nesting : ∃ e, (describe shopOrder).value = .ok e ∧
    e.nested.map (·.name) = ["OrderLinesItemSize", "OrderLinesItem"] ∧
    e.enums.map (·.name) = ["OrderState"] ∧ Nesting shopOrder e := by
  have accepted : (describe shopOrder).value.isOk := by decide +kernel
  cases outcome : (describe shopOrder).value with
  | error shared => simp [outcome, Except.isOk, Except.toBool] at accepted
  | ok e =>
    have describes := describe_ok outcome
    refine ⟨e, rfl, ?_, ?_, describe_nesting outcome⟩
    · rw [describes.nested]
      decide +kernel
    · rw [describes.enums]
      decide +kernel

end Tablewright
