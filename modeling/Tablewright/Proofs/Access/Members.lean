import Tablewright.Proofs.Access.Building
import Tablewright.Proofs.Schema.Identifiers

/-!
# Fields and the other members of generated classes

The class of a record defines members beside the properties of its fields, and so does its builder.  Where the schema
gives no identifiers, the only fields that replace such a member, or are replaced by one, are those stored under the
name of a special method: these names are identifiers, and they are not reserved.

* `ownMembers`, `builderMembers`: what the two classes define beside their fields.
* `KeepsMembers`: fields and other members leave each other alone.
* `keepsMembers_iff`: when they do.
-/

namespace Tablewright

namespace Source

def Stmt.suite : Stmt → List Stmt
  | .classDef _ _ _ _ body => body
  | _ => []

theorem bindings_of_nodup {body : List Stmt} (distinct : (body.flatMap Stmt.binds).Nodup) {s : Stmt} (member : s ∈ body)
    {name : String} (binds : name ∈ s.binds) : bindings name body = [s] := by
  induction body with
  | nil => cases member
  | cons first rest ih =>
    rw [List.flatMap_cons, List.nodup_append'] at distinct
    obtain ⟨-, distinct, apart⟩ := distinct
    rw [← List.singleton_append, bindings_append]
    cases List.mem_cons.mp member with
    | inl same =>
      subst same
      have unbound : ∀ t ∈ rest, name ∉ t.binds := fun t inside binds' =>
        apart binds (List.mem_flatMap.mpr ⟨t, inside, binds'⟩)
      rw [bindings_eq_nil unbound, List.append_nil, bindings, List.filter_cons_of_pos (by simpa using binds)]
      rfl
    | inr inside =>
      have unbound : name ∉ first.binds := fun binds' => apart binds' (List.mem_flatMap.mpr ⟨s, inside, binds⟩)
      rw [bindings_eq_nil (List.forall_mem_singleton.mpr unbound), ih distinct inside, List.nil_append]

end Source

namespace Access

open Source (Expr Stmt bindings)

variable {enums : List EnumType} {r : Record} {s : Schema} {e : Entity}

/-! ## Members that are no fields -/

/-- What the class of a record defines beside the properties of its fields. -/
def ownMembers (enums : List EnumType) (r : Record) : List Stmt :=
  classConstants r ++ (constructor enums r).value ::
    [classMethod "builder" [] (builderName r) [.result (Expr.method (.name "cls") "Builder" [])],
     toItem r, fromItem r, equality r, hash r, shown r, builderClass r]

/-- What the class of a builder defines beside the methods of its fields. -/
def builderMembers (r : Record) : List Stmt := [methodOf (builderInit r), methodOf (buildFunction r)]

def specialMethods : List String := ["__init__", "__eq__", "__hash__", "__repr__"]

def constantNames (r : Record) : List String :=
  match r.role with
  | .entity _ sortKey => "PARTITION_KEY" :: (if (given sortKey).isSome then ["SORT_KEY"] else []) ++ ["ATTRIBUTE_NAMES"]
  | .nested => ["ATTRIBUTE_NAMES"]

theorem classConstants_binds (r : Record) : (classConstants r).flatMap Stmt.binds = constantNames r := by
  rw [classConstants, constantNames]
  cases r.role with
  | nested => rfl
  | entity partitionKey sortKey =>
    dsimp only
    cases given sortKey <;> rfl

theorem ownMembers_binds (enums : List EnumType) (r : Record) : (ownMembers enums r).flatMap Stmt.binds =
    constantNames r
      ++ ["__init__", "builder", "to_item", "from_item", "__eq__", "__hash__", "__repr__", "Builder"] := by
  rw [ownMembers, List.flatMap_append, classConstants_binds, constructor_value]
  rfl

theorem ownMembers_nodup (enums : List EnumType) (r : Record) : ((ownMembers enums r).flatMap Stmt.binds).Nodup := by
  rw [ownMembers_binds, constantNames]
  cases r.role with
  | nested => decide
  | entity partitionKey sortKey =>
    dsimp only
    cases (given sortKey).isSome <;> decide

theorem mem_memberNames {m : Stmt} (member : m ∈ ownMembers enums r ++ builderMembers r) {name : String}
    (binds : name ∈ m.binds) : name ∈ memberNames := by
  have listed : name ∈ (ownMembers enums r ++ builderMembers r).flatMap Stmt.binds :=
    List.mem_flatMap.mpr ⟨m, member, binds⟩
  have constants : constantNames r ⊆ memberNames := by
    rw [constantNames]
    cases r.role with
    | nested => decide
    | entity partitionKey sortKey =>
      dsimp only
      cases (given sortKey).isSome <;> decide
  rw [List.flatMap_append, ownMembers_binds, List.mem_append, List.mem_append] at listed
  cases listed with
  | inl own =>
    cases own with
    | inl constant => exact constants constant
    | inr method => exact (by decide : _ ⊆ memberNames) method
  | inr inBuilder => exact (by decide : ["__init__", "build"] ⊆ memberNames) inBuilder

/-! ## Fields among the members -/

/-- Every field has its property and its builder method, every other member has its own definition, and all of them
are the only ones of their names. -/
structure KeepsMembers (enums : List EnumType) (r : Record) : Prop where
  apart : ∀ f ∈ r.fields, ∀ m ∈ ownMembers enums r ++ builderMembers r, f.identifier ∉ m.binds
  properties : ∀ f ∈ r.fields, bindings f.identifier (recordClass enums r).value.suite = property r f
  setters : ∀ f ∈ r.fields, bindings f.identifier (builderClass r).suite = [methodOf (giveFunction r f)]
  members : ∀ m ∈ ownMembers enums r, ∀ name ∈ m.binds, bindings name (recordClass enums r).value.suite = [m]
  builder : ∀ m ∈ builderMembers r, ∀ name ∈ m.binds, bindings name (builderClass r).suite = [m]

section

variable {name : String}

/-- The definitions of a name: the members of that name, and the properties among them. -/
theorem bindings_recordClass (other : name ∉ r.fields.map (·.identifier)) :
    bindings name (recordClass enums r).value.suite = bindings name (ownMembers enums r) := by
  rw [recordClass_body]
  show bindings name (recordBody enums r) = _
  rw [recordBody, ownMembers, ← List.singleton_append, ← List.singleton_append (l := [_, _, _, _, _, _, _])]
  simp only [Source.bindings_append, bindings_properties_none other, List.nil_append]

theorem bindings_builderClass (other : name ∉ r.fields.map (·.identifier)) :
    bindings name (builderClass r).suite = bindings name (builderMembers r) := by
  rw [builderClass_body]
  show bindings name (builderBody r) = _
  rw [builderBody, ← List.singleton_append, Source.bindings_append, Source.bindings_append, bindings_gives_none other,
    List.append_nil, ← Source.bindings_append]
  rfl

end

/-- Fields that are not called like other members leave these alone. -/
theorem keepsMembers_of_apart (distinct : (r.fields.map (·.identifier)).Nodup)
    (apart : ∀ f ∈ r.fields, f.identifier ∉ memberNames) : KeepsMembers enums r := by
  -- every name that a member of one of the two classes binds is listed in `memberNames`
  have noField : ∀ m ∈ ownMembers enums r ++ builderMembers r, ∀ name ∈ m.binds,
      name ∉ r.fields.map (·.identifier) := by
    intro m member name binds taken
    obtain ⟨f, inRecord, rfl⟩ := List.mem_map.mp taken
    exact apart f inRecord (mem_memberNames member binds)
  refine ⟨?_, ?_, ?_, ?_, ?_⟩
  · intro f inRecord m member binds
    exact apart f inRecord (mem_memberNames member binds)
  · intro f inRecord
    rw [recordClass_body]
    exact (bindings_recordBody (apart f inRecord)).trans (bindings_properties distinct inRecord)
  · intro f inRecord
    have other : ∀ m ∈ builderMembers r, f.identifier ∉ m.binds := by
      intro m member binds
      have listed : m ∈ ownMembers enums r ++ builderMembers r := List.mem_append_right _ member
      exact apart f inRecord (mem_memberNames listed binds)
    obtain ⟨init, build⟩ := List.forall_mem_cons.mp other
    rw [builderClass_body]
    show bindings f.identifier (builderBody r) = _
    rw [builderBody, ← List.singleton_append, Source.bindings_append, Source.bindings_append,
      bindings_gives distinct inRecord, Source.bindings_eq_nil (List.forall_mem_singleton.mpr init),
      Source.bindings_eq_nil build]
    rfl
  · intro m member name binds
    rw [bindings_recordClass (noField m (List.mem_append_left _ member) name binds)]
    exact Source.bindings_of_nodup (ownMembers_nodup enums r) member binds
  · intro m member name binds
    rw [bindings_builderClass (noField m (List.mem_append_right _ member) name binds)]
    have once : ((builderMembers r).flatMap Stmt.binds).Nodup := by
      show ["__init__", "build"].Nodup
      decide
    exact Source.bindings_of_nodup once member binds

/-- A field without override is called like a member only if it is stored under the name of a special method. -/
theorem mem_memberNames_iff {f : ResolvedField} (inferred : f.Inferred) :
    f.identifier ∈ memberNames ↔ f.storageName ∈ specialMethods := by
  constructor
  · intro member
    have known : ∀ name ∈ memberNames,
        name ∈ Name.reserved ∨ (name ∈ specialMethods ∧ "__".toList <+: name.toList) := by
      decide
    cases known _ member with
    | inl reserved => exact absurd reserved inferred.unreserved
    | inr special => exact inferred.of_underscores special.2 ▸ special.1
  · intro special
    have valid : ∀ name ∈ specialMethods, Name.isFieldIdentifier name ∧ name ∈ memberNames := by decide
    rw [inferred.of_storageName (valid _ special).1]
    exact (valid _ special).2

/-- Without overrides and collisions, the fields of a record leave the other members of its classes alone if and only
if none of them is stored under the name of a special method. -/
theorem keepsMembers_iff (checked : checkCollisions s = .ok ()) (noOverrides : s.NoOverrides)
    (described : (describe s).value = .ok e) : ∀ r ∈ e.record :: e.nested,
      (KeepsMembers e.enums r ↔ ∀ f ∈ r.fields, f.storageName ∉ specialMethods) := by
  intro r member
  have describes := describe_ok described
  have distinct := describes.identifiers_nodup (checkCollisions_ok.mp checked) member
  have inferred : ∀ f ∈ r.fields, f.Inferred := fun f inRecord => describes.inferred noOverrides member inRecord
  constructor
  · intro keeps f inRecord special
    -- every special method is among the members, whatever the record
    have isMember : f.storageName ∈ (ownMembers e.enums r).flatMap Stmt.binds := by
      rw [ownMembers_binds]
      exact List.mem_append_right _ ((by decide : specialMethods ⊆ _) special)
    obtain ⟨m, own, binds⟩ := List.mem_flatMap.mp isMember
    have valid : ∀ name ∈ specialMethods, Name.isFieldIdentifier name := by decide
    rw [← (inferred f inRecord).of_storageName (valid _ special)] at binds
    exact keeps.apart f inRecord m (List.mem_append_left _ own) binds
  · intro ordinary
    refine keepsMembers_of_apart distinct fun f inRecord taken => ?_
    exact ordinary f inRecord ((mem_memberNames_iff (inferred f inRecord)).mp taken)

theorem shopOrder_keepsMembers : ∃ e, (describe shopOrder).value = .ok e ∧
    ∀ r ∈ e.record :: e.nested, KeepsMembers e.enums r := by
  obtain ⟨e, described, ordinary⟩ := exists_described (s := shopOrder) (P := fun e =>
    (e.record :: e.nested).all fun r => r.fields.all fun f => !specialMethods.contains f.storageName)
      (by decide +kernel)
  have checked : checkCollisions shopOrder = .ok () := checkCollisions_ok.mpr (by decide +kernel)
  refine ⟨e, described, fun r member => ?_⟩
  refine (keepsMembers_iff checked shopOrder_noOverrides described r member).mpr fun f inRecord => ?_
  have here := List.all_eq_true.mp (List.all_eq_true.mp ordinary r member) f inRecord
  simpa using here

/-- An order with a field that is stored under the name of the comparison. -/
def comparedOrder : Schema :=
  { shopOrder with fields := [bareField "order-id" "string", bareField "__eq__" "boolean"]
                   primaryKey := ⟨"order-id", none⟩ }

/-- The comparison of such orders is replaced by a property, or replaces it. -/
theorem comparedOrder_replaces : ¬ ∀ s e, checkCollisions s = .ok () → s.NoOverrides → (describe s).value = .ok e →
    ∀ r ∈ e.record :: e.nested, ∀ f ∈ r.fields, ∀ m ∈ ownMembers e.enums r ++ builderMembers r,
      f.identifier ∉ m.binds := by
  intro apart
  obtain ⟨e, described, compared⟩ := exists_described (s := comparedOrder) (P := fun e =>
    e.record.fields.any fun f => f.identifier == "__eq__") (by decide +kernel)
  obtain ⟨f, inRecord, named⟩ := List.any_eq_true.mp compared
  have noOverrides : comparedOrder.NoOverrides := by
    have all : ∀ scope ∈ scopes comparedOrder.fields, ∀ f ∈ scope, given f.nameOverride = none := by decide +kernel
    exact fun scope is => all scope is.mem_scopes
  have member : equality e.record ∈ ownMembers e.enums e.record ++ builderMembers e.record := by simp [ownMembers]
  have checked : checkCollisions comparedOrder = .ok () := checkCollisions_ok.mpr (by decide +kernel)
  refine apart comparedOrder e checked noOverrides described e.record List.mem_cons_self f inRecord _ member ?_
  rw [beq_iff_eq.mp named]
  exact List.mem_cons_self

end Access

end Tablewright
