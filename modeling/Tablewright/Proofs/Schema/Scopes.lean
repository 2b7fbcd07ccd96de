import Mathlib
import Tablewright.Schema.Identifier

/-!
# Scopes and collisions

The fields of an entity are a scope, and so are, at every depth, the fields of a map and the fields of the
elements of a list.  The collisions of a list of fields are, scope by scope, the identifiers that several
fields of the scope share, each with all their storage names.

* `scopes`: all scopes of a list of fields, outer ones first; `Scope` says which lists they are.
* `groups_eq`: the fields of a scope, grouped by identifier.
* `collisions_eq`: the collisions of all scopes.
-/

namespace Tablewright

/-! ## Scopes -/

mutual

/-- The scopes below a field: its own fields, then the fields of its elements. -/
def Field.scopesBelow : Field → List (List Field)
  | ⟨_, fields, _, itemFields⟩ =>
    (fields :: scopesBelowAll fields) ++ (itemFields :: scopesBelowAll itemFields)

def scopesBelowAll : List Field → List (List Field)
  | [] => []
  | f :: rest => f.scopesBelow ++ scopesBelowAll rest

end

/-- A list of fields and all scopes below it, outer scopes first. -/
def scopes (fields : List Field) : List (List Field) := fields :: scopesBelowAll fields

/-- The scopes of a list of fields: the list itself, and the scopes of the fields and of the element fields
of its members. -/
inductive Scope : List Field → List Field → Prop
  | self (fields : List Field) : Scope fields fields
  | fields {fields scope : List Field} {f : Field} (member : f ∈ fields) (below : Scope f.fields scope) :
      Scope fields scope
  | itemFields {fields scope : List Field} {f : Field} (member : f ∈ fields)
      (below : Scope f.itemFields scope) : Scope fields scope

def Field.ScopeBelow (f : Field) (scope : List Field) : Prop := Scope f.fields scope ∨ Scope f.itemFields scope

theorem Field.ScopeBelow.scope {f : Field} {fields scope : List Field} (below : f.ScopeBelow scope)
    (member : f ∈ fields) : Scope fields scope := by
  rcases below with inFields | inItemFields
  · exact .fields member inFields
  · exact .itemFields member inItemFields

theorem Field.scopesBelow_eq (f : Field) : f.scopesBelow = scopes f.fields ++ scopes f.itemFields := by
  obtain ⟨d, fields, itemType, itemFields⟩ := f
  rw [Field.scopesBelow, scopes, scopes]

theorem scopesBelowAll_eq (fields : List Field) : scopesBelowAll fields = fields.flatMap Field.scopesBelow := by
  induction fields with
  | nil => rw [scopesBelowAll, List.flatMap_nil]
  | cons f rest ih => rw [scopesBelowAll, ih, List.flatMap_cons]

/-- Every scope is listed. -/
theorem Scope.mem_scopes {fields scope : List Field} (is : Scope fields scope) : scope ∈ scopes fields := by
  have inBelow : ∀ {f : Field} {fields : List Field}, f ∈ fields → scope ∈ f.scopesBelow →
      scope ∈ scopes fields := by
    intro f fields member below
    refine List.mem_cons_of_mem _ ?_
    rw [scopesBelowAll_eq]
    exact List.mem_flatMap.mpr ⟨f, member, below⟩
  induction is with
  | self fields => exact List.mem_cons_self
  | fields member _ ih =>
    refine inBelow member ?_
    rw [Field.scopesBelow_eq]
    exact List.mem_append_left _ (ih inBelow)
  | itemFields member _ ih =>
    refine inBelow member ?_
    rw [Field.scopesBelow_eq]
    exact List.mem_append_right _ (ih inBelow)

mutual

theorem Field.scopeBelow_of_mem {scope : List Field} : (f : Field) → scope ∈ f.scopesBelow → f.ScopeBelow scope
  | ⟨d, fields, itemType, itemFields⟩, member => by
    rw [Field.scopesBelow] at member
    rcases List.mem_append.mp member with inFields | inItemFields
    · exact .inl (scope_of_mem fields inFields)
    · exact .inr (scope_of_mem itemFields inItemFields)

/-- Every list that is listed is a scope. -/
theorem scope_of_mem {scope : List Field} :
    (fields : List Field) → scope ∈ fields :: scopesBelowAll fields → Scope fields scope
  | fields, member => by
    rcases List.mem_cons.mp member with rfl | below
    · exact .self scope
    · obtain ⟨f, inFields, below⟩ := scopeBelow_of_memAll fields below
      exact below.scope inFields

theorem scopeBelow_of_memAll {scope : List Field} :
    (fields : List Field) → scope ∈ scopesBelowAll fields → ∃ f ∈ fields, f.ScopeBelow scope
  | [], member => by simp [scopesBelowAll] at member
  | f :: rest, member => by
    rw [scopesBelowAll] at member
    rcases List.mem_append.mp member with here | there
    · exact ⟨f, List.mem_cons_self, f.scopeBelow_of_mem here⟩
    · obtain ⟨g, inRest, below⟩ := scopeBelow_of_memAll rest there
      exact ⟨g, List.mem_cons_of_mem _ inRest, below⟩

end

theorem mem_scopes {fields scope : List Field} : scope ∈ scopes fields ↔ Scope fields scope :=
  ⟨scope_of_mem fields, Scope.mem_scopes⟩

/-! ## Groups of one scope -/

/-- The storage names of the fields of a scope that have some identifier, in the order of declaration. -/
def namesOf (scope : List Field) (identifier : String) : List String :=
  (scope.filter (·.identifier == identifier)).map (·.name)

/-- The identifiers of a scope in the order of first appearance. -/
def identifiersOf (scope : List Field) : List String := (scope.map (·.identifier)).eraseDups

theorem mem_identifiersOf {scope : List Field} {identifier : String} :
    identifier ∈ identifiersOf scope ↔ ∃ f ∈ scope, f.identifier = identifier := by
  rw [identifiersOf, List.mem_eraseDups, List.mem_map]

theorem addToGroup_of_notMem {identifiers : List String} {identifier name : String}
    {names : String → List String} (new : identifier ∉ identifiers) :
    addToGroup identifier name (identifiers.map fun i => ⟨i, names i⟩) =
      identifiers.map (fun i => ⟨i, names i⟩) ++ [⟨identifier, [name]⟩] := by
  induction identifiers with
  | nil => rfl
  | cons first rest ih =>
    have different : first ≠ identifier := fun same => new (same ▸ List.mem_cons_self)
    rw [List.map_cons, addToGroup, if_neg different, ih fun member => new (List.mem_cons_of_mem _ member)]
    rfl

theorem addToGroup_of_mem {identifiers : List String} {identifier name : String}
    {names : String → List String} (distinct : identifiers.Nodup) (known : identifier ∈ identifiers) :
    addToGroup identifier name (identifiers.map fun i => ⟨i, names i⟩) =
      identifiers.map fun i => ⟨i, if i = identifier then names i ++ [name] else names i⟩ := by
  induction identifiers with
  | nil => cases known
  | cons first rest ih =>
    obtain ⟨notInRest, distinctRest⟩ := List.nodup_cons.mp distinct
    rw [List.map_cons, List.map_cons, addToGroup]
    by_cases same : first = identifier
    · subst same
      rw [if_pos rfl, if_pos rfl]
      refine congrArg _ (List.map_congr_left fun i member => ?_)
      rw [if_neg (by rintro rfl; exact notInRest member)]
    · rw [if_neg same, if_neg same, ih distinctRest ((List.mem_cons.mp known).resolve_left (Ne.symm same))]

theorem namesOf_append_singleton (scope : List Field) (f : Field) (identifier : String) :
    namesOf (scope ++ [f]) identifier =
      if identifier = f.identifier then namesOf scope identifier ++ [f.name] else namesOf scope identifier := by
  by_cases same : identifier = f.identifier
  · simp [namesOf, same]
  · simp [namesOf, same, Ne.symm same]

theorem eraseDups_append_singleton (names : List String) (name : String) :
    (names ++ [name]).eraseDups = if name ∈ names then names.eraseDups else names.eraseDups ++ [name] := by
  rw [List.eraseDups_append]
  by_cases known : name ∈ names
  · simp [known, List.removeAll]
  · simp [known, List.removeAll, List.eraseDups_cons]

theorem identifiersOf_append_singleton (scope : List Field) (f : Field) :
    identifiersOf (scope ++ [f]) =
      if f.identifier ∈ identifiersOf scope then identifiersOf scope
      else identifiersOf scope ++ [f.identifier] := by
  simp only [identifiersOf, List.map_append, List.map_singleton, eraseDups_append_singleton, List.mem_eraseDups]

theorem identifiersOf_nodup (scope : List Field) : (identifiersOf scope).Nodup := by
  induction scope using List.reverseRecOn with
  | nil => exact List.nodup_nil
  | append_singleton scope f ih =>
    rw [identifiersOf_append_singleton]
    split
    · exact ih
    · rename_i new
      refine List.nodup_append.mpr ⟨ih, by simp, ?_⟩
      rintro known member _ here rfl
      exact new (List.mem_singleton.mp here ▸ member)

/-- The groups of a scope: one for every identifier, with the storage names of all its fields. -/
theorem groups_eq (scope : List Field) :
    groups scope = (identifiersOf scope).map fun identifier => ⟨identifier, namesOf scope identifier⟩ := by
  -- fields are added from the left, so that the last one meets the groups of all others
  induction scope using List.reverseRecOn with
  | nil => rfl
  | append_singleton scope f ih =>
    rw [groups, List.foldl_append, ← groups, ih, List.foldl_cons, List.foldl_nil,
      identifiersOf_append_singleton]
    by_cases known : f.identifier ∈ identifiersOf scope
    · rw [if_pos known, addToGroup_of_mem (identifiersOf_nodup scope) known]
      refine List.map_congr_left fun identifier _ => ?_
      rw [namesOf_append_singleton]
    · rw [if_neg known, addToGroup_of_notMem known, List.map_append]
      congr 1
      · refine List.map_congr_left fun identifier member => ?_
        rw [namesOf_append_singleton, if_neg (by rintro rfl; exact known member)]
      · -- a new identifier has no names before this one
        have none : namesOf scope f.identifier = [] := by
          rw [namesOf, List.map_eq_nil_iff, List.filter_eq_nil_iff]
          intro g member same
          exact known (mem_identifiersOf.mpr ⟨g, member, by simpa using same⟩)
        rw [List.map_singleton, namesOf_append_singleton, if_pos rfl, none]
        rfl

/-! ## Collisions of all scopes -/

/-- The identifiers that two fields of a scope or more share, each with all their storage names. -/
def sharedIdentifiers (scope : List Field) : List Collision :=
  ((identifiersOf scope).filter fun identifier => 2 ≤ (scope.filter (·.identifier == identifier)).length).map
    fun identifier => ⟨identifier, namesOf scope identifier⟩

theorem scopeCollisions_eq (scope : List Field) : scopeCollisions scope = sharedIdentifiers scope := by
  rw [scopeCollisions, groups_eq, List.filter_map, sharedIdentifiers]
  congr 1
  refine List.filter_congr fun identifier _ => ?_
  simp [namesOf, Nat.succ_le_iff]

mutual

theorem Field.collisionsBelow_eq : (f : Field) → f.collisionsBelow = f.scopesBelow.flatMap sharedIdentifiers
  | ⟨d, fields, itemType, itemFields⟩ => by
    rw [Field.collisionsBelow, Field.scopesBelow, List.flatMap_append, List.flatMap_cons, List.flatMap_cons,
      scopeCollisions_eq, scopeCollisions_eq, collisionsBelowAll_eq fields, collisionsBelowAll_eq itemFields]

theorem collisionsBelowAll_eq :
    (fields : List Field) → collisionsBelowAll fields = (scopesBelowAll fields).flatMap sharedIdentifiers
  | [] => by rw [collisionsBelowAll, scopesBelowAll, List.flatMap_nil]
  | f :: rest => by
    rw [collisionsBelowAll, scopesBelowAll, List.flatMap_append, Field.collisionsBelow_eq f,
      collisionsBelowAll_eq rest]

end

/-- The collisions of a list of fields are the shared identifiers of all its scopes, scope by scope. -/
theorem collisions_eq (fields : List Field) :
    collisions fields = (scopes fields).flatMap sharedIdentifiers := by
  rw [collisions, scopes, List.flatMap_cons, scopeCollisions_eq, collisionsBelowAll_eq]

theorem identifiers_nodup_of_sharedIdentifiers {scope : List Field} (none : sharedIdentifiers scope = []) :
    (scope.map (·.identifier)).Nodup := by
  rw [List.nodup_iff_count_le_one]
  intro identifier
  by_cases member : identifier ∈ identifiersOf scope
  · rw [sharedIdentifiers, List.map_eq_nil_iff, List.filter_eq_nil_iff] at none
    have few := none identifier member
    rw [List.count_eq_countP, List.countP_map, List.countP_eq_length_filter]
    simp only [decide_eq_true_eq, not_le] at few
    exact Nat.le_of_lt_succ few
  · rw [List.count_eq_zero_of_not_mem]
    · exact Nat.zero_le 1
    · intro inMap
      obtain ⟨f, inScope, same⟩ := List.mem_map.mp inMap
      exact member (mem_identifiersOf.mpr ⟨f, inScope, same⟩)

/-- A scope shares no identifiers exactly if all of its fields have different ones. -/
theorem sharedIdentifiers_eq_nil {scope : List Field} :
    sharedIdentifiers scope = [] ↔ (scope.map (·.identifier)).Nodup := by
  refine ⟨identifiers_nodup_of_sharedIdentifiers, fun distinct => ?_⟩
  rw [sharedIdentifiers, List.map_eq_nil_iff, List.filter_eq_nil_iff]
  intro identifier _
  have once := List.nodup_iff_count_le_one.mp distinct identifier
  rw [List.count_eq_countP, List.countP_map, List.countP_eq_length_filter] at once
  simpa [Function.comp_def, Nat.not_le, Nat.lt_succ_iff] using once

theorem collisions_eq_nil {fields : List Field} :
    collisions fields = [] ↔ ∀ scope, Scope fields scope → (scope.map (·.identifier)).Nodup := by
  rw [collisions_eq, List.flatMap_eq_nil_iff]
  simp only [mem_scopes, sharedIdentifiers_eq_nil]

/-- Without collisions, the fields of every scope have different identifiers. -/
theorem identifiers_nodup {fields scope : List Field} (none : collisions fields = []) (is : Scope fields scope) :
    (scope.map (·.identifier)).Nodup := by
  rw [collisions_eq, List.flatMap_eq_nil_iff] at none
  exact identifiers_nodup_of_sharedIdentifiers (none scope is.mem_scopes)

end Tablewright
