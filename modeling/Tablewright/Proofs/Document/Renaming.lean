import Mathlib.Logic.Relation
import Tablewright.Proofs.Document.Reading

/-!
# Other spellings

Schemas whose entries are spelled otherwise.  Every entry that is read has one or more spellings; each part of a document
has entries of its own.

* `Part`, `Part.slots`: the parts of a document, and the spellings of their entries.
* `Respells`: one entry, at any depth, gets another one of its spellings.
* `SlotsAlike`: what two mappings hold under the spellings of every entry; `slotsAlike_of_respells`: a renamed entry.
* `respects_fieldOf`, `value?_schemaOf`: readers find the same under all spellings.
* `readSchema_respelled`: schemas whose entries are spelled otherwise, where the reader looks for all spellings.
-/

namespace Tablewright.Document

open Value (get?)

/-! ## Parts and their entries -/

/-- The parts of the document of a schema; `fields` are lists of fields, and a `value` is taken as it is. -/
inductive Part where
  | schema
  | entity
  | primaryKey
  | fields
  | field
  | items
  | constraints
  | value
  deriving DecidableEq

/-- The entries of a part: their spellings, the usual one first, and what stands there. -/
def Part.slots : Part → List (List String × Part)
  | schema => [(["schemaVersion", "schema_version"], value), (["entityName", "entity_name"], value),
      (["description"], value), (["primaryKey", "primary_key"], primaryKey), (["fields"], fields), (["entity"], entity)]
  | entity => [(["name"], value), (["description"], value), (["primaryKey", "primary_key"], primaryKey),
      (["fields"], fields)]
  | primaryKey => [(["partitionKey", "partition_key"], value), (["sortKey", "sort_key"], value)]
  | field => [(["name"], value), (["type"], value), (["required"], value), (["nameOverride", "name_override"], value),
      (["description"], value), (["default", "defaultValue"], value), (["enumValues", "enum", "enum_values"], value),
      (["constraints"], constraints), (["fields"], fields), (["items"], items)]
  | items => [(["type"], value), (["fields"], fields)]
  | constraints => [(["minLength", "min_length"], value), (["maxLength", "max_length"], value), (["pattern"], value),
      (["min"], value), (["max"], value)]
  | fields | value => []

/-- One entry of a part, at any depth, gets another one of its spellings.  No other entry beside it has any of them. -/
inductive Respells : Part → Value → Value → Prop
  | key {part child : Part} {names : List String} {a b : String} {v : Value} (before : List (Value × Value))
      {after : List (Value × Value)} (slot : (names, child) ∈ part.slots) (old : a ∈ names) (new : b ∈ names)
      (alone : ∀ name ∈ names, get? name (before ++ after) = none) :
      Respells part (.dict (before ++ (.text a, v) :: after)) (.dict (before ++ (.text b, v) :: after))
  | entry {part child : Part} {names : List String} {a : String} {v w : Value} (before : List (Value × Value))
      {after : List (Value × Value)} (slot : (names, child) ∈ part.slots) (named : a ∈ names)
      (below : Respells child v w) :
      Respells part (.dict (before ++ (.text a, v) :: after)) (.dict (before ++ (.text a, w) :: after))
  | list {v w : Value} (before : List Value) {after : List Value} (below : Respells .field v w) :
      Respells .fields (.list (before ++ v :: after)) (.list (before ++ w :: after))
  | tuple {v w : Value} (before : List Value) {after : List Value} (below : Respells .field v w) :
      Respells .fields (.tuple (before ++ v :: after)) (.tuple (before ++ w :: after))
  | set {v w : Value} (before : List Value) {after : List Value} (below : Respells .field v w) :
      Respells .fields (.set (before ++ v :: after)) (.set (before ++ w :: after))

/-- Values that are the same, or the same with one entry spelled otherwise. -/
abbrev Like (part : Part) : Value → Value → Prop := Relation.ReflGen (Respells part)

/-- Different entries of a part have no spelling in common. -/
theorem Part.slots_disjoint (part : Part) : ∀ slot ∈ part.slots, ∀ slot' ∈ part.slots, ∀ name ∈ slot.1, name ∈ slot'.1 →
    slot = slot' := by
  cases part <;> decide

/-! ## Depth -/

theorem depths_append (vs ws : List Value) : Value.depths (vs ++ ws) = max (Value.depths vs) (Value.depths ws) := by
  induction vs with
  | nil => simp [Value.depths]
  | cons v rest ih => rw [List.cons_append, Value.depths, Value.depths, ih, Nat.max_assoc]

theorem entryDepths_append (es fs : List (Value × Value)) :
    Value.entryDepths (es ++ fs) = max (Value.entryDepths es) (Value.entryDepths fs) := by
  induction es with
  | nil => simp [Value.entryDepths]
  | cons entry rest ih => rw [List.cons_append, Value.entryDepths, Value.entryDepths, ih, Nat.max_assoc]

/-- Another spelling leads as deep. -/
theorem Respells.depth {part : Part} {v w : Value} (respells : Respells part v w) : v.depth = w.depth := by
  induction respells with
  | key => simp only [Value.depth, entryDepths_append, Value.entryDepths]
  | entry _ _ _ _ ih => simp only [Value.depth, entryDepths_append, Value.entryDepths, ih]
  | list _ _ ih => simp only [Value.depth, depths_append, Value.depths, ih]
  | tuple _ _ ih => simp only [Value.depth, depths_append, Value.depths, ih]
  | set _ _ ih => simp only [Value.depth, depths_append, Value.depths, ih]

/-! ## Entries under their spellings -/

/-- The value under the first one of several names. -/
def firstOf (names : List String) (es : List (Value × Value)) : Option Value := names.findSome? fun name => get? name es

@[simp] theorem firstOf_nil (es : List (Value × Value)) : firstOf [] es = none := rfl

theorem firstOf_cons (name : String) (names : List String) (es : List (Value × Value)) :
    firstOf (name :: names) es = (get? name es).or (firstOf names es) := by
  rw [firstOf, List.findSome?_cons]
  cases get? name es <;> rfl

/-- Under all spellings of each entry, two mappings hold nothing or values that are alike. -/
def SlotsAlike (part : Part) (es es' : List (Value × Value)) : Prop :=
  ∀ slot ∈ part.slots, Option.Rel (Like slot.2) (firstOf slot.1 es) (firstOf slot.1 es')

section

variable {R : Value → Value → Prop} {o o' p p' : Option Value} {names : List String} {es es' : List (Value × Value)}

theorem rel_refl (refl : ∀ v, R v v) (o : Option Value) : Option.Rel R o o := by
  cases o with
  | none => exact .none
  | some v => exact .some (refl v)

theorem rel_or (first : Option.Rel R o o') (second : Option.Rel R p p') : Option.Rel R (o.or p) (o'.or p') := by
  cases first with
  | none => exact second
  | some related => exact .some related

theorem firstOf_rel (each : ∀ name ∈ names, Option.Rel R (get? name es) (get? name es')) :
    Option.Rel R (firstOf names es) (firstOf names es') := by
  induction names with
  | nil => exact .none
  | cons name rest ih =>
    obtain ⟨here, there⟩ := List.forall_mem_cons.mp each
    rw [firstOf_cons, firstOf_cons]
    exact rel_or here (ih there)

theorem firstOf_alone {a : String} {v : Value} {before after : List (Value × Value)} (member : a ∈ names)
    (alone : ∀ name ∈ names, get? name (before ++ after) = none) :
    firstOf names (before ++ (.text a, v) :: after) = some v := by
  have found : ∀ name ∈ names, get? name (before ++ (.text a, v) :: after) = if a = name then some v else none := by
    intro name inside
    have absent := alone name inside
    rw [Value.get?_append, Option.or_eq_none_iff] at absent
    simp [Value.get?_append, Value.get?_cons, absent.1, absent.2]
  clear alone
  induction names with
  | nil => cases member
  | cons name rest ih =>
    obtain ⟨here, there⟩ := List.forall_mem_cons.mp found
    rw [firstOf_cons, here]
    by_cases same : a = name
    · rw [if_pos same, Option.some_or]
    · rw [if_neg same, Option.none_or]
      exact ih ((List.mem_cons.mp member).resolve_left same) there

/-- A name that is not changed is found as before. -/
theorem get?_other {name a : String} (other : a ≠ name) (v : Value) (before after : List (Value × Value)) :
    get? name (before ++ (.text a, v) :: after) = get? name (before ++ after) := by
  simp [Value.get?_append, Value.get?_cons, other]

end

theorem SlotsAlike.refl (part : Part) (es : List (Value × Value)) : SlotsAlike part es es :=
  fun _ _ => rel_refl (fun _ => .refl) _

/-- Whichever entry is spelled otherwise, under all of its spellings there is what there was. -/
theorem slotsAlike_of_respells {part : Part} {es es' : List (Value × Value)}
    (respells : Respells part (.dict es) (.dict es')) : SlotsAlike part es es' := by
  cases respells with
  | @key _ child names a b v before after slot old new alone =>
    intro slot' inside
    by_cases same : slot' = (names, child)
    · rw [same, firstOf_alone old alone, firstOf_alone new alone]
      exact .some .refl
    · refine firstOf_rel fun name member => ?_
      have otherOld : a ≠ name := fun is => same (part.slots_disjoint _ inside _ slot name member (is ▸ old))
      have otherNew : b ≠ name := fun is => same (part.slots_disjoint _ inside _ slot name member (is ▸ new))
      rw [get?_other otherOld, get?_other otherNew]
      exact rel_refl (fun _ => .refl) _
  | @entry _ child names a v w before after slot named below =>
    intro slot' inside
    refine firstOf_rel fun name member => ?_
    rw [Value.get?_append, Value.get?_append, Value.get?_cons, Value.get?_cons]
    refine rel_or (rel_refl (fun _ => .refl) _) ?_
    by_cases here : a = name
    · obtain rfl := part.slots_disjoint _ inside _ slot name member (here ▸ named)
      rw [Value.isText_text, decide_eq_true here, if_pos rfl, if_pos rfl]
      exact .some (.single below)
    · rw [Value.isText_text, decide_eq_false here, if_neg Bool.false_ne_true, if_neg Bool.false_ne_true]
      exact rel_refl (fun _ => .refl) _

section

variable {part : Part} {v w : Value} {es es' : List (Value × Value)}

theorem entries?_like (like : Like part v w) : Option.Rel (SlotsAlike part) (entries? v) (entries? w) := by
  cases like with
  | refl =>
    cases v with
    | dict es => exact .some (.refl part es)
    | _ => exact .none
  | single respells =>
    cases respells with
    | key before slot old new alone => exact .some (slotsAlike_of_respells (.key before slot old new alone))
    | entry before slot named below => exact .some (slotsAlike_of_respells (.entry before slot named below))
    | list | tuple | set => exact .none

theorem members?_like (like : Like .fields v w) :
    Option.Rel (List.Forall₂ (Like .field)) (members? v) (members? w) := by
  have same : ∀ vs, List.Forall₂ (Like .field) vs vs := fun vs => List.forall₂_same.mpr fun _ _ => .refl
  have one : ∀ {before after v w}, Respells .field v w →
      List.Forall₂ (Like .field) (before ++ v :: after) (before ++ w :: after) := fun below =>
    List.rel_append (same _) (.cons (.single below) (same _))
  cases like with
  | refl =>
    cases members? v with
    | none => exact .none
    | some vs => exact .some (same vs)
  | single respells =>
    cases respells with
    | key | entry => exact .none
    | list _ below | tuple _ below | set _ below => exact .some (one below)

theorem null_like (like : Like part v w) : v = .null ↔ w = .null := by
  cases like with
  | refl => rfl
  | single respells => cases respells <;> simp

/-- Nothing is read inside a value that is taken as it is. -/
theorem eq_of_like (like : Like .value v w) : v = w := by
  cases like with
  | refl => rfl
  | single respells =>
    cases respells with
    | key _ slot | entry _ slot => cases slot

theorem eq_of_rel {o o' : Option Value} (related : Option.Rel (Like .value) o o') : o = o' := by
  cases related with
  | none => rfl
  | some like => rw [eq_of_like like]

theorem SlotsAlike.pair (alike : SlotsAlike part es es') (a b : String) (child : Part)
    (slot : ([a, b], child) ∈ part.slots) :
    Option.Rel (Like child) ((Spelling.mk a b).value? es) ((Spelling.mk a b).value? es') := by
  have related := alike _ slot
  rw [firstOf_cons, firstOf_cons, firstOf_cons, firstOf_cons, firstOf_nil, firstOf_nil, Option.or_none, Option.or_none]
    at related
  rw [Spelling.value?_eq, Spelling.value?_eq]
  exact related

theorem SlotsAlike.get? (alike : SlotsAlike part es es') (a : String) (child : Part)
    (slot : ([a], child) ∈ part.slots) : Option.Rel (Like child) (Value.get? a es) (Value.get? a es') := by
  have related := alike _ slot
  rw [firstOf_cons, firstOf_cons, firstOf_nil, firstOf_nil, Option.or_none, Option.or_none] at related
  exact related

theorem SlotsAlike.single (alike : SlotsAlike part es es') (a : String) (child : Part)
    (slot : ([a], child) ∈ part.slots) :
    Option.Rel (Like child) ((Spelling.single a).value? es) ((Spelling.single a).value? es') := by
  rw [Spelling.value?_single, Spelling.value?_single]
  exact alike.get? a child slot

end

/-! ## Readers of parts -/

section

variable {α : Type} {read : Reader α}

theorem Respects.value (respects : Respects Eq read) : Respects (Like .value) read :=
  respects.mono fun _ _ => eq_of_like

theorem Respects.orNull {part : Part} (respects : Respects (Like part) read) :
    Respects (Like part) (Document.nullable read) :=
  respects.nullable fun _ _ => null_like

theorem Respects.members (respects : Respects (Like .field) read) : Respects (Like .fields) (Document.listOf read) :=
  respects.listOf fun _ _ => members?_like

end

theorem respects_texts : Respects Eq (listOf text) :=
  respects_text.listOf fun v _ same => same ▸ by
    cases members? v with
    | none => exact .none
    | some vs => exact .some (List.forall₂_same.mpr fun _ _ => rfl)

theorem respects_constraintsOf : Respects (Like .constraints) constraintsOf := by
  refine Respects.mappingOf (fun _ _ => entries?_like) fun place place' es es' alike => ?_
  have integers := respects_integer.value.orNull
  have texts := respects_text.value.orNull
  have numbers := respects_number.value.orNull
  simp only [Checked.value?_seq, Checked.value?_fmap, Checked.value?_map,
    integers.optional none (alike.pair "minLength" "min_length" .value (by decide)) place place',
    integers.optional none (alike.pair "maxLength" "max_length" .value (by decide)) place place',
    texts.optional none (alike.single "pattern" .value (by decide)) place place',
    numbers.optional none (alike.single "min" .value (by decide)) place place',
    numbers.optional none (alike.single "max" .value (by decide)) place place']

theorem respects_primaryKeyOf : Respects (Like .primaryKey) primaryKeyOf := by
  refine Respects.mappingOf (fun _ _ => entries?_like) fun place place' es es' alike => ?_
  simp only [Checked.value?_seq, Checked.value?_fmap,
    respects_nonEmptyText.value.required (alike.pair "partitionKey" "partition_key" .value (by decide)) place place',
    respects_text.value.orNull.optional none (alike.pair "sortKey" "sort_key" .value (by decide)) place place']

theorem respects_itemsOf {read : Reader (List Field)} (respects : Respects (Like .fields) read) :
    Respects (Like .items) (itemsOf read) := by
  refine Respects.mappingOf (fun _ _ => entries?_like) fun place place' es es' alike => ?_
  simp only [Checked.value?_seq, Checked.value?_fmap, Checked.value?_map,
    respects_text.value.required (alike.single "type" .value (by decide)) place place',
    respects.orNull.optional none (alike.single "fields" .fields (by decide)) place place']

/-! ## Fields -/

section

variable {es es' : List (Value × Value)}

/-- Entries with an older name are found once they stand under their usual name. -/
theorem SlotsAlike.enumValues (alike : SlotsAlike .field es es') : Option.Rel (Like .value)
    ((Spelling.mk "enumValues" "enum_values").value? (fieldSpellings es))
    ((Spelling.mk "enumValues" "enum_values").value? (fieldSpellings es')) := by
  have related := alike (["enumValues", "enum", "enum_values"], .value) (by decide)
  simp only [firstOf_cons, firstOf_nil, Option.or_none] at related
  simp only [Spelling.value?_eq, get?_fieldSpellings_enumValues, Option.or_assoc]
  rw [get?_fieldSpellings (by decide), get?_fieldSpellings (by decide)]
  exact related

theorem SlotsAlike.default (alike : SlotsAlike .field es es') : Option.Rel (Like .value)
    ((Spelling.single "default").value? (fieldSpellings es))
    ((Spelling.single "default").value? (fieldSpellings es')) := by
  have related := alike (["default", "defaultValue"], .value) (by decide)
  simp only [firstOf_cons, firstOf_nil, Option.or_none] at related
  rw [Spelling.value?_single, Spelling.value?_single, get?_fieldSpellings_default, get?_fieldSpellings_default]
  exact related

theorem SlotsAlike.nameOverride (alike : SlotsAlike .field es es') : Option.Rel (Like .value)
    ((Spelling.mk "nameOverride" "name_override").value? (fieldSpellings es))
    ((Spelling.mk "nameOverride" "name_override").value? (fieldSpellings es')) := by
  have related := alike.pair "nameOverride" "name_override" .value (by decide)
  rw [Spelling.value?_eq, Spelling.value?_eq] at related ⊢
  simpa [get?_fieldSpellings] using related

theorem SlotsAlike.ofField (alike : SlotsAlike .field es es') (a : String) (child : Part)
    (slot : ([a], child) ∈ Part.field.slots) :
    Option.Rel (Like child) ((Spelling.single a).value? (fieldSpellings es))
      ((Spelling.single a).value? (fieldSpellings es')) := by
  have severalNames : ∀ slot ∈ Part.field.slots, ∀ name ∈ ["enum", "enumValues", "defaultValue", "default"],
      name ∈ slot.1 → slot.1.length ≠ 1 := by decide
  have other : a ∉ ["enum", "enumValues", "defaultValue", "default"] := fun inside =>
    severalNames _ slot a inside List.mem_cons_self rfl
  rw [Spelling.value?_fieldSpellings other, Spelling.value?_fieldSpellings other]
  exact alike.get? a child slot

theorem value?_partsOf {read : Reader (List Field)} (respects : Respects (Like .fields) read)
    (alike : SlotsAlike .field es es') (place place' : List Step) :
    (partsOf read place (fieldSpellings es)).value? = (partsOf read place' (fieldSpellings es')).value? := by
  simp only [partsOf, Checked.value?_seq, Checked.value?_fmap,
    respects_nonEmptyText.value.required (alike.ofField "name" .value (by decide)) place place',
    respects_nonEmptyText.value.required (alike.ofField "type" .value (by decide)) place place',
    respects_truth.value.optional false (alike.ofField "required" .value (by decide)) place place',
    respects_text.value.orNull.optional none alike.nameOverride place place',
    respects_text.value.orNull.optional none (alike.ofField "description" .value (by decide)) place place',
    respects_anything.value.optional .null alike.default place place',
    respects_texts.value.orNull.optional none alike.enumValues place place',
    respects_constraintsOf.orNull.optional none (alike.ofField "constraints" .constraints (by decide)) place place',
    respects.orNull.optional none (alike.ofField "fields" .fields (by decide)) place place',
    (respects_itemsOf respects).orNull.optional none (alike.ofField "items" .items (by decide)) place place']

/-- However deep the fields are that are read, their spellings make no difference. -/
theorem respects_fieldOf (fuel : Nat) : Respects (Like .field) (fieldOf fuel) := by
  induction fuel with
  | zero => exact fun _ _ _ _ _ => rfl
  | succ fuel ih =>
    refine Respects.mappingOf (fun _ _ => entries?_like) fun place place' es es' alike => ?_
    rw [Checked.value?_map, Checked.value?_map, value?_partsOf ih.members alike]

end

/-! ## Schemas -/

/-- What is looked for under its usual name only stands under it in both mappings or in neither: a version that has to be
written out, the name and the key beside an entity block, and the key in it. -/
structure UsualAlike (es es' : List (Value × Value)) : Prop where
  version : ∀ v, firstOf ["schemaVersion", "schema_version"] es = some v → asText v ≠ v →
    hasEntry "schemaVersion" es = hasEntry "schemaVersion" es'
  name : ∀ block, get? "entity" es = some (.dict block) → hasEntry "entityName" es = hasEntry "entityName" es'
  key : ∀ block block', get? "entity" es = some (.dict block) → get? "entity" es' = some (.dict block') →
    hasEntry "primaryKey" block ∨ hasEntry "primaryKey" block' →
    hasEntry "primaryKey" es = hasEntry "primaryKey" es'
  blockKey : ∀ block block', get? "entity" es = some (.dict block) → get? "entity" es' = some (.dict block') →
    hasEntry "primaryKey" es ∨ hasEntry "primaryKey" block = hasEntry "primaryKey" block'

section

variable {R : Value → Value → Prop} {o o' p p' : Option Value}

theorem rel_getD {v : Value} (refl : R v v) (related : Option.Rel R o o') : R (o.getD v) (o'.getD v) := by
  cases related with
  | none => exact refl
  | some here => exact here

theorem rel_of_or (same : o.isSome = o'.isSome) (related : Option.Rel R (o.or p) (o'.or p')) : Option.Rel R o o' := by
  cases o with
  | none =>
    cases o' with
    | none => exact .none
    | some _ => cases same
  | some v =>
    cases o' with
    | none => cases same
    | some w => exact related

end

section

variable {es es' : List (Value × Value)} {place place' : List Step}

/-- Both mappings have an entity block, or neither has. -/
theorem block_alike (alike : SlotsAlike .schema es es') :
    (∃ block block', get? "entity" es = some (.dict block) ∧ get? "entity" es' = some (.dict block') ∧
      SlotsAlike .entity block block') ∨
    (flattenEntity es = es ∧ flattenEntity es' = es') := by
  have related := alike.get? "entity" .entity (by decide)
  generalize given : get? "entity" es = o at related
  generalize given' : get? "entity" es' = o' at related
  cases related with
  | none =>
    right
    exact ⟨flattenEntity_plain (by simp [given]), flattenEntity_plain (by simp [given'])⟩
  | @some v w like =>
    have shape := entries?_like like
    cases v with
    | dict block =>
      cases w with
      | dict block' =>
        cases shape with
        | some inside => exact .inl ⟨block, block', rfl, rfl, inside⟩
      | _ => cases shape
    | _ =>
      cases w with
      | dict block' => cases shape
      | _ =>
        right
        exact ⟨flattenEntity_plain (by simp [given]), flattenEntity_plain (by simp [given'])⟩

/-- A version of either name is read alike, unless it is written out under the one name only. -/
theorem version_alike (alike : SlotsAlike .schema es es') (kept : UsualAlike es es') : Option.Rel (Like .value)
    ((Spelling.mk "schemaVersion" "schema_version").value? (versionText (flattenEntity es)))
    ((Spelling.mk "schemaVersion" "schema_version").value? (versionText (flattenEntity es'))) := by
  have related := alike.pair "schemaVersion" "schema_version" .value (by decide)
  have written := kept.version
  simp only [firstOf_cons, firstOf_nil, Option.or_none, hasEntry] at written
  simp only [Spelling.value?_eq, get?_versionText_schemaVersion] at related ⊢
  rw [get?_versionText (by decide), get?_versionText (by decide), get?_flattenEntity (by decide),
    get?_flattenEntity (by decide), get?_flattenEntity (by decide), get?_flattenEntity (by decide)]
  have untouched : ∀ o p : Option Value, (∀ v, o.or p = some v → asText v = v) → (o.map asText).or p = o.or p := by
    intro o p text
    cases o with
    | none => rfl
    | some v => simp [text v rfl]
  by_cases same : (get? "schemaVersion" es).isSome = (get? "schemaVersion" es').isSome
  · have usual := rel_of_or same related
    generalize get? "schemaVersion" es = o at usual related ⊢
    generalize get? "schemaVersion" es' = o' at usual related ⊢
    cases usual with
    | none => exact related
    | some here =>
      obtain rfl := eq_of_like here
      exact .some .refl
  · have text : ∀ v, (get? "schemaVersion" es).or (get? "schema_version" es) = some v → asText v = v :=
      fun v found => not_not.mp fun other => same (written v found other)
    rw [untouched _ _ text, untouched _ _ fun v found => text v ((eq_of_rel related).trans found)]
    exact related

/-- The name beside an entity block counts if it has its usual spelling, and else the name in the block. -/
theorem name_alike (alike : SlotsAlike .schema es es') (kept : UsualAlike es es') : Option.Rel (Like .value)
    ((Spelling.mk "entityName" "entity_name").value? (versionText (flattenEntity es)))
    ((Spelling.mk "entityName" "entity_name").value? (versionText (flattenEntity es'))) := by
  have related := alike.pair "entityName" "entity_name" .value (by decide)
  rw [Spelling.value?_versionText (by decide) (by decide), Spelling.value?_versionText (by decide) (by decide)]
  rcases block_alike alike with ⟨block, block', given, given', inside⟩ | ⟨plain, plain'⟩
  · simp only [Spelling.value?_eq] at related ⊢
    rw [get?_flattenEntity_entityName given, get?_flattenEntity_entityName given', Option.or_assoc, Option.or_assoc,
      Option.some_or, Option.some_or]
    exact rel_or (rel_of_or (kept.name block given) related)
      (.some (rel_getD .refl (inside.get? "name" .value (by decide))))
  · rw [plain, plain']
    exact related

/-- The key beside an entity block counts if it has its usual spelling, then the key in the block if it has, and else the
key beside it. -/
theorem key_alike (alike : SlotsAlike .schema es es') (kept : UsualAlike es es') : Option.Rel (Like .primaryKey)
    ((Spelling.mk "primaryKey" "primary_key").value? (versionText (flattenEntity es)))
    ((Spelling.mk "primaryKey" "primary_key").value? (versionText (flattenEntity es'))) := by
  have related := alike.pair "primaryKey" "primary_key" .primaryKey (by decide)
  rw [Spelling.value?_versionText (by decide) (by decide), Spelling.value?_versionText (by decide) (by decide)]
  rcases block_alike alike with ⟨block, block', given, given', inside⟩ | ⟨plain, plain'⟩
  · have relatedInside := inside.pair "primaryKey" "primary_key" .primaryKey (by decide)
    have key := kept.key block block' given given'
    have blockKey := kept.blockKey block block' given given'
    simp only [hasEntry] at key blockKey
    simp only [Spelling.value?_eq] at related relatedInside ⊢
    rw [get?_flattenEntity_block given (by decide), get?_flattenEntity_block given' (by decide),
      get?_flattenEntity (by decide), get?_flattenEntity (by decide)]
    generalize get? "primaryKey" es = beside at *
    generalize get? "primaryKey" es' = beside' at *
    generalize get? "primaryKey" block = within at *
    generalize get? "primaryKey" block' = within' at *
    by_cases same : beside.isSome = beside'.isSome
    · have usual := rel_of_or same related
      cases usual with
      | none =>
        have sameInside : within.isSome = within'.isSome := by simpa using blockKey
        exact rel_or (rel_of_or sameInside relatedInside) related
      | some here => exact .some here
    · obtain ⟨none, none'⟩ : within = none ∧ within' = none := by
        have neither := not_or.mp (mt key same)
        simpa using neither
      rw [none, none', Option.or_none, Option.or_none]
      exact related
  · rw [plain, plain']
    exact related

/-- An entry with one spelling is taken from the block unless it stands beside it. -/
theorem taken_alike (alike : SlotsAlike .schema es es') (a : String) (child : Part)
    (slot : ([a], child) ∈ Part.schema.slots) (slotInside : ([a], child) ∈ Part.entity.slots) :
    Option.Rel (Like child) ((Spelling.single a).value? (versionText (flattenEntity es)))
      ((Spelling.single a).value? (versionText (flattenEntity es'))) := by
  have shared : ∀ slot ∈ Part.schema.slots, slot ∈ Part.entity.slots → slot.1.length = 1 →
      ∀ name ∈ slot.1, name ∈ ["primaryKey", "fields", "description"] ∧ "schemaVersion" ≠ name := by decide
  obtain ⟨taken, other⟩ := shared _ slot slotInside rfl a List.mem_cons_self
  rw [Spelling.value?_versionText other other, Spelling.value?_versionText other other]
  rcases block_alike alike with ⟨block, block', given, given', inside⟩ | ⟨plain, plain'⟩
  · rw [Spelling.value?_single, Spelling.value?_single, get?_flattenEntity_block given taken,
      get?_flattenEntity_block given' taken]
    exact rel_or (alike.get? a child slot) (inside.get? a child slotInside)
  · rw [plain, plain']
    exact alike.single a child slot

theorem value?_schemaOf (alike : SlotsAlike .schema es es') (kept : UsualAlike es es') (fuel : Nat) :
    (schemaOf fuel place (.dict es)).value? = (schemaOf fuel place' (.dict es')).value? := by
  simp only [schemaOf, mappingOf, Checked.value?_seq, Checked.value?_fmap,
    respects_text.value.orNull.optional none (version_alike alike kept) place place',
    respects_text.value.orNull.optional none (name_alike alike kept) place place',
    respects_text.value.orNull.optional none (taken_alike alike "description" .value (by decide) (by decide)) place place',
    respects_primaryKeyOf.required (key_alike alike kept) place place',
    (respects_fieldOf fuel).members.optional [] (taken_alike alike "fields" .fields (by decide) (by decide)) place place']

end

/-- An entry is spelled otherwise, and what is looked for under its usual name only is found as before. -/
structure Harmless (document document' : Value) : Prop where
  respells : Respells .schema document document'
  usual : ∀ es es', document = .dict es → document' = .dict es' → UsualAlike es es'

theorem Harmless.toOption_eq {document document' : Value} (harmless : Harmless document document') :
    (readSchema document).toOption = (readSchema document').toOption := by
  obtain ⟨respells, usual⟩ := harmless
  rw [readSchema, readSchema, Checked.toOption_toExcept, Checked.toOption_toExcept, respells.depth]
  cases respells with
  | key before slot old new alone =>
    exact value?_schemaOf (slotsAlike_of_respells (.key before slot old new alone)) (usual _ _ rfl rfl) _
  | entry before slot named below =>
    exact value?_schemaOf (slotsAlike_of_respells (.entry before slot named below)) (usual _ _ rfl rfl) _

/-- However many entries are spelled otherwise, one after the other and at any depth, both documents have the same schema
or neither has one. -/
theorem readSchema_respelled (document document' : Value) (respelled : Relation.ReflTransGen Harmless document document') :
    (readSchema document).toOption = (readSchema document').toOption := by
  induction respelled with
  | refl => rfl
  | tail _ harmless ih => exact ih.trans harmless.toOption_eq

/-- An order whose allowed and initial states are spelled in one way or another. -/
def stateDocument (allowed initial : String) : Value :=
  .dict [(.text "entity", .dict [(.text "primaryKey", .dict [(.text "partitionKey", .text "id")]),
    (.text "fields", .list [.dict [(.text "name", .text "state"), (.text "type", .text "string"),
      (.text allowed, .list [.text "sent", .text "lost"]), (.text initial, .text "sent")]])])]

theorem stateDocument_harmless {allowed initial allowed' initial' : String}
    (respells : Respells .schema (stateDocument allowed initial) (stateDocument allowed' initial')) :
    Harmless (stateDocument allowed initial) (stateDocument allowed' initial') := by
  refine ⟨respells, ?_⟩
  rintro _ _ ⟨⟩ ⟨⟩
  constructor <;> simp [firstOf_cons, Value.get?_cons, hasEntry]

theorem stateDocument_respelled :
    Relation.ReflTransGen Harmless (stateDocument "enum" "defaultValue") (stateDocument "enum_values" "default") ∧
    (readSchema (stateDocument "enum_values" "default")).toOption = some ⟨none, ⟨"id", none⟩,
      [⟨⟨"state", "string", false, none, none, .text "sent", ["sent", "lost"], none⟩, [], none, []⟩], none, none⟩ ∧
    (readSchema (stateDocument "enum" "defaultValue")).toOption =
      (readSchema (stateDocument "enum_values" "default")).toOption := by
  have block : (["entity"], Part.entity) ∈ Part.schema.slots := by decide
  have fields : (["fields"], Part.fields) ∈ Part.entity.slots := by decide
  have allowed : (["enumValues", "enum", "enum_values"], Part.value) ∈ Part.field.slots := by decide
  have initial : (["default", "defaultValue"], Part.value) ∈ Part.field.slots := by decide
  have first : Harmless (stateDocument "enum" "defaultValue") (stateDocument "enum_values" "defaultValue") :=
    stateDocument_harmless (.entry [] block (by decide) (.entry [_] fields (by decide)
      (.list [] (.key [_, _] allowed (by decide) (by decide) (by simp [Value.get?_cons])))))
  have second : Harmless (stateDocument "enum_values" "defaultValue") (stateDocument "enum_values" "default") :=
    stateDocument_harmless (.entry [] block (by decide) (.entry [_] fields (by decide)
      (.list [] (.key [_, _, _] initial (by decide) (by decide) (by simp [Value.get?_cons])))))
  have respelled := Relation.ReflTransGen.tail (.single first) second
  exact ⟨respelled, rfl, readSchema_respelled _ _ respelled⟩

/-- A schema with a version that is no text. -/
def versionDocument (name : String) : Value :=
  .dict [(.text name, .int 1), (.text "primaryKey", .dict [(.text "partitionKey", .text "id")])]

def blockDocument (key : String) : Value :=
  .dict [(.text "entity", .dict [(.text "name", .text "Order"), (.text key, .dict [(.text "partitionKey", .text "id")])])]

/-- A schema with a name and a key beside those of an entity block. -/
def besideDocument (name key : String) : Value :=
  .dict [(.text name, .text "Order"), (.text key, .dict [(.text "partitionKey", .text "id")]),
    (.text "entity", .dict [(.text "name", .text "Invoice"),
      (.text "primaryKey", .dict [(.text "partitionKey", .text "number")])])]

/-- Where only the usual spelling is looked for, another one loses the version, the key in the block, or the name and the
key beside the block. -/
theorem usualSpelling_counts :
    (Respells .schema (versionDocument "schemaVersion") (versionDocument "schema_version") ∧
      (readSchema (versionDocument "schemaVersion")).toOption = some ⟨none, ⟨"id", none⟩, [], none, some "1"⟩ ∧
      (readSchema (versionDocument "schema_version")).toOption = none) ∧
    (Respells .schema (blockDocument "primaryKey") (blockDocument "primary_key") ∧
      (readSchema (blockDocument "primaryKey")).toOption = some ⟨some "Order", ⟨"id", none⟩, [], none, none⟩ ∧
      (readSchema (blockDocument "primary_key")).toOption = none) ∧
    (Respells .schema (besideDocument "entityName" "primaryKey") (besideDocument "entity_name" "primaryKey") ∧
      Respells .schema (besideDocument "entityName" "primaryKey") (besideDocument "entityName" "primary_key") ∧
      (readSchema (besideDocument "entityName" "primaryKey")).toOption =
        some ⟨some "Order", ⟨"id", none⟩, [], none, none⟩ ∧
      (readSchema (besideDocument "entity_name" "primaryKey")).toOption =
        some ⟨some "Invoice", ⟨"id", none⟩, [], none, none⟩ ∧
      (readSchema (besideDocument "entityName" "primary_key")).toOption =
        some ⟨some "Order", ⟨"number", none⟩, [], none, none⟩) := by
  have version : (["schemaVersion", "schema_version"], Part.value) ∈ Part.schema.slots := by decide
  have name : (["entityName", "entity_name"], Part.value) ∈ Part.schema.slots := by decide
  have key : (["primaryKey", "primary_key"], Part.primaryKey) ∈ Part.schema.slots := by decide
  have block : (["entity"], Part.entity) ∈ Part.schema.slots := by decide
  have blockKey : (["primaryKey", "primary_key"], Part.primaryKey) ∈ Part.entity.slots := by decide
  refine ⟨⟨?_, rfl, rfl⟩, ⟨?_, rfl, rfl⟩, ?_, ?_, rfl, rfl, rfl⟩
  · exact .key [] version (by decide) (by decide) (by simp [Value.get?_cons])
  · exact .entry [] block (by decide) (.key [_] blockKey (by decide) (by decide) (by simp [Value.get?_cons]))
  · exact .key [] name (by decide) (by decide) (by simp [Value.get?_cons])
  · exact .key [_] key (by decide) (by decide) (by simp [Value.get?_cons])

end Tablewright.Document
