import Tablewright.Document.SchemaReader
import Tablewright.Proofs.Lists

/-!
# Entries of documents

What is found under a name after the entries of a mapping have been changed: one entry is set, taken out, renamed or
added, a field's entries are brought to their usual spelling, and a schema takes up the entries of its entity block.

* `get?_append`, `get?_put`: what stands under a name.
* `Spelling.value?`: what is found under either spelling of an entry.
* `get?_fieldSpellings_enumValues`, `get?_fieldSpellings_default`: the older names of a field's entries.
* `get?_flattenEntity`, `get?_versionText`: a schema without its entity block, and with its version as a text.
-/

namespace Tablewright

namespace Value

def isText (s : String) : Value → Bool
  | .text t => t == s
  | _ => false

theorem sameKey_text (key : Value) (s : String) : key.sameKey (.text s) = key.isText s := by
  cases key <;> simp [sameKey, keyInt?, isText]

theorem eq_text_of_isText {key : Value} {s : String} (is : key.isText s = true) : key = .text s := by
  cases key <;> simp_all [isText]

@[simp] theorem isText_text (t s : String) : (Value.text t).isText s = decide (t = s) := by
  rw [isText, beq_eq_decide]

theorem isText_of_isText {key : Value} {s t : String} (is : key.isText s = true) : key.isText t = decide (s = t) := by
  rw [eq_text_of_isText is, isText_text]

theorem get?_eq (name : String) (es : List (Value × Value)) :
    get? name es = (es.find? fun entry => entry.1.isText name).map (·.2) := by
  rw [get?]
  congr 2

@[simp] theorem get?_nil (name : String) : get? name [] = none := rfl

theorem get?_cons (name : String) (key v : Value) (es : List (Value × Value)) :
    get? name ((key, v) :: es) = if key.isText name then some v else get? name es := by
  rw [get?_eq, get?_eq, List.find?_cons]
  cases key.isText name <;> rfl

theorem get?_append (name : String) (es fs : List (Value × Value)) :
    get? name (es ++ fs) = (get? name es).or (get? name fs) := by
  rw [get?_eq, get?_eq, get?_eq, List.find?_append, Option.map_or]

theorem get?_filter_text (name other : String) (es : List (Value × Value)) :
    get? name (es.filter fun entry => !entry.1.isText other) = if other = name then none else get? name es := by
  rw [get?_eq, get?_eq, List.find?_filter]
  split
  · rename_i same
    rw [same, Option.map_eq_none_iff, List.find?_eq_none]
    simp
  · rename_i apart
    congr 2
    funext entry
    cases found : entry.1.isText name with
    | false => simp
    | true => simp [isText_of_isText found, Ne.symm apart]

/-- What is set is found afterwards, and all else stays as it was. -/
theorem get?_put (name other : String) (v : Value) (es : List (Value × Value)) :
    get? name (put es (.text other) v) = if other = name then some v else get? name es := by
  simp only [put, sameKey_text, get?_eq]
  exact find?_setEntry isText (fun _ _ _ => isText_of_isText) (by simp) v es name

end Value

namespace Document

open Value (get?)

variable {name : String} {es : List (Value × Value)}

theorem get?_removeEntry (name other : String) (es : List (Value × Value)) :
    get? name (removeEntry other es) = if other = name then none else get? name es := by
  simp only [removeEntry, Value.sameKey_text]
  exact Value.get?_filter_text name other es

/-- An entry that is already there stays. -/
theorem get?_addEntry (name other : String) (v : Value) (es : List (Value × Value)) :
    get? name (addEntry other v es) = if other = name then (get? name es).or (some v) else get? name es := by
  rw [addEntry, hasEntry]
  split
  · rename_i there
    obtain ⟨w, stands⟩ := Option.isSome_iff_exists.mp there
    by_cases same : other = name
    · subst same
      simp [stands]
    · simp [same]
  · rename_i absent
    rw [Value.get?_put]
    by_cases same : other = name
    · subst same
      simp [Option.not_isSome_iff_eq_none.mp absent]
    · simp [same]

/-- An entry of an older name stands under its usual name, unless that is taken. -/
theorem get?_renameEntry_usual (older usual : String) (es : List (Value × Value)) :
    get? usual (renameEntry older usual es) = (get? usual es).or (get? older es) := by
  rw [renameEntry]
  cases stands : get? older es with
  | none => simp
  | some v =>
    by_cases taken : hasEntry usual es
    · obtain ⟨w, there⟩ := Option.isSome_iff_exists.mp taken
      simp [taken, there]
    · have free : get? usual es = none := Option.not_isSome_iff_eq_none.mp taken
      simp [taken, free, Value.get?_put]

theorem get?_renameEntry {older usual : String} (notOlder : older ≠ name) (notUsual : usual ≠ name)
    (es : List (Value × Value)) : get? name (renameEntry older usual es) = get? name es := by
  rw [renameEntry]
  split
  · split
    · rfl
    · rw [Value.get?_put, if_neg notUsual, get?_removeEntry, if_neg notOlder]
  · rfl

/-- The value of an entry, whichever of its spellings it is found under. -/
def Spelling.value? (s : Spelling) (es : List (Value × Value)) : Option Value := (s.find? es).map (·.2)

theorem Spelling.value?_eq (s : Spelling) (es : List (Value × Value)) :
    s.value? es = (get? s.preferred es).or (get? s.other es) := by
  rw [value?, find?]
  cases get? s.preferred es with
  | none => cases get? s.other es <;> rfl
  | some v => rfl

theorem Spelling.value?_single (name : String) (es : List (Value × Value)) :
    (Spelling.single name).value? es = get? name es :=
  ((Spelling.single name).value?_eq es).trans (Option.or_self ..)

/-! ## Fields -/

theorem get?_fieldSpellings_enumValues (es : List (Value × Value)) :
    get? "enumValues" (fieldSpellings es) = (get? "enumValues" es).or (get? "enum" es) := by
  rw [fieldSpellings, get?_renameEntry (by decide) (by decide), get?_renameEntry_usual]

theorem get?_fieldSpellings_default (es : List (Value × Value)) :
    get? "default" (fieldSpellings es) = (get? "default" es).or (get? "defaultValue" es) := by
  rw [fieldSpellings, get?_renameEntry_usual, get?_renameEntry (by decide) (by decide),
    get?_renameEntry (by decide) (by decide)]

/-- Entries that have no older name stay as they are. -/
theorem get?_fieldSpellings (other : name ∉ ["enum", "enumValues", "defaultValue", "default"])
    (es : List (Value × Value)) : get? name (fieldSpellings es) = get? name es := by
  simp only [List.mem_cons, List.not_mem_nil, or_false, not_or] at other
  obtain ⟨notEnum, notEnumValues, notDefaultValue, notDefault⟩ := other
  rw [fieldSpellings, get?_renameEntry (Ne.symm notDefaultValue) (Ne.symm notDefault),
    get?_renameEntry (Ne.symm notEnum) (Ne.symm notEnumValues)]

theorem Spelling.value?_fieldSpellings (other : name ∉ ["enum", "enumValues", "defaultValue", "default"])
    (es : List (Value × Value)) : (Spelling.single name).value? (fieldSpellings es) = get? name es := by
  rw [value?_single, get?_fieldSpellings other]

/-! ## Schemas -/

theorem flattenEntity_plain (plain : ∀ block, get? "entity" es ≠ some (.dict block)) : flattenEntity es = es := by
  rw [flattenEntity]
  split
  · rename_i block given
    exact absurd given (plain block)
  · rfl

section Block

variable {block : List (Value × Value)}

/-- The entries with one more from the block, unless there is one of its name. -/
def takeEntry (block es : List (Value × Value)) (name : String) : List (Value × Value) :=
  match get? name block with
  | some v => addEntry name v es
  | none => es

theorem get?_takeEntry (name other : String) (es : List (Value × Value)) : get? name (takeEntry block es other) =
    if other = name then (get? name es).or (get? name block) else get? name es := by
  rw [takeEntry]
  by_cases same : other = name
  · subst same
    cases get? other block <;> simp [get?_addEntry]
  · cases get? other block <;> simp [get?_addEntry, same]

theorem get?_foldl_takeEntry (name : String) (names : List String) (es : List (Value × Value)) :
    get? name (names.foldl (takeEntry block) es) =
      if name ∈ names then (get? name es).or (get? name block) else get? name es := by
  induction names generalizing es with
  | nil => simp
  | cons first names ih =>
    rw [List.foldl_cons, ih, get?_takeEntry]
    by_cases same : first = name
    · simp [same, Option.or_assoc]
    · simp [same, Ne.symm same]

variable (given : get? "entity" es = some (.dict block))
include given

theorem flattenEntity_block : flattenEntity es = ["primaryKey", "fields", "description"].foldl (takeEntry block)
    (addEntry "entityName" ((get? "name" block).getD .null) (removeEntry "entity" es)) := by
  rw [flattenEntity, given]
  rfl

/-- The name in the block counts even where the block has none. -/
theorem get?_flattenEntity_entityName :
    get? "entityName" (flattenEntity es) = (get? "entityName" es).or (some ((get? "name" block).getD .null)) := by
  rw [flattenEntity_block given, get?_foldl_takeEntry, if_neg (by decide), get?_addEntry, if_pos rfl, get?_removeEntry,
    if_neg (by decide)]

theorem get?_flattenEntity_block (taken : name ∈ ["primaryKey", "fields", "description"]) :
    get? name (flattenEntity es) = (get? name es).or (get? name block) := by
  have notName : "entityName" ≠ name := by rintro rfl; simp at taken
  have notEntity : "entity" ≠ name := by rintro rfl; simp at taken
  rw [flattenEntity_block given, get?_foldl_takeEntry, if_pos taken, get?_addEntry, if_neg notName, get?_removeEntry,
    if_neg notEntity]

end Block

theorem get?_flattenEntity (other : name ∉ ["entity", "entityName", "primaryKey", "fields", "description"])
    (es : List (Value × Value)) : get? name (flattenEntity es) = get? name es := by
  rw [List.mem_cons, List.mem_cons, not_or, not_or] at other
  obtain ⟨notEntity, notName, notTaken⟩ := other
  by_cases nested : ∃ block, get? "entity" es = some (.dict block)
  · obtain ⟨block, given⟩ := nested
    rw [flattenEntity_block given, get?_foldl_takeEntry, if_neg notTaken, get?_addEntry, if_neg (Ne.symm notName),
      get?_removeEntry, if_neg (Ne.symm notEntity)]
  · rw [flattenEntity_plain fun block given => nested ⟨block, given⟩]

/-- A version as it is read: whatever is no text is written out. -/
def asText (v : Value) : Value := if v.isNull then v else .text v.display

theorem get?_versionText_schemaVersion (es : List (Value × Value)) :
    get? "schemaVersion" (versionText es) = (get? "schemaVersion" es).map asText := by
  rw [versionText]
  split
  · rename_i given
    rw [given]
    rfl
  · rename_i absent
    rw [absent, Option.map_none]
  · rename_i v notNull given
    have notNull : v.isNull = false := by
      cases v with
      | null => exact absurd rfl notNull
      | _ => rfl
    rw [Value.get?_put, if_pos rfl, given, Option.map_some, asText, notNull, if_neg Bool.false_ne_true]

theorem get?_versionText (other : "schemaVersion" ≠ name) (es : List (Value × Value)) :
    get? name (versionText es) = get? name es := by
  rw [versionText]
  split
  · rfl
  · rfl
  · rw [Value.get?_put, if_neg other]

theorem Spelling.value?_versionText {s : Spelling} (other : "schemaVersion" ≠ s.preferred)
    (other' : "schemaVersion" ≠ s.other) (es : List (Value × Value)) : s.value? (versionText es) = s.value? es := by
  rw [value?_eq, value?_eq, get?_versionText other, get?_versionText other']

end Document

end Tablewright
