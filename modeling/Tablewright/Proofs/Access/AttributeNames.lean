import Tablewright.Proofs.Access.Items

/-!
# Attribute names of records

The class of a record says in three places under which attribute a field is stored: a dictionary of the fields that are
renamed, the method that makes an item, and the method that reads one.

* `attributeNames`: the dictionary; `eval_attributeNames`: its entries are those of the renamed fields.
* `get?_renamed`: what it has for the identifier of a field.
* `Writes`, `Fetches`: a statement writes or reads a field under an attribute name.
* `attributeNames_agree`: the three places agree on every field.
-/

namespace Tablewright.Access

open Source (Expr Stmt Entry Program Frame Datum Library Outcome ClassDef eval readName getAttribute run runAll assign bindings)

variable {L : Library} {p : Program} {σ : Frame L} {enums : List EnumType} {r : Record}

/-! ## The dictionary -/

def attributeNames (r : Record) : Expr :=
  .dict ((renamedFields r).map fun f => .mk (Expr.text f.identifier) (Expr.text f.storageName))

def nameEntries (L : Library) (fields : List ResolvedField) : List (Datum L × Datum L) :=
  fields.map fun f => (.text f.identifier, .text f.storageName)

theorem evalEntries_names (fields : List ResolvedField) : Source.evalEntries p σ (fields.map fun f =>
    .mk (Expr.text f.identifier) (Expr.text f.storageName)) = pure (nameEntries L fields) := by
  induction fields with
  | nil => rw [List.map_nil, Source.evalEntries_nil]; rfl
  | cons f rest ih =>
    rw [List.map_cons, Source.evalEntries_cons, ih, Source.eval_text, Source.eval_text]
    rfl

theorem get?_nameEntries_none {fields : List ResolvedField} {name : String} (other : name ∉ fields.map (·.identifier)) :
    Datum.get? (nameEntries L fields) (.text name) = none := by
  rw [Datum.get?, Option.map_eq_none_iff, List.find?_eq_none]
  intro entry member
  obtain ⟨f, inFields, rfl⟩ := List.mem_map.mp member
  have different : f.identifier ≠ name := fun same => other (same ▸ List.mem_map_of_mem inFields)
  simpa [Datum.same_text, Datum.text?] using different

theorem get?_nameEntries {fields : List ResolvedField} (distinct : (fields.map (·.identifier)).Nodup) {f : ResolvedField}
    (member : f ∈ fields) : Datum.get? (nameEntries L fields) (.text f.identifier) = some (.text f.storageName) := by
  induction fields with
  | nil => cases member
  | cons first rest ih =>
    obtain ⟨fresh, distinct⟩ := List.nodup_cons.mp distinct
    rcases List.mem_cons.mp member with rfl | later
    · simp [nameEntries, Datum.get?, Datum.same_text, Datum.text?]
    · have other : first.identifier ≠ f.identifier := fun same =>
        fresh (List.mem_map.mpr ⟨f, later, same.symm⟩)
      have rest := ih distinct later
      rw [nameEntries, Datum.get?] at rest ⊢
      rw [List.map_cons, List.find?_cons_of_neg, rest]
      simpa [Datum.same_text, Datum.text?] using other

theorem nameEntries_append (first second : List ResolvedField) :
    nameEntries L (first ++ second) = nameEntries L first ++ nameEntries L second := List.map_append

/-- Entries of new identifiers go to the end. -/
theorem foldl_put_nameEntries (before : List ResolvedField) {fields : List ResolvedField}
    (distinct : ((before ++ fields).map (·.identifier)).Nodup) :
    (nameEntries L fields).foldl (fun acc entry => Datum.put acc entry.1 entry.2) (nameEntries L before) =
      nameEntries L (before ++ fields) := by
  induction fields generalizing before with
  | nil => rw [List.append_nil]; rfl
  | cons f rest ih =>
    have fresh : f.identifier ∉ before.map (·.identifier) := by
      rw [List.map_append, List.map_cons, List.nodup_middle, List.nodup_cons, List.mem_append, not_or] at distinct
      exact distinct.1.1
    have absent : (nameEntries L before).any (·.1.same (.text f.identifier)) = false := by
      have nothing := @get?_nameEntries_none L before f.identifier fresh
      rw [Datum.get?, Option.map_eq_none_iff, List.find?_eq_none] at nothing
      simpa using nothing
    have one : Datum.put (nameEntries L before) (.text f.identifier) (.text f.storageName) =
        nameEntries L (before ++ [f]) := by
      rw [Datum.put, if_neg (by simp [absent]), nameEntries_append]
      rfl
    have split : before ++ f :: rest = before ++ [f] ++ rest := by simp
    rw [split] at distinct ⊢
    rw [← ih _ distinct, ← one]
    rfl

/-- Different identifiers stay entries of their own, in their order. -/
theorem dictOf?_nameEntries {fields : List ResolvedField} (distinct : (fields.map (·.identifier)).Nodup) :
    Datum.dictOf? (nameEntries L fields) = some (.dict (nameEntries L fields)) := by
  have scalars : (nameEntries L fields).all (·.1.isScalar) := by
    simp [nameEntries, Datum.isScalar]
  rw [Datum.dictOf?, if_pos scalars]
  exact congrArg (fun entries => some (Datum.dict entries)) (foldl_put_nameEntries [] distinct)

theorem renamed_nodup (distinct : (r.fields.map (·.identifier)).Nodup) :
    ((renamedFields r).map (·.identifier)).Nodup :=
  distinct.sublist (List.filter_sublist.map _)

/-- The dictionary has one entry for every renamed field, in the order of the fields. -/
theorem eval_attributeNames (distinct : (r.fields.map (·.identifier)).Nodup) :
    eval p σ (attributeNames r) = pure (.dict (nameEntries L (renamedFields r))) := by
  rw [attributeNames, Source.eval_dict, evalEntries_names, pure_bind, dictOf?_nameEntries (renamed_nodup distinct),
    Outcome.given_some]

/-- The identifier of a field leads to its storage name: by its entry, or by itself where it has none. -/
theorem get?_renamed (distinct : (r.fields.map (·.identifier)).Nodup) {f : ResolvedField} (inRecord : f ∈ r.fields) :
    (Datum.get? (nameEntries L (renamedFields r)) (.text f.identifier)).getD (.text f.identifier) = .text f.storageName := by
  by_cases renamed : f.isRenamed
  · rw [get?_nameEntries (renamed_nodup distinct) (List.mem_filter.mpr ⟨inRecord, renamed⟩), Option.getD_some]
  · -- an entry of this identifier would belong to the field itself
    have same : f.identifier = f.storageName := by simpa [ResolvedField.isRenamed] using renamed
    rw [get?_nameEntries_none, Option.getD_none, same]
    intro taken
    obtain ⟨g, member, sameName⟩ := List.mem_map.mp taken
    obtain ⟨inRecord', otherRenamed⟩ := List.mem_filter.mp member
    obtain rfl := List.inj_on_of_nodup_map distinct inRecord' inRecord sameName
    exact renamed otherRenamed

/-! ## The class -/

/-- Among the constants of the class the dictionary is the only one of its name. -/
theorem bindings_attributeNames (r : Record) :
    bindings "ATTRIBUTE_NAMES" (classConstants r) = [Stmt.bind "ATTRIBUTE_NAMES" (attributeNames r)] := by
  have last : bindings "ATTRIBUTE_NAMES" [Stmt.bind "ATTRIBUTE_NAMES" (attributeNames r)] =
      [Stmt.bind "ATTRIBUTE_NAMES" (attributeNames r)] := rfl
  rw [classConstants, Source.bindings_append, ← attributeNames, last, List.append_left_eq_self]
  refine Source.bindings_eq_nil fun s member => ?_
  cases role : r.role with
  | nested => simp [role] at member
  | entity partitionKey sortKey =>
    simp only [role, List.mem_cons, Option.mem_toList, Option.map_eq_some_iff] at member
    rcases member with rfl | ⟨key, -, rfl⟩ <;> simp [Stmt.bind, Stmt.binds]

/-- The class gives the dictionary, unless a field is called so. -/
theorem member_attributeNames (free : "ATTRIBUTE_NAMES" ∉ r.fields.map (·.identifier)) :
    (recordCls enums r).member? "ATTRIBUTE_NAMES" = some (.constant (attributeNames r)) := by
  refine (ClassDef.member?_one (s := Stmt.bind "ATTRIBUTE_NAMES" (attributeNames r)) ?_).trans rfl
  have rest : bindings "ATTRIBUTE_NAMES" ((constructor enums r).value :: (r.fields.flatMap (property r)
      ++ [classMethod "builder" [] (builderName r) [.result (Expr.method (.name "cls") "Builder" [])],
        toItem r, fromItem r, equality r, hash r, shown r, builderClass r])) = [] := by
    rw [← List.singleton_append, Source.bindings_append, Source.bindings_append, bindings_properties_none free,
      constructor_value]
    rfl
  rw [recordCls, recordBody, Source.bindings_append, bindings_attributeNames, rest, List.append_nil]

theorem getAttribute_attributeNames (emitted : p.module? r.name = some (recordModule enums r).value)
    (distinct : (r.fields.map (·.identifier)).Nodup) (free : "ATTRIBUTE_NAMES" ∉ r.fields.map (·.identifier)) :
    getAttribute p (.cls [r.name]) "ATTRIBUTE_NAMES" = pure (.dict (nameEntries L (renamedFields r))) := by
  have noEnum : (recordCls enums r).isEnum = false := rfl
  rw [Source.getAttribute, class_recordCls emitted]
  simp only [noEnum, Bool.false_eq_true, if_false, member_attributeNames free]
  exact eval_attributeNames distinct

/-! ## Items -/

/-- A statement stores the value of a field, where it is to be stored, under one attribute name of the item. -/
def Writes (p : Program) (f : ResolvedField) (key : String) (s : Stmt) : Prop :=
  ∀ {L : Library} (σ : Frame L) (item : List (Datum L × Datum L)), run p (σ.put "item" (.dict item)) s = (do
    let held ← eval p (σ.put "item" (.dict item)) (storedTest f)
    if held.truth then do
      let stored ← eval p (σ.put "item" (.dict item)) (toStorage 0 f.type (backingOf "self" f))
      pure (.next (σ.put "item" (.dict (Datum.put item (.text key) stored))))
    else pure (.next (σ.put "item" (.dict item))))

/-- A statement reads the value of a field, where the item has one, from one attribute name of the item. -/
def Fetches (p : Program) (f : ResolvedField) (key : String) (s : Stmt) : Prop :=
  ∀ {L : Library} (σ : Frame L) (item : List (Datum L × Datum L)), readName p σ "item" = pure (.dict item) →
    run p σ s = match Datum.get? item (.text key) with
      | none | some .none => pure (.next σ)
      | some _ => do
        let value ← eval p σ (fromStorage 0 f.type (.subscript (.name "item") (Expr.text key)))
        assign p σ (backingOf "entity" f) value

theorem writes_storageName (p : Program) (f : ResolvedField) : Writes p f f.storageName (writeEntry f) := by
  intro L σ item
  rw [writeEntry, Source.run_ifThen]
  refine bind_congr fun held => ?_
  rw [Source.runAll_single, Source.run_put (Frame.put_locals_self ..)]
  simp only [Frame.put_put]

def readEntry (f : ResolvedField) : Stmt :=
  .ifThen (Expr.isNotNone (Expr.method (.name "item") "get" [Expr.text f.storageName]))
    [setBacking "entity" f (fromStorage 0 f.type (.subscript (.name "item") (Expr.text f.storageName)))]

theorem fetches_storageName (p : Program) (f : ResolvedField) : Fetches p f f.storageName (readEntry f) := by
  intro L σ item known
  rw [readEntry, Source.run_ifThen, Source.eval_isNotNone, Source.eval_get known, pure_bind, pure_bind,
    Source.runAll_single, setBacking, Source.run_assign]
  cases Datum.get? item (.text f.storageName) with
  | none => simp [Datum.isNone, Datum.truth]
  | some d => cases d <;> simp [Datum.isNone, Datum.truth]

/-- In the class of a record whose fields have different identifiers, the dictionary has one entry for every renamed field,
in the order of the fields, and no other.  What it has for the identifier of a field, or else the identifier itself, is
the attribute name under which the method for items stores the field, and from which the one that reads items reads
it. -/
theorem attributeNames_agree (L : Library) (emitted : p.module? r.name = some (recordModule enums r).value)
    (distinct : (r.fields.map (·.identifier)).Nodup) : ∃ (names : Expr) (toItem fromItem : Source.Function),
    let entries := (r.fields.filter fun f => f.identifier != f.storageName).map fun f =>
      ((.text f.identifier, .text f.storageName) : Datum L × Datum L)
    p.class? [r.name] = some (recordCls enums r) ∧
    (bindings "ATTRIBUTE_NAMES" (recordCls enums r).body).head? = some (Stmt.bind "ATTRIBUTE_NAMES" names) ∧
    (∀ σ : Frame L, eval p σ names = pure (.dict entries)) ∧
    ("ATTRIBUTE_NAMES" ∉ r.fields.map (·.identifier) →
      getAttribute p (.cls [r.name]) "ATTRIBUTE_NAMES" = pure (.dict entries)) ∧
    (recordCls enums r).member? "to_item" = some (.method toItem) ∧ toItem.body.length = r.fields.length + 2 ∧
    (recordCls enums r).member? "from_item" = some (.classMethod fromItem) ∧ fromItem.body.length = r.fields.length + 2 ∧
    ∀ i f, r.fields[i]? = some f →
      (∃ write, toItem.body[i + 1]? = some write ∧ Writes p f f.storageName write) ∧
      (∃ read, fromItem.body[i + 1]? = some read ∧ Fetches p f f.storageName read) ∧
      ∀ σ : Frame L, eval p σ (Expr.method names "get" [Expr.text f.identifier, Expr.text f.identifier]) =
        pure (.text f.storageName) := by
  refine ⟨attributeNames r, toItemFunction r, fromItemFunction r, class_recordCls emitted, ?_,
    fun σ => eval_attributeNames distinct, getAttribute_attributeNames emitted distinct, member_toItem enums r,
    by simp [toItemFunction], member_fromItem enums r, by simp [fromItemFunction], fun i f place => ⟨?_, ?_, fun σ => ?_⟩⟩
  · rw [recordCls, recordBody, Source.bindings_append, bindings_attributeNames]
    rfl
  · refine ⟨writeEntry f, ?_, writes_storageName p f⟩
    have body : (toItemFunction r).body = .annotated "item" itemType (some (.dict []))
        :: (r.fields.map writeEntry ++ [.result (.name "item")]) := rfl
    rw [body, List.getElem?_cons_succ, List.getElem?_append_left, List.getElem?_map, place, Option.map_some]
    simpa using (List.getElem?_eq_some_iff.mp place).1
  · refine ⟨readEntry f, ?_, fetches_storageName p f⟩
    have body : (fromItemFunction r).body = Stmt.bind "entity" (Expr.apply "cls" [])
        :: (r.fields.map readEntry ++ [.result (.name "entity")]) := rfl
    rw [body, List.getElem?_cons_succ, List.getElem?_append_left, List.getElem?_map, place, Option.map_some]
    simpa using (List.getElem?_eq_some_iff.mp place).1
  · have arguments : Source.evalAll p σ [Expr.text f.identifier, Expr.text f.identifier] =
        pure [.text f.identifier, .text f.identifier] := by
      simp
    rw [Source.eval_method_all (eval_attributeNames distinct) arguments, Source.send_method (by simp [Datum.methods]),
      Source.callMethod, if_pos (by simp [Datum.isScalar]), get?_renamed distinct (List.mem_of_getElem? place)]

/-- A record of three fields, two of which are called like the storage name of the other one. -/
def crossedRecord : Record :=
  { name := "Crossed"
    fields := [⟨{ bareField "left" "string" with nameOverride := some "right" }, "right", .scalar .string⟩,
      ⟨{ bareField "right" "string" with nameOverride := some "left" }, "left", .scalar .string⟩,
      ⟨bareField "sku" "string", "sku", .scalar .string⟩]
    description := none
    role := .nested }

/-- The two crossed fields have entries, and the third one none. -/
theorem crossedRecord_agrees : (crossedRecord.fields.map (·.identifier)).Nodup ∧ ∃ names : Expr,
    (bindings "ATTRIBUTE_NAMES" (recordCls [] crossedRecord).body).head? = some (Stmt.bind "ATTRIBUTE_NAMES" names) ∧
    ∀ σ : Frame Library.plain, eval ⟨fun _ => some (recordModule [] crossedRecord).value⟩ σ names =
      pure (.dict [(.text "right", .text "left"), (.text "left", .text "right")]) := by
  have distinct : (crossedRecord.fields.map (·.identifier)).Nodup := by decide
  let p : Program := ⟨fun _ => some (recordModule [] crossedRecord).value⟩
  have stored : p.module? crossedRecord.name = some (recordModule [] crossedRecord).value := rfl
  obtain ⟨names, -, -, -, emitted, evaluates, -⟩ := attributeNames_agree Library.plain stored distinct
  exact ⟨distinct, names, emitted, fun σ => (evaluates σ).trans rfl⟩

end Tablewright.Access
