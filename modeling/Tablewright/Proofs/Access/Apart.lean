import Tablewright.Proofs.Access.Items
import Tablewright.Proofs.Schema.Identifiers

/-!
# Fields and backing attributes

An instance keeps the value of a field under a name that is made of its identifier.  That name may be the identifier
of another field, or belong to another field as well: an identifier starts with an underscore in both cases.

* `Entangled`: the pairs of identifiers that get in each other's way.
* `FieldsApart`: every field has a backing attribute for itself.
* `fieldsApart_iff`: when this is so, and what assignments do then.
-/

namespace Tablewright.Access

open Source (Param Program Frame Function Datum Library eval readName getAttribute setAttribute update runAll)

variable {L : Library} {p : Program} {enums : List EnumType} {r : Record} {e : Entity}

/-! ## Backing attributes -/

/-- The backing attributes of a record are different ones, and none of them is called like a field. -/
structure FieldsApart (r : Record) : Prop where
  backings : (r.fields.map fun f => backing f.identifier).Nodup
  apart : ∀ f ∈ r.fields, ∀ g ∈ r.fields, f.identifier ≠ backing g.identifier

/-- The field of the second identifier is where the first one has its backing attribute, or has the same. -/
def Entangled (i j : String) : Prop :=
  if i.toList.head? = some '_' then j = "_field" ++ i ∨ j = "field" ++ i else j = "_" ++ i

theorem entangled_backing (i : String) : Entangled i (backing i) := by
  unfold Entangled backing
  split
  · exact .inl rfl
  · rfl

theorem backing_of_entangled {i j : String} (entangled : Entangled i j) : j = backing i ∨ backing j = backing i := by
  unfold Entangled at entangled
  by_cases underscore : i.toList.head? = some '_'
  · rw [if_pos underscore] at entangled
    cases entangled with
    | inl behind => exact .inl (by rw [behind, backing, if_pos underscore])
    | inr shared =>
      right
      subst shared
      have word : ("field" ++ i).toList.head? ≠ some '_' := by simp
      rw [backing, backing, if_neg word, if_pos underscore, ← String.append_assoc]
      rfl
  · rw [if_neg underscore] at entangled
    exact .inl (by rw [entangled, backing, if_neg underscore])

/-- Different identifiers with the same backing attribute: one is the other one with a word in front. -/
theorem entangled_of_backing {i j : String} (same : backing i = backing j) : i = j ∨ Entangled i j ∨ Entangled j i := by
  have mixed : ∀ {i j : String}, i.toList.head? = some '_' → j.toList.head? ≠ some '_' → backing i = backing j →
      Entangled i j := by
    intro i j underscore plain same
    rw [backing, backing, if_pos underscore, if_neg plain] at same
    rw [Entangled, if_pos underscore]
    right
    have split : "_" ++ ("field" ++ i) = "_" ++ j := by
      rw [← same, ← String.append_assoc]
      rfl
    exact ((String.append_right_inj _).mp split).symm
  by_cases first : i.toList.head? = some '_' <;> by_cases second : j.toList.head? = some '_'
  · rw [backing, backing, if_pos first, if_pos second] at same
    exact .inl ((String.append_right_inj _).mp same)
  · exact .inr (.inl (mixed first second same))
  · exact .inr (.inr (mixed second first same.symm))
  · rw [backing, backing, if_neg first, if_neg second] at same
    exact .inl ((String.append_right_inj _).mp same)

theorem not_entangled_self (i : String) : ¬ Entangled i i := by
  have longer : ∀ word : String, word.toList ≠ [] → i ≠ word ++ i := by
    intro word some same
    have lengths := congrArg (fun s : String => s.toList.length) same
    simp only [String.toList_append, List.length_append] at lengths
    exact some (List.length_eq_zero_iff.mp (by omega))
  unfold Entangled
  split
  · exact fun entangled => entangled.elim (longer _ (by decide)) (longer _ (by decide))
  · exact longer _ (by decide)

theorem fieldsApart_iff_not_entangled (distinct : (r.fields.map (·.identifier)).Nodup) :
    FieldsApart r ↔ ∀ f ∈ r.fields, ∀ g ∈ r.fields, ¬ Entangled f.identifier g.identifier := by
  constructor
  · intro apart f inRecord g inRecord' entangled
    cases backing_of_entangled entangled with
    | inl behind => exact apart.apart g inRecord' f inRecord behind
    | inr shared =>
      obtain rfl := List.inj_on_of_nodup_map apart.backings inRecord' inRecord shared
      exact not_entangled_self _ entangled
  · intro free
    refine ⟨List.Nodup.map_on ?_ (List.Nodup.of_map _ distinct), ?_⟩
    · intro f inRecord g inRecord' same
      rcases entangled_of_backing same with same | entangled | entangled
      · exact List.inj_on_of_nodup_map distinct inRecord inRecord' same
      · exact absurd entangled (free f inRecord g inRecord')
      · exact absurd entangled (free g inRecord' f inRecord)
    · intro f inRecord g inRecord' same
      exact free g inRecord' f inRecord (same ▸ entangled_backing g.identifier)

/-! ## Assignments -/

/-- The assignment to the property of a field changes the value of this field and no other. -/
theorem Loads.setAttribute_field (loads : Loads p e) (member : r ∈ e.record :: e.nested) (usable : Usable r)
    {values : ResolvedField → Datum L} {x : Datum L} (holds : Holds [r.name] r values x) {f : ResolvedField}
    (inRecord : f ∈ r.fields) (v : Datum L) : ∃ y, setAttribute p x f.identifier v = pure y ∧
      Holds [r.name] r (fun g => if g.identifier = f.identifier then v else values g) y := by
  obtain ⟨attributes, rfl, -, -⟩ := id holds
  let scope : Frame L := ⟨(recordModule e.enums r).value.body, fun id =>
    [("self", .object [r.name] attributes), ("value", v)].lookup id⟩
  have self : scope.locals "self" = some (.object [r.name] attributes) := rfl
  have value : eval p scope (.name "value") = pure v := (Source.eval_name "value").trans (Source.readName_local rfl)
  have ran := (loads.backs member usable).run_setBacking self inRecord (.name "value")
  rw [value, pure_bind] at ran
  rw [← Source.runAll_single] at ran
  have updated : update p (recordCls e.enums r).home (setterOf f) (.object [r.name] attributes) [v] [] =
      pure (.object [r.name] (Datum.putAttribute attributes (backing f.identifier) v)) :=
    (Source.update_next _ rfl rfl rfl ran).trans (congrArg Source.Outcome.given (Frame.put_locals_self scope "self" _))
  refine ⟨_, ?_, holds.put usable.backings inRecord v⟩
  rw [Source.setAttribute_property (loads.class_record member) rfl (usable.member_field inRecord), updated]

/-- Assigning to a field of an instance changes what that field gives, and what no other field gives. -/
def AssignsApart (p : Program) (r : Record) : Prop :=
  ∀ (L : Library) (values : ResolvedField → Datum L) (x : Datum L), Holds [r.name] r values x → ∀ f ∈ r.fields, ∀ v,
    ∃ y, setAttribute p x f.identifier v = pure y ∧
      Holds [r.name] r (fun g => if g.identifier = f.identifier then v else values g) y ∧
      ∀ g ∈ r.fields, getAttribute p y g.identifier = pure (if g.identifier = f.identifier then v else values g)

theorem Loads.assignsApart (loads : Loads p e) (member : r ∈ e.record :: e.nested) (usable : Usable r) :
    AssignsApart p r := by
  intro L values x holds f inRecord v
  obtain ⟨y, set, changed⟩ := loads.setAttribute_field member usable holds inRecord v
  exact ⟨y, set, changed, fun g inRecord' => loads.getAttribute_field member usable changed inRecord'⟩

/-- Fields with different identifiers that come from their storage names have backing attributes for themselves if
and only if no two of these identifiers are entangled.  If so, then assignments keep to their field, unless an
identifier starts with two underscores, which have a meaning of their own in classes. -/
theorem fieldsApart_iff (distinct : (r.fields.map (·.identifier)).Nodup) (inferred : ∀ f ∈ r.fields, f.Inferred) :
    (FieldsApart r ↔ ∀ f ∈ r.fields, ∀ g ∈ r.fields, ¬ Entangled f.identifier g.identifier) ∧
    (FieldsApart r → (∀ f ∈ r.fields, ¬ "__".toList <+: f.identifier.toList) →
      ∀ p e, Loads p e → r ∈ e.record :: e.nested → AssignsApart p r) := by
  refine ⟨fieldsApart_iff_not_entangled distinct, fun apart plain p e loads member => ?_⟩
  have separate : Separate r := ⟨storageNames_nodup inferred distinct, apart.backings, apart.apart,
    fun f inRecord => (inferred f inRecord).unreserved, plain⟩
  exact loads.assignsApart member ⟨separate, distinct⟩

/-- In an article with a new number, the labels are what they were. -/
theorem shopArticle_assigns : ∃ e, (describe shopArticle).value = .ok e ∧ FieldsApart e.record ∧
    ∃ x y : Datum Library.plain, Source.call (entityProgram e) (.cls ["Article"]) [] [] = pure x ∧
      setAttribute (entityProgram e) x "sku" (.text "8") = pure y ∧
      getAttribute (entityProgram e) y "sku" = pure (.text "8") ∧
      getAttribute (entityProgram e) y "labels" = pure (.set [.text "new"]) := by
  obtain ⟨e, articles⟩ := shopArticle_described
  have inferred : ∀ f ∈ e.record.fields, f.Inferred := by
    rw [articles.fields]
    refine List.forall_mem_cons.mpr ⟨⟨rfl, ?_⟩, List.forall_mem_singleton.mpr ⟨rfl, ?_⟩⟩ <;> decide
  have free : ∀ f ∈ e.record.fields, ∀ g ∈ e.record.fields, ¬ Entangled f.identifier g.identifier := by
    simp [articles.fields, Entangled]
  have plain : ∀ f ∈ e.record.fields, ¬ "__".toList <+: f.identifier.toList := by
    rw [articles.fields]
    decide
  obtain ⟨static, running⟩ := fieldsApart_iff articles.usable.identifiers inferred
  have apart := static.mpr free
  obtain ⟨x, new, holds⟩ := articles.blank Library.plain_faithful
  have sku : (⟨skuField, "sku", .scalar .string⟩ : ResolvedField) ∈ e.record.fields := by simp [articles.fields]
  have assigns := running apart plain _ e articles.loads List.mem_cons_self
  obtain ⟨y, set, -, reads⟩ := assigns Library.plain _ x holds _ sku (.text "8")
  exact ⟨e, articles.described, apart, x, y, articles.name ▸ new, set, reads _ sku, reads _ articles.labels⟩

/-- A record with two fields, of which one is called like the other one with a word in front. -/
def blurredRecord : Record :=
  ⟨"Blurred", (mapFields "Blurred" [bareField "_x" "string", bareField "field_x" "string"]).1, none, .nested⟩

/-- These fields have different identifiers, which come from their storage names, but the same backing attribute. -/
theorem blurredRecord_shares : ¬ ∀ r : Record, (r.fields.map (·.identifier)).Nodup → (∀ f ∈ r.fields, f.Inferred) →
    FieldsApart r := by
  intro apart
  have fields : blurredRecord.fields = [⟨bareField "_x" "string", "_x", .scalar .string⟩,
      ⟨bareField "field_x" "string", "field_x", .scalar .string⟩] := by rfl
  have inferred : ∀ f ∈ blurredRecord.fields, f.Inferred := by
    rw [fields]
    refine List.forall_mem_cons.mpr ⟨⟨rfl, ?_⟩, List.forall_mem_singleton.mpr ⟨rfl, ?_⟩⟩ <;> decide
  have shared := (apart blurredRecord (by rw [fields]; decide) inferred).backings
  rw [fields] at shared
  exact absurd shared (by decide)

end Tablewright.Access
