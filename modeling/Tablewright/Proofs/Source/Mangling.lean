import Tablewright.Proofs.Source.Naming

/-!
# Private names

An identifier that starts with two underscores, and does not end in two, is private in every class that it stands in: it is
read there as another name, with the name of the class in front.  So a class that has such identifiers cannot be used
under them.

* `IsPrivate`: names that are private in classes.
* `Stmt.classIdentifiers`: the identifiers in the bodies of classes.
* `Module.Unmangled`: none of these is private.
-/

namespace Tablewright.Source

/-- Two underscores at the front, but not at the end. -/
def IsPrivate (name : String) : Prop := "__".toList <+: name.toList ∧ ¬ "__".toList <:+ name.toList

instance : DecidablePred IsPrivate := fun name => inferInstanceAs (Decidable (_ <+: name.toList ∧ ¬ _ <:+ _))

theorem not_isPrivate_of_head {name : String} (first : name.toList.head? ≠ some '_') : ¬ IsPrivate name := by
  rintro ⟨⟨rest, spelled⟩, -⟩
  rw [← spelled] at first
  exact first rfl

/-! ## Bodies of classes -/

mutual

/-- The identifiers in the bodies of the classes in a statement. -/
def Stmt.classIdentifiers : Stmt → List String
  | .classDef _ _ _ _ body => Stmt.identifiersAll body
  | .ifThen _ body | .forIn _ _ body | .loop _ body | .withBlock _ body | .function _ _ body =>
    Stmt.classIdentifiersAll body
  | .expr _ | .assign _ _ | .annotated _ _ _ | .increase _ _ | .result _ | .raise _ | .pass | .global _
  | .importModule _ | .importFrom _ _ => []

/-- The identifiers in the bodies of the classes in several statements. -/
def Stmt.classIdentifiersAll : List Stmt → List String
  | [] => []
  | s :: rest => s.classIdentifiers ++ Stmt.classIdentifiersAll rest

end

/-- No identifier in the body of a class is private. -/
def Module.Unmangled (m : Module) : Prop := ∀ name ∈ Stmt.classIdentifiersAll m.body, ¬ IsPrivate name

instance (m : Module) : Decidable m.Unmangled :=
  inferInstanceAs (Decidable (∀ name ∈ Stmt.classIdentifiersAll m.body, ¬ IsPrivate name))

mutual

/-- What stands in a class stands in the statement. -/
theorem Stmt.classIdentifiers_subset (s : Stmt) : s.classIdentifiers ⊆ s.identifiers := by
  cases s with
  | classDef _ _ _ _ body => exact List.subset_cons_of_subset _ (List.subset_append_right _ _)
  | forIn _ _ body =>
    exact List.subset_cons_of_subset _ (List.subset_append_of_subset_right _ (Stmt.classIdentifiersAll_subset body))
  | ifThen _ body | loop _ body | withBlock _ body | function _ _ body =>
    exact List.subset_append_of_subset_right _ (Stmt.classIdentifiersAll_subset body)
  | _ => exact List.nil_subset _

theorem Stmt.classIdentifiersAll_subset (body : List Stmt) :
    Stmt.classIdentifiersAll body ⊆ Stmt.identifiersAll body := by
  cases body with
  | nil => exact List.nil_subset _
  | cons s rest =>
    rw [Stmt.classIdentifiersAll, Stmt.identifiersAll]
    exact List.append_subset.mpr
      ⟨List.subset_append_of_subset_left _ (Stmt.classIdentifiers_subset s),
        List.subset_append_of_subset_right _ (Stmt.classIdentifiersAll_subset rest)⟩

end

theorem Stmt.classIdentifiersAll_eq (body : List Stmt) :
    Stmt.classIdentifiersAll body = body.flatMap Stmt.classIdentifiers := by
  induction body with
  | nil => rfl
  | cons s rest ih => rw [Stmt.classIdentifiersAll, ih, List.flatMap_cons]

/-- A module without private names has none in its classes. -/
theorem Module.NamedBy.unmangled {m : Module} (named : m.NamedBy fun name => ¬ IsPrivate name) : m.Unmangled :=
  fun name inClass => named name (Stmt.classIdentifiersAll_subset m.body inClass)

end Tablewright.Source
