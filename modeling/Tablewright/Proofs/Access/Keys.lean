import Tablewright.Access.Keys
import Tablewright.Proofs.Access.Layout

/-!
# Names in key helpers

The module of a key helper binds every name that it reads; `Decimal` is imported exactly where a key
component is a number.
-/

namespace Tablewright.Access

open Source (Expr Stmt Param Signature Module Env Entry builtins noResult)

variable {names : List String}

theorem componentHint_bound {env : Env} {k : KeyAttribute} (any : "Any" ∈ env.here)
    (number : k.type = .scalar .number → "Decimal" ∈ env.here) : (componentHint k).Bound env := by
  unfold componentHint
  split
  · exact .inl (number ‹_›)
  · exact .inr (by decide)
  · exact .inr (by decide)
  · exact .inr (by decide)
  · exact .inl any

/-- The names that a key helper reads from its module. -/
structure KeysScope (e : Entity) (names : List String) : Prop where
  any : "Any" ∈ names
  dict : "Dict" ∈ names
  hints : ∀ k ∈ e.keys, (componentHint k).Bound (.all names)
  itself : keysClass e.name ∈ names

theorem KeysScope.keyFunction_bound {e : Entity} (scope : KeysScope e names) :
    (keyFunction e).Bound (.all names) := by
  refine Stmt.function_bound ⟨?_, ?_, by simp, ?_⟩ (by simp [Stmt.globals]) ?_
  · simp [Expr.Bound, builtins]
  · exact List.forall_mem_map.mpr fun k member => Param.required_bound (scope.hints k member)
  · simpa using itemType_bound scope.dict scope.any
  · intro inner inside
    have itself : keysClass e.name ∈ inner := inside.outer scope.itself
    have component : ∀ k ∈ e.keys, k.identifier ∈ inner :=
      fun k member => inside.params _ (List.mem_map_of_mem member)
    refine List.forall_mem_singleton.mpr (Entry.allBound_iff.mpr (List.forall_mem_cons.mpr ⟨?_, ?_⟩))
    · exact ⟨.inl itself, .inl (component _ List.mem_cons_self)⟩
    · intro entry member
      obtain ⟨k, given, rfl⟩ := Option.map_eq_some_iff.mp (Option.mem_toList.mp member)
      exact ⟨.inl itself, .inl (component k (List.mem_cons_of_mem _ (Option.mem_toList.mpr given)))⟩

section

variable (e : Entity) (table : Option Table)

theorem keysModule_body : (keysModule e table).value.body =
    (if e.keys.any (·.type == .scalar .number) then [.importFrom "decimal" ["Decimal"]] else [])
      ++ [.importFrom "typing" ["Any", "Dict"], keysHelper e table] := rfl

theorem keysModule_scope : KeysScope e (keysModule e table).value.topLevel := by
  have bound : ∀ {name}, name = "Any" ∨ name = "Dict" ∨ name = keysClass e.name →
      name ∈ (keysModule e table).value.topLevel := by
    intro name given
    rw [Module.topLevel, keysModule_body, List.flatMap_append]
    refine List.mem_append_right _ ?_
    simpa [Stmt.binds, keysHelper, or_assoc] using given
  refine ⟨bound (.inl rfl), bound (.inr (.inl rfl)), ?_, bound (.inr (.inr rfl))⟩
  intro k member
  refine componentHint_bound (bound (.inl rfl)) fun number => ?_
  have compared : e.keys.any (·.type == .scalar .number) := List.any_eq_true.mpr ⟨k, member, by simp [number]⟩
  show "Decimal" ∈ (keysModule e table).value.topLevel
  rw [Module.topLevel, keysModule_body, if_pos compared]
  exact List.mem_cons_self

/-- The module of a key helper binds every name that it reads. -/
theorem keysModule_namesBound : (keysModule e table).value.NamesBound := by
  have scope := keysModule_scope e table
  rw [Module.namesBound_iff, keysModule_body]
  refine List.forall_mem_append.mpr ⟨?_, ?_⟩
  · split <;> simp [Stmt.Bound]
  · refine List.forall_mem_cons.mpr ⟨trivial, List.forall_mem_singleton.mpr ⟨by simp, by simp, ?_⟩⟩
    refine Stmt.classBound_of_forall ?_
    simp only [List.forall_mem_append, List.forall_mem_cons]
    refine ⟨⟨⟨⟨trivial, trivial⟩, ?_⟩, ?_⟩, refusingConstructor_bound _ _, scope.keyFunction_bound, by simp⟩
    · intro s member
      obtain ⟨k, -, rfl⟩ := Option.map_eq_some_iff.mp (Option.mem_toList.mp member)
      exact ⟨trivial, trivial⟩
    · exact List.forall_mem_map.mpr fun i _ => ⟨trivial, trivial⟩

end

end Tablewright.Access
