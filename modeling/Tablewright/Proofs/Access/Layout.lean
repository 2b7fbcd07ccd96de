import Tablewright.Access.Layout
import Tablewright.Proofs.Source.Scoping

/-!
# Names in shared members

What the pieces of source read that several modules of a package share.
-/

namespace Tablewright.Access

open Source (Expr Stmt Param Env)

theorem itemType_bound {env : Env} (dict : "Dict" ∈ env.here) (any : "Any" ∈ env.here) : itemType.Bound env :=
  ⟨.inl dict, .inr (by decide), .inl any, trivial⟩

/-- The constructor of a class that is not to be instantiated reads builtins only. -/
theorem refusingConstructor_bound (names : List String) (className : String) :
    (refusingConstructor className).Bound (.all names) := by
  refine Stmt.function_bound ⟨by simp, by simp [Param.plain_bound], by simp, Source.noResult_bound⟩
    (by simp [Stmt.globals]) ?_
  intro inner inside
  exact List.forall_mem_singleton.mpr ⟨.inr (by decide), ⟨trivial, trivial⟩, trivial⟩

end Tablewright.Access
