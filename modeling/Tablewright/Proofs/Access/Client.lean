import Tablewright.Access.Client
import Tablewright.Proofs.Source.Scoping

/-!
# Names in the connection

The module of the connection is the same for all tables; it binds every name that it reads.
-/

namespace Tablewright.Access

open Source (Expr Stmt Param Signature Module Env Keyword builtins noResult)

/-- The module of the connection binds every name that it reads. -/
theorem clientSource_namesBound : clientSource.NamesBound := by
  have optional : Expr.path "Optional" = .name "Optional" := rfl
  have dict : Expr.path "Dict" = .name "Dict" := rfl
  have sequence : Expr.path "Sequence" = .name "Sequence" := rfl
  have environ : Expr.path "os.environ" = .attr (.name "os") "environ" := rfl
  have resource : Expr.path "boto3.resource" = .attr (.name "boto3") "resource" := rfl
  have os : Source.firstPart "os" = "os" := rfl
  have boto3 : Source.firstPart "boto3" = "boto3" := rfl
  simp [Module.namesBound_iff, clientSource, environmentLookup, clientType, clientBuilder, buildMethod,
    constructClient, own, optionalText, readOnlyProperty, environmentSettings, builderAttributes,
    constructionToken, itemType, clientClass, Stmt.Bound, Stmt.ClassBound, Signature.bound_iff, Param.Bound,
    Expr.Bound, Expr.TargetBound, Keyword.value, Expr.generic, Expr.isNone, Expr.isNotNone, Expr.apply,
    Expr.method, Expr.text, Expr.none, Stmt.bind, Stmt.put, Param.plain, Param.required, noResult,
    Env.function, Env.all, Env.classBody, Source.localsAll, Stmt.locals, Source.globalsAll, Stmt.globals,
    builtins, Module.topLevel, Stmt.binds, optional, dict, sequence, environ, resource, os, boto3]

end Tablewright.Access
