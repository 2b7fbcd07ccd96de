import Tablewright.Proofs.Access.Client
import Tablewright.Proofs.Access.Keys
import Tablewright.Proofs.Access.Record
import Tablewright.Proofs.Access.Repository
import Tablewright.Proofs.Access.TableConfig
import Tablewright.Proofs.Access.Validator
import Tablewright.Proofs.Plan.Layout

/-!
# Names in planned files

Every syntax tree of a plan binds the names that it reads.  What a module imports is decided apart from
what it emits, so the plan also supplies, at the top level of the right files, whatever the hints,
conversions, defaults, checks and key parameters of its entities read.

* `EntitySupplied`: what the files of an entity supply to its fields and keys.
* `plan_namesBound`: the trees of a plan bind what they read.
-/

namespace Tablewright

open Access

/-- Every emitted tree binds the names that it reads. -/
theorem Emitted.namesBound {n : Namespace} {entities : List Entity} {table : Option Table} {s : SourceFile}
    (emitted : Emitted n entities table s) : ∀ tree ∈ s.tree, tree.NamesBound := by
  cases emitted with
  | entity => simpa using recordModule_namesBound _ _
  | nested => simpa using recordModule_namesBound _ _
  | enum => simpa using enumModule_namesBound _
  | keys => simpa using keysModule_namesBound _ _
  | validator => simpa using validatorModule_namesBound _
  | repository => simpa using repositoryModule_namesBound _ _
  | client => simpa using clientSource_namesBound
  | config => simpa using tableConfigModule_namesBound _ _
  | validationError => simpa using validationErrorSource_namesBound
  | package => simp

/-- The files of an entity supply what its fields and keys read: the modules of its records bind the names of
hints, conversions and defaults, the modules of its key helper and its repository those of key parameters,
and the module of its validator those of its checks. -/
structure EntitySupplied (n : Namespace) (table : Option Table) (sources : List SourceFile) (e : Entity) : Prop where
  record : ∃ tree, ⟨n.path.child (moduleFile e.name), .entity, some tree⟩ ∈ sources ∧
    RecordSupplied e.enums e.record tree
  nested : ∀ r ∈ e.nested, ∃ tree,
    ⟨(n.path.child nestedPackage).child (moduleFile r.name), .nested, some tree⟩ ∈ sources ∧
      RecordSupplied e.enums r tree
  keys : ∃ tree,
    ⟨(n.path.child keysPackage).child (moduleFile (keysClass e.name)), .keys, some tree⟩ ∈ sources ∧
      ∀ k ∈ e.keys, (componentHint k).Bound tree.env
  validator : ∃ tree,
    ⟨(n.path.child validatorsPackage).child (moduleFile (validatorClass e.name)), .validator, some tree⟩ ∈ sources ∧
      ValidatorSupplied e tree
  repository : ∀ t ∈ table, ∃ tree,
    ⟨(n.path.child repositoryPackage).child (moduleFile (repositoryClass e.name)), .repository, some tree⟩ ∈ sources ∧
      ∀ k ∈ repositoryKeys e t, (typeHint k.type).Bound tree.env

theorem entitySupplied {n : Namespace} {entities : List Entity} {table : Option Table} {e : Entity}
    (member : e ∈ entities) :
    EntitySupplied n table (Path.sortBy (·.path) (batchSources n entities table)) e := by
  refine ⟨?_, ?_, ?_, ?_, ?_⟩
  · exact ⟨_, mem_sources_iff.mpr (.entity member), recordModule_supplied e.enums e.record⟩
  · exact fun r nested => ⟨_, mem_sources_iff.mpr (.nested member nested), recordModule_supplied e.enums r⟩
  · exact ⟨_, mem_sources_iff.mpr (.keys member), (keysModule_scope e table).hints⟩
  · exact ⟨_, mem_sources_iff.mpr (.validator member), validatorModule_supplied e⟩
  · intro t given
    refine ⟨_, mem_sources_iff.mpr (.repository given member), fun k known => ?_⟩
    exact typeHint_bound ((repositoryModule_scope e t).hints k known)

/-- The trees of a plan bind every name that they read, and its files supply what the fields and the keys of
its entities read. -/
theorem plan_namesBound {o : Options} {n : Namespace} {schemas : List Schema} {table : Option Table}
    {files : List RenderedFile} (planned : (plan o n schemas table).result = .ok files) :
    ∃ entities sources, (describeBatch schemas table).result = .ok entities ∧
      (planSources n schemas table).result = .ok sources ∧ List.Forall₂ (SourceFile.Rendering o) sources files ∧
      (∀ s ∈ sources, ∀ tree ∈ s.tree, tree.NamesBound) ∧ ∀ e ∈ entities, EntitySupplied n table sources e := by
  obtain ⟨entities, described, rendered⟩ := plan_ok planned
  refine ⟨entities, _, describeBatch_ok.mpr described, planSources_ok.mpr ⟨entities, described, rfl⟩, rendered, ?_, ?_⟩
  · exact fun s member => (mem_sources_iff.mp member).namesBound
  · exact fun e member => entitySupplied member

theorem shopPlan_namesBound : ∃ files entities sources,
    (plan .unformatted shopNamespace [shopOrder] (some shopTable)).result = .ok files ∧
      (describeBatch [shopOrder] (some shopTable)).result = .ok entities ∧
      List.Forall₂ (SourceFile.Rendering .unformatted) sources files ∧
      (∀ s ∈ sources, ∀ tree ∈ s.tree, tree.NamesBound) ∧
      ∀ e ∈ entities, EntitySupplied shopNamespace (some shopTable) sources e := by
  obtain ⟨files, planned⟩ := shopPlan_ok
  obtain ⟨entities, sources, described, -, rendered, bound, supplied⟩ := plan_namesBound planned
  exact ⟨files, entities, sources, planned, described, rendered, bound, supplied⟩

end Tablewright
