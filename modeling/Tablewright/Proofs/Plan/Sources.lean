import Tablewright.Proofs.Files.Order
import Tablewright.Proofs.Plan.Outcome

/-!
# The sources of a plan

A plan before its files are printed.  Every file of a plan is the rendering of a source file: it has its
path and its kind, and its text is that of its syntax tree.

* `SourceFile`, `planSources`: files with their syntax trees, in the order of the plan.
* `plan_ok`: the files of a plan are the renderings of its sources.
* `Emitted`: what the sources of a batch are, one constructor for every kind of file.
-/

namespace Tablewright

/-- A file before it is printed; the file that makes a directory a package has no tree. -/
structure SourceFile where
  path : Path
  category : Category
  tree : Option Source.Module

namespace SourceFile

def code (s : SourceFile) : Except Source.PrintFault String :=
  match s.tree with
  | none => .ok ""
  | some m => m.print

/-- The source of a file of some kind and path that is made of some material. -/
def of : Category × Path × Material → SourceFile
  | (category, path, m) =>
    ⟨path, category, (category.emitter.module? m).bind fun made => made.value.toOption⟩

/-- A rendered file has the path and the kind of its source, and its text once that is laid out. -/
structure Rendering (o : Options) (s : SourceFile) (f : RenderedFile) : Prop where
  path : f.path = s.path
  category : f.category = s.category
  content : ∃ code, s.code = .ok code ∧ f.content = (finish o s.path code).value

end SourceFile

/-- The sources of the files of a batch, in the order in which they are made. -/
def batchSources (n : Namespace) (entities : List Entity) (table : Option Table) : List SourceFile :=
  (batchFiles n entities table).map SourceFile.of

/-- The sources of a plan, in the order of their paths. -/
def planSources (n : Namespace) (schemas : List Schema) (table : Option Table) :
    Attempt (List SourceFile) := do
  let entities ← describeBatch schemas table
  pure (Path.sortBy (·.path) (batchSources n entities table))

theorem renderFile_ok {o : Options} {category : Category} {path : Path} {m : Material} {f : RenderedFile}
    (rendered : (renderFile o category path m).result = .ok f) :
    (SourceFile.of (category, path, m)).Rendering o f := by
  unfold renderFile at rendered
  obtain ⟨made, source, finished⟩ := Attempt.result_bind_ok.mp rendered
  -- a category that lacks its material fails before anything is laid out
  cases made with
  | error lack =>
    obtain ⟨_, -, failed⟩ := Attempt.result_bind_ok.mp finished
    simp at failed
  | ok code =>
    obtain ⟨content, laidOut, same⟩ := Attempt.result_bind_ok.mp finished
    cases same
    refine ⟨rfl, rfl, code, ?_, (Except.ok.inj laidOut).symm⟩
    simp only [Attempt.result_ofNoted, Except.ok.injEq] at source
    unfold Emitter.source at source
    simp only [SourceFile.code, SourceFile.of]
    cases made : category.emitter.module? m with
    | none => simpa [made] using source
    | some tree =>
      rw [made] at source
      simp only [Noted.value_bind, Noted.value_pure] at source
      cases value : tree.value with
      | error lack => simp [value] at source
      | ok module =>
        simp only [value] at source
        cases printed : module.print with
        | error fault => simp [printed] at source
        | ok text => simp_all [Except.toOption]

/-- The files of a plan are the renderings of the sources of the described entities. -/
theorem plan_ok {o : Options} {n : Namespace} {schemas : List Schema} {table : Option Table}
    {files : List RenderedFile} (planned : (plan o n schemas table).result = .ok files) :
    ∃ entities, Described schemas table entities ∧
      List.Forall₂ (SourceFile.Rendering o)
        (Path.sortBy (·.path) (batchSources n entities table)) files := by
  unfold plan at planned
  obtain ⟨entities, described, planned⟩ := Attempt.result_bind_ok.mp planned
  refine ⟨entities, describeBatch_ok.mp described, ?_⟩
  -- without a table the plan says so before it makes any file
  have made : (((batchFiles n entities table).mapM fun (category, path, material) =>
      renderFile o category path material) >>= fun files => pure (Path.sortBy (·.path) files)
        : Attempt (List RenderedFile)).result = .ok files := by
    cases table with
    | none =>
      obtain ⟨_, -, made⟩ := Attempt.result_bind_ok.mp planned
      exact made
    | some t => exact planned
  obtain ⟨made, rendered, same⟩ := Attempt.result_bind_ok.mp made
  cases same
  refine Path.sortBy_forall₂ _ (fun _ _ rendering => rendering.path) ?_
  rw [batchSources, List.forall₂_map_left_iff]
  exact (Attempt.result_mapM_ok.mp rendered).imp fun _ _ => renderFile_ok

/-- Rendered files have the paths of their sources, in the same order. -/
theorem SourceFile.Rendering.paths {o : Options} {sources : List SourceFile} {files : List RenderedFile}
    (rendered : List.Forall₂ (SourceFile.Rendering o) sources files) :
    files.map (·.path) = sources.map (·.path) := by
  induction rendered with
  | nil => rfl
  | cons here there ih => rw [List.map_cons, List.map_cons, here.path, ih]

theorem planSources_ok {n : Namespace} {schemas : List Schema} {table : Option Table}
    {sources : List SourceFile} :
    (planSources n schemas table).result = .ok sources ↔
      ∃ entities, Described schemas table entities ∧
        sources = Path.sortBy (·.path) (batchSources n entities table) := by
  unfold planSources
  rw [Attempt.result_bind_ok]
  simp only [describeBatch_ok, Attempt.result_pure, Except.ok.injEq]
  exact exists_congr fun _ => and_congr_right fun _ => eq_comm

/-- A source of a plan is the source of one of the files of its batch. -/
theorem mem_sources {n : Namespace} {entities : List Entity} {table : Option Table} {s : SourceFile} :
    s ∈ Path.sortBy (·.path) (batchSources n entities table) ↔
      ∃ file ∈ batchFiles n entities table, SourceFile.of file = s := by
  rw [(Path.sortBy_perm _ _).mem_iff, batchSources, List.mem_map]

/-! ## What is emitted -/

/-- The sources of a batch, by what they are made from. -/
inductive Emitted (n : Namespace) (entities : List Entity) (table : Option Table) : SourceFile → Prop
  | entity {e : Entity} (member : e ∈ entities) : Emitted n entities table
      ⟨n.path.child (moduleFile e.name), .entity, some (Access.recordModule e.enums e.record).value⟩
  | nested {e : Entity} (member : e ∈ entities) {r : Record} (nested : r ∈ e.nested) : Emitted n entities table
      ⟨(n.path.child Access.nestedPackage).child (moduleFile r.name), .nested,
        some (Access.recordModule e.enums r).value⟩
  | enum {e : Entity} (member : e ∈ entities) {t : EnumType} (enum : t ∈ e.enums) : Emitted n entities table
      ⟨(n.path.child Access.nestedPackage).child (moduleFile t.name), .enum, some (Access.enumModule t)⟩
  | keys {e : Entity} (member : e ∈ entities) : Emitted n entities table
      ⟨(n.path.child Access.keysPackage).child (moduleFile (Access.keysClass e.name)), .keys,
        some (Access.keysModule e table).value⟩
  | validator {e : Entity} (member : e ∈ entities) : Emitted n entities table
      ⟨(n.path.child Access.validatorsPackage).child (moduleFile (Access.validatorClass e.name)), .validator,
        some (Access.validatorModule e).value⟩
  | repository {t : Table} (given : table = some t) {e : Entity} (member : e ∈ entities) : Emitted n entities table
      ⟨(n.path.child Access.repositoryPackage).child (moduleFile (Access.repositoryClass e.name)), .repository,
        some (Access.repositoryModule e t).value⟩
  | client {t : Table} (given : table = some t) : Emitted n entities table
      ⟨(n.path.child Access.clientPackage).child (Access.clientModule ++ ".py"), .client, some Access.clientSource⟩
  | config {t : Table} (given : table = some t) : Emitted n entities table
      ⟨(n.path.child Access.configPackage).child (Access.configModule ++ ".py"), .config,
        some (Access.tableConfigModule t entities).value⟩
  | validationError : Emitted n entities table
      ⟨(n.path.child Access.validatorsPackage).child (Access.validationErrorModule ++ ".py"), .validationError,
        some Access.validationErrorSource⟩
  | package {dir : Path} (needed : dir ∈ n.packages ++ [n.path] ++ (neededPackages entities table).map n.path.child) :
      Emitted n entities table ⟨dir.child packageFile, .package, none⟩

theorem emitted_of_mem_entityFiles {n : Namespace} {entities : List Entity} {table : Option Table} {e : Entity}
    (member : e ∈ entities) {file : Category × Path × Material} (inFiles : file ∈ entityFiles n.path table e) :
    Emitted n entities table (SourceFile.of file) := by
  simp only [entityFiles, List.mem_append, List.mem_cons, List.mem_map, List.not_mem_nil, or_false,
    Option.mem_toList] at inFiles
  rcases inFiles with (((rfl | ⟨r, nested, rfl⟩) | ⟨t, enum, rfl⟩) | rfl | rfl) | ⟨t, given, rfl⟩
  · exact .entity member
  · exact .nested member nested
  · exact .enum member enum
  · exact .keys member
  · exact .validator member
  · subst given
    exact .repository rfl member

theorem emitted_of_mem_batchFiles {n : Namespace} {entities : List Entity} {table : Option Table}
    {file : Category × Path × Material} (inBatch : file ∈ batchFiles n entities table) :
    Emitted n entities table (SourceFile.of file) := by
  simp only [batchFiles, List.mem_append, List.mem_flatMap, Option.mem_toList, List.mem_singleton] at inBatch
  rcases inBatch with ((⟨t, given, inFiles⟩ | ⟨e, member, inFiles⟩) | rfl) | inFiles
  · simp only [tableFiles, List.mem_cons, List.not_mem_nil, or_false] at inFiles
    rcases inFiles with rfl | rfl
    · exact .client given
    · subst given
      exact .config rfl
  · exact emitted_of_mem_entityFiles member inFiles
  · exact .validationError
  · obtain ⟨dir, needed, rfl⟩ := List.mem_map.mp inFiles
    exact .package needed

/-- Whatever is emitted is the source of a file of the batch. -/
theorem Emitted.exists_file {n : Namespace} {entities : List Entity} {table : Option Table} {s : SourceFile}
    (emitted : Emitted n entities table s) : ∃ file ∈ batchFiles n entities table, SourceFile.of file = s := by
  -- the files of entities stand before those of the table, and both before the rest
  have ofEntity : ∀ {e file}, e ∈ entities → file ∈ entityFiles n.path table e →
      file ∈ batchFiles n entities table := fun member inFiles =>
    List.mem_append_left _ (List.mem_append_left _ (List.mem_append_right _ (List.mem_flatMap.mpr ⟨_, member, inFiles⟩)))
  have ofTable : ∀ {t file}, table = some t → file ∈ tableFiles n.path entities t →
      file ∈ batchFiles n entities table := by
    rintro t file rfl inFiles
    exact List.mem_append_left _ (List.mem_append_left _ (List.mem_append_left _ (by simpa using inFiles)))
  cases emitted with
  | entity member =>
    exact ⟨_, ofEntity member (List.mem_append_left _ (List.mem_append_left _ (List.mem_append_left _
      (List.mem_append_left _ List.mem_cons_self)))), rfl⟩
  | nested member nested =>
    exact ⟨_, ofEntity member (List.mem_append_left _ (List.mem_append_left _ (List.mem_append_left _
      (List.mem_append_right _ (List.mem_map_of_mem nested))))), rfl⟩
  | enum member enum =>
    exact ⟨_, ofEntity member (List.mem_append_left _ (List.mem_append_left _ (List.mem_append_right _
      (List.mem_map_of_mem enum)))), rfl⟩
  | keys member =>
    exact ⟨_, ofEntity member (List.mem_append_left _ (List.mem_append_right _ List.mem_cons_self)), rfl⟩
  | validator member =>
    exact ⟨_, ofEntity member (List.mem_append_left _ (List.mem_append_right _
      (List.mem_cons_of_mem _ List.mem_cons_self))), rfl⟩
  | repository given member =>
    subst given
    exact ⟨_, ofEntity member (List.mem_append_right _ List.mem_cons_self), rfl⟩
  | client given => exact ⟨_, ofTable given List.mem_cons_self, rfl⟩
  | config given =>
    subst given
    exact ⟨_, ofTable rfl (List.mem_cons_of_mem _ List.mem_cons_self), rfl⟩
  | validationError =>
    exact ⟨_, List.mem_append_left _ (List.mem_append_right _ List.mem_cons_self), rfl⟩
  | package needed => exact ⟨_, List.mem_append_right _ (List.mem_map_of_mem needed), rfl⟩

/-- The sources of a plan are what its batch emits. -/
theorem mem_sources_iff {n : Namespace} {entities : List Entity} {table : Option Table} {s : SourceFile} :
    s ∈ Path.sortBy (·.path) (batchSources n entities table) ↔ Emitted n entities table s := by
  rw [mem_sources]
  constructor
  · rintro ⟨file, inBatch, rfl⟩
    exact emitted_of_mem_batchFiles inBatch
  · exact Emitted.exists_file

end Tablewright
