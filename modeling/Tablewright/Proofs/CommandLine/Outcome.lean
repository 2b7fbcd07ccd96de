import Tablewright.CommandLine.Basic
import Tablewright.Proofs.Plan.Runs

/-!
# Outcomes of the command line

A run of the program finds everything it needs before it writes the first file, or it leaves all files as they are.  This holds
for every tree of files, also for one in which a file is in the way of a directory.

* `Written`: a tree once files have been written into a directory; `writeFile_written` is the step for one file, and
  `writeFiles_written` goes through all of them.
* `Loaded`, `Prepared`: the documents that settings name, and the files that arguments ask for.
* `run_outcome`: the exit code and the files of a run.
-/

namespace Tablewright

/-! ## Writing files -/

/-- What holds once files have been written into the directory `out`: each stands at its place, where no directory has been,
and elsewhere there are at most more directories, on the way to a file. -/
structure Written (t : Tree) (out : Path) (files : List RenderedFile) (t' : Tree) : Prop where
  workingDirectory : t'.workingDirectory = t.workingDirectory
  stands : ∀ f ∈ files, t'.node? (t.place (out.below f.path)) = some (.file f.content.toUTF8)
  free : ∀ f ∈ files, t.node? (t.place (out.below f.path)) ≠ some .directory
  elsewhere : ∀ q, (∀ f ∈ files, q ≠ t.place (out.below f.path)) → t'.node? q = t.node? q ∨
    (∃ f ∈ files, t.OnWay (out.below f.path).parent q) ∧ t.node? q = none ∧ t'.node? q = some .directory

variable {t t' : Tree} {out : Path} {files : List RenderedFile}

namespace Written

theorem place (written : Written t out files t') (p : Path) : t'.place p = t.place p := by
  rw [Tree.place, written.workingDirectory, Tree.place]

/-- What has been there elsewhere stays, whether it is a file or a directory. -/
theorem keeps (written : Written t out files t') {q : Path} (other : ∀ f ∈ files, q ≠ t.place (out.below f.path))
    {node : Node} (there : t.node? q = some node) : t'.node? q = some node := by
  rcases written.elsewhere q other with same | ⟨-, absent, -⟩
  · exact same.trans there
  · rw [there] at absent
    cases absent

/-- Files that are written after others, at places of their own. -/
theorem append (first : Written t out files t') {more : List RenderedFile} {t'' : Tree}
    (second : Written t' out more t'')
    (apart : ∀ f ∈ files, ∀ g ∈ more, t.place (out.below f.path) ≠ t.place (out.below g.path)) :
    Written t out (files ++ more) t'' := by
  refine ⟨second.workingDirectory.trans first.workingDirectory, ?_, ?_, fun q other => ?_⟩
  · refine List.forall_mem_append.mpr ⟨fun f member => ?_, fun g member => first.place _ ▸ second.stands g member⟩
    refine second.keeps (fun g inMore => ?_) (first.stands f member)
    rw [first.place]
    exact apart f member g inMore
  · refine List.forall_mem_append.mpr ⟨first.free, fun g member directory => second.free g member ?_⟩
    rw [first.place]
    exact first.keeps (fun f inFiles => (apart f inFiles g member).symm) directory
  · obtain ⟨notFirst, notSecond⟩ := List.forall_mem_append.mp other
    rcases second.elsewhere q fun g member => first.place _ ▸ notSecond g member
      with same | ⟨⟨g, member, way⟩, absent, made⟩
    · refine (first.elsewhere q notFirst).imp same.trans fun ⟨⟨f, member, way⟩, absent, made⟩ => ?_
      exact ⟨⟨f, List.mem_append_left _ member, way⟩, absent, same.trans made⟩
    · obtain ⟨taken, within, rfl⟩ := way
      refine .inr ⟨⟨g, List.mem_append_right _ member, taken, within, first.place _⟩, ?_, made⟩
      by_contra there
      obtain ⟨node, there⟩ := Option.ne_none_iff_exists'.mp there
      rw [first.keeps notFirst there] at absent
      cases absent

end Written

/-- A file that is written, on whichever path, comes with directories on the way there and changes nothing else. -/
theorem writeFile_written {f : RenderedFile} (written : writeFile out t f = (t', none)) : Written t out [f] t' := by
  have grown := t.makeDirectories_grown (out.below f.path).parent
  rw [writeFile] at written
  split at written
  · cases written
  · rename_i t₁ made
    rw [made] at grown
    split at written
    · rename_i t₂ put
      obtain ⟨free, rfl⟩ := Tree.write_put put
      obtain ⟨rfl, -⟩ := Prod.mk.inj written
      rw [grown.place] at free ⊢
      refine ⟨(Tree.workingDirectory_put _ _ _).trans grown.workingDirectory, ?_, ?_, fun q other => ?_⟩
      · refine List.forall_mem_singleton.mpr ?_
        rw [Tree.node?_put _ free, if_pos rfl]
      · exact List.forall_mem_singleton.mpr fun directory => free (grown.keepsDirectories _ directory)
      · rw [Tree.node?_put _ free, if_neg (other f List.mem_cons_self)]
        exact (grown.node q).imp_right fun made => ⟨⟨f, List.mem_cons_self, made.1⟩, made.2⟩
    · cases written

/-- Files with places of their own that are written one after the other. -/
theorem writeFiles_written (distinct : (files.map fun f => t.place (out.below f.path)).Nodup)
    (written : (writeFiles out t files).value = (t', none)) : Written t out files t' := by
  induction files generalizing t with
  | nil =>
    obtain ⟨rfl, -⟩ := Prod.mk.inj written
    exact ⟨rfl, by simp, by simp, fun q _ => .inl rfl⟩
  | cons f rest ih =>
    rw [List.map_cons, List.nodup_cons] at distinct
    rw [writeFiles] at written
    split at written
    · cases written
    · rename_i t₁ first
      have here := writeFile_written first
      refine here.append (ih ?_ written) (List.forall_mem_singleton.mpr fun g member same => ?_)
      · simpa only [here.place] using distinct.2
      · exact distinct.1 (List.mem_map.mpr ⟨g, member, same.symm⟩)

/-- A batch that is planned has a place of its own for every file. -/
theorem Job.places_nodup {j : Job} (planned : j.planned = .ok files) (t : Tree) (out : Path) :
    (files.map fun f => t.place (out.below f.path)).Nodup := by
  obtain ⟨n, laidOut⟩ := Job.planned_ok planned
  have down : ∀ p ∈ files.map (·.path), t.place (out.below p) = (t.place out).below (.ofNames p.names) := by
    intro p member
    obtain ⟨dirs, file, names, undotted, -, proper⟩ := laidOut.leadsToModule member
    have down : ∀ name ∈ p.names, name ≠ ".." := by
      rw [names]
      exact List.forall_mem_append.mpr ⟨fun dir member => undotted_ne_up (undotted dir member),
        List.forall_mem_singleton.mpr proper⟩
    exact (congrArg (fun p => t.place (out.below p)) (laidOut.placed p member).eq_ofNames).trans (t.place_below out down)
  have distinct : ((files.map (·.path)).map fun p => t.place (out.below p)).Nodup := by
    refine laidOut.distinct.map_on fun p inP q inQ same => ?_
    rw [down p inP, down q inQ, Path.below_ofNames_inj] at same
    rw [(laidOut.placed p inP).eq_ofNames, (laidOut.placed q inQ).eq_ofNames, same]
  rwa [List.map_map] at distinct

namespace CommandLine

/-! ## What a run needs -/

/-- The documents that settings name: the schemas in order, and the table if a text is given for one. -/
structure Loaded (s : Settings) (t : Tree) (schemas : List Schema) (table : Option Table) : Prop where
  ofSchemas : List.Forall₂ (fun given schema => (Document.loadSchema t (.ofText given)).run.value = .ok schema)
    s.schemas schemas
  ofTable : List.Forall₂ (fun given found => (Document.loadTable t (.ofText given)).run.value = .ok found)
    (s.tableMetadata.filter (· ≠ "")).toList table.toList

/-- The job of settings with the documents that they name. -/
def job (s : Settings) (schemas : List Schema) (table : Option Table) : Job :=
  ⟨⟨s.formatCode, s.lineLength⟩, s.namespaceText, schemas, table⟩

/-- Settings that arguments lead to, and the files that are planned for everything that they name. -/
structure Prepared (a : Arguments) (t : Tree) (s : Settings) (files : List RenderedFile) : Prop where
  configured : (configure a t).run.value = .ok s
  planned : ∃ schemas table, Loaded s t schemas table ∧ (job s schemas table).planned = .ok files

variable {s : Settings}

/-- The output directory of a run is where the one that it has been told leads. -/
theorem configure_resolved {a : Arguments} (configured : (configure a t).run.value = .ok s) :
    ∃ directory : String, s.outputDir = (t.place (.ofText directory)).text := by
  have loaded : (Settings.load t a.config a.settings).run.value = .ok s := by
    rw [← configured, configure]
    cases a.verbose <;> rfl
  have accepted : ∀ v : Value, (do
      Run.tell .settingsValidating
      let s ← Settings.check v
      let outputDir ← Run.ofExcept (Settings.resolved t s.outputDir)
      Run.tell .settingsAccepted
      pure { s with outputDir } : Run Settings).run.value = .ok s →
        ∃ directory : String, s.outputDir = (t.place (.ofText directory)).text := by
    intro v reached
    simp only [Noted.value_run_bind_ok] at reached
    obtain ⟨_, -, checked, -, outputDir, resolved, _, -, same⟩ := reached
    cases same
    have resolved : Settings.resolved t checked.outputDir = .ok outputDir := resolved
    rw [Settings.resolved] at resolved
    split at resolved
    · cases resolved
    · exact ⟨checked.outputDir, (Except.ok.inj resolved).symm⟩
  unfold Settings.load at loaded
  -- the entries come from a file or there are none, and then the steps are the same
  split at loaded
  on_goal 1 => split at loaded
  all_goals
    obtain ⟨entries, -, loaded⟩ := Noted.value_run_bind_ok.mp loaded
    dsimp only at loaded
    split at loaded
    · obtain ⟨_, -, loaded⟩ := Noted.value_run_bind_ok.mp loaded
      exact accepted _ loaded
    · exact accepted _ loaded

theorem loadAll_ok {schemas : List Schema} {table : Option Table} :
    (loadAll s t).run.value = .ok (schemas, table) ↔ Loaded s t schemas table := by
  have noted : ∀ x : Noted Unit, (Run.ofNoted x).run.value = .ok () := fun x => rfl
  have result : ∀ {α : Type} (a : α), (pure a : Run α).run.value = .ok a := fun a => rfl
  have loaded : Loaded s t schemas table ↔ _ ∧ _ :=
    ⟨fun found => ⟨found.ofSchemas, found.ofTable⟩, fun found => ⟨found.1, found.2⟩⟩
  rw [loadAll, loaded]
  simp only [Noted.value_run_bind_ok, Noted.value_run_mapM_ok, noted]
  cases s.tableMetadata.filter (· ≠ "") with
  | none =>
    simp only [Noted.value_run_bind_ok, noted, result, Except.ok.injEq, Prod.mk.injEq, exists_and_left, true_and,
      exists_const, existsAndEq]
    cases table <;> simp
  | some given =>
    simp only [map_eq_pure_bind, Noted.value_run_bind_ok, noted, result, Except.ok.injEq, Prod.mk.injEq,
      exists_and_left, true_and, exists_const, existsAndEq, and_true]
    cases table <;> simp

/-- What is produced for settings is what a run produces for the documents that they name. -/
theorem produce_value (s : Settings) (t : Tree) : (produce s t).value = match (loadAll s t).run.value with
    | .error trouble => ⟨t, .error trouble⟩
    | .ok (schemas, table) => (job s schemas table).outcome s.outputDir t := by
  rw [produce]
  simp only [Noted.value_bind]
  cases (loadAll s t).run.value with
  | error trouble => rfl
  | ok found =>
    simp only [Noted.value_bind]
    have same : (generate ⟨s.formatCode, s.lineLength⟩ s.namespaceText s.outputDir found.1 found.2 t).value =
        (job s found.1 found.2).outcome s.outputDir t := rfl
    rw [same]
    split <;> rfl

/-- Settings whose documents cannot all be loaded, or for which no files can be planned, leave all files as they are. -/
theorem produce_unprepared {a : Arguments} (configured : (configure a t).run.value = .ok s)
    (unprepared : ∀ files, ¬ Prepared a t s files) : ∃ trouble, (produce s t).value = ⟨t, .error trouble⟩ := by
  rw [produce_value]
  cases found : (loadAll s t).run.value with
  | error trouble => exact ⟨trouble, rfl⟩
  | ok documents =>
    obtain ⟨schemas, table⟩ := documents
    cases planned : (job s schemas table).planned with
    | error f => exact ⟨.failure f, by simp only [Job.outcome_eq, planned]⟩
    | ok files => exact absurd ⟨configured, schemas, table, loadAll_ok.mp found, planned⟩ (unprepared files)

theorem Prepared.produce {a : Arguments} (prepared : Prepared a t s files) :
    (produce s t).value = (writeBatch s.outputDir t files).value := by
  obtain ⟨-, schemas, table, loaded, planned⟩ := prepared
  rw [produce_value, loadAll_ok.mpr loaded]
  simp only [Job.outcome_eq, planned]

/-! ## Whole runs -/

variable {a : Arguments}

theorem runWith_unconfigured {trouble : Trouble} (failed : (configure a t).run.value = .error trouble) (painted : Bool) :
    (runWith a painted t).exit = some 1 ∧ (runWith a painted t).tree = t := by
  rw [runWith]
  simp only [failed, and_self]

/-- A run comes to its end, without an exit code of its own, exactly if all files are written. -/
theorem runWith_configured (configured : (configure a t).run.value = .ok s) (painted : Bool) :
    (runWith a painted t).tree = (produce s t).value.tree ∧ match (produce s t).value.written with
      | .ok _ => (runWith a painted t).exit = none
      | .error _ => (runWith a painted t).exit = some 1 := by
  rw [runWith]
  simp only [configured, true_and]
  cases (produce s t).value.written <;> rfl

/-- The outcome of every run whose arguments can be read, over any tree of files.  A run that does not get as far as a plan
ends with the exit code 1 and leaves the tree as it is.  Any other run has planned files for exactly the documents that its
settings name; once it comes to its end, these files are all that has been written. -/
theorem run_outcome {arguments : List String} (parsed : Arguments.parse arguments = .ok a) (terminal : Bool) (t : Tree) :
    let after := run arguments terminal t
    ((∀ s files, ¬ Prepared a t s files) → after.exit = some 1 ∧ after.tree = t) ∧
      ∀ s files, Prepared a t s files →
        (∃ directory : String, s.outputDir = (t.place (.ofText directory)).text) ∧
          (after.exit = none ∨ after.exit = some 1) ∧
          (after.exit = none → Written t (.ofText s.outputDir) files after.tree) := by
  intro after
  have whole : after = runWith a (terminal && !a.noColor) t := by
    change run arguments terminal t = _
    rw [run, parsed]
  rw [whole]
  constructor
  · intro unprepared
    cases configured : (configure a t).run.value with
    | error trouble => exact runWith_unconfigured configured _
    | ok s =>
      obtain ⟨trouble, produced⟩ := produce_unprepared configured (unprepared s)
      have reached := runWith_configured configured (terminal && !a.noColor)
      rw [produced] at reached
      exact reached.symm
  · intro s files prepared
    have reached := runWith_configured prepared.configured (terminal && !a.noColor)
    refine ⟨configure_resolved prepared.configured, ?_⟩
    rw [prepared.produce, writeBatch] at reached
    simp only [Noted.value_bind] at reached
    -- what is written may stop at a file; then the run ends with a code of one
    rcases wrote : (writeFiles (.ofText s.outputDir) t files).value with ⟨t', failed⟩
    rw [wrote] at reached
    obtain ⟨schemas, table, -, planned⟩ := prepared.planned
    cases failed with
    | none =>
      obtain ⟨tree, exit⟩ := reached
      refine ⟨.inl exit, fun _ => ?_⟩
      rw [tree]
      exact writeFiles_written (Job.places_nodup planned t _) wrote
    | some e =>
      obtain ⟨tree, exit⟩ := reached
      refine ⟨.inr exit, fun ended => ?_⟩
      rw [exit] at ended
      cases ended

/-- A schema that is given in place of a path. -/
def orderText : String :=
  "\x7b\"entityName\": \"Order\", \"primaryKey\": \x7b\"partitionKey\": \"id\"\x7d, " ++
    "\"fields\": [\x7b\"name\": \"id\", \"type\": \"string\", \"required\": true\x7d]\x7d"

def orderArguments : List String :=
  ["--schema", orderText, "--package", "shop", "--output", "out", "--no-format"]

/-- A run comes to its end and has written what was planned; without arguments there is no schema, and nothing happens. -/
theorem orderRun_outcome : (∃ a s files, Arguments.parse orderArguments = .ok a ∧ Prepared a blankTree s files ∧
      Written blankTree (.ofText s.outputDir) files (run orderArguments false blankTree).tree) ∧
    (run [] false blankTree).exit = some 1 ∧ (run [] false blankTree).tree = blankTree := by
  obtain ⟨a, parsed⟩ : ∃ a, Arguments.parse orderArguments = .ok a := exists_ok_of_isOk (by decide +kernel)
  have ended : (run orderArguments false blankTree).exit = none := by decide +kernel
  obtain ⟨unprepared, written⟩ := run_outcome parsed false blankTree
  constructor
  · by_contra none
    have unplanned : ∀ s files, ¬ Prepared a blankTree s files := fun s files prepared =>
      none ⟨a, s, files, parsed, prepared, (written s files prepared).2.2 ended⟩
    have failed := (unprepared unplanned).1
    rw [ended] at failed
    cases failed
  · refine (run_outcome (a := .nothing) rfl false blankTree).1 fun s files prepared => ?_
    have refused : (configure .nothing blankTree).run.value.isOk = false := by decide +kernel
    rw [prepared.configured] at refused
    cases refused

end CommandLine

end Tablewright
