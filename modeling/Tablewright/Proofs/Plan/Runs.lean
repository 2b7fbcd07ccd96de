import Tablewright.Plan.Run
import Tablewright.Proofs.Files.Tree
import Tablewright.Proofs.Plan.Imports
import Tablewright.Proofs.Schema.Identifiers

/-!
# Runs into one directory

One run after the other writes into the same directory.  Files are modules, whose names have a dot, and the directories that
they lie in have none in theirs; so a file of one run is never in the way of a directory of another one, and all that a run
replaces are files of the same path.

* `LeadsToModule`: the names of planned paths.
* `Settled`: what holds of the tree between two files that are written; `Settled.write` is the step for one file.
* `Job`, `LastPlanned`: what runs are given, and the content that the last of them planned for a path.
* `runs_outcome`: the outcome of every run of a sequence.
-/

namespace Tablewright

/-! ## Names of modules -/

/-- Names that lead to a module: those of directories have no dot, that of the file has one. -/
def LeadsToModule (names : List String) : Prop :=
  ∃ dirs file, names = dirs ++ [file] ∧ (∀ dir ∈ dirs, '.' ∉ dir.toList) ∧ '.' ∈ file.toList ∧ file ≠ ".."

theorem undotted_ne_up {name : String} (undotted : '.' ∉ name.toList) : name ≠ ".." := by
  rintro rfl
  exact undotted (by decide)

theorem Namespace.undotted (n : Namespace) : ∀ part ∈ n.parts, '.' ∉ part.toList := by
  intro part member
  have valid := List.all_eq_true.mp n.valid part member
  rw [Name.isPackagePart, Bool.and_eq_true] at valid
  exact Text.notMem_of_isIdentifier valid.1 ⟨by decide, by decide⟩

theorem Placed.leadsToModule {n : Namespace} {p : Path} (placed : Placed n p)
    (named : '.' ∈ p.name.toList ∧ p.name ≠ "..") : LeadsToModule p.names := by
  cases placed with
  | around k positive proper =>
    rw [Path.name_child] at named
    exact ⟨_, _, rfl, fun part member => n.undotted part (List.mem_of_mem_take member), named⟩
  | inPackage file =>
    rw [Path.name_child] at named
    exact ⟨_, _, rfl, n.undotted, named⟩
  | inSubPackage sub file known =>
    rw [Path.name_child] at named
    refine ⟨n.parts ++ [sub], _, rfl, List.forall_mem_append.mpr ⟨n.undotted, ?_⟩, named⟩
    exact List.forall_mem_singleton.mpr (subPackages_undotted known)

theorem WellLaidOut.leadsToModule {n : Namespace} {paths : List Path} (laidOut : WellLaidOut n paths) {p : Path}
    (member : p ∈ paths) : LeadsToModule p.names := by
  refine (laidOut.placed p member).leadsToModule ?_
  by_cases package : p.name = packageFile
  · rw [package]
    decide
  · obtain ⟨stem, named, -⟩ := laidOut.named p member package
    rw [named]
    refine ⟨by simp, fun same => ?_⟩
    have last := congrArg (·.toList.getLast?) same
    simp at last

/-- A planned path has no root. -/
theorem Placed.eq_ofNames {n : Namespace} {p : Path} (placed : Placed n p) : p = .ofNames p.names := by
  cases placed <;> rfl

/-! ## Writing one file -/

variable {out : Path} {t₀ t : Tree}

/-- A file whose directories can be made is written there, and nothing else changes but that they are made. -/
theorem writeFile_ok {f : RenderedFile} {dirs : Path} {file : String} (path : f.path = dirs.child file)
    (passable : t.Passable (out.below dirs)) (short : file.utf8ByteSize ≤ Tree.maxName)
    (free : t.node? (t.place (out.below f.path)) ≠ some .directory)
    (apart : ¬ t.OnWay (out.below dirs) (t.place (out.below f.path))) :
    ∃ t', writeFile out t f = (t', none) ∧ t'.workingDirectory = t.workingDirectory ∧
      t'.node? (t.place (out.below f.path)) = some (.file f.content.toUTF8) ∧
      ∃ t₁, Tree.Grown (t.OnWay (out.below dirs)) t t₁ ∧
        ∀ q, q ≠ t.place (out.below f.path) → t'.node? q = t₁.node? q := by
  obtain ⟨t₁, made, grown, reaches⟩ := Tree.makeDirectories_ok passable
  rw [path, Path.below_child] at free apart ⊢
  have free₁ : t₁.node? (t₁.place ((out.below dirs).child file)) ≠ some .directory := by
    rw [grown.place]
    rcases grown.node (t.place ((out.below dirs).child file)) with same | ⟨onWay, -⟩
    · rwa [same]
    · exact absurd onWay apart
  refine ⟨t₁.put (t₁.place ((out.below dirs).child file)) (.file f.content.toUTF8), ?_, ?_, ?_, t₁, grown, ?_⟩
  · rw [writeFile, path, Path.below_child, Path.parent_child, made]
    simp only [Tree.write_ok reaches short free₁]
  · rw [Tree.workingDirectory_put, grown.workingDirectory]
  · rw [Tree.node?_put _ free₁, grown.place, if_pos rfl]
  · intro q other
    rw [Tree.node?_put _ free₁, grown.place, if_neg other]

/-- What holds once files have been written into a directory `out`, those that `contents` tells by their paths.  Elsewhere
only directories have been made, on the way to `out`; inside there are these files, and no directory has a dot in its
name. -/
structure Settled (t₀ : Tree) (out : Path) (contents : Path → String → Prop) (t : Tree) : Prop where
  workingDirectory : t.workingDirectory = t₀.workingDirectory
  outside : ∀ q, ¬ (t₀.place out).Inside q →
    t.node? q = t₀.node? q ∨ t₀.OnWay out q ∧ t₀.node? q = none ∧ t.node? q = some .directory
  files : ∀ names, names ≠ [] → ∀ content,
    t.node? ((t₀.place out).below (.ofNames names)) = some (.file content) ↔
      ∃ text, contents (.ofNames names) text ∧ content = text.toUTF8
  directories : ∀ names, names ≠ [] → t.node? ((t₀.place out).below (.ofNames names)) = some .directory →
    ∀ name ∈ names, '.' ∉ name.toList
  modules : ∀ p text, contents p text → LeadsToModule p.names

namespace Settled

variable {contents : Path → String → Prop}

theorem place (settled : Settled t₀ out contents t) (p : Path) : t.place p = t₀.place p := by
  rw [Tree.place, settled.workingDirectory, Tree.place]

theorem keepsDirectories (settled : Settled t₀ out contents t) (vacant : t₀.Vacant out) : t₀.KeepsDirectories t := by
  intro q directory
  by_cases inside : (t₀.place out).Inside q
  · rw [vacant.empty q inside] at directory
    cases directory
  · rcases settled.outside q inside with same | ⟨-, absent, -⟩
    · exact same.trans directory
    · rw [directory] at absent
      cases absent

/-- The way to a directory without dots leads outside, and then inside through directories without dots. -/
theorem onWay (settled : Settled t₀ out contents t) (vacant : t₀.Vacant out) {dirs : List String}
    (undotted : ∀ dir ∈ dirs, '.' ∉ dir.toList) {q : Path} (onWay : t.OnWay (out.below (.ofNames dirs)) q) :
    t₀.OnWay out q ∧ ¬ (t₀.place out).Inside q ∨
      ∃ taken, taken ≠ [] ∧ taken <+: dirs ∧ q = (t₀.place out).below (.ofNames taken) := by
  rcases Tree.onWay_below (fun dir member => undotted_ne_up (undotted dir member)) onWay with outer | ⟨taken, some, within, rfl⟩
  · obtain ⟨taken, within, rfl⟩ := outer
    have onWay₀ : t₀.OnWay out (t.place ⟨out.root, taken⟩) := ⟨taken, within, settled.place _⟩
    exact .inl ⟨onWay₀, vacant.apart _ onWay₀⟩
  · exact .inr ⟨taken, some, within, by rw [settled.place]⟩

/-- A file is never in the way of the directories of a module. -/
theorem passable (settled : Settled t₀ out contents t) (vacant : t₀.Vacant out) {dirs : List String}
    (undotted : ∀ dir ∈ dirs, '.' ∉ dir.toList) (short : ∀ dir ∈ dirs, dir.utf8ByteSize ≤ Tree.maxName) :
    t.Passable (out.below (.ofNames dirs)) := by
  refine ⟨?_, List.forall_mem_append.mpr ⟨vacant.passable.short, short⟩, fun q onWay content file => ?_⟩
  · exact vacant.passable.start.of_keepsDirectories settled.workingDirectory (settled.keepsDirectories vacant)
  · rcases settled.onWay vacant undotted onWay with ⟨onWay₀, outside⟩ | ⟨taken, some, within, rfl⟩
    · rcases settled.outside q outside with same | ⟨-, -, made⟩
      · exact vacant.passable.free q onWay₀ content (same ▸ file)
      · rw [made] at file
        cases file
    · obtain ⟨text, planned, -⟩ := (settled.files taken some content).mp file
      -- the last name of a file has a dot
      obtain ⟨above, name, same, -, dotted, -⟩ := settled.modules _ _ planned
      have member : name ∈ taken := by
        rw [Path.names_ofNames] at same
        simp [same]
      exact undotted name (within.subset member) dotted

/-- A tree in which directories without dots have been made, and then a module written, holds that module besides. -/
theorem extended (settled : Settled t₀ out contents t) (vacant : t₀.Vacant out) {p : Path} {text : String}
    {dirs : List String} {file : String} (path : p = .ofNames (dirs ++ [file]))
    (undotted : ∀ dir ∈ dirs, '.' ∉ dir.toList) (named : '.' ∈ file.toList ∧ file ≠ "..") {t₁ t' : Tree}
    (workingDirectory : t'.workingDirectory = t.workingDirectory)
    (here : t'.node? ((t₀.place out).below p) = some (.file text.toUTF8))
    (grown : Tree.Grown (t.OnWay (out.below (.ofNames dirs))) t t₁)
    (elsewhere : ∀ q, q ≠ (t₀.place out).below p → t'.node? q = t₁.node? q) :
    Settled t₀ out (Function.update contents p (· = text)) t' := by
  have unchanged : ∀ names, Path.ofNames names ≠ p →
      t'.node? ((t₀.place out).below (.ofNames names)) = t₁.node? ((t₀.place out).below (.ofNames names)) := by
    subst path
    exact fun names other => elsewhere _ fun same => other (congrArg Path.ofNames (Path.below_ofNames_inj.mp same))
  refine ⟨workingDirectory.trans settled.workingDirectory, ?_, ?_, ?_, ?_⟩
  · -- outside the file is not, and a directory that was made is on the way to `out`
    intro q outside
    have other : q ≠ (t₀.place out).below p := fun same => outside ⟨dirs ++ [file], by simp, same.trans (path ▸ rfl)⟩
    rw [elsewhere q other]
    rcases grown.node q with same | ⟨onWay, absent, made⟩
    · exact same ▸ settled.outside q outside
    · rcases settled.onWay vacant undotted onWay with ⟨onWay₀, -⟩ | ⟨taken, some, -, rfl⟩
      · rcases settled.outside q outside with same | ⟨-, -, made'⟩
        · exact .inr ⟨onWay₀, same ▸ absent, made⟩
        · rw [made'] at absent
          cases absent
      · exact absurd ⟨taken, some, rfl⟩ outside
  · intro names some content
    by_cases same : Path.ofNames names = p
    · rw [same, here, Function.update_self]
      simp [eq_comm]
    · rw [unchanged names same, grown.file_iff, settled.files names some, Function.update_of_ne same]
  · -- a directory inside was there before, or is one of those that the file lies in
    intro names some directory
    by_cases same : Path.ofNames names = p
    · rw [same, here] at directory
      cases directory
    · rw [unchanged names same] at directory
      rcases grown.node ((t₀.place out).below (.ofNames names)) with same | ⟨onWay, -⟩
      · exact settled.directories names some (same ▸ directory)
      · rcases settled.onWay vacant undotted onWay with ⟨-, outside⟩ | ⟨taken, -, within, same⟩
        · exact absurd ⟨names, some, rfl⟩ outside
        · obtain rfl := Path.below_ofNames_inj.mp same
          exact fun name member => undotted name (within.subset member)
  · intro q other planned
    by_cases same : q = p
    · exact same ▸ path ▸ ⟨dirs, file, rfl, undotted, named⟩
    · rw [Function.update_of_ne same] at planned
      exact settled.modules q other planned

/-- Writing a module puts its content at its path. -/
theorem write (settled : Settled t₀ out contents t) (vacant : t₀.Vacant out) {f : RenderedFile}
    (relative : f.path = .ofNames f.path.names) (leads : LeadsToModule f.path.names)
    (short : ∀ name ∈ f.path.names, name.utf8ByteSize ≤ Tree.maxName) :
    ∃ t', writeFile out t f = (t', none) ∧
      Settled t₀ out (Function.update contents f.path (· = f.content)) t' := by
  obtain ⟨dirs, file, split, undotted, dotted, proper⟩ := leads
  have path : f.path = .ofNames (dirs ++ [file]) := relative.trans (congrArg Path.ofNames split)
  rw [split] at short
  obtain ⟨shortDirs, shortFile⟩ := List.forall_mem_append.mp short
  have place : t.place (out.below f.path) = (t₀.place out).below f.path := by
    rw [path, settled.place]
    refine t₀.place_below out (List.forall_mem_append.mpr ⟨?_, List.forall_mem_singleton.mpr proper⟩)
    exact fun dir member => undotted_ne_up (undotted dir member)
  have free : t.node? (t.place (out.below f.path)) ≠ some .directory := by
    rw [place, path]
    intro directory
    exact settled.directories _ (by simp) directory file (by simp) dotted
  have apart : ¬ t.OnWay (out.below (.ofNames dirs)) (t.place (out.below f.path)) := by
    -- what lies on the way has fewer names
    rw [place, path]
    intro onWay
    rcases settled.onWay vacant undotted onWay with ⟨-, outside⟩ | ⟨taken, -, within, same⟩
    · exact outside ⟨_, by simp, rfl⟩
    · obtain rfl := Path.below_ofNames_inj.mp same
      simpa using within.length_le
  obtain ⟨t', written, workingDirectory, here, t₁, grown, elsewhere⟩ := writeFile_ok path
    (settled.passable vacant undotted shortDirs) (shortFile file List.mem_cons_self) free apart
  rw [place] at here elsewhere
  exact ⟨t', written, settled.extended vacant path undotted ⟨dotted, proper⟩ workingDirectory here grown elsewhere⟩

/-- Files elsewhere stay as they are. -/
theorem file_iff_of_outside (settled : Settled t₀ out contents t) {q : Path} (outside : ¬ (t₀.place out).Inside q)
    {content : ByteArray} : t.node? q = some (.file content) ↔ t₀.node? q = some (.file content) := by
  rcases settled.outside q outside with same | ⟨-, absent, made⟩
  · rw [same]
  · simp [absent, made]

/-- Contents that are equal for all paths tell the same. -/
theorem congr {contents' : Path → String → Prop} (settled : Settled t₀ out contents t)
    (same : ∀ p text, contents p text ↔ contents' p text) : Settled t₀ out contents' t := by
  obtain rfl : contents = contents' := funext fun p => funext fun text => propext (same p text)
  exact settled

/-- The contents once files have been written in order. -/
def overwritten (contents : Path → String → Prop) (files : List RenderedFile) : Path → String → Prop :=
  files.foldl (fun contents f => Function.update contents f.path (· = f.content)) contents

/-- Files with different paths have their own contents, and all other paths keep theirs. -/
theorem overwritten_iff {files : List RenderedFile} (distinct : (files.map (·.path)).Nodup) {p : Path} {text : String} :
    overwritten contents files p text ↔
      (∃ f ∈ files, f.path = p ∧ f.content = text) ∨ (∀ f ∈ files, f.path ≠ p) ∧ contents p text := by
  induction files generalizing contents with
  | nil => simp [overwritten]
  | cons f rest ih =>
    rw [List.map_cons, List.nodup_cons] at distinct
    rw [overwritten, List.foldl_cons, ← overwritten, ih distinct.2, List.forall_mem_cons]
    simp only [List.mem_cons, exists_eq_or_imp]
    by_cases here : p = f.path
    · subst here
      -- no later file has this path
      have fresh : ∀ g ∈ rest, g.path ≠ f.path := fun g member same =>
        distinct.1 (List.mem_map.mpr ⟨g, member, same⟩)
      have none : ¬ ∃ g ∈ rest, g.path = f.path ∧ g.content = text := fun ⟨g, member, same, _⟩ => fresh g member same
      simp only [none, false_or, or_false, Function.update_self, ne_eq, not_true_eq_false, false_and, true_and]
      exact ⟨fun ⟨_, same⟩ => same.symm, fun same => ⟨fresh, same.symm⟩⟩
    · simp [Function.update_of_ne here, Ne.symm here]

/-- Writing modules one after the other never fails. -/
theorem writeFiles (settled : Settled t₀ out contents t) (vacant : t₀.Vacant out) {files : List RenderedFile}
    (relative : ∀ f ∈ files, f.path = .ofNames f.path.names) (leads : ∀ f ∈ files, LeadsToModule f.path.names)
    (short : ∀ f ∈ files, ∀ name ∈ f.path.names, name.utf8ByteSize ≤ Tree.maxName) :
    ∃ t', (writeFiles out t files).value = (t', none) ∧ Settled t₀ out (overwritten contents files) t' := by
  induction files generalizing contents t with
  | nil => exact ⟨t, rfl, settled⟩
  | cons f rest ih =>
    rw [List.forall_mem_cons] at relative leads short
    obtain ⟨t₁, written, settled₁⟩ := settled.write vacant relative.1 leads.1 short.1
    obtain ⟨t', writtenRest, settled'⟩ := ih settled₁ relative.2 leads.2 short.2
    refine ⟨t', ?_, settled'⟩
    rw [Tablewright.writeFiles, written]
    exact writtenRest

theorem initial (vacant : t₀.Vacant out) : Settled t₀ out (fun _ _ => False) t₀ := by
  refine ⟨rfl, fun q _ => .inl rfl, fun names some content => ?_, fun names some directory => ?_, by simp⟩
  · simp [vacant.empty _ ⟨names, some, rfl⟩]
  · rw [vacant.empty _ ⟨names, some, rfl⟩] at directory
    cases directory

end Settled

/-! ## Sequences of runs -/

/-- What a run is given besides the output directory. -/
structure Job where
  options : Options
  namespaceText : String
  schemas : List Schema
  table : Option Table

namespace Job

/-- The files that a run plans, or why it does not. -/
def planned (j : Job) : Except Failure (List RenderedFile) :=
  match readNamespace j.namespaceText with
  | .error f => .error f
  | .ok n => (plan j.options n j.schemas j.table).result

def outcome (j : Job) (outputDir : String) (t : Tree) : Outcome :=
  (generate j.options j.namespaceText outputDir j.schemas j.table t).value

/-- The file system accepts all names of planned paths. -/
def Accepted (j : Job) : Prop :=
  ∀ files, j.planned = .ok files → ∀ f ∈ files, ∀ name ∈ f.path.names, name.utf8ByteSize ≤ Tree.maxName

def Plans (j : Job) (p : Path) : Prop := ∃ files, j.planned = .ok files ∧ ∃ f ∈ files, f.path = p

theorem outcome_eq (j : Job) (outputDir : String) (t : Tree) : j.outcome outputDir t = match j.planned with
    | .error f => ⟨t, .error (.failure f)⟩
    | .ok files => (writeBatch outputDir t files).value := by
  rw [outcome, generate, planned]
  cases readNamespace j.namespaceText with
  | error f => rfl
  | ok n =>
    simp only [Noted.value_bind]
    change _ = match (plan j.options n j.schemas j.table).run.value with
      | .error f => _
      | .ok files => _
    cases (plan j.options n j.schemas j.table).run.value <;> rfl

theorem planned_ok {j : Job} {files : List RenderedFile} (planned : j.planned = .ok files) :
    ∃ n, WellLaidOut n (files.map (·.path)) := by
  rw [Job.planned] at planned
  split at planned
  · cases planned
  · exact ⟨_, plan_wellLaidOut planned⟩

end Job

/-- The content that the last of some runs that planned a path planned for it. -/
def LastPlanned (jobs : List Job) (p : Path) (text : String) : Prop :=
  ∃ earlier j later files, jobs = earlier ++ j :: later ∧ j.planned = .ok files ∧
    (∃ f ∈ files, f.path = p ∧ f.content = text) ∧ ∀ other ∈ later, ¬ other.Plans p

theorem lastPlanned_concat {jobs : List Job} {j : Job} {p : Path} {text : String} :
    LastPlanned (jobs ++ [j]) p text ↔
      (∃ files, j.planned = .ok files ∧ ∃ f ∈ files, f.path = p ∧ f.content = text) ∨
        ¬ j.Plans p ∧ LastPlanned jobs p text := by
  constructor
  · rintro ⟨earlier, last, later, files, split, planned, file, after⟩
    rcases List.eq_nil_or_concat' later with rfl | ⟨later, final, rfl⟩
    · obtain ⟨rfl, same⟩ := List.append_inj' split rfl
      obtain rfl := List.singleton_inj.mp same
      exact .inl ⟨files, planned, file⟩
    · rw [← List.cons_append, ← List.append_assoc] at split
      obtain ⟨rfl, same⟩ := List.append_inj' split rfl
      obtain rfl := List.singleton_inj.mp same
      rw [List.forall_mem_append] at after
      exact .inr ⟨after.2 _ List.mem_cons_self, earlier, last, later, files, rfl, planned, file, after.1⟩
  · rintro (⟨files, planned, file⟩ | ⟨unplanned, earlier, last, later, files, rfl, planned, file, after⟩)
    · exact ⟨jobs, j, [], files, rfl, planned, file, by simp⟩
    · refine ⟨earlier, last, later ++ [j], files, by simp, planned, file, ?_⟩
      exact List.forall_mem_append.mpr ⟨after, List.forall_mem_singleton.mpr unplanned⟩

/-- The tree after runs, one after the other. -/
def treeAfter (outputDir : String) (t : Tree) (jobs : List Job) : Tree :=
  jobs.foldl (fun t j => (j.outcome outputDir t).tree) t

/-- A run that plans files writes them, and a run that does not leaves the tree as it is. -/
theorem Settled.run {outputDir : String} {jobs : List Job} (settled : Settled t₀ (.ofText outputDir) (LastPlanned jobs) t)
    (vacant : t₀.Vacant (.ofText outputDir)) {j : Job} (accepted : j.Accepted) :
    Settled t₀ (.ofText outputDir) (LastPlanned (jobs ++ [j])) (j.outcome outputDir t).tree ∧
      ∀ files, j.planned = .ok files →
        (j.outcome outputDir t).written = .ok (files.map fun f => (Path.ofText outputDir).below f.path) := by
  rw [Job.outcome_eq]
  cases planned : j.planned with
  | error f =>
    refine ⟨settled.congr fun p text => ?_, by simp⟩
    simp [lastPlanned_concat, Job.Plans, planned]
  | ok files =>
    obtain ⟨n, laidOut⟩ := Job.planned_ok planned
    have inPaths : ∀ f ∈ files, f.path ∈ files.map (·.path) := fun f member => List.mem_map_of_mem member
    obtain ⟨t', written, settled'⟩ := settled.writeFiles vacant
      (fun f member => (laidOut.placed _ (inPaths f member)).eq_ofNames)
      (fun f member => laidOut.leadsToModule (inPaths f member)) (accepted files planned)
    have batch : (writeBatch outputDir t files).value =
        ⟨t', .ok (files.map fun f => (Path.ofText outputDir).below f.path)⟩ := by
      rw [writeBatch]
      simp only [Noted.value_bind, written]
      rfl
    simp only [batch]
    refine ⟨settled'.congr fun p text => ?_, fun other same => by rw [Except.ok.inj same]⟩
    rw [Settled.overwritten_iff laidOut.distinct, lastPlanned_concat]
    simp [Job.Plans, planned]

theorem settled_treeAfter {outputDir : String} (vacant : t₀.Vacant (.ofText outputDir)) {jobs : List Job}
    (accepted : ∀ j ∈ jobs, j.Accepted) :
    Settled t₀ (.ofText outputDir) (LastPlanned jobs) (treeAfter outputDir t₀ jobs) := by
  induction jobs using List.reverseRecOn with
  | nil => exact (Settled.initial vacant).congr fun p text => by simp [LastPlanned]
  | append_singleton jobs j ih =>
    rw [List.forall_mem_append] at accepted
    rw [treeAfter, List.foldl_append]
    exact ((ih accepted.1).run vacant (accepted.2 j List.mem_cons_self)).1

theorem Job.accepted_of_all {j : Job} (all : (j.planned.toOption.all fun files =>
    files.all fun f => f.path.names.all fun name => name.utf8ByteSize ≤ Tree.maxName) = true) : j.Accepted := by
  intro files planned
  simpa [planned, Except.toOption] using all

/-- A file system with nothing but a directory to work in. -/
def blankTree : Tree := .empty ⟨"/", ["work"]⟩

theorem blankTree_vacant : blankTree.Vacant (.ofText "out") := by
  have path : Path.ofText "out" = ⟨"", ["out"]⟩ := by decide
  have place : blankTree.place ⟨"", ["out"]⟩ = ⟨"/", ["work", "out"]⟩ := rfl
  have onWay : ∀ q, blankTree.OnWay ⟨"", ["out"]⟩ q → q = ⟨"/", ["work"]⟩ ∨ q = ⟨"/", ["work", "out"]⟩ := by
    rintro q ⟨taken, within, rfl⟩
    have ends : taken <+: [] ++ ["out"] := within
    rcases List.prefix_concat_iff.mp ends with rfl | within
    · exact .inr rfl
    · obtain rfl := List.prefix_nil.mp within
      exact .inl rfl
  rw [path]
  refine ⟨⟨rfl, List.forall_mem_singleton.mpr (by decide), fun q way content => ?_⟩, fun q way => ?_, ?_⟩
  · rcases onWay q way with rfl | rfl
    · exact fun file => by cases file
    · exact fun file => by cases file
  · rintro ⟨names, some, rfl⟩
    rcases onWay _ way with same | same
    · have lengths := congrArg (·.names.length) same
      simp only [place, Path.names_below_ofNames, List.length_append, List.length_cons, List.length_nil] at lengths
      omega
    · rw [place] at same
      exact some (List.append_cancel_left (congrArg Path.names same))
  · rintro q ⟨names, some, rfl⟩
    rfl

def shopJob : Job := ⟨.unformatted, "shop.data", [shopOrder], some shopTable⟩

def outerJob : Job := { shopJob with namespaceText := "shop", table := none }

/-- A run for a text that is no namespace. -/
def misnamedJob : Job := { shopJob with namespaceText := "shop." }

end Tablewright
