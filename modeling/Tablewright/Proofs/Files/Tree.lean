import Mathlib
import Tablewright.Files.Tree

/-!
# Making directories and writing files

What the steps of a run do to a file tree, told by what stands at each absolute path.

* `Path.step`, `Tree.place`: where a path leads, name by name.
* `Tree.Passable`: paths on which nothing is in the way of directories.
* `Tree.Grown`: trees that differ by new directories only.
* `Tree.makeDirectories_ok`, `Tree.write_ok`: on such paths directories are made, and files are written below them.
* `Tree.makeDirectories_grown`, `Tree.write_put`: what these steps do on any path.
* `Tree.Vacant`: a directory in which nothing stands, whether it is there or has to be made.
-/

namespace Tablewright

/-! ## Places -/

namespace Path

/-- One name further: an upward step leads to the directory above. -/
def step (p : Path) (name : String) : Path := if name = ".." then p.parent else p.child name

theorem step_of_ne (p : Path) {name : String} (proper : name ≠ "..") : p.step name = p.child name := if_neg proper

theorem below_child (base p : Path) (name : String) : base.below (p.child name) = (base.below p).child name := by
  unfold below child
  split <;> simp

@[simp] theorem names_below_ofNames (base : Path) (names : List String) :
    (base.below (.ofNames names)).names = base.names ++ names := rfl

@[simp] theorem root_below_ofNames (base : Path) (names : List String) : (base.below (.ofNames names)).root = base.root :=
  rfl

theorem below_ofNames_inj {base : Path} {names names' : List String} :
    base.below (.ofNames names) = base.below (.ofNames names') ↔ names = names' := by
  refine ⟨fun same => ?_, fun same => same ▸ rfl⟩
  exact List.append_cancel_left (congrArg Path.names same)

/-- A path leads where its names lead from the root, one after the other. -/
theorem absolute_eq_foldl (workingDirectory p : Path) : absolute workingDirectory p =
    (workingDirectory.below p).names.foldl step ⟨(workingDirectory.below p).root, []⟩ := by
  have taken : ∀ (root : String) (names acc : List String), names.foldl step ⟨root, acc⟩ =
      ⟨root, names.foldl (fun acc name => if name = ".." then acc.dropLast else acc ++ [name]) acc⟩ := by
    intro root names
    induction names with
    | nil => exact fun acc => rfl
    | cons name rest ih =>
      intro acc
      rw [List.foldl_cons, List.foldl_cons, ← ih, step, parent, child]
      split <;> rfl
  rw [taken, absolute, collapse]

theorem absolute_child (workingDirectory p : Path) (name : String) :
    absolute workingDirectory (p.child name) = (absolute workingDirectory p).step name := by
  rw [absolute_eq_foldl, absolute_eq_foldl, below_child, child, List.foldl_append]
  rfl

end Path

namespace Tree

variable {t t' : Tree}

def place (t : Tree) (p : Path) : Path := t.workingDirectory.absolute p

theorem place_child (t : Tree) (p : Path) (name : String) : t.place (p.child name) = (t.place p).step name :=
  Path.absolute_child _ _ _

/-- Names that are no upward steps lead straight down. -/
theorem place_below (t : Tree) (p : Path) {names : List String} (proper : ∀ name ∈ names, name ≠ "..") :
    t.place (p.below (.ofNames names)) = (t.place p).below (.ofNames names) := by
  induction names using List.reverseRecOn with
  | nil => simp [place, Path.below, Path.ofNames, Path.absolute]
  | append_singleton names name ih =>
    obtain ⟨above, last⟩ := List.forall_mem_append.mp proper
    have down : ∀ base : Path, base.below (.ofNames (names ++ [name])) = (base.below (.ofNames names)).child name :=
      fun base => Path.below_child base (.ofNames names) name
    rw [down, place_child, ih above, down, Path.step_of_ne _ (last name List.mem_cons_self)]

/-! ## Walking -/

theorem walk_concat (t : Tree) (start : Path) (names : List String) (name : String) :
    t.walk start (names ++ [name]) = match t.walk start names with
      | .error fault => .error fault
      | .ok (_, none) => .error .missing
      | .ok (_, some (.file _)) => .error .notDirectory
      | .ok (place, some .directory) =>
        if maxName < name.utf8ByteSize then .error .nameTooLong else .ok (place.step name, t.node? (place.step name)) := by
  induction names generalizing start with
  | nil =>
    rw [List.nil_append, walk, walk]
    cases t.node? start with
    | none => rfl
    | some node => cases node <;> rfl
  | cons first rest ih =>
    rw [List.cons_append, walk, walk]
    cases t.node? start with
    | none => rfl
    | some node =>
      cases node with
      | file => rfl
      | directory =>
        by_cases long : maxName < first.utf8ByteSize
        · simp [long]
        · simp only [long, if_false]
          exact ih _

/-- One name further is found if what stands before it is a directory. -/
theorem find_child (t : Tree) (p : Path) (name : String) : t.find (p.child name) = match t.find p with
    | .error fault => .error fault
    | .ok (_, none) => .error .missing
    | .ok (_, some (.file _)) => .error .notDirectory
    | .ok (place, some .directory) =>
      if maxName < name.utf8ByteSize then .error .nameTooLong else .ok (place.step name, t.node? (place.step name)) := by
  simp only [find, Path.below_child]
  exact walk_concat _ _ _ _

theorem walk_ok {start place : Path} {names : List String} {node : Option Node}
    (found : t.walk start names = .ok (place, node)) : place = names.foldl Path.step start ∧ node = t.node? place := by
  induction names generalizing start with
  | nil =>
    obtain ⟨rfl, rfl⟩ := Prod.mk.inj (Except.ok.inj found)
    exact ⟨rfl, rfl⟩
  | cons name rest ih =>
    rw [walk] at found
    split at found
    · cases found
    · cases found
    · split at found
      · cases found
      · exact ih found

theorem find_ok {p place : Path} {node : Option Node} (found : t.find p = .ok (place, node)) :
    place = t.place p ∧ node = t.node? place := by
  rw [Tree.place, Path.absolute_eq_foldl]
  exact walk_ok found

def KeepsDirectories (t t' : Tree) : Prop := ∀ p, t.node? p = some .directory → t'.node? p = some .directory

theorem KeepsDirectories.walk (keeps : t.KeepsDirectories t') {start place : Path} {names : List String}
    (found : t.walk start names = .ok (place, some .directory)) : t'.walk start names = .ok (place, some .directory) := by
  induction names generalizing start with
  | nil =>
    obtain ⟨rfl, node⟩ := Prod.mk.inj (Except.ok.inj found)
    exact congrArg (fun node => Except.ok (start, node)) (keeps start node)
  | cons name rest ih =>
    rw [Tree.walk] at found ⊢
    split at found
    · cases found
    · cases found
    · rename_i here
      rw [keeps start here]
      split at found
      · cases found
      · rename_i short
        simpa only [short, if_false] using ih found

/-! ## Putting nodes -/

@[simp] theorem workingDirectory_put (t : Tree) (p : Path) (n : Node) :
    (t.put p n).workingDirectory = t.workingDirectory := by
  rw [put]
  split <;> rfl

theorem find?_put (t : Tree) (p q : Path) (n : Node) :
    ((t.put p n).nodes.find? (·.1 == q)).map (·.2) =
      if q = p then some n else (t.nodes.find? (·.1 == q)).map (·.2) := by
  rw [put]
  split
  · rename_i present
    -- replacing an entry keeps all paths, so a search goes the same way
    have keys : ((·.1 == q) ∘ fun entry : Path × Node => if entry.1 == p then (p, n) else entry) = (·.1 == q) := by
      funext entry
      by_cases here : entry.1 = p <;> simp [here]
    rw [List.find?_map, keys]
    split
    · rename_i same
      subst same
      obtain ⟨entry, found⟩ := Option.isSome_iff_exists.mp (List.find?_isSome.mpr (List.any_eq_true.mp present))
      have key : entry.1 = q := by simpa using List.find?_some found
      simp [found, key]
    · rename_i other
      cases found : t.nodes.find? (·.1 == q) with
      | none => rfl
      | some entry =>
        have key : entry.1 = q := by simpa using List.find?_some found
        simp [key, other]
  · rename_i absent
    rw [List.find?_append]
    split
    · rename_i same
      subst same
      have none : t.nodes.find? (·.1 == q) = none := by
        rw [List.find?_eq_none]
        exact fun entry member same => absent (List.any_eq_true.mpr ⟨entry, member, same⟩)
      simp [none]
    · rename_i other
      simp [Ne.symm other]

/-- What is put where no directory stands is found there, and nothing else changes. -/
theorem node?_put {p : Path} (n : Node) (free : t.node? p ≠ some .directory) (q : Path) :
    (t.put p n).node? q = if q = p then some n else t.node? q := by
  by_cases above : q.root = t.workingDirectory.root ∧ q.names.isPrefixOf t.workingDirectory.names
  · -- the directories above the working directory are not replaced
    have stays : t.node? q = some .directory := if_pos above
    have different : q ≠ p := fun same => free (same ▸ stays)
    rw [if_neg different, stays]
    exact if_pos (by simpa using above)
  · rw [node?, workingDirectory_put, if_neg above, find?_put, node?, if_neg above]

/-! ## Trees that grow -/

/-- A tree with more directories, which stand where `added` says. -/
structure Grown (added : Path → Prop) (t t' : Tree) : Prop where
  workingDirectory : t'.workingDirectory = t.workingDirectory
  node : ∀ p, t'.node? p = t.node? p ∨ added p ∧ t.node? p = none ∧ t'.node? p = some .directory

namespace Grown

variable {added : Path → Prop}

theorem refl (added : Path → Prop) (t : Tree) : Grown added t t := ⟨rfl, fun _ => .inl rfl⟩

theorem trans {t'' : Tree} (first : Grown added t t') (second : Grown added t' t'') : Grown added t t'' := by
  refine ⟨second.workingDirectory.trans first.workingDirectory, fun p => ?_⟩
  rcases first.node p with same | ⟨allowed, absent, made⟩
  · rcases second.node p with same' | ⟨allowed, absent, made⟩
    · exact .inl (same'.trans same)
    · exact .inr ⟨allowed, same ▸ absent, made⟩
  · rcases second.node p with same' | ⟨-, absent', -⟩
    · exact .inr ⟨allowed, absent, same'.trans made⟩
    · rw [made] at absent'
      cases absent'

theorem mono {more : Path → Prop} (grown : Grown added t t') (wider : ∀ p, added p → more p) : Grown more t t' :=
  ⟨grown.workingDirectory, fun p => (grown.node p).imp_right fun made => ⟨wider p made.1, made.2⟩⟩

theorem file_iff (grown : Grown added t t') {p : Path} {content : ByteArray} :
    t'.node? p = some (.file content) ↔ t.node? p = some (.file content) := by
  rcases grown.node p with same | ⟨-, absent, made⟩
  · rw [same]
  · simp [absent, made]

theorem keepsDirectories (grown : Grown added t t') : t.KeepsDirectories t' := by
  intro p directory
  rcases grown.node p with same | ⟨-, absent, -⟩
  · exact same.trans directory
  · rw [directory] at absent
    cases absent

theorem place (grown : Grown added t t') (p : Path) : t'.place p = t.place p := by
  rw [Tree.place, grown.workingDirectory, Tree.place]

end Grown

def Reaches (t : Tree) (p : Path) : Prop := t.find p = .ok (t.place p, some .directory)

theorem reaches_of_isDirectory {p : Path} (directory : t.isDirectory p) : t.Reaches p := by
  rw [isDirectory] at directory
  split at directory
  · rename_i found
    rw [Reaches, found, ← (find_ok found).1]
  · cases directory

theorem Reaches.node {p : Path} (reaches : t.Reaches p) : t.node? (t.place p) = some .directory :=
  (find_ok reaches).2.symm

/-- Below a directory every name that is accepted is found, whether or not something stands there. -/
theorem Reaches.find_child {p : Path} {name : String} (reaches : t.Reaches p) (short : name.utf8ByteSize ≤ maxName) :
    t.find (p.child name) = .ok (t.place (p.child name), t.node? (t.place (p.child name))) := by
  rw [Tree.find_child, reaches, place_child]
  exact if_neg (not_lt.mpr short)

theorem Reaches.of_keepsDirectories {p : Path} (reaches : t.Reaches p)
    (same : t'.workingDirectory = t.workingDirectory) (keeps : t.KeepsDirectories t') : t'.Reaches p := by
  rw [Reaches, find, place, same]
  exact keeps.walk reaches

/-! ## Passable paths -/

/-- The places that a path leads through, and the one it leads to. -/
def OnWay (t : Tree) (p q : Path) : Prop := ∃ taken, taken <+: p.names ∧ q = t.place ⟨p.root, taken⟩

/-- Directories can be made all along a path: it starts at one, its names are accepted, and no file is in the way. -/
structure Passable (t : Tree) (p : Path) : Prop where
  start : t.Reaches ⟨p.root, []⟩
  short : ∀ name ∈ p.names, name.utf8ByteSize ≤ maxName
  free : ∀ q, t.OnWay p q → ∀ content, t.node? q ≠ some (.file content)

theorem OnWay.child {p q : Path} (onWay : t.OnWay p q) (name : String) : t.OnWay (p.child name) q := by
  obtain ⟨taken, within, rfl⟩ := onWay
  exact ⟨taken, within.trans (List.prefix_append _ _), rfl⟩

theorem onWay_self (t : Tree) (p : Path) : t.OnWay p (t.place p) := ⟨p.names, List.prefix_rfl, rfl⟩

/-- The way into a directory leads to it and then straight down. -/
theorem onWay_below {out : Path} {names : List String} (proper : ∀ name ∈ names, name ≠ "..") {q : Path}
    (onWay : t.OnWay (out.below (.ofNames names)) q) :
    t.OnWay out q ∨ ∃ taken, taken ≠ [] ∧ taken <+: names ∧ q = (t.place out).below (.ofNames taken) := by
  obtain ⟨taken, within, rfl⟩ := onWay
  rcases List.prefix_or_prefix_of_prefix within (List.prefix_append out.names names) with outer | ⟨inner, rfl⟩
  · exact .inl ⟨taken, outer, rfl⟩
  · have within := (List.prefix_append_right_inj out.names).mp within
    by_cases here : inner = []
    · subst here
      rw [List.append_nil]
      exact .inl (t.onWay_self out)
    · exact .inr ⟨inner, here, within, t.place_below out fun name member => proper name (within.subset member)⟩

theorem Passable.of_child {p : Path} {name : String} (passable : t.Passable (p.child name)) : t.Passable p :=
  ⟨passable.start, fun n member => passable.short n (List.mem_append_left _ member),
    fun q onWay => passable.free q (onWay.child name)⟩

theorem Passable.of_grown {added : Path → Prop} {p : Path} (passable : t.Passable p) (grown : Grown added t t') :
    t'.Passable p := by
  refine ⟨passable.start.of_keepsDirectories grown.workingDirectory grown.keepsDirectories, passable.short, ?_⟩
  rintro q ⟨taken, within, rfl⟩ content file
  exact passable.free _ ⟨taken, within, grown.place _⟩ content (grown.file_iff.mp file)

theorem grown_put {p : Path} (absent : t.node? p = none) : Grown (· = p) t (t.put p .directory) := by
  refine ⟨workingDirectory_put _ _ _, fun q => ?_⟩
  rw [node?_put .directory (by simp [absent]) q]
  split
  · rename_i same
    exact .inr ⟨same, same ▸ absent, rfl⟩
  · exact .inl rfl

/-- A directory is made below one that is there. -/
theorem makeDirectory_child {p : Path} {name : String} (above : t.Reaches p) (short : name.utf8ByteSize ≤ maxName)
    (free : ∀ content, t.node? (t.place (p.child name)) ≠ some (.file content)) :
    ∃ t', t.makeDirectory (p.child name) = .ok t' ∧ Grown (· = t.place (p.child name)) t t' ∧ t'.Reaches (p.child name) := by
  have found := above.find_child short
  rw [makeDirectory, found]
  cases node : t.node? (t.place (p.child name)) with
  | some there =>
    cases there with
    | file content => exact absurd node (free content)
    | directory => exact ⟨t, rfl, .refl _ t, by rw [Reaches, found, node]⟩
  | none =>
    have put := node?_put .directory (show t.node? (t.place (p.child name)) ≠ some .directory by simp [node])
    have grown := grown_put node
    refine ⟨_, rfl, grown, ?_⟩
    have there := (above.of_keepsDirectories grown.workingDirectory grown.keepsDirectories).find_child short
    rw [grown.place, put, if_pos rfl] at there
    exact there.trans (by rw [grown.place])

/-- Below a path on which a directory is missing nothing is found. -/
theorem Passable.find_child_missing {p : Path} (passable : t.Passable p) (absent : ¬ t.Reaches p) (name : String) :
    t.find (p.child name) = .error .missing := by
  obtain ⟨root, names⟩ := p
  induction names using List.reverseRecOn generalizing name with
  | nil => exact absurd passable.start absent
  | append_singleton names last ih =>
    have passableAbove : t.Passable ⟨root, names⟩ := passable.of_child
    have split : t.find ⟨root, names ++ [last]⟩ = .error .missing ∨ t.find ⟨root, names ++ [last]⟩ =
        .ok (t.place ⟨root, names ++ [last]⟩, none) := by
      by_cases above : t.Reaches ⟨root, names⟩
      · -- the last directory is the one that is missing
        have found : t.find ⟨root, names ++ [last]⟩ =
            .ok (t.place ⟨root, names ++ [last]⟩, t.node? (t.place ⟨root, names ++ [last]⟩)) :=
          above.find_child (passable.short last (List.mem_append_right _ List.mem_cons_self))
        cases node : t.node? (t.place ⟨root, names ++ [last]⟩) with
        | none => exact .inr (found.trans (by rw [node]))
        | some there =>
          cases there with
          | file content => exact absurd node (passable.free _ (t.onWay_self _) content)
          | directory => exact absurd (found.trans (by rw [node])) absent
      · exact .inl (ih last passableAbove above)
    rw [find_child]
    rcases split with missing | missing <;> rw [missing]

theorem makeUpward_ok {root : String} {names : List String} (passable : t.Passable ⟨root, names.reverse⟩) :
    ∃ t', t.makeUpward root names = (t', none) ∧ Grown (t.OnWay ⟨root, names.reverse⟩) t t' ∧
      t'.Reaches ⟨root, names.reverse⟩ := by
  induction names with
  | nil => exact ⟨t, rfl, .refl _ t, passable.start⟩
  | cons name above ih =>
    have path : (⟨root, (name :: above).reverse⟩ : Path) = Path.child ⟨root, above.reverse⟩ name := by
      simp [Path.child]
    rw [path] at passable ⊢
    have short := passable.short name (List.mem_append_right _ List.mem_cons_self)
    have last : ∀ q, q = t.place (Path.child ⟨root, above.reverse⟩ name) →
        t.OnWay (Path.child ⟨root, above.reverse⟩ name) q := by
      rintro q rfl
      exact t.onWay_self _
    by_cases there : t.Reaches ⟨root, above.reverse⟩
    · obtain ⟨t', made, grown, reaches⟩ := makeDirectory_child there short (passable.free _ (t.onWay_self _))
      refine ⟨t', ?_, grown.mono last, reaches⟩
      rw [makeUpward, path, made]
    · -- the directories above come first
      have missing : t.makeDirectory (Path.child ⟨root, above.reverse⟩ name) = .error .missing := by
        rw [makeDirectory, passable.of_child.find_child_missing there]
      obtain ⟨t₁, madeAbove, grownAbove, reachesAbove⟩ := ih passable.of_child
      have passable₁ := passable.of_grown grownAbove
      obtain ⟨t', made, grown, reaches⟩ := makeDirectory_child reachesAbove short (passable₁.free _ (t₁.onWay_self _))
      refine ⟨t', ?_, (grownAbove.mono fun q onWay => onWay.child name).trans (grown.mono fun q here => ?_), reaches⟩
      · rw [makeUpward, path, missing]
        simp only [madeAbove, made]
      · exact last q (grownAbove.place _ ▸ here)

/-- All directories of a passable path are made. -/
theorem makeDirectories_ok {p : Path} (passable : t.Passable p) :
    ∃ t', t.makeDirectories p = (t', none) ∧ Grown (t.OnWay p) t t' ∧ t'.Reaches p := by
  have reversed : (⟨p.root, p.names.reverse.reverse⟩ : Path) = p := by rw [List.reverse_reverse]
  rw [← reversed] at passable
  have made := makeUpward_ok passable
  rwa [reversed] at made

/-- A file is written below a directory that is there. -/
theorem write_ok {p : Path} {name : String} (above : t.Reaches p) (short : name.utf8ByteSize ≤ maxName)
    (free : t.node? (t.place (p.child name)) ≠ some .directory) (content : ByteArray) :
    t.write (p.child name) content = .ok (t.put (t.place (p.child name)) (.file content)) := by
  have found := above.find_child short
  rw [write, found]
  split
  · rename_i there
    exact absurd (congrArg (·.2) (Except.ok.inj there)) free
  · rename_i there
    obtain ⟨rfl, -⟩ := Prod.mk.inj (Except.ok.inj there)
    rfl
  · rename_i there
    cases there

/-! ## Steps on any path -/

theorem makeDirectory_grown {p : Path} (made : t.makeDirectory p = .ok t') : Grown (· = t.place p) t t' := by
  rw [makeDirectory] at made
  split at made
  · cases made
  · obtain rfl := Except.ok.inj made
    exact .refl _ t
  · cases made
  · rename_i full found
    obtain ⟨rfl, absent⟩ := find_ok found
    obtain rfl := Except.ok.inj made
    exact grown_put absent.symm

/-- Whether or not a directory can be made, no more is done than that directories are made on the way there. -/
theorem makeUpward_grown (t : Tree) (root : String) (names : List String) :
    Grown (t.OnWay ⟨root, names.reverse⟩) t (t.makeUpward root names).1 := by
  induction names generalizing t with
  | nil => exact .refl _ t
  | cons name above ih =>
    have path : (⟨root, (name :: above).reverse⟩ : Path) = Path.child ⟨root, above.reverse⟩ name := by
      simp [Path.child]
    have last : ∀ {t₁ t₂ : Tree}, (∀ p, t₁.place p = t.place p) → t₁.makeDirectory ⟨root, (name :: above).reverse⟩ = .ok t₂ →
        Grown (t.OnWay ⟨root, (name :: above).reverse⟩) t₁ t₂ := by
      intro t₁ t₂ place made
      refine (makeDirectory_grown made).mono ?_
      rintro q rfl
      exact place _ ▸ t.onWay_self _
    rw [makeUpward]
    split
    · rename_i made
      exact last (fun _ => rfl) made
    · have grownAbove := (ih t).mono fun q onWay => path ▸ onWay.child name
      split
      · rename_i made
        exact made ▸ grownAbove
      · rename_i t₁ made
        rw [made] at grownAbove
        split
        · rename_i t₂ madeLast
          exact grownAbove.trans (last grownAbove.place madeLast)
        · exact grownAbove
    · exact .refl _ t

theorem makeDirectories_grown (t : Tree) (p : Path) : Grown (t.OnWay p) t (t.makeDirectories p).1 := by
  have grown := t.makeUpward_grown p.root p.names.reverse
  rwa [List.reverse_reverse] at grown

/-- A file that is written stands where its path leads, and no directory stood there. -/
theorem write_put {p : Path} {content : ByteArray} (written : t.write p content = .ok t') :
    t.node? (t.place p) ≠ some .directory ∧ t' = t.put (t.place p) (.file content) := by
  rw [write] at written
  split at written
  · cases written
  · rename_i full node free found
    obtain ⟨rfl, rfl⟩ := find_ok found
    exact ⟨free, (Except.ok.inj written).symm⟩
  · cases written

end Tree

/-! ## Vacant directories -/

/-- A path inside a directory, which is not inside itself. -/
def Path.Inside (base p : Path) : Prop := ∃ names, names ≠ [] ∧ p = base.below (.ofNames names)

namespace Tree

variable {t : Tree}

/-- A directory in which nothing stands. It may have to be made, as long as the way there does not lead through it. -/
structure Vacant (t : Tree) (p : Path) : Prop where
  passable : t.Passable p
  apart : ∀ q, t.OnWay p q → ¬ (t.place p).Inside q
  empty : ∀ q, (t.place p).Inside q → t.node? q = none

theorem Reaches.parent {p : Path} {name : String} (reaches : t.Reaches (p.child name)) :
    t.Reaches p ∧ name.utf8ByteSize ≤ maxName := by
  rw [Reaches, Tree.find_child] at reaches
  split at reaches
  · cases reaches
  · cases reaches
  · cases reaches
  · rename_i found
    split at reaches
    · cases reaches
    · rename_i short
      exact ⟨by rw [Reaches, found, ← (find_ok found).1], not_lt.mp short⟩

/-- The way to a directory that is there leads through directories only. -/
theorem Reaches.onWay {p q : Path} (reaches : t.Reaches p) (onWay : t.OnWay p q) : t.node? q = some .directory := by
  obtain ⟨root, names⟩ := p
  obtain ⟨taken, within, rfl⟩ := onWay
  induction names using List.reverseRecOn with
  | nil => exact (List.prefix_nil.mp within) ▸ reaches.node
  | append_singleton names name ih =>
    rcases List.prefix_concat_iff.mp within with rfl | shorter
    · exact reaches.node
    · exact ih (Reaches.parent (p := ⟨root, names⟩) reaches).1 shorter

theorem Reaches.passable {p : Path} (reaches : t.Reaches p) : t.Passable p := by
  obtain ⟨root, names⟩ := p
  have above : t.Reaches ⟨root, []⟩ ∧ ∀ name ∈ names, name.utf8ByteSize ≤ maxName := by
    induction names using List.reverseRecOn with
    | nil => exact ⟨reaches, by simp⟩
    | append_singleton names name ih =>
      obtain ⟨parent, short⟩ := Reaches.parent (p := ⟨root, names⟩) reaches
      obtain ⟨start, shortAbove⟩ := ih parent
      exact ⟨start, List.forall_mem_append.mpr ⟨shortAbove, List.forall_mem_singleton.mpr short⟩⟩
  refine ⟨above.1, above.2, fun q onWay content file => ?_⟩
  rw [reaches.onWay onWay] at file
  cases file

/-- A directory that is there is vacant if nothing is inside. -/
theorem vacant_of_isDirectory {p : Path} (directory : t.isDirectory p)
    (empty : ∀ q, (t.place p).Inside q → t.node? q = none) : t.Vacant p := by
  have reaches := reaches_of_isDirectory directory
  refine ⟨reaches.passable, fun q onWay inside => ?_, empty⟩
  have absent := empty q inside
  rw [reaches.onWay onWay] at absent
  cases absent

end Tree

end Tablewright
