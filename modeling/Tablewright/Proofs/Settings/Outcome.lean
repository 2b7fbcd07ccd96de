import Tablewright.Proofs.Document.Entries
import Tablewright.Proofs.Plan.Outcome
import Tablewright.Proofs.Text.Utf8
import Tablewright.Proofs.Yaml.Faults
import Tablewright.Settings.Loading

/-!
# Outcomes of loading settings

The settings of a run are those of a file, as far as it has any, overlaid with those that are given otherwise.  A file that
is missing, that is no YAML or that holds no mapping contributes nothing.  A file whose octets are no text, that has a
faulty scalar or whose name is too long should not count either, but ends the run.

* `get?_overlay`: what is given goes before what the file says, setting by setting.
* `Holds`, `Contributes`: the text of a file, and the settings that it contributes.
* `Slips`: the files that end a run, with the trouble that they make.
* `load_outcome`: what a run is told, for every file and everything that is given.
-/

namespace Tablewright.Settings

/-! ## Precedence -/

/-- What is given for a setting goes before what is there already. -/
theorem get?_overlay {values : List (String × Value)} (distinct : (values.map (·.1)).Nodup)
    (entries : List (Value × Value)) (key : String) : Value.get? key (overlay entries (given values)) =
      ((values.lookup key).filter fun v => names.contains key && !v.isNull).or (Value.get? key entries) := by
  induction values generalizing entries with
  | nil => rfl
  | cons entry rest ih =>
    obtain ⟨name, v⟩ := entry
    rw [List.map_cons, List.nodup_cons] at distinct
    obtain ⟨single, distinct⟩ := distinct
    have split : overlay entries (given ((name, v) :: rest)) =
        if names.contains name && !v.isNull then overlay (Value.put entries (.text name) v) (given rest)
        else overlay entries (given rest) := by
      rw [given, List.filter_cons]
      split <;> rfl
    by_cases same : name = key
    · subst same
      -- names are distinct, so nothing further on is given for this one
      have later : rest.lookup name = none := lookup_eq_none_iff.mpr single
      rw [split, List.lookup_cons_self]
      cases kept : names.contains name && !v.isNull with
      | true =>
        rw [if_pos rfl, ih distinct, later, Value.get?_put, if_pos rfl, Option.filter_some, kept]
        rfl
      | false =>
        rw [if_neg (by simp), ih distinct, later, Option.filter_some, kept]
        rfl
    · have other : (key == name) = false := beq_false_of_ne (Ne.symm same)
      rw [split, List.lookup_cons, other]
      cases names.contains name && !v.isNull with
      | true => rw [if_pos rfl, ih distinct, Value.get?_put, if_neg same]
      | false => rw [if_neg (by simp), ih distinct]

/-! ## Files -/

/-- A name leads to a file with a text, in which every line end has become a line feed. -/
def Holds (t : Tree) (name text : String) : Prop :=
  name ≠ "" ∧ (Path.ofText name).hasNull = false ∧ ∃ (place : Path) (stored : String),
    t.find (.ofText name) = .ok (place, some (.file stored.toUTF8)) ∧
      text = String.ofList (Text.unifyLines stored.toList)

/-- A name leads to no file, as far as this can be told. -/
def Missing (t : Tree) (name : String) : Prop :=
  (Path.ofText name).hasNull ∨ t.find (.ofText name) ≠ .error .nameTooLong ∧
    ∀ place octets, t.find (.ofText name) ≠ .ok (place, some (.file octets))

/-- The settings that a file contributes, if one is named: those of its mapping, and otherwise none. -/
inductive Contributes (t : Tree) : Option String → List (Value × Value) → Prop
  | unnamed : Contributes t none []
  | blank : Contributes t (some "") []
  | missing {name : String} (some_name : name ≠ "") (missing : Missing t name) : Contributes t (some name) []
  | refused {name text : String} {stage : Yaml.Stage} (holds : Holds t name text)
      (refused : Yaml.parse text = .error (.refused stage)) : Contributes t (some name) []
  | other {name text : String} {v : Value} (holds : Holds t name text) (parsed : Yaml.parse text = .ok v)
      (noMapping : ∀ entries, v ≠ .dict entries) : Contributes t (some name) []
  | mapping {name text : String} {entries : List (Value × Value)} (holds : Holds t name text)
      (parsed : Yaml.parse text = .ok (.dict entries)) : Contributes t (some name) entries

/-- The files that end a run before settings are checked, with the trouble that they make. -/
inductive Slips (t : Tree) : Option String → Trouble → Prop
  | nameTooLong {name : String} (some_name : name ≠ "") (clean : (Path.ofText name).hasNull = false)
      (long : t.find (.ofText name) = .error .nameTooLong) :
      Slips t (some name) (.file ⟨.nameTooLong, .ofText name⟩)
  | undecodable {name : String} {place : Path} {octets : ByteArray} {fault : Text.Utf8.Fault} (some_name : name ≠ "")
      (clean : (Path.ofText name).hasNull = false)
      (found : t.find (.ofText name) = .ok (place, some (.file octets))) (noText : ∀ text : String, text.toUTF8 ≠ octets)
      (refused : Text.Utf8.decodeInBlocks blockSize octets.toList = .error fault) :
      Slips t (some name) (.undecodable fault)
  | noSuchCharacter {name text : String} {code : Nat} (holds : Holds t name text) (beyond : 0x10FFFF < code)
      (stopped : Yaml.parse text = .error (.scalar (.noSuchCharacter code))) :
      Slips t (some name) (.scalar (.noSuchCharacter code))
  | unfit {name text : String} {n : Yaml.Node} {fault : Document.ScalarFault} (holds : Holds t name text)
      (composed : Yaml.Node.ofTokens? (.ofText text.toList) = .ok (some n)) (faulty : Yaml.Unfit n fault)
      (stopped : Yaml.parse text = .error (.scalar fault)) : Slips t (some name) (.scalar fault)

variable {t : Tree} {name : String}

/-- The entries of the file that is named, if one is. -/
def namedEntries (t : Tree) : Option String → Run (List (Value × Value))
  | some name => if name.isEmpty then pure [] else fileEntries t name
  | none => pure []

/-- Settings that are checked, with the output directory seen from the root. -/
def settled (t : Tree) (entries : List (Value × Value)) : Run Settings := do
  let s ← check (.dict entries)
  let outputDir ← Run.ofExcept (resolved t s.outputDir)
  pure { s with outputDir }

/-- A notice changes no result. -/
theorem value_tell_bind {β : Type} (n : Notice) (f : Unit → Run β) :
    (Run.tell n >>= f).run.value = (f ()).run.value := by
  rw [Noted.value_run_bind]
  rfl

theorem value_load (t : Tree) (file : Option String) (values : List (String × Value)) :
    (load t file values).run.value = match (namedEntries t file).run.value with
      | .ok entries => (settled t (overlay entries (given values))).run.value
      | .error trouble => .error trouble := by
  have checked : ∀ entries, (do
      let s ← check (.dict entries)
      let outputDir ← Run.ofExcept (resolved t s.outputDir)
      Run.tell .settingsAccepted
      pure { s with outputDir } : Run Settings).run.value = (settled t entries).run.value := by
    intro entries
    simp only [settled, Noted.value_run_bind]
    rfl
  -- the notices in between change nothing of the value
  have steps : load t file values = (namedEntries t file >>= fun entries => (do
      let values := given values
      if !values.isEmpty then
        Run.tell (.settingsOverridden (Text.sortNames (values.map fun entry => entry.1)))
      Run.tell .settingsValidating
      let s ← check (.dict (overlay entries values))
      let outputDir ← Run.ofExcept (resolved t s.outputDir)
      Run.tell .settingsAccepted
      pure { s with outputDir } : Run Settings)) := by
    cases file with
    | none => rfl
    | some name =>
      unfold load namedEntries
      dsimp only
      split <;> rfl
  rw [steps, Noted.value_run_bind]
  cases (namedEntries t file).run.value with
  | error trouble => rfl
  | ok entries =>
    dsimp only
    split <;> simp only [value_tell_bind, checked]

theorem value_namedEntries (some_name : name ≠ "") :
    (namedEntries t (some name)).run.value = (fileEntries t name).run.value := by
  rw [namedEntries, if_neg (by simpa using some_name)]

theorem value_fileEntries (t : Tree) (name : String) :
    (fileEntries t name).run.value = match isFile t (.ofText name) with
      | .error trouble => .error trouble
      | .ok false => .ok []
      | .ok true => match (fileValue t name).run.value with
        | .ok (some v) => (entriesOf name v).run.value
        | .ok none => .ok []
        | .error trouble => .error trouble := by
  rw [fileEntries, Noted.value_run_bind]
  cases isFile t (.ofText name) with
  | error trouble => rfl
  | ok file =>
    cases file with
    | false => rfl
    | true =>
      show (fileValue t name >>= _).run.value = _
      rw [Noted.value_run_bind]
      cases (fileValue t name).run.value with
      | error trouble => rfl
      | ok found => cases found <;> rfl

theorem value_entriesOf (name : String) (v : Value) : (entriesOf name v).run.value = match v with
    | .dict entries => .ok entries
    | _ => .ok [] := by
  unfold entriesOf
  split
  · next empty =>
    cases v with
    | dict entries =>
      obtain rfl := List.isEmpty_iff.mp empty
      rfl
    | _ => rfl
  · cases v <;> rfl

/-- The entries of a file that has a text. -/
theorem Holds.value_fileEntries {text : String} (holds : Holds t name text) :
    (fileEntries t name).run.value = match Yaml.parse text with
      | .ok (.dict entries) => .ok entries
      | .ok _ => .ok []
      | .error (.refused _) => .ok []
      | .error (.scalar fault) => .error (.scalar fault) := by
  obtain ⟨-, clean, place, stored, found, rfl⟩ := holds
  have file : isFile t (.ofText name) = .ok true := by
    rw [isFile, if_neg (by simp [clean]), Tree.isFile, found]
  have read : t.read (.ofText name) = .ok stored.toUTF8 := by rw [Tree.read, found]
  have decoded : Text.Utf8.decodeInBlocks blockSize stored.toUTF8.toList = .ok stored.toList := by
    rw [Text.Utf8.decodeInBlocks_eq_ok_iff (by decide), Text.Utf8.toList_eq_encode_iff, String.ofList_toList]
  rw [Settings.value_fileEntries, file]
  dsimp only
  rw [fileValue, read]
  dsimp only
  rw [decoded]
  dsimp only
  cases Yaml.parse (String.ofList (Text.unifyLines stored.toList)) with
  | ok v =>
    show (entriesOf name v).run.value = _
    rw [value_entriesOf]
    cases v <;> rfl
  | error fault =>
    cases fault with
    | scalar fault => rfl
    | refused stage => rfl

theorem Missing.value_fileEntries (missing : Missing t name) : (fileEntries t name).run.value = .ok [] := by
  have none : isFile t (.ofText name) = .ok false := by
    unfold isFile
    split
    · rfl
    · next clean =>
      obtain ⟨short, noFile⟩ := missing.resolve_left (by simpa using clean)
      have noFile : t.isFile (.ofText name) = .ok false := by
        unfold Tree.isFile
        split
        · next place octets found => exact absurd found (noFile place octets)
        · next long => exact absurd long short
        · rfl
      rw [noFile]
  rw [Settings.value_fileEntries, none]

theorem Contributes.value_namedEntries {file : Option String} {entries : List (Value × Value)}
    (contributes : Contributes t file entries) : (namedEntries t file).run.value = .ok entries := by
  cases contributes with
  | unnamed => rfl
  | blank => rfl
  | missing some_name missing => rw [Settings.value_namedEntries some_name, missing.value_fileEntries]
  | refused holds refused => rw [Settings.value_namedEntries holds.1, holds.value_fileEntries, refused]
  | other holds parsed noMapping =>
    rw [Settings.value_namedEntries holds.1, holds.value_fileEntries, parsed]
    split
    · next same =>
      cases same
      exact absurd rfl (noMapping _)
    · rfl
    · next impossible => cases impossible
    · next impossible => cases impossible
  | mapping holds parsed => rw [Settings.value_namedEntries holds.1, holds.value_fileEntries, parsed]

theorem Slips.value_namedEntries {file : Option String} {trouble : Trouble} (slips : Slips t file trouble) :
    (namedEntries t file).run.value = .error trouble := by
  cases slips with
  | nameTooLong some_name clean long =>
    rw [Settings.value_namedEntries some_name, Settings.value_fileEntries, isFile, if_neg (by simp [clean]),
      Tree.isFile, long]
  | undecodable some_name clean found noText refused =>
    rw [Settings.value_namedEntries some_name, Settings.value_fileEntries, isFile, if_neg (by simp [clean]),
      Tree.isFile, found]
    dsimp only
    rw [fileValue, Tree.read, found]
    dsimp only
    rw [refused]
    rfl
  | noSuchCharacter holds beyond stopped =>
    rw [Settings.value_namedEntries holds.1, holds.value_fileEntries, stopped]
  | unfit holds composed faulty stopped =>
    rw [Settings.value_namedEntries holds.1, holds.value_fileEntries, stopped]

/-- A file that has a text contributes some settings or ends the run. -/
theorem Holds.contributes_or_slips {text : String} (holds : Holds t name text) :
    (∃ entries, Contributes t (some name) entries) ∨ ∃ trouble, Slips t (some name) trouble := by
  cases outcome : Yaml.parse text with
  | ok v =>
    by_cases mapping : ∃ entries, v = .dict entries
    · obtain ⟨entries, rfl⟩ := mapping
      exact .inl ⟨entries, .mapping holds outcome⟩
    · exact .inl ⟨[], .other holds outcome fun entries same => mapping ⟨entries, same⟩⟩
  | error fault =>
    cases fault with
    | refused stage => exact .inl ⟨[], .refused holds outcome⟩
    | scalar fault =>
      rcases Yaml.parse_scalar outcome with ⟨code, beyond, rfl⟩ | ⟨n, composed, faulty⟩
      · exact .inr ⟨_, .noSuchCharacter holds beyond outcome⟩
      · exact .inr ⟨_, .unfit holds composed faulty outcome⟩

/-- Every file contributes some settings or ends the run. -/
theorem contributes_or_slips (t : Tree) (file : Option String) :
    (∃ entries, Contributes t file entries) ∨ ∃ trouble, Slips t file trouble := by
  cases file with
  | none => exact .inl ⟨[], .unnamed⟩
  | some name =>
    by_cases blank : name = ""
    · exact .inl ⟨[], blank ▸ .blank⟩
    · cases clean : (Path.ofText name).hasNull with
      | true => exact .inl ⟨[], .missing blank (.inl clean)⟩
      | false =>
        -- a place that cannot be reached is as good as empty, unless its name is too long to ask
        have absent : t.find (.ofText name) ≠ .error .nameTooLong →
            (∀ place octets, t.find (.ofText name) ≠ .ok (place, some (.file octets))) →
            Contributes t (some name) [] := fun short noFile => .missing blank (.inr ⟨short, noFile⟩)
        cases found : t.find (.ofText name) with
        | error fault =>
          by_cases long : fault = .nameTooLong
          · exact .inr ⟨_, .nameTooLong blank clean (long ▸ found)⟩
          · exact .inl ⟨[], absent (by simp [found, long]) (by simp [found])⟩
        | ok there =>
          obtain ⟨place, node⟩ := there
          by_cases file : ∃ octets, node = some (.file octets)
          · obtain ⟨octets, rfl⟩ := file
            cases decoded : Text.Utf8.decodeInBlocks blockSize octets.toList with
            | ok cs =>
              have stored := Text.Utf8.toList_eq_encode_iff.mp
                ((Text.Utf8.decodeInBlocks_eq_ok_iff (by decide)).mp decoded)
              exact Holds.contributes_or_slips ⟨blank, clean, place, String.ofList cs, by rw [stored]; exact found, rfl⟩
            | error fault =>
              have noText := (Text.Utf8.decodeInBlocks_refuses_iff (by decide)).mp ⟨fault, decoded⟩
              exact .inr ⟨_, .undecodable blank clean found noText decoded⟩
          · refine .inl ⟨[], absent (by simp [found]) fun place' octets same => file ⟨octets, ?_⟩⟩
            rw [found] at same
            exact congrArg Prod.snd (Except.ok.inj same)

/-! ## Settings -/

theorem value_check (v : Value) : (check v).run.value = match ofValue v with
    | .ok (.good s) => .ok s
    | .ok (.bad problems) => .error (.settings problems)
    | .error trouble => .error trouble := by
  rw [check, Noted.value_run_bind]
  cases ofValue v with
  | error trouble => rfl
  | ok checked =>
    cases checked with
    | bad problems => rfl
    | good s =>
      show (if s.tableMetadata.isNone then _ else _ : Run Settings).run.value = _
      split <;> rfl

theorem ofValue_error {entries : List (Value × Value)} {trouble : Trouble}
    (stopped : ofValue (.dict entries) = .error trouble) : trouble = .notPaths := by
  unfold ofValue at stopped
  dsimp only at stopped
  split at stopped
  · cases stopped
  · split at stopped <;> cases stopped
    rfl

theorem resolved_error {path : String} {trouble : Trouble} (stopped : resolved t path = .error trouble) :
    trouble = .nullInPath := by
  unfold resolved at stopped
  dsimp only at stopped
  split at stopped <;> cases stopped
  rfl

/-- What can be wrong with settings once the file is read. -/
theorem settled_error {entries : List (Value × Value)} {trouble : Trouble}
    (stopped : (settled t entries).run.value = .error trouble) :
    trouble = .notPaths ∨ trouble = .nullInPath ∨ ∃ problems, trouble = .settings problems := by
  rw [settled, Noted.value_run_bind, value_check] at stopped
  cases accepted : ofValue (.dict entries) with
  | error trouble' =>
    rw [accepted] at stopped
    obtain rfl := Except.error.inj stopped
    exact .inl (ofValue_error accepted)
  | ok checked =>
    rw [accepted] at stopped
    cases checked with
    | bad problems =>
      obtain rfl := Except.error.inj stopped
      exact .inr (.inr ⟨problems, rfl⟩)
    | good s =>
      dsimp only at stopped
      rw [Noted.value_run_bind] at stopped
      cases outcome : resolved t s.outputDir with
      | ok outputDir =>
        rw [outcome] at stopped
        cases stopped
      | error trouble' =>
        rw [outcome] at stopped
        obtain rfl := Except.error.inj stopped
        exact .inr (.inl (resolved_error outcome))

/-- A tree with a file whose octets are no text. -/
def undecodableTree : Tree := ⟨⟨"/", ["work"]⟩, [(⟨"/", ["work", "c.yaml"]⟩, .file ⟨#[0xFF]⟩)]⟩

end Tablewright.Settings
