import Tablewright.Document.Loading
import Tablewright.Proofs.Document.Numerals
import Tablewright.Proofs.Plan.Outcome
import Tablewright.Proofs.Text.Utf8
import Tablewright.Proofs.Yaml.Faults

/-!
# Outcomes of reading documents

Reading a document ends with its mapping or with a failure of loading that names the source, unless something slips
through: a path that holds a null character, octets that are no text, an integer with more digits than are allowed, an
escape of a code that no character has, or a scalar of YAML that is not what its tag says.

* `Source.named`: a document that is named by a text or by a path.
* `Source.Promised`: what is promised about reading a document.
* `Source.Slips`: what slips through, with the trouble that it makes.
* `Source.read_outcome`: the promise is kept exactly where nothing slips through.
-/

namespace Tablewright

/-! ## Texts of paths -/

theorem Path.text_ofText_ne_empty (s : String) : (Path.ofText s).text ≠ "" := by
  intro empty
  unfold Path.text at empty
  split at empty
  · exact absurd empty (by decide)
  · next some =>
    have chars := congrArg String.toList empty
    rw [String.toList_append, String.toList_empty, List.append_eq_nil_iff] at chars
    obtain ⟨noRoot, noNames⟩ := chars
    have root : (Path.ofText s).root.isEmpty := by
      rw [String.toList_eq_nil_iff.mp noRoot]
      rfl
    -- every name of the path is a step, so that the text of the first one is not empty
    cases names : (Path.ofText s).names with
    | nil => exact some (by rw [root, names]; rfl)
    | cons name rest =>
      have step : Path.isStep name := List.of_mem_filter (names ▸ List.mem_cons_self : name ∈ (Path.ofText s).names)
      have blank : name = "" := by
        rw [names, String.toList_intercalate] at noNames
        cases rest with
        | nil => simpa using noNames
        | cons next rest => simp at noNames
      rw [blank] at step
      exact absurd step (by decide)

namespace Document.Source

/-! ## Promises -/

/-- A document that is named by a text, which may be the document itself, or by a path. -/
def named (asPath : Bool) (given : String) : Source := if asPath then ofPath (.ofText given) else ofText given

/-- What is promised about reading a document: it has a mapping, or a failure of loading says which document it is. -/
def Promised (s : Source) (outcome : Except Trouble (List (Value × Value))) : Prop :=
  (∃ entries, outcome = .ok entries) ∨
    ∃ f, outcome = .error (.failure f) ∧ f.topic = .loading ∧ f.report.context = [(.text "source", .text s.label)]

/-- What slips through while a document is read, with the trouble that it makes. -/
inductive Slips (t : Tree) (s : Source) : Trouble → Prop
  | nullInPath {path : Path} (place : s.origin = .file path) (null : path.hasNull) : Slips t s .nullInPath
  | undecodable {path : Path} {octets : ByteArray} {fault : Text.Utf8.Fault} (place : s.origin = .file path)
      (clean : path.hasNull = false) (found : t.read path = .ok octets) (noText : ∀ text : String, text.toUTF8 ≠ octets)
      (refused : Text.Utf8.decode octets.toList = .error fault) : Slips t s (.undecodable fault)
  | longNumeral {text : String} {count : Nat} (given : s.text t = .ok text) (json : s.isJson)
      (long : Json.HasLongRun count text.toList) (stopped : Json.parse text = .error (.longNumeral count)) :
      Slips t s (.scalar (.longNumeral count))
  | noSuchCharacter {text : String} {code : Nat} (given : s.text t = .ok text) (yaml : s.isJson = false)
      (beyond : 0x10FFFF < code) (stopped : Yaml.parse text = .error (.scalar (.noSuchCharacter code))) :
      Slips t s (.scalar (.noSuchCharacter code))
  | unfit {text : String} {n : Yaml.Node} {fault : ScalarFault} (given : s.text t = .ok text) (yaml : s.isJson = false)
      (composed : Yaml.Node.ofTokens? (.ofText text.toList) = .ok (some n)) (faulty : Yaml.Unfit n fault)
      (stopped : Yaml.parse text = .error (.scalar fault)) : Slips t s (.scalar fault)

variable {t : Tree} {s : Source}

theorem Slips.not_promised {trouble : Trouble} (slips : Slips t s trouble) : ¬ s.Promised (.error trouble) := by
  rintro (⟨entries, impossible⟩ | ⟨f, same, -⟩)
  · cases impossible
  · cases slips <;> cases same

theorem mapping_of_text {trouble : Trouble} (stopped : s.text t = .error trouble) : s.mapping t = .error trouble := by
  rw [mapping, stopped]
  rfl

theorem mapping_of_parse {text : String} (given : s.text t = .ok text) : s.mapping t = match s.parse text with
    | .ok (.dict entries) => .ok entries
    | .ok _ => .error (.failure (.notMapping s.label))
    | .error trouble => .error trouble := by
  rw [mapping, given]
  show (s.parse text >>= _) = _
  cases s.parse text with
  | ok v => cases v <;> rfl
  | error trouble => rfl

theorem text_of_file {path : Path} (place : s.origin = .file path) (clean : path.hasNull = false) :
    s.text t = match t.read path with
      | .error fault => .error (.failure (.unreadable path.text (fault.message path.text)))
      | .ok octets => match textOfOctets octets with
        | .ok text => .ok text
        | .error fault => .error (.undecodable fault) := by
  rw [text, place]
  exact if_neg (by simp [clean])

theorem parse_json (json : s.isJson) (text : String) : s.parse text = match Json.parse text with
    | .ok v => .ok v
    | .error (.longNumeral count) => .error (.scalar (.longNumeral count))
    | .error fault => .error (.failure (.unparsable s.label (.json fault.message))) :=
  if_pos json

theorem parse_yaml (yaml : s.isJson = false) (text : String) : s.parse text = match Yaml.parse text with
    | .ok v => .ok v
    | .error (.scalar fault) => .error (.scalar fault)
    | .error (.refused stage) => .error (.failure (.unparsable s.label (.yaml stage))) :=
  if_neg (by simp [yaml])

/-- What slips through is what reading ends with. -/
theorem Slips.mapping_eq {trouble : Trouble} (slips : Slips t s trouble) : s.mapping t = .error trouble := by
  cases slips with
  | nullInPath place null =>
    apply mapping_of_text
    rw [text, place]
    exact if_pos null
  | undecodable place clean found noText refused =>
    apply mapping_of_text
    rw [text_of_file place clean, found]
    dsimp only
    rw [textOfOctets, refused]
    rfl
  | longNumeral given json long stopped => rw [mapping_of_parse given, parse_json json, stopped]
  | noSuchCharacter given yaml beyond stopped => rw [mapping_of_parse given, parse_yaml yaml, stopped]
  | unfit given yaml composed faulty stopped => rw [mapping_of_parse given, parse_yaml yaml, stopped]

/-- A failure that names a source has this place only. -/
theorem promised_failure {f : Failure} (loading : f.topic = .loading) (context : f.context = [])
    (places : f.places = [("source", s.label)]) (some_label : s.label ≠ "") : s.Promised (.error (.failure f)) := by
  refine .inr ⟨f, rfl, loading, ?_⟩
  rw [Failure.report, Report.ofTopic, context, places]
  simp [Report.addPlace, some_label, Value.put]

/-! ## Steps of reading -/

theorem label_named_ne_empty (asPath : Bool) (given : String) : (named asPath given).label ≠ "" := by
  cases asPath with
  | true => exact Path.text_ofText_ne_empty given
  | false =>
    rw [named, if_neg (by simp), ofText]
    split
    · exact show "<inline>" ≠ "" by decide
    · exact Path.text_ofText_ne_empty given

/-- The text of a document is there, or the file cannot be read, or something slips through. -/
theorem text_cases (some_label : s.label ≠ "") : (∃ text, s.text t = .ok text) ∨
    ∃ trouble, s.text t = .error trouble ∧ (s.Promised (.error trouble) ∨ Slips t s trouble) := by
  cases place : s.origin with
  | inline text => exact .inl ⟨text, by rw [Source.text, place]⟩
  | file path =>
    have label : s.label = path.text := by rw [Source.label, place]
    cases null : path.hasNull with
    | true => exact .inr ⟨.nullInPath, by rw [text, place]; exact if_pos null, .inr (.nullInPath place null)⟩
    | false =>
      rw [text_of_file place null]
      cases found : t.read path with
      | error fault =>
        refine .inr ⟨_, rfl, .inl (promised_failure rfl rfl ?_ some_label)⟩
        rw [label]
        rfl
      | ok octets =>
        dsimp only
        cases decoded : Text.Utf8.decode octets.toList with
        | ok cs => exact .inl ⟨_, by rw [textOfOctets, decoded]; rfl⟩
        | error fault =>
          refine .inr ⟨.undecodable fault, by rw [textOfOctets, decoded]; rfl, .inr ?_⟩
          exact .undecodable place null found (Text.Utf8.decode_refuses_iff.mp ⟨fault, decoded⟩) decoded

/-- The text of a document has a value, or it cannot be parsed, or something slips through. -/
theorem parse_cases (some_label : s.label ≠ "") {text : String} (given : s.text t = .ok text) :
    (∃ v, s.parse text = .ok v) ∨
    ∃ trouble, s.parse text = .error trouble ∧ (s.Promised (.error trouble) ∨ Slips t s trouble) := by
  cases json : s.isJson with
  | true =>
    rw [parse_json json]
    cases found : Json.parse text with
    | ok v => exact .inl ⟨v, rfl⟩
    | error fault =>
      cases fault with
      | problem what line column offset => exact .inr ⟨_, rfl, .inl (promised_failure rfl rfl rfl some_label)⟩
      | longNumeral count => exact .inr ⟨_, rfl, .inr (.longNumeral given json (Json.parse_long found) found)⟩
  | false =>
    rw [parse_yaml json]
    cases found : Yaml.parse text with
    | ok v => exact .inl ⟨v, rfl⟩
    | error fault =>
      cases fault with
      | refused stage => exact .inr ⟨_, rfl, .inl (promised_failure rfl rfl rfl some_label)⟩
      | scalar fault =>
        refine .inr ⟨_, rfl, .inr ?_⟩
        rcases Yaml.parse_scalar found with ⟨code, beyond, rfl⟩ | ⟨n, composed, faulty⟩
        · exact .noSuchCharacter given json beyond found
        · exact .unfit given json composed faulty found

theorem mapping_cases (some_label : s.label ≠ "") :
    s.Promised (s.mapping t) ∨ ∃ trouble, s.mapping t = .error trouble ∧ Slips t s trouble := by
  rcases text_cases (t := t) some_label with ⟨text, given⟩ | ⟨trouble, stopped, promised | slips⟩
  · rw [mapping_of_parse given]
    rcases parse_cases some_label given with ⟨v, value⟩ | ⟨trouble, stopped, promised | slips⟩
    · rw [value]
      left
      cases v with
      | dict entries => exact .inl ⟨entries, rfl⟩
      | _ => exact promised_failure rfl rfl rfl some_label
    · rw [stopped]
      exact .inl promised
    · rw [stopped]
      exact .inr ⟨trouble, rfl, slips⟩
  · rw [mapping_of_text stopped]
    exact .inl promised
  · exact .inr ⟨trouble, mapping_of_text stopped, slips⟩

theorem value_read (t : Tree) (s : Source) : (s.read t).run.value = s.mapping t := by
  rw [read, Noted.value_run_bind]
  cases found : s.mapping t <;> rfl

/-- Reading a document, whatever is at its place, ends with a mapping or with a failure of loading that names its
source, exactly where nothing slips through; what does is what reading ends with. -/
theorem read_outcome (t : Tree) (asPath : Bool) (given : String) :
    ((named asPath given).Promised ((named asPath given).read t).run.value ↔
      ∀ trouble, ¬ Slips t (named asPath given) trouble) ∧
    ∀ trouble, Slips t (named asPath given) trouble → ((named asPath given).read t).run.value = .error trouble := by
  rw [value_read]
  refine ⟨⟨fun promised trouble slips => ?_, fun none => ?_⟩, fun trouble slips => slips.mapping_eq⟩
  · rw [slips.mapping_eq] at promised
    exact slips.not_promised promised
  · rcases mapping_cases (t := t) (label_named_ne_empty asPath given) with promised | ⟨trouble, -, slips⟩
    · exact promised
    · exact absurd slips (none trouble)

/-- A file whose only octet stands for no character. -/
def undecodableTree : Tree := ⟨⟨"/", ["work"]⟩, [(⟨"/", ["work", "x.bprint"]⟩, .file ⟨#[0xFF]⟩)]⟩

/-- Octets that are no text end reading in a way of their own, which is no failure of loading. -/
theorem undecodableTree_slips : Slips undecodableTree (named false "x.bprint") (.undecodable ⟨0xFF, 0, 1, .start⟩) ∧
    ¬ (named false "x.bprint").Promised ((named false "x.bprint").read undecodableTree).run.value := by
  have refused : Text.Utf8.decode (ByteArray.mk #[0xFF]).toList = .error ⟨0xFF, 0, 1, .start⟩ := by
    rw [Text.Utf8.toList_eq]
    rfl
  have slips : Slips undecodableTree (named false "x.bprint") (.undecodable ⟨0xFF, 0, 1, .start⟩) :=
    .undecodable (show (named false "x.bprint").origin = .file ⟨"", ["x.bprint"]⟩ by decide) (by decide) rfl
      (Text.Utf8.decode_refuses_iff.mp ⟨_, refused⟩) refused
  refine ⟨slips, ?_⟩
  rw [value_read, slips.mapping_eq]
  exact slips.not_promised

end Document.Source

end Tablewright
