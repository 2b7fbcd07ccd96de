import Tablewright.Document.Loading
import Tablewright.Proofs.Document.Accepted
import Tablewright.Proofs.Yaml.Nodes

/-!
# JSON documents in files of either kind

A portable JSON document has the same mapping whatever the name of its file.

* `Document.Portable.allowed`: it consists of characters of YAML.
* `parse_portable`: it is read as YAML with the value that it has as JSON.
* `mapping_portable`: the mapping does not depend on the name of the file.
-/

namespace Tablewright.Json

open Yaml (isAllowed)

/-! ## Characters -/

theorem Space.Portable.allowed {s : Space} (portable : s.Portable) : ∀ c ∈ s.chars, isAllowed c := by
  intro c member
  rcases portable.blank c member with rfl | rfl | rfl <;> rfl

theorem rawChars_allowed {glyphs : List Glyph} (portable : ∀ g ∈ glyphs, g.Portable) :
    ∀ c ∈ rawChars glyphs, isAllowed c :=
  fun c member => (rawChars_legible portable c member).1

theorem Name.Portable.allowed {n : Name} (portable : n.Portable) : ∀ c ∈ n.quotedChars, isAllowed c := by
  simp only [Name.quotedChars, List.forall_mem_cons, List.forall_mem_append, List.not_mem_nil, false_implies,
    implies_true, and_true]
  refine ⟨rfl, rawChars_allowed portable.glyphs, rfl, fun c member => ?_, rfl⟩
  rw [portable.after c member]
  rfl

mutual

theorem Form.Portable.allowed : {f : Form} → f.Portable → ∀ c ∈ f.chars, isAllowed c
  | .word w, portable => by
    simp only [Form.Portable, Word.Portable, List.mem_cons, List.not_mem_nil, or_false] at portable
    rw [Form.chars]
    rcases portable with same | same | same <;> rw [same] <;> exact List.all_eq_true.mp (by decide)
  | .numeral n, _ => fun c member =>
    Yaml.forall_numeralChars (p := isAllowed) (by decide) c (Yaml.Numeral.mem_numeralChars n c member)
  | .text glyphs, portable => by
    simpa [Form.chars, or_imp, forall_and, isAllowed] using rawChars_allowed portable
  | .emptyList inner, portable => by
    simpa [Form.chars, or_imp, forall_and, isAllowed] using Space.Portable.allowed (s := inner) portable
  | .emptyDict inner, portable => by
    simpa [Form.chars, or_imp, forall_and, isAllowed] using Space.Portable.allowed (s := inner) portable
  | .list members, portable => List.forall_mem_cons.mpr ⟨rfl, Items.Portable.allowed portable⟩
  | .dict members, portable => List.forall_mem_cons.mpr ⟨rfl, Entries.Portable.allowed portable⟩

theorem Items.Portable.allowed : {members : Items} → members.Portable → ∀ c ∈ members.chars, isAllowed c
  | .last before form after, ⟨blank, portable, blank'⟩ => by
    simp only [Items.chars, List.forall_mem_append, List.forall_mem_singleton]
    exact ⟨blank.allowed, Form.Portable.allowed portable, blank'.allowed, rfl⟩
  | .more before form after rest, ⟨blank, portable, blank', later⟩ => by
    simp only [Items.chars, List.forall_mem_append, List.forall_mem_cons]
    exact ⟨blank.allowed, Form.Portable.allowed portable, blank'.allowed, rfl, Items.Portable.allowed later⟩

theorem Entries.Portable.allowed : {members : Entries} → members.Portable → ∀ c ∈ members.chars, isAllowed c
  | .last name before form after, ⟨named, blank, portable, blank'⟩ => by
    simp only [Entries.chars, List.forall_mem_append, List.forall_mem_singleton]
    exact ⟨named.before.allowed, named.allowed, blank.allowed, Form.Portable.allowed portable, blank'.allowed, rfl⟩
  | .more name before form after rest, ⟨named, blank, portable, blank', later⟩ => by
    simp only [Entries.chars, List.forall_mem_append, List.forall_mem_cons]
    exact ⟨named.before.allowed, named.allowed, blank.allowed, Form.Portable.allowed portable, blank'.allowed, rfl,
      Entries.Portable.allowed later⟩

end

theorem Document.Portable.allowed {d : Document} (portable : d.Portable) : d.chars.all isAllowed := by
  rw [List.all_eq_true, Document.chars, List.forall_mem_append, List.forall_mem_append]
  exact ⟨portable.before.allowed, portable.form.allowed, portable.after.allowed⟩

/-! ## Values -/

/-- A portable object is read alike as JSON and as YAML. -/
theorem parse_portable {d : Document} (portable : d.Portable) {es : List (Value × Value)}
    (object : d.form.value = .dict es) :
    Yaml.parse d.text = .ok (.dict es) := by
  rw [Yaml.parse, Document.text, String.toList_ofList]
  simp only [if_pos portable.allowed, Yaml.ofText_document portable object, Yaml.ofTokens?_tokens, bind, Except.bind,
    Yaml.build_nodeOf portable.form, object]

end Tablewright.Json

namespace Tablewright.Document.Source

open Json (Document Form)

variable {s : Source} {t : Tree} {text : String} {es : List (Value × Value)}

theorem mapping_json (json : s.isJson = true) (read : s.text t = .ok text) :
    s.mapping t = .ok es ↔ Json.parse text = .ok (.dict es) := by
  rw [mapping, read]
  simp only [bind, Except.bind, parse, json, if_true]
  cases Json.parse text with
  | error fault => cases fault <;> simp
  | ok v => cases v <;> simp

theorem mapping_yaml (other : s.isJson = false) (read : s.text t = .ok text)
    (value : Yaml.parse text = .ok (.dict es)) :
    s.mapping t = .ok es := by
  rw [mapping, read]
  simp only [bind, Except.bind, parse, other, Bool.false_eq_true, if_false, value]

/-- A text that is accepted as JSON is the text of a document.  If the document is portable, the text has the same
mapping in a file whose name does not say that it is JSON. -/
theorem mapping_portable {s' : Source} {t' : Tree} (json : s.isJson = true) (other : s'.isJson = false)
    (read : s.text t = .ok text) (read' : s'.text t' = .ok text) (accepted : s.mapping t = .ok es) :
    (∃ d : Document, d.text = text ∧ d.form.value = .dict es) ∧
      ∀ d : Document, d.text = text → d.Portable → s'.mapping t' = .ok es := by
  have parsed := (mapping_json json read).mp accepted
  refine ⟨Json.exists_document parsed, ?_⟩
  rintro d rfl portable
  have object : d.form.value = .dict es := Except.ok.inj ((Json.parse_document d).symm.trans parsed)
  exact mapping_yaml other read' (Json.parse_portable portable object)

/-- A document of one entry, with nothing but a space before its value. -/
def entryDocument (f : Form) : Document where
  before := ⟨[], by simp⟩
  form := .dict (.last ⟨⟨[], by simp⟩, [.plain 'a' (by decide)], ⟨[], by simp⟩⟩ ⟨[' '], by simp [Json.isSpace]⟩ f
    ⟨[], by simp⟩)
  after := ⟨[], by simp⟩

def entryTree (text : String) : Tree := ⟨⟨"/", ["work"]⟩, [(⟨"/", ["work", "x.bprint"]⟩, .file text.toUTF8)]⟩

def entrySource : Source := ⟨"x.bprint", .file ⟨"", ["x.bprint"]⟩⟩

theorem text_entrySource (read : textOfOctets text.toUTF8 = .ok text) :
    entrySource.text (entryTree text) = .ok text := by
  have found : (entryTree text).read ⟨"", ["x.bprint"]⟩ = .ok text.toUTF8 := rfl
  have proper : (⟨"", ["x.bprint"]⟩ : Path).hasNull = false := by decide
  simp only [Source.text, entrySource, found, proper, read, Bool.false_eq_true, if_false]

def listForm : Form :=
  .list (.more ⟨[], by simp⟩ (.numeral ⟨false, ['1'], [], none, by simp, by simp, by simp, by simp, fun _ _ =>
    Nat.le_of_ble_eq_true rfl⟩) ⟨[], by simp⟩
    (.last ⟨[' '], by simp [Json.isSpace]⟩ (.word ⟨"true".toList, .bool true, by simp [Json.wordValues]⟩)
      ⟨[], by simp⟩))

theorem entry_portable : entrySource.mapping (entryTree "\x7b\"a\": [1, true]\x7d") =
    .ok [(.text "a", .list [.int 1, .bool true])] := by
  have text : (entryDocument listForm).text = "\x7b\"a\": [1, true]\x7d" := by decide +kernel
  have json : (⟨"", .inline "\x7b\"a\": [1, true]\x7d"⟩ : Source).mapping (.empty ⟨"/", []⟩) =
      .ok [(.text "a", .list [.int 1, .bool true])] := by
    refine (mapping_json rfl rfl).mpr ?_
    rw [← text, Json.parse_document]
    rfl
  have portable : (entryDocument listForm).Portable := by
    have noTab : ∀ s : Json.Space, s.chars = [] ∨ s.chars = [' '] → s.Portable := by
      rintro s (none | space)
      · simp [Json.Space.Portable, none]
      · simp [Json.Space.Portable, space]
    have name : (⟨⟨[], by simp⟩, [.plain 'a' (by decide)], ⟨[], by simp⟩⟩ : Json.Name).Portable :=
      ⟨noTab _ (.inl rfl), by simp [Json.Glyph.Portable, Json.legible_of_printable], by simp, by decide⟩
    refine ⟨noTab _ (.inl rfl), ⟨name, noTab _ (.inr rfl),
      ⟨noTab _ (.inl rfl), by rintro _ ⟨⟩, noTab _ (.inl rfl), noTab _ (.inr rfl), ?_,
      noTab _ (.inl rfl)⟩, noTab _ (.inl rfl)⟩, noTab _ (.inl rfl)⟩
    simp [Json.Form.Portable, Json.Word.Portable]
  exact (mapping_portable rfl (by decide +kernel) rfl (text_entrySource (by decide +kernel)) json).2 _ text portable

/-- An exponent without a point. -/
def exponentForm : Form :=
  .numeral ⟨false, ['1'], [], some ⟨'e', none, ['5'], Yaml.Exponent.small, by simp, by simp, by simp⟩, by simp, by simp, by simp,
    by simp,
    nofun⟩

/-- A number with an exponent but without a point is a text where the name of the file does not say that it is JSON. -/
theorem exponent_differs : ∃ s : Source, ∃ t : Tree, s.isJson = true ∧ s.text t = .ok "\x7b\"a\": 1e5\x7d" ∧
    s.mapping t = .ok [(.text "a", .float (Number.ofDecimal 1 5))] ∧ entrySource.isJson = false ∧
    entrySource.text (entryTree "\x7b\"a\": 1e5\x7d") = .ok "\x7b\"a\": 1e5\x7d" ∧
    entrySource.mapping (entryTree "\x7b\"a\": 1e5\x7d") = .ok [(.text "a", .text "1e5")] := by
  have text : (entryDocument exponentForm).text = "\x7b\"a\": 1e5\x7d" := by decide +kernel
  have other : entrySource.isJson = false := by decide +kernel
  have read : entrySource.text (entryTree "\x7b\"a\": 1e5\x7d") = .ok "\x7b\"a\": 1e5\x7d" :=
    text_entrySource (by decide +kernel)
  have allowed : "\x7b\"a\": 1e5\x7d".toList.all Yaml.isAllowed := by decide +kernel
  have tokens : (Yaml.Tokens.ofText "\x7b\"a\": 1e5\x7d".toList).tokens =
      Yaml.tokens (entryDocument exponentForm).form ++ [.streamEnd] := by
    decide +kernel
  have node : Yaml.Node.ofTokens? (.ofText "\x7b\"a\": 1e5\x7d".toList) =
      .ok (some (Yaml.nodeOf (entryDocument exponentForm).form)) := by
    rw [← Yaml.ofTokens?_tokens _ (Yaml.Tokens.ofText "\x7b\"a\": 1e5\x7d".toList).fault, ← tokens]
  have implied : Yaml.Tag.implied (String.ofList ['1', 'e', '5']) = .text := by decide +kernel
  have build : (Yaml.nodeOf (entryDocument exponentForm).form).build = .ok (.dict [(.text "a", .text "1e5")]) := by
    have scalar : Yaml.nodeOf (entryDocument exponentForm).form =
        .mapping .mapping [(.scalar .text "a", .scalar (.implied (String.ofList ['1', 'e', '5'])) "1e5")] := rfl
    rw [scalar, implied]
    rfl
  refine ⟨⟨"", .inline "\x7b\"a\": 1e5\x7d"⟩, .empty ⟨"/", []⟩, rfl, rfl, (mapping_json rfl rfl).mpr ?_, other, read,
    mapping_yaml other read ?_⟩
  · rw [← text, Json.parse_document]
    rfl
  · rw [Yaml.parse]
    simp only [if_pos allowed, node, bind, Except.bind, build]

end Tablewright.Document.Source
