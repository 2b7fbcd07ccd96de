import Tablewright.Proofs.Yaml.Flow
import Tablewright.Yaml.Construction

/-!
# Nodes and values of JSON documents

The node that the tokens of a form describe, and the value that is built from it.

* `nodeOf`: the node of a form; `node_tokens`: it is read from the front of the tokens.
* `buildAt_nodeOf`: the value of the node is the one of the form.
* `ofTokens?_document`: the node of a whole document.
-/

namespace Tablewright.Yaml

open Json (Form Items Entries)

/-! ## Nodes -/

mutual

/-- The node of a form. -/
def nodeOf : Form → Node
  | .word w => .scalar (.implied (String.ofList w.chars)) (String.ofList w.chars)
  | .numeral n => .scalar (.implied (String.ofList n.chars)) (String.ofList n.chars)
  | .text glyphs => .scalar .text (String.ofList (Json.decoded glyphs))
  | .emptyList _ => .sequence .sequence []
  | .list members => .sequence .sequence (itemNodes members)
  | .emptyDict _ => .mapping .mapping []
  | .dict members => .mapping .mapping (entryNodes members)

def itemNodes : Items → List Node
  | .last _ form _ => [nodeOf form]
  | .more _ form _ rest => nodeOf form :: itemNodes rest

def entryNodes : Entries → List (Node × Node)
  | .last name _ form _ => [(.scalar .text name.key, nodeOf form)]
  | .more name _ form _ rest => (.scalar .text name.key, nodeOf form) :: entryNodes rest

end

def StartsForm (t : Token) : Prop :=
  t = .flowSequenceStart ∨ t = .flowMappingStart ∨ ∃ text plain, t = .scalar text plain

theorem tokens_cons (f : Form) : ∃ t ts, tokens f = t :: ts ∧ StartsForm t := by
  cases f with
  | word w => exact ⟨_, _, rfl, .inr (.inr ⟨_, _, rfl⟩)⟩
  | numeral n => exact ⟨_, _, rfl, .inr (.inr ⟨_, _, rfl⟩)⟩
  | text glyphs => exact ⟨_, _, rfl, .inr (.inr ⟨_, _, rfl⟩)⟩
  | emptyList inner => exact ⟨_, _, rfl, .inl rfl⟩
  | list members => exact ⟨_, _, rfl, .inl rfl⟩
  | emptyDict inner => exact ⟨_, _, rfl, .inr (.inl rfl)⟩
  | dict members => exact ⟨_, _, rfl, .inr (.inl rfl)⟩

section

variable {place : Place} {fuel : Nat} {r after : Reading} {more : List Token} {n : Node}

theorem node_scalar (text : String) (plain : Bool) :
    node place (fuel + 1) { r with tokens := .scalar text plain :: more } =
    .ok (.scalar (if plain then .implied text else .text) text, { r with tokens := more }) := by
  cases plain <;> rfl

theorem node_sequence : node place (fuel + 2) { r with tokens := .flowSequenceStart :: more } =
    (flowItems true fuel { r with tokens := more }).map fun (items, r) => (.sequence .sequence items, r) := by
  rw [node]
  simp only [Reading.peek, bind, Except.bind, Properties.read, Opening.of?, Reading.claim, collection, Reading.drop,
    List.drop_one, List.tail_cons]
  cases flowItems true fuel { r with tokens := more } <;> rfl

theorem node_mapping : node place (fuel + 2) { r with tokens := .flowMappingStart :: more } =
    (flowEntries true fuel { r with tokens := more }).map fun (entries, r) => (.mapping .mapping entries, r) := by
  rw [node]
  simp only [Reading.peek, bind, Except.bind, Properties.read, Opening.of?, Reading.claim, collection, Reading.drop,
    List.drop_one, List.tail_cons]
  cases flowEntries true fuel { r with tokens := more } <;> rfl

/-- An item of a sequence, after a comma unless it is the first. -/
theorem flowItems_item (first : Bool) {t : Token} {ts : List Token} (starts : StartsForm t)
    (item : node .flow fuel { r with tokens := t :: ts } = .ok (n, after)) :
    flowItems first (fuel + 1) { r with tokens := (if first then [] else [.flowEntry]) ++ t :: ts } =
      (flowItems false fuel after).map fun (rest, r) => (n :: rest, r) := by
  have same : flowItems first (fuel + 1) { r with tokens := (if first then [] else [.flowEntry]) ++ t :: ts } =
      (node .flow fuel { r with tokens := t :: ts }).bind fun found =>
        (flowItems false fuel found.2).bind fun more => .ok (found.1 :: more.1, more.2) := by
    rw [flowItems]
    cases first <;> rcases starts with rfl | rfl | ⟨text, plain, rfl⟩ <;> rfl
  rw [same, item]
  simp only [Except.bind]
  cases flowItems false fuel after <;> rfl

theorem flowItems_end : flowItems false (fuel + 1) { r with tokens := .flowSequenceEnd :: more } =
    .ok ([], { r with tokens := more }) :=
  rfl

theorem nodeUnless_form {afterKey : Bool} {t : Token} {ts : List Token} (starts : StartsForm t) :
    nodeUnless (endsFlow .flowMappingEnd afterKey) .flow (fuel + 1) { r with tokens := t :: ts } =
      node .flow fuel { r with tokens := t :: ts } := by
  have goes : endsFlow .flowMappingEnd afterKey t = false := by
    rcases starts with rfl | rfl | ⟨text, plain, rfl⟩ <;> cases afterKey <;> rfl
  rw [nodeUnless]
  simp only [Reading.peek, bind, Except.bind, goes, Bool.false_eq_true, if_false]

/-- An entry of a mapping, after a comma unless it is the first. -/
theorem flowEntries_entry (first : Bool) (key : String) {t : Token} {ts : List Token} (starts : StartsForm t)
    (value : node .flow fuel { r with tokens := t :: ts } = .ok (n, after)) :
    flowEntries first (fuel + 3)
        { r with tokens := (if first then [] else [.flowEntry]) ++ .key :: .scalar key false :: .value :: t :: ts } =
      (flowEntries false (fuel + 2) after).map fun (rest, r) => ((.scalar .text key, n) :: rest, r) := by
  have key' : nodeUnless (endsFlow .flowMappingEnd true) .flow (fuel + 2)
      { r with tokens := .scalar key false :: .value :: t :: ts } =
      .ok (.scalar .text key, { r with tokens := .value :: t :: ts }) := by
    rw [nodeUnless_form (.inr (.inr ⟨_, _, rfl⟩)), node_scalar]
    rfl
  have value' : valueNode (endsFlow .flowMappingEnd false) .flow (fuel + 2) { r with tokens := .value :: t :: ts } =
      .ok (n, after) :=
    (nodeUnless_form starts).trans value
  have same : flowEntries first (fuel + 3)
      { r with tokens := (if first then [] else [.flowEntry]) ++ .key :: .scalar key false :: .value :: t :: ts } =
      (nodeUnless (endsFlow .flowMappingEnd true) .flow (fuel + 2)
          { r with tokens := .scalar key false :: .value :: t :: ts }).bind fun k =>
        (valueNode (endsFlow .flowMappingEnd false) .flow (fuel + 2) k.2).bind fun v =>
          (flowEntries false (fuel + 2) v.2).bind fun more => .ok ((k.1, v.1) :: more.1, more.2) := by
    rw [flowEntries]
    cases first <;> rfl
  rw [same, key']
  simp only [Except.bind, value']
  cases flowEntries false (fuel + 2) after <;> rfl

theorem flowEntries_end :
    flowEntries false (fuel + 1) { r with tokens := .flowMappingEnd :: more } = .ok ([], { r with tokens := more }) :=
  rfl

end

mutual

/-- The node of a form is read from its tokens, whatever comes after them. -/
theorem node_tokens : (f : Form) → (place : Place) → (fuel : Nat) → (r : Reading) → (more : List Token) →
    2 * (tokens f).length ≤ fuel →
    node place fuel { r with tokens := tokens f ++ more } = .ok (nodeOf f, { r with tokens := more })
  | .word w, _, fuel + 1, r, more, _ => node_scalar _ true
  | .numeral n, _, fuel + 1, r, more, _ => node_scalar _ true
  | .text glyphs, _, fuel + 1, r, more, _ => node_scalar _ false
  | .emptyList inner, _, fuel + 3, r, more, _ => node_sequence
  | .emptyDict inner, _, fuel + 3, r, more, _ => node_mapping
  | .list members, _, fuel + 2, r, more, enough => by
    rw [tokens, List.length_cons] at enough
    have read := flowItems_tokens members true fuel r more (by omega)
    rw [tokens, List.cons_append, node_sequence]
    exact congrArg (Except.map _) read
  | .dict members, _, fuel + 2, r, more, enough => by
    rw [tokens, List.length_cons] at enough
    have read := flowEntries_tokens members true fuel r more (by omega)
    rw [tokens, List.cons_append, node_mapping]
    exact congrArg (Except.map _) read

theorem flowItems_tokens : (members : Items) → (first : Bool) → (fuel : Nat) → (r : Reading) → (more : List Token) →
    2 * (itemTokens members).length ≤ fuel →
    flowItems first fuel { r with tokens := (if first then [] else [.flowEntry]) ++ (itemTokens members ++ more) } =
      .ok (itemNodes members, { r with tokens := more })
  | .last before form after, first, fuel, r, more, enough => by
    obtain ⟨t, ts, cons, starts⟩ := tokens_cons form
    rw [itemTokens, List.length_append, List.length_singleton] at enough
    obtain ⟨fuel, rfl⟩ : ∃ m, fuel = m + 2 := ⟨fuel - 2, by omega⟩
    have item := node_tokens form .flow (fuel + 1) r (.flowSequenceEnd :: more) (by omega)
    have read := flowItems_item first starts (by rwa [cons] at item)
    rw [itemTokens, List.append_assoc, cons]
    exact read.trans (congrArg (Except.map _) flowItems_end)
  | .more before form after rest, first, fuel, r, more, enough => by
    obtain ⟨t, ts, cons, starts⟩ := tokens_cons form
    rw [itemTokens, List.length_append, List.length_cons] at enough
    obtain ⟨fuel, rfl⟩ : ∃ m, fuel = m + 2 := ⟨fuel - 2, by omega⟩
    have item := node_tokens form .flow (fuel + 1) r (.flowEntry :: (itemTokens rest ++ more)) (by omega)
    have later := flowItems_tokens rest false (fuel + 1) r more (by omega)
    have read := flowItems_item first starts (by rwa [cons] at item)
    rw [itemTokens, List.append_assoc, cons]
    exact read.trans (congrArg (Except.map _) later)

theorem flowEntries_tokens : (members : Entries) → (first : Bool) → (fuel : Nat) → (r : Reading) → (more : List Token) →
    2 * (entryTokens members).length ≤ fuel →
    flowEntries first fuel { r with tokens := (if first then [] else [.flowEntry]) ++ (entryTokens members ++ more) } =
      .ok (entryNodes members, { r with tokens := more })
  | .last name before form after, first, fuel, r, more, enough => by
    obtain ⟨t, ts, cons, starts⟩ := tokens_cons form
    simp only [entryTokens, List.length_cons, List.length_append, List.length_nil] at enough
    obtain ⟨fuel, rfl⟩ : ∃ m, fuel = m + 3 := ⟨fuel - 3, by omega⟩
    have value := node_tokens form .flow fuel r (.flowMappingEnd :: more) (by omega)
    have read := flowEntries_entry first name.key starts (by rwa [cons] at value)
    rw [entryTokens, List.cons_append, List.cons_append, List.cons_append, List.append_assoc, cons]
    exact read.trans (congrArg (Except.map _) flowEntries_end)
  | .more name before form after rest, first, fuel, r, more, enough => by
    obtain ⟨t, ts, cons, starts⟩ := tokens_cons form
    simp only [entryTokens, List.length_cons, List.length_append] at enough
    obtain ⟨fuel, rfl⟩ : ∃ m, fuel = m + 3 := ⟨fuel - 3, by omega⟩
    have value := node_tokens form .flow fuel r (.flowEntry :: (entryTokens rest ++ more)) (by omega)
    have later := flowEntries_tokens rest false (fuel + 2) r more (by omega)
    have read := flowEntries_entry first name.key starts (by rwa [cons] at value)
    rw [entryTokens, List.cons_append, List.cons_append, List.cons_append, List.append_assoc, cons]
    exact read.trans (congrArg (Except.map _) later)

end

/-- A document that consists of the tokens of a form is the node of the form. -/
theorem ofTokens?_tokens (f : Form) (fault : Fault) :
    Node.ofTokens? ⟨tokens f ++ [.streamEnd], fault⟩ = .ok (some (nodeOf f)) := by
  obtain ⟨t, ts, cons, starts⟩ := tokens_cons f
  have read := node_tokens f .block (4 * (tokens f ++ [Token.streamEnd]).length + 4)
    ⟨tokens f ++ [.streamEnd], fault, [], usualHandles⟩ [.streamEnd] (by rw [List.length_append]; omega)
  have implicit : startsExplicitly t = false := by rcases starts with rfl | rfl | ⟨text, plain, rfl⟩ <;> rfl
  have first : (⟨tokens f ++ [.streamEnd], fault, [], usualHandles⟩ : Reading).peek = .ok t := by
    rw [Reading.peek, cons]
    rfl
  rw [Node.ofTokens?]
  simp only [first, bind, Except.bind, implicit, Bool.false_eq_true, if_false]
  rw [read]
  rfl

/-! ## Values -/

/-- Entries whose names are texts are merged with no others. -/
theorem merged_texts {fuel : Nat} {entries : List (Node × Node)} (texts : ∀ entry ∈ entries, entry.1.tag = .text) :
    merged (fuel + 1) entries = some entries := by
  have parts : entries.mapM (contributed (merged fuel)) = some (entries.map fun entry => ([], [entry])) := by
    induction entries with
    | nil => rfl
    | cons entry entries ih =>
      rw [List.forall_mem_cons] at texts
      have own : contributed (merged fuel) entry = some ([], [entry]) := by rw [contributed, texts.1]
      rw [List.mapM_cons, own, ih texts.2]
      rfl
  rw [merged, parts]
  simp [List.flatMap_map]

theorem entryNodes_texts : (members : Entries) → ∀ entry ∈ entryNodes members, entry.1.tag = .text
  | .last name _ form _ => by simp [entryNodes, Node.tag]
  | .more name _ form _ rest => List.forall_mem_cons.mpr ⟨rfl, entryNodes_texts rest⟩

theorem buildAt_scalar {tag : Tag} {text : String} {v : Value} (stands : scalarValue? tag text = some (.ok v))
    (fuel level : Nat) :
    Node.buildAt (fuel + 1) level (.scalar tag text) = .good v := by
  -- the tags of collections have no scalars
  cases tag <;> first
    | (rw [Node.buildAt]; simp only [Node.tag, scalarText?, Option.bind_some, stands, Built.ofExcept]; done)
    | cases stands

theorem buildAt_sequence (fuel level : Nat) (items : List Node) :
    Node.buildAt (fuel + 1) level (.sequence .sequence items) =
    (Built.each (Node.buildAt fuel (level + 1)) items).map .list :=
  rfl

theorem buildAt_mapping (fuel level : Nat) {entries : List (Node × Node)}
    (texts : ∀ entry ∈ entries, entry.1.tag = .text) :
    Node.buildAt (fuel + 2) level (.mapping .mapping entries) =
      ((Built.each (builtKeyed (Node.buildAt (fuel + 1)) (level + 1)) entries).map
        fun pairs => pairs.foldl (fun es pair => Value.put es pair.1 pair.2) []).map .dict := by
  have mapping : Node.buildAt (fuel + 2) level (.mapping .mapping entries) =
      (builtMapping (Node.buildAt (fuel + 1)) (level + 1) (fuel + 1) (.mapping .mapping entries)).map .dict := rfl
  rw [mapping, builtMapping, merged_texts texts]

theorem builtKeyed_text {fuel level : Nat} {n : Node} {v : Value} (key : String)
    (built : Node.buildAt (fuel + 1) level n = .good v) :
    builtKeyed (Node.buildAt (fuel + 1)) level (.scalar .text key, n) = .good (.text key, v) := by
  have named : Node.buildAt (fuel + 1) level (.scalar .text key) = .good (.text key) := rfl
  simp only [builtKeyed, Node.tag, named, built]
  rfl

mutual

/-- The node of a portable form is built to the value of the form. -/
theorem buildAt_nodeOf : (f : Form) → f.Portable → (fuel level : Nat) → (nodeOf f).height < fuel →
    Node.buildAt fuel level (nodeOf f) = .good f.value
  | .word w, portable, fuel + 1, level, _ => buildAt_scalar (scalarValue?_word portable) fuel level
  | .numeral n, portable, fuel + 1, level, _ => buildAt_scalar (scalarValue?_numeral portable) fuel level
  | .text glyphs, _, fuel + 1, level, _ => rfl
  | .emptyList inner, _, fuel + 1, level, _ => rfl
  | .emptyDict inner, _, fuel + 2, level, _ => rfl
  | .list members, portable, fuel + 1, level, enough => by
    have built := each_itemNodes members portable fuel (level + 1) (by
      rw [nodeOf, Node.height] at enough
      omega)
    rw [nodeOf, buildAt_sequence, built]
    rfl
  | .dict members, portable, fuel + 1, level, enough => by
    rw [nodeOf, Node.height] at enough
    obtain ⟨fuel, rfl⟩ : ∃ m, fuel = m + 1 := ⟨fuel - 1, by omega⟩
    have built := each_entryNodes members portable (fuel + 1) (level + 1) (by omega)
    rw [nodeOf, buildAt_mapping _ _ (entryNodes_texts members), built]
    rfl

theorem each_itemNodes : (members : Items) → members.Portable → (fuel level : Nat) →
    Node.heights (itemNodes members) < fuel →
    Built.each (Node.buildAt fuel level) (itemNodes members) = .good members.values
  | .last before form after, portable, fuel, level, enough => by
    rw [itemNodes, Node.heights, Node.heights] at enough
    rw [itemNodes, Built.each, buildAt_nodeOf form portable.2.1 fuel level (by omega)]
    rfl
  | .more before form after rest, portable, fuel, level, enough => by
    rw [itemNodes, Node.heights] at enough
    rw [itemNodes, Built.each, buildAt_nodeOf form portable.2.1 fuel level (by omega),
      each_itemNodes rest portable.2.2.2 fuel level (by omega)]
    rfl

theorem each_entryNodes : (members : Entries) → members.Portable → (fuel level : Nat) →
    Node.entryHeights (entryNodes members) < fuel →
    Built.each (builtKeyed (Node.buildAt fuel) level) (entryNodes members) = .good members.pairs
  | .last name before form after, portable, fuel, level, enough => by
    rw [entryNodes, Node.entryHeights, Node.entryHeights, Node.height] at enough
    obtain ⟨fuel, rfl⟩ : ∃ m, fuel = m + 1 := ⟨fuel - 1, by omega⟩
    rw [entryNodes, Built.each, builtKeyed_text name.key (buildAt_nodeOf form portable.2.2.1 (fuel + 1) level
      (by omega))]
    rfl
  | .more name before form after rest, portable, fuel, level, enough => by
    rw [entryNodes, Node.entryHeights, Node.height] at enough
    obtain ⟨fuel, rfl⟩ : ∃ m, fuel = m + 1 := ⟨fuel - 1, by omega⟩
    rw [entryNodes, Built.each, builtKeyed_text name.key (buildAt_nodeOf form portable.2.2.1 (fuel + 1) level
      (by omega)),
      each_entryNodes rest portable.2.2.2.2 (fuel + 1) level (by omega)]
    rfl

end

theorem build_nodeOf {f : Form} (portable : f.Portable) : (nodeOf f).build = .ok f.value := by
  rw [Node.build, buildAt_nodeOf f portable _ 0 (Nat.lt_succ_self _)]

end Tablewright.Yaml
