import Mathlib
import Tablewright.Yaml.Basic

/-!
# Faults of scalars

A document that is no YAML is refused at one of the stages of reading.  Two kinds of faults are no refusals: escapes of
codes that no character has, which end the tokens, and scalars that are not what their tags say, which end the
construction of values.

* `Ends`: what holds of a step when it comes out, and when it fails.
* `Reported`: a step of reading tokens; `Tokens.reported_fault` is about those of a whole text.
* `Keeps`: a step of reading nodes; `ends_ofTokens` is about the node of a document.
* `Within`, `Unfit`: a node holds a scalar that is not what its tag says; `build_unfit` finds it.
* `parse_scalar`: the two kinds of faults of a document.
-/

namespace Tablewright.Yaml

open Document (ScalarFault)

/-! ## Steps that fail -/

section

variable {α β : Type}

/-- What holds of the result of a step, and of the fault that it fails with. -/
def Ends (good : α → Prop) (bad : Fault → Prop) : Except Fault α → Prop
  | .ok a => good a
  | .error fault => bad fault

theorem Ends.bind {good : α → Prop} {good' : β → Prop} {bad : Fault → Prop} {x : Except Fault α}
    {f : α → Except Fault β} (first : Ends good bad x) (later : ∀ a, good a → Ends good' bad (f a)) :
    Ends good' bad (x >>= f) := by
  cases x with
  | ok a => exact later a first
  | error fault => exact first

theorem Ends.map {good : α → Prop} {good' : β → Prop} {bad : Fault → Prop} {x : Except Fault α} {f : α → β}
    (first : Ends good bad x) (later : ∀ a, good a → good' (f a)) : Ends good' bad (x.map f) := by
  cases x with
  | ok a => exact later a first
  | error fault => exact first

/-- A refusal, or a fault about an escape of a code that no character has. -/
def IsReported : Fault → Prop
  | .refused _ => True
  | .scalar fault => ∃ code, 0x10FFFF < code ∧ fault = .noSuchCharacter code

def Reported (x : Except Fault α) : Prop := Ends (fun _ => True) IsReported x

@[simp] theorem reported_ok (a : α) : Reported (.ok a) := trivial

@[simp] theorem reported_refused (stage : Stage) : Reported (.error (.refused stage) : Except Fault α) := trivial

@[simp] theorem reported_map {x : Except Fault α} {f : α → β} : Reported (x.map f) ↔ Reported x := by
  cases x <;> exact Iff.rfl

theorem Reported.bind {x : Except Fault α} {f : α → Except Fault β} (first : Reported x)
    (later : ∀ a, Reported (f a)) : Reported (x >>= f) :=
  Ends.bind first fun a _ => later a

theorem Reported.ite {c : Prop} [Decidable c] {x y : Except Fault α} (yes : Reported x) (no : Reported y) :
    Reported (if c then x else y) := by
  split
  · exact yes
  · exact no

end

/-! ## Tokens -/

namespace Quoted

theorem reported_breaks (fuel : Nat) (c : Cursor) : Reported (breaks fuel c) := by
  induction fuel generalizing c with
  | zero => trivial
  | succ fuel ih =>
    rw [breaks]
    split
    · trivial
    · dsimp only
      split
      · trivial
      · exact reported_map.mpr (ih _)

theorem reported_spaces (c : Cursor) : Reported (spaces c) := by
  unfold spaces
  dsimp only
  split
  · exact reported_map.mpr (reported_breaks _ _)
  · split <;> trivial

/-- The only fault of a scalar that a text can have before its tokens are complete. -/
theorem reported_coded (code : Nat) (c : Cursor) : Reported (coded code c) := by
  unfold coded
  split
  · next beyond => exact ⟨code, beyond, rfl⟩
  · split
    · split
      · split <;> trivial
      · trivial
    · trivial

theorem reported_escape (c : Cursor) : Reported (escape c) := by
  unfold escape
  split
  · trivial
  · split
    · trivial
    · split
      · exact reported_map.mpr (reported_coded _ _)
      · trivial
    · split
      · exact reported_breaks _ _
      · trivial

theorem reported_solid (double : Bool) (fuel : Nat) (c : Cursor) : Reported (solid double fuel c) := by
  induction fuel generalizing c with
  | zero => trivial
  | succ fuel ih =>
    have escaped := reported_escape c.step
    rw [solid]
    split
    · trivial
    · split
      · trivial
      · split
        · split
          · trivial
          · split
            · split
              · exact reported_map.mpr (ih _)
              · next failed =>
                rw [failed] at escaped
                exact escaped
            · exact reported_map.mpr (ih _)
        · split
          · split
            · exact reported_map.mpr (ih _)
            · trivial
          · exact reported_map.mpr (ih _)

theorem reported_body (double : Bool) (fuel : Nat) (c : Cursor) : Reported (body double fuel c) := by
  induction fuel generalizing c with
  | zero => trivial
  | succ fuel ih =>
    exact (reported_solid double _ c).bind fun _ => .ite trivial
      ((reported_spaces _).bind fun _ => (ih _).bind fun _ => reported_ok _)

theorem reported_scalar (double : Bool) (c : Cursor) : Reported (scalar double c) :=
  reported_map.mpr (reported_body double _ _)

end Quoted

namespace Block

theorem reported_increment (c : Cursor) : Reported (increment c) := by
  unfold increment
  split
  · split
    · trivial
    · split <;> trivial
  · trivial

theorem reported_indicators (c : Cursor) : Reported (indicators c) := by
  unfold indicators
  split
  · exact reported_map.mpr (reported_increment _)
  · refine (reported_increment c).bind fun found => ?_
    split
    · trivial
    · split <;> trivial

theorem reported_finishLine (c : Cursor) : Reported (finishLine c) := by
  unfold finishLine
  dsimp only
  split <;> trivial

theorem reported_header (c : Cursor) : Reported (header c) := by
  refine (reported_indicators c).bind fun (h, c) => ?_
  dsimp only
  split
  · exact reported_map.mpr (reported_finishLine c)
  · trivial

theorem reported_scalar (isFolded : Bool) (outer : Int) (c : Cursor) : Reported (scalar isFolded outer c) :=
  (reported_header c.step).bind fun _ => reported_ok _

end Block

namespace Property

theorem reported_refuse {α : Type} : Reported (refuse : Except Fault α) := trivial

theorem reported_name (c : Cursor) : Reported (name c) := by
  unfold name
  dsimp only
  split
  · trivial
  · split <;> trivial

theorem reported_octets (fuel : Nat) (c : Cursor) : Reported (octets fuel c) := by
  induction fuel generalizing c with
  | zero => trivial
  | succ fuel ih =>
    rw [octets]
    split
    · split
      · exact reported_map.mpr (ih _)
      · trivial
    · trivial
    · trivial

theorem reported_uriText (fuel : Nat) (c : Cursor) : Reported (uriText fuel c) := by
  induction fuel generalizing c with
  | zero => trivial
  | succ fuel ih =>
    rw [uriText]
    refine .ite ((reported_octets _ _).bind fun (bs, c) => ?_) trivial
    dsimp only
    split
    · trivial
    · exact reported_map.mpr (ih _)

theorem reported_uri (c : Cursor) : Reported (uri c) :=
  (reported_uriText _ c).bind fun _ => .ite trivial trivial

theorem reported_handle (c : Cursor) : Reported (handle c) :=
  .ite trivial (.ite trivial (.ite trivial trivial))

theorem reported_tagParts (c : Cursor) : Reported (tagParts c) := by
  have suffixed : ∀ x : String × Cursor, Reported (uri x.2 >>= fun y => .ok ((some x.1, y.1), y.2)) :=
    fun x => (reported_uri _).bind fun _ => reported_ok _
  exact .ite ((reported_uri _).bind fun _ => .ite trivial trivial)
    (.ite trivial (.ite ((reported_handle c).bind suffixed) (.bind (reported_ok _) suffixed)))

theorem reported_tag (c : Cursor) : Reported (tag c) :=
  (reported_tagParts c).bind fun _ => .ite trivial trivial

theorem reported_number (c : Cursor) : Reported (number c) := .ite trivial trivial

theorem reported_version (c : Cursor) : Reported (version c) :=
  (reported_number _).bind fun _ => .ite trivial ((reported_number _).bind fun _ => .ite trivial trivial)

theorem reported_tagDirective (c : Cursor) : Reported (tagDirective c) :=
  (reported_handle _).bind fun _ => .ite trivial ((reported_uri _).bind fun _ => .ite trivial trivial)

theorem reported_directive (c : Cursor) : Reported (directive c) := by
  have finished : ∀ x : Directive × Cursor,
      Reported ((Block.finishLine x.2).map fun c => (Token.directive x.1, c)) :=
    fun x => reported_map.mpr (Block.reported_finishLine _)
  exact .ite trivial (.ite ((reported_version _).bind finished)
    (.ite ((reported_tagDirective _).bind finished) (.bind (reported_ok _) finished)))

end Property

namespace Lexer

variable (l : Lexer)

theorem reported_dropStale : Reported l.dropStale := .ite trivial trivial

theorem reported_dropKey : Reported l.dropKey := by
  unfold dropKey
  split
  · exact .ite trivial trivial
  · trivial

theorem reported_noteKey : Reported l.noteKey := .ite ((reported_dropKey _).bind fun _ => reported_ok _) trivial

theorem reported_beginBlock (t : Token) : Reported (l.beginBlock t) := .ite trivial (.ite trivial trivial)

theorem reported_word {read : Cursor → Except Fault (Token × Cursor)} (reads : ∀ c, Reported (read c)) :
    Reported (l.word read) :=
  (reported_noteKey l).bind fun _ => (reads _).bind fun _ => reported_ok _

theorem reported_named (t : String → Token) : Reported (l.named t) :=
  reported_word l fun _ => reported_map.mpr (Property.reported_name _)

theorem reported_quoted (double : Bool) : Reported (l.quoted double) :=
  reported_word l fun c => reported_map.mpr (Quoted.reported_scalar double c)

theorem reported_block (isFolded : Bool) : Reported (l.block isFolded) :=
  (reported_dropKey l).bind fun _ => (Block.reported_scalar _ _ _).bind fun _ => reported_ok _

theorem reported_value : Reported l.value := by
  unfold value
  split
  · trivial
  · exact (reported_beginBlock l _).bind fun _ => (reported_dropKey _).bind fun _ => reported_ok _

theorem reported_token : Reported l.token := by
  have closed : ∀ (f : Lexer → Lexer) (l : Lexer), Reported (l.dropKey >>= fun l => .ok (f l)) :=
    fun f l => (reported_dropKey l).bind fun _ => reported_ok _
  have opened : ∀ t, Reported (l.openFlow t) := fun t => (reported_noteKey l).bind fun _ => reported_ok _
  have directive : Reported l.directive :=
    (reported_dropKey _).bind fun _ => (Property.reported_directive _).bind fun _ => reported_ok _
  have begun : ∀ t (f : Lexer → Lexer), Reported (l.beginBlock t >>= fun l => l.dropKey >>= fun l => .ok (f l)) :=
    fun t f => (reported_beginBlock l t).bind (closed f)
  unfold token
  dsimp only
  split
  · exact closed _ _
  · exact .ite directive (.ite (closed _ _) (.ite (closed _ _) (.ite (opened _) (.ite (opened _) (.ite (closed _ _)
      (.ite (closed _ _) (.ite (closed _ _) (.ite (begun _ _) (.ite (begun _ _) (.ite (reported_value l)
      (.ite (reported_named l _) (.ite (reported_named l _) (.ite (reported_word l Property.reported_tag)
      (.ite (reported_block l _) (.ite (reported_block l _) (.ite (reported_quoted l _) (.ite (reported_quoted l _)
      (.ite ((reported_noteKey l).bind fun _ => reported_ok _) trivial))))))))))))))))))

theorem reported_next : Reported l.next :=
  (reported_dropStale _).bind fun _ => (reported_token _).bind fun _ => reported_dropStale _

end Lexer

namespace Tokens

theorem reported_ofLexer (fuel : Nat) (l : Lexer) : IsReported (ofLexer fuel l).fault := by
  induction fuel generalizing l with
  | zero => trivial
  | succ fuel ih =>
    have next := l.reported_next
    rw [ofLexer]
    split
    · trivial
    · split
      · exact ih _
      · next failed =>
        rw [failed] at next
        exact next

/-- The tokens of a text end with a refusal, or at an escape of a code that no character has. -/
theorem reported_fault (text : List Char) : IsReported (ofText text).fault := reported_ofLexer _ _

end Tokens

/-! ## Nodes -/

section

variable {α β : Type} {fault : Fault} {r : Reading}

/-- A refusal, or the fault that the tokens end with. -/
def IsPassedOn (fault f : Fault) : Prop := (∃ stage, f = .refused stage) ∨ f = fault

/-- A step of reading nodes: it goes on with the same tokens, or fails with their fault if it does not refuse. -/
def Keeps (fault : Fault) (x : Except Fault (α × Reading)) : Prop :=
  Ends (fun result => result.2.fault = fault) (IsPassedOn fault) x

theorem keeps_refused (stage : Stage) : Keeps fault (.error (.refused stage) : Except Fault (α × Reading)) :=
  .inl ⟨stage, rfl⟩

theorem Keeps.ok (a : α) (same : r.fault = fault) : Keeps fault (.ok (a, r)) := same

theorem Keeps.ite {c : Prop} [Decidable c] {x y : Except Fault (α × Reading)} (yes : Keeps fault x)
    (no : Keeps fault y) : Keeps fault (if c then x else y) := by
  split
  · exact yes
  · exact no

theorem Keeps.bind {x : Except Fault (α × Reading)} {f : α × Reading → Except Fault (β × Reading)}
    (first : Keeps fault x) (later : ∀ a r, r.fault = fault → Keeps fault (f (a, r))) : Keeps fault (x >>= f) :=
  Ends.bind first fun result same => later result.1 result.2 same

theorem ends_peek (same : r.fault = fault) : Ends (fun _ => True) (IsPassedOn fault) r.peek := by
  unfold Reading.peek
  split
  · exact .inr same
  · trivial

theorem Keeps.peek {f : Token → Except Fault (α × Reading)} (same : r.fault = fault)
    (later : ∀ t, Keeps fault (f t)) : Keeps fault (r.peek >>= f) :=
  Ends.bind (ends_peek same) fun t _ => later t

theorem Keeps.map {x : Except Fault (α × Reading)} (first : Keeps fault x) (f : α → β) :
    Keeps fault (x.map fun (a, r) => (f a, r)) :=
  Ends.map first fun _ same => same

theorem fault_settle (anchor : Option String) (n : Node) : (r.settle anchor n).fault = r.fault := by
  cases anchor <;> rfl

theorem ends_claim (same : r.fault = fault) (anchor : Option String) :
    Ends (fun r' => r'.fault = fault) (IsPassedOn fault) (r.claim anchor) := by
  unfold Reading.claim
  split
  · exact same
  · split
    · exact .inl ⟨_, rfl⟩
    · exact same

theorem ends_resolve (name : String) : Ends (fun _ => True) (IsPassedOn fault) (r.resolve name) := by
  unfold Reading.resolve
  split
  · exact .inl ⟨_, rfl⟩
  · trivial
  · trivial

theorem ends_nameOf (handle : Option String) (suffix : String) :
    Ends (fun _ => True) (IsPassedOn fault) (Properties.nameOf r handle suffix) := by
  unfold Properties.nameOf
  split
  · trivial
  · split
    · trivial
    · exact .inl ⟨_, rfl⟩

theorem keeps_read (same : r.fault = fault) : Keeps fault (Properties.read r) := by
  have tagged : ∀ (anchor handle : Option String) (suffix : String) (r : Reading), r.fault = fault →
      Keeps fault ((Properties.nameOf r handle suffix).map fun name => ((⟨anchor, some name⟩ : Properties), r)) :=
    fun anchor handle suffix r same => Ends.map (ends_nameOf handle suffix) fun _ _ => same
  refine .peek same fun t => ?_
  split
  · refine .peek same fun t => ?_
    split
    · exact tagged _ _ _ _ same
    · exact same
  · refine .peek same fun t => ?_
    split
    · exact tagged _ _ _ _ same
    · exact tagged _ _ _ _ same
  · exact same

/-- Nodes and parts of nodes are read with a given amount of fuel. -/
structure KeepsAll (fault : Fault) (fuel : Nat) : Prop where
  node : ∀ place r, r.fault = fault → Keeps fault (node place fuel r)
  nodeUnless : ∀ ends place r, r.fault = fault → Keeps fault (nodeUnless ends place fuel r)
  valueNode : ∀ ends place r, r.fault = fault → Keeps fault (valueNode ends place fuel r)
  blockItems : ∀ indentless r, r.fault = fault → Keeps fault (blockItems indentless fuel r)
  blockEntries : ∀ r, r.fault = fault → Keeps fault (blockEntries fuel r)
  flowItems : ∀ first r, r.fault = fault → Keeps fault (flowItems first fuel r)
  flowEntries : ∀ first r, r.fault = fault → Keeps fault (flowEntries first fuel r)
  collection : ∀ opening p r, r.fault = fault → Keeps fault (collection opening p fuel r)

theorem keeps_collection {fuel : Nat} (less : KeepsAll fault fuel) (opening : Opening) (p : Properties)
    (same : r.fault = fault) : Keeps fault (collection opening p (fuel + 1) r) := by
  unfold collection
  cases opening with
  | indentless => exact (less.blockItems true r same).map _
  | blockSequence => exact (less.blockItems false r.drop same).map _
  | flowSequence => exact (less.flowItems true r.drop same).map _
  | blockMapping => exact (less.blockEntries r.drop same).map _
  | flowMapping => exact (less.flowEntries true r.drop same).map _

theorem keeps_node {fuel : Nat} (less : KeepsAll fault fuel) (place : Place) (same : r.fault = fault) :
    Keeps fault (node place (fuel + 1) r) := by
  have settled : ∀ (anchor : Option String) (n : Node) (r : Reading), r.fault = fault →
      Keeps fault ((r.claim anchor).map fun r => (n, r.settle anchor n)) :=
    fun anchor n r same => Ends.map (ends_claim same anchor) fun r same => (fault_settle anchor n).trans same
  unfold node
  refine .peek same fun t => ?_
  split
  · exact Ends.map (ends_resolve _) fun _ _ => same
  · refine (keeps_read same).bind fun p r same => .peek same fun t => ?_
    split
    · refine Ends.bind (ends_claim same _) fun r same => (less.collection _ _ r same).bind fun n r same => ?_
      exact (fault_settle _ _).trans same
    · exact settled _ _ _ same
    · exact .ite (keeps_refused _) (settled _ _ _ same)

theorem keeps_nodeUnless {fuel : Nat} (less : KeepsAll fault fuel) (ends : Token → Bool) (place : Place)
    (same : r.fault = fault) : Keeps fault (nodeUnless ends place (fuel + 1) r) := by
  unfold nodeUnless
  exact .peek same fun t => .ite same (less.node place r same)

theorem keeps_valueNode {fuel : Nat} (less : KeepsAll fault fuel) (ends : Token → Bool) (place : Place)
    (same : r.fault = fault) : Keeps fault (valueNode ends place (fuel + 1) r) := by
  unfold valueNode
  exact .peek same fun t => .ite (less.nodeUnless ends place r.drop same) same

theorem keeps_blockItems {fuel : Nat} (less : KeepsAll fault fuel) (indentless : Bool) (same : r.fault = fault) :
    Keeps fault (blockItems indentless (fuel + 1) r) := by
  unfold blockItems
  refine .peek same fun t => ?_
  split
  · exact (less.nodeUnless _ _ r.drop same).bind fun n r same => (less.blockItems _ r same).bind fun _ _ same => .ok _ same
  · exact .ite same (.ite same (keeps_refused _))

theorem keeps_blockEntries {fuel : Nat} (less : KeepsAll fault fuel) (same : r.fault = fault) :
    Keeps fault (blockEntries (fuel + 1) r) := by
  unfold blockEntries
  refine .peek same fun t => ?_
  split
  · exact (less.nodeUnless _ _ r.drop same).bind fun k r same => (less.valueNode _ _ r same).bind fun v r same =>
      (less.blockEntries r same).bind fun _ _ same => .ok _ same
  · exact same
  · exact keeps_refused _

theorem keeps_flowItems {fuel : Nat} (less : KeepsAll fault fuel) (first : Bool) (same : r.fault = fault) :
    Keeps fault (flowItems first (fuel + 1) r) := by
  have start : (if first then r else r.drop).fault = fault := by split <;> exact same
  unfold flowItems
  refine .peek same fun t => .ite same (.ite (keeps_refused _) (.peek start fun t => ?_))
  split
  · exact start
  · refine (less.nodeUnless _ _ (Reading.drop _) start).bind fun k r same => ?_
    exact (less.valueNode _ _ r same).bind fun v r same => (less.flowItems _ r same).bind fun _ _ same => .ok _ same
  · exact (less.node _ _ start).bind fun n r same => (less.flowItems _ r same).bind fun _ _ same => .ok _ same

theorem keeps_flowEntries {fuel : Nat} (less : KeepsAll fault fuel) (first : Bool) (same : r.fault = fault) :
    Keeps fault (flowEntries first (fuel + 1) r) := by
  have start : (if first then r else r.drop).fault = fault := by split <;> exact same
  unfold flowEntries
  refine .peek same fun t => .ite same (.ite (keeps_refused _) (.peek start fun t => ?_))
  split
  · exact start
  · refine (less.nodeUnless _ _ (Reading.drop _) start).bind fun k r same => ?_
    exact (less.valueNode _ _ r same).bind fun v r same => (less.flowEntries _ r same).bind fun _ _ same => .ok _ same
  · exact (less.node _ _ start).bind fun k r same => (less.flowEntries _ r same).bind fun _ _ same => .ok _ same

theorem keepsAll (fault : Fault) (fuel : Nat) : KeepsAll fault fuel := by
  induction fuel with
  | zero =>
    have refused : ∀ {α : Type}, Keeps fault (Reading.refuse : Except Fault (α × Reading)) := keeps_refused _
    constructor <;> intros <;> simp only [node, nodeUnless, valueNode, blockItems, blockEntries, flowItems, flowEntries,
      collection] <;> exact refused
  | succ fuel less =>
    -- each function calls the others with less fuel, so that they are all needed at once
    exact ⟨fun place r => keeps_node less place, fun ends place r => keeps_nodeUnless less ends place,
      fun ends place r => keeps_valueNode less ends place, fun indentless r => keeps_blockItems less indentless,
      fun r => keeps_blockEntries less, fun first r => keeps_flowItems less first,
      fun first r => keeps_flowEntries less first, fun opening p r => keeps_collection less opening p⟩

theorem ends_directives (versioned : Bool) (handles : List (String × String)) (tokens : List Token) :
    Ends (fun _ => True) (IsPassedOn fault) (directives versioned handles tokens) := by
  fun_induction directives versioned handles tokens with
  | case1 versioned handles rest major wrong => exact .inl ⟨_, rfl⟩
  | case2 versioned handles rest major right ih => exact ih
  | case3 versioned handles rest handle stem taken => exact .inl ⟨_, rfl⟩
  | case4 versioned handles rest handle stem free ih => exact ih
  | case5 versioned handles rest ih => exact ih
  | case6 versioned handles tokens => trivial

theorem ends_nextDocument (same : r.fault = fault) :
    Ends (fun next => ∀ r' ∈ next, r'.fault = fault) (IsPassedOn fault) (nextDocument r) := by
  have dropped : (dropEnds r).fault = fault := same
  unfold nextDocument
  refine Ends.bind (ends_peek dropped) fun t _ => ?_
  split
  · intro r' member
    cases member
  · refine Ends.bind (ends_directives _ _ _) fun (handles, tokens) _ => ?_
    refine Ends.bind (ends_peek (r := { dropEnds r with tokens, handles := handles ++ usualHandles }) dropped)
      fun t _ => ?_
    split
    · intro r' member
      cases member
      exact same
    · exact .inl ⟨_, rfl⟩

/-- What comes after the only document that may stand in a text. -/
theorem ends_alone {x : Except Fault (Node × Reading)} (kept : Keeps fault x) :
    Ends (fun _ => True) (IsPassedOn fault) (x.map some >>= fun found => match found with
      | none => .ok none
      | some (n, r) => do
        match ← nextDocument r with
        | none => .ok (some n)
        | some _ => .error (.refused .composition)) := by
  have mapped : Ends (fun found : Option (Node × Reading) => ∀ p ∈ found, p.2.fault = fault) (IsPassedOn fault)
      (x.map some) := by
    refine Ends.map kept ?_
    rintro p same _ ⟨⟩
    exact same
  refine Ends.bind mapped fun found same => ?_
  cases found with
  | none => trivial
  | some p =>
    refine Ends.bind (ends_nextDocument (same p rfl)) fun next _ => ?_
    cases next with
    | none => trivial
    | some r => exact .inl ⟨_, rfl⟩

/-- Reading the node of a document adds refusals only. -/
theorem ends_ofTokens (t : Tokens) : Ends (fun _ => True) (IsPassedOn t.fault) (Node.ofTokens? t) := by
  have all := keepsAll t.fault (4 * t.tokens.length + 4)
  unfold Node.ofTokens?
  refine Ends.bind (ends_peek rfl) fun first _ => ?_
  split
  · refine Ends.bind (ends_nextDocument rfl) fun next same => ?_
    cases next with
    | none => trivial
    | some r => exact ends_alone (all.nodeUnless _ _ r (same r rfl))
  · exact ends_alone (all.node _ _ rfl)

end

/-! ## Values -/

/-- The nodes that a node holds, itself among them. -/
inductive Within : Node → Node → Prop
  | self (n : Node) : Within n n
  | item {n m : Node} {tag : Tag} {items : List Node} (member : m ∈ items) (inside : Within n m) :
      Within n (.sequence tag items)
  | key {n : Node} {tag : Tag} {entry : Node × Node} {entries : List (Node × Node)} (member : entry ∈ entries)
      (inside : Within n entry.1) : Within n (.mapping tag entries)
  | value {n : Node} {tag : Tag} {entry : Node × Node} {entries : List (Node × Node)} (member : entry ∈ entries)
      (inside : Within n entry.2) : Within n (.mapping tag entries)

theorem Within.trans {l m n : Node} (inner : Within l m) (outer : Within m n) : Within l n := by
  induction outer with
  | self => exact inner
  | item member _ ih => exact .item member ih
  | key member _ ih => exact .key member ih
  | value member _ ih => exact .value member ih

/-- A scalar of a document is not what its tag says. -/
def Unfit (n : Node) (fault : ScalarFault) : Prop :=
  ∃ m, Within m n ∧ ∃ fuel word, scalarText? fuel m = some word ∧
    scalarValue? m.tag word = some (.error (.scalar fault))

theorem Unfit.within {m n : Node} {fault : ScalarFault} (unfit : Unfit m fault) (inside : Within m n) :
    Unfit n fault := by
  obtain ⟨l, inner, faulty⟩ := unfit
  exact ⟨l, inner.trans inside, faulty⟩

namespace Built

variable {α β γ : Type} {bad : Fault → Prop}

/-- What holds of the fault of a value that cannot be built. -/
def Blames (bad : Fault → Prop) : Built α → Prop
  | .good _ => True
  | .bad _ fault => bad fault

theorem Blames.map {x : Built α} (blames : x.Blames bad) (f : α → β) : (x.map f).Blames bad := by
  cases x with
  | good a => trivial
  | bad level fault => exact blames

theorem Blames.both {x : Built α} {y : Built β} (first : x.Blames bad) (second : y.Blames bad) (f : α → β → γ) :
    (both f x y).Blames bad := by
  cases x with
  | good a =>
    cases y with
    | good b => trivial
    | bad n e => exact second
  | bad m e =>
    cases y with
    | good b => exact first
    | bad n e' =>
      show (if n < m then Built.bad n e' else .bad m e).Blames bad
      split
      · exact second
      · exact first

theorem Blames.each {f : α → Built β} {as : List α} (all : ∀ a ∈ as, (f a).Blames bad) : (each f as).Blames bad := by
  induction as with
  | nil => trivial
  | cons a rest ih =>
    obtain ⟨here, later⟩ := List.forall_mem_cons.mp all
    exact here.both (ih later) _

end Built

/-- Entries that come from a node: their keys lie in it or have become texts. -/
def Stem (n : Node) (entries : List (Node × Node)) : Prop :=
  ∀ entry ∈ entries, (Within entry.1 n ∨ ∃ k : Node, entry.1 = k.retag .text) ∧ Within entry.2 n

theorem Stem.append {n : Node} {entries more : List (Node × Node)} (first : Stem n entries) (second : Stem n more) :
    Stem n (entries ++ more) := by
  intro entry member
  cases List.mem_append.mp member with
  | inl member => exact first entry member
  | inr member => exact second entry member

theorem Stem.within {m n : Node} {entries : List (Node × Node)} (stem : Stem m entries) (inside : Within m n) :
    Stem n entries := by
  intro entry member
  obtain ⟨key, value⟩ := stem entry member
  exact ⟨key.imp_left (·.trans inside), value.trans inside⟩

theorem stem_joined {merge : List (Node × Node) → Option (List (Node × Node))}
    (merges : ∀ tag entries es, merge entries = some es → Stem (.mapping tag entries) es) {n : Node}
    {items : List Node} (inside : ∀ item ∈ items, Within item n) {es : List (Node × Node)}
    (found : joined merge items = some es) : Stem n es := by
  induction items generalizing es with
  | nil =>
    obtain rfl := Option.some.inj found
    intro entry member
    cases member
  | cons item rest ih =>
    obtain ⟨here, others⟩ := List.forall_mem_cons.mp inside
    cases item with
    | mapping tag entries =>
      obtain ⟨later, foundLater, found⟩ := Option.bind_eq_some_iff.mp found
      obtain ⟨own, merged, found⟩ := Option.bind_eq_some_iff.mp found
      obtain rfl := Option.some.inj found
      exact (ih others foundLater).append ((merges tag entries own merged).within here)
    | scalar tag text => cases found
    | sequence tag items => cases found
    | cycle => cases found

/-- What an entry contributes comes from its key and its value. -/
theorem stem_contributed {merge : List (Node × Node) → Option (List (Node × Node))}
    (merges : ∀ tag entries es, merge entries = some es → Stem (.mapping tag entries) es) {n : Node}
    {entry : Node × Node} (key : Within entry.1 n) (value : Within entry.2 n)
    {parts : List (Node × Node) × List (Node × Node)} (found : contributed merge entry = some parts) :
    Stem n parts.1 ∧ Stem n parts.2 := by
  have none : Stem n [] := by
    intro entry member
    cases member
  have single : ∀ k : Node, (Within k n ∨ ∃ k' : Node, k = k'.retag .text) → Stem n [(k, entry.2)] := by
    intro k origin entry' member
    obtain rfl := List.mem_singleton.mp member
    exact ⟨origin, value⟩
  unfold contributed at found
  -- the key asks for a merge, stands for the value of its mapping, or is any other
  split at found
  · split at found
    · next tag entries same =>
      obtain ⟨es, merged, rfl⟩ := Option.map_eq_some_iff.mp found
      rw [same] at value
      exact ⟨(merges tag entries es merged).within value, none⟩
    · next tag items same =>
      obtain ⟨es, merged, rfl⟩ := Option.map_eq_some_iff.mp found
      rw [same] at value
      exact ⟨stem_joined merges (fun item member => (Within.item member (.self item)).trans value) merged, none⟩
    · cases found
  · obtain rfl := Option.some.inj found
    exact ⟨none, single _ (.inr ⟨_, rfl⟩)⟩
  · obtain rfl := Option.some.inj found
    exact ⟨none, single _ (.inl key)⟩

theorem stem_parts {merge : List (Node × Node) → Option (List (Node × Node))}
    (merges : ∀ tag entries es, merge entries = some es → Stem (.mapping tag entries) es) {n : Node}
    {entries : List (Node × Node)} (inside : ∀ entry ∈ entries, Within entry.1 n ∧ Within entry.2 n)
    {parts : List (List (Node × Node) × List (Node × Node))}
    (found : entries.mapM (contributed merge) = some parts) : ∀ part ∈ parts, Stem n part.1 ∧ Stem n part.2 := by
  induction entries generalizing parts with
  | nil =>
    obtain rfl := Option.some.inj found
    simp
  | cons entry rest ih =>
    obtain ⟨here, others⟩ := List.forall_mem_cons.mp inside
    rw [List.mapM_cons] at found
    obtain ⟨part, own, found⟩ := Option.bind_eq_some_iff.mp found
    obtain ⟨later, contribute, found⟩ := Option.bind_eq_some_iff.mp found
    obtain rfl := Option.some.inj found
    exact List.forall_mem_cons.mpr ⟨stem_contributed merges here.1 here.2 own, ih others contribute⟩

theorem stem_merged {fuel : Nat} {tag : Tag} {entries es : List (Node × Node)} (found : merged fuel entries = some es) :
    Stem (.mapping tag entries) es := by
  induction fuel generalizing tag entries es with
  | zero => cases found
  | succ fuel ih =>
    obtain ⟨parts, contribute, found⟩ := Option.bind_eq_some_iff.mp found
    obtain rfl := Option.some.inj found
    -- entries that are merged in go before those of the mapping itself
    have each := stem_parts (n := .mapping tag entries) (fun _ _ _ => ih)
      (fun entry member => ⟨.key member (.self _), .value member (.self _)⟩) contribute
    refine .append (fun entry member => ?_) fun entry member => ?_
    all_goals obtain ⟨part, inParts, member⟩ := List.mem_flatMap.mp member
    · exact (each part inParts).1 entry member
    · exact (each part inParts).2 entry member

section

variable {bad : Fault → Prop} (refused : ∀ stage, bad (.refused stage))

include refused

/-- A key that has become a text is fit. -/
theorem blames_retag (fuel level : Nat) (k : Node) : (Node.buildAt fuel level (k.retag .text)).Blames bad := by
  have tag : (k.retag .text).tag = .text ∨ (k.retag .text).tag = .other := by
    cases k <;> simp [Node.retag, Node.tag]
  cases fuel with
  | zero => exact refused _
  | succ fuel =>
    -- neither of the tags makes more of a scalar than its text
    generalize k.retag .text = n at tag
    rw [Node.buildAt]
    rcases tag with tag | tag
    all_goals
      rw [tag]
      cases scalarText? (fuel + 1) n with
      | none => exact refused _
      | some word => first | exact refused _ | trivial

theorem blames_keyed {build : Nat → Node → Built Value} {level : Nat} {entry : Node × Node}
    (key : (build level entry.1).Blames bad) (value : (build level entry.2).Blames bad) :
    (builtKeyed build level entry).Blames bad := by
  refine Built.Blames.both ?_ value _
  split
  all_goals first | exact refused _ | exact key

theorem blames_pair {build : Nat → Node → Built Value} {level : Nat} {n : Node}
    (inside : ∀ m, Within m n → (build level m).Blames bad) : (builtPair build level n).Blames bad := by
  unfold builtPair
  split
  · refine Built.Blames.map (Built.Blames.both (inside _ ?_) (inside _ ?_) _) _
    · exact .key List.mem_cons_self (.self _)
    · exact .value List.mem_cons_self (.self _)
  · exact refused _

theorem blames_pairs {build : Nat → Node → Built Value} {level : Nat} {n : Node}
    (inside : ∀ m, Within m n → (build level m).Blames bad) : (builtPairs build level n).Blames bad := by
  unfold builtPairs
  split
  · exact Built.Blames.each fun item member => blames_pair refused fun m within => inside m (.item member within)
  · exact refused _

theorem blames_sequence {build : Nat → Node → Built Value} {level : Nat} {n : Node}
    (inside : ∀ m, Within m n → (build level m).Blames bad) : (builtSequence build level n).Blames bad := by
  unfold builtSequence
  split
  · exact Built.Blames.each fun item member => inside item (.item member (.self item))
  · exact refused _

theorem blames_mapping {fuel level : Nat} {n : Node}
    (inside : ∀ m, Within m n → (Node.buildAt fuel level m).Blames bad) :
    (builtMapping (Node.buildAt fuel) level fuel n).Blames bad := by
  unfold builtMapping
  split
  · split
    · exact refused _
    · next tag entries es merged =>
      refine Built.Blames.map (Built.Blames.each fun entry member => ?_) _
      obtain ⟨key, value⟩ := stem_merged merged entry member
      refine blames_keyed refused ?_ (inside _ value)
      -- a key that has become a text is no part of the node any more
      rcases key with within | ⟨k, same⟩
      · exact inside _ within
      · rw [same]
        exact blames_retag refused fuel level k
  · exact refused _

end

/-- A scalar fault of a value is the one of a scalar in its node. -/
theorem blames_buildAt (fuel level : Nat) (n : Node) :
    (Node.buildAt fuel level n).Blames fun fault => ∀ f, fault = .scalar f → Unfit n f := by
  have refused : ∀ n stage f, Fault.refused stage = .scalar f → Unfit n f := by
    rintro n stage f ⟨⟩
  induction fuel generalizing level n with
  | zero => exact refused n _
  | succ fuel ih =>
    -- an unfit scalar below a node is one of the node
    have inside : ∀ m, Within m n → (Node.buildAt fuel (level + 1) m).Blames fun fault =>
        ∀ f, fault = .scalar f → Unfit n f := by
      intro m within
      have blames := ih (level + 1) m
      cases built : Node.buildAt fuel (level + 1) m with
      | good v => trivial
      | bad l fault =>
        rw [built] at blames
        exact fun f same => (blames f same).within within
    unfold Node.buildAt
    dsimp only
    split
    · exact (blames_sequence (refused n) inside).map _
    · exact (blames_mapping (refused n) inside).map _
    · exact (blames_mapping (refused n) inside).map _
    · exact (blames_pairs (refused n) inside).map _
    · exact (blames_pairs (refused n) inside).map _
    · split
      · next v found =>
        cases v with
        | ok v => trivial
        | error fault =>
          rintro f rfl
          obtain ⟨word, text, value⟩ := Option.bind_eq_some_iff.mp found
          exact ⟨n, .self n, fuel + 1, word, text, value⟩
      · exact refused n _

theorem build_unfit {n : Node} {fault : ScalarFault} (failed : n.build = .error (.scalar fault)) : Unfit n fault := by
  have blames := blames_buildAt (n.height + 1) 0 n
  unfold Node.build at failed
  cases built : Node.buildAt (n.height + 1) 0 n with
  | good v =>
    rw [built] at failed
    cases failed
  | bad level f =>
    rw [built] at failed blames
    exact blames fault (Except.error.inj failed)

/-! ## Documents -/

/-- A document that is neither read nor refused has an escape of a code that no character has, or a scalar that is not
what its tag says. -/
theorem parse_scalar {document : String} {fault : ScalarFault} (failed : parse document = .error (.scalar fault)) :
    (∃ code, 0x10FFFF < code ∧ fault = .noSuchCharacter code) ∨
      ∃ n, Node.ofTokens? (.ofText document.toList) = .ok (some n) ∧ Unfit n fault := by
  unfold parse at failed
  dsimp only at failed
  split at failed
  · have ends := ends_ofTokens (.ofText document.toList)
    cases composed : Node.ofTokens? (.ofText document.toList) with
    | error f =>
      rw [composed] at failed ends
      obtain rfl : f = .scalar fault := Except.error.inj failed
      rcases ends with ⟨stage, impossible⟩ | passed
      · cases impossible
      · have reported := Tokens.reported_fault document.toList
        rw [← passed] at reported
        exact .inl reported
    | ok found =>
      rw [composed] at failed
      cases found with
      | none => cases failed
      | some n => exact .inr ⟨n, rfl, build_unfit failed⟩
  · cases failed

end Tablewright.Yaml
