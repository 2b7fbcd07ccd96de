import Tablewright.Yaml.Lexer
import Tablewright.Yaml.Tag

/-!
# From tokens to nodes

The tree of nodes that the tokens of a document describe, with aliases replaced by what they stand for.

* `Node`: scalars, sequences and mappings with their tags.
* `Reading`: the tokens that are left, and the anchors and handles that are known.
* `node`: the node at the front of the tokens, and the tokens after it.
* `Node.ofTokens?`: the node of a text that holds a single document.
-/

namespace Tablewright.Yaml

/-- A node of a document. -/
inductive Node where
  | scalar (tag : Tag) (text : String)
  | sequence (tag : Tag) (items : List Node)
  | mapping (tag : Tag) (entries : List (Node × Node))
  /-- An alias for a node that it lies in. -/
  | cycle
  deriving Inhabited

namespace Node

/-- The node that stands where none is written. -/
def blank : Node := .scalar .null ""

def tag : Node → Tag
  | scalar tag _ | sequence tag _ | mapping tag _ => tag
  | cycle => .other

/-- The node with another tag. -/
def retag (tag : Tag) : Node → Node
  | scalar _ text => scalar tag text
  | sequence _ items => sequence tag items
  | mapping _ entries => mapping tag entries
  | cycle => cycle

mutual

def height : Node → Nat
  | scalar _ _ | cycle => 1
  | sequence _ items => 1 + heights items
  | mapping _ entries => 1 + entryHeights entries

/-- The greatest height of several nodes. -/
def heights : List Node → Nat
  | [] => 0
  | n :: rest => max (height n) (heights rest)

/-- The greatest height of the nodes of several entries. -/
def entryHeights : List (Node × Node) → Nat
  | [] => 0
  | (k, v) :: rest => max (max (height k) (height v)) (entryHeights rest)

end

end Node

/-- Tokens that are being read: those that are left, why there are no more of them, the nodes of the anchors so
far, where the node of an anchor that is not complete yet is missing, and what handles stand for. -/
structure Reading where
  tokens : List Token
  fault : Fault
  anchors : List (String × Option Node)
  handles : List (String × String)

namespace Reading

def peek (r : Reading) : Except Fault Token :=
  match r.tokens with
  | [] => .error r.fault
  | t :: _ => .ok t

/-- The tokens after the next one. -/
def drop (r : Reading) : Reading := { r with tokens := r.tokens.drop 1 }

/-- A token that does not fit. -/
def refuse {α : Type} : Except Fault α := .error (.refused .grammar)

/-- Takes an anchor for a node that begins; the names of anchors are distinct. -/
def claim (r : Reading) : Option String → Except Fault Reading
  | none => .ok r
  | some name =>
    if (r.anchors.lookup name).isSome then .error (.refused .composition)
    else .ok { r with anchors := (name, none) :: r.anchors }

def settle (r : Reading) (anchor : Option String) (n : Node) : Reading :=
  match anchor with
  | none => r
  | some name => { r with anchors := (name, some n) :: r.anchors }

def resolve (r : Reading) (name : String) : Except Fault Node :=
  match r.anchors.lookup name with
  | none => .error (.refused .composition)
  | some none => .ok .cycle
  | some (some n) => .ok n

end Reading

/-- What is said about a node before it: its anchor and the name of its tag. -/
structure Properties where
  anchor : Option String
  tagName : Option String

namespace Properties

def isEmpty (p : Properties) : Bool := p.anchor.isNone && p.tagName.isNone

/-- The tag without a name of its own. -/
def unspecific : String := "!"

/-- The tag of a scalar; one without a tag of its own is a text, unless it is plain. -/
def scalarTag (p : Properties) (text : String) (plain : Bool) : Tag :=
  match p.tagName with
  | none => if plain then .implied text else .text
  | some name => if name = unspecific then .implied text else .ofName name

/-- The tag of a collection, or the usual one of its kind. -/
def collectionTag (p : Properties) (usual : Tag) : Tag :=
  match p.tagName with
  | none => usual
  | some name => if name = unspecific then usual else .ofName name

/-- The name of a tag, whose handle has to be known. -/
def nameOf (r : Reading) (handle : Option String) (suffix : String) : Except Fault String :=
  match handle with
  | none => .ok suffix
  | some h =>
    match r.handles.lookup h with
    | some stem => .ok (stem ++ suffix)
    | none => Reading.refuse

/-- The properties at the front of the tokens: an anchor and a tag, in either order. -/
def read (r : Reading) : Except Fault (Properties × Reading) := do
  let tagged (anchor : Option String) (handle : Option String) (suffix : String) (r : Reading) :
      Except Fault (Properties × Reading) :=
    (nameOf r handle suffix).map fun name => (⟨anchor, some name⟩, r)
  match ← r.peek with
  | .anchor name =>
    let r := r.drop
    match ← r.peek with
    | .tag handle suffix => tagged (some name) handle suffix r.drop
    | _ => .ok (⟨some name, none⟩, r)
  | .tag handle suffix =>
    let r := r.drop
    match ← r.peek with
    | .anchor name => tagged (some name) handle suffix r.drop
    | _ => tagged none handle suffix r
  | _ => .ok (⟨none, none⟩, r)

end Properties

/-- Where a node stands: within brackets, where block collections are allowed, or in a mapping, where a
sequence needs no indentation of its own. -/
inductive Place where
  | flow
  | block
  | indentless
  deriving DecidableEq, Repr

/-- A collection that begins: its kind, and its items in reading. -/
inductive Opening where
  | indentless
  | flowSequence
  | flowMapping
  | blockSequence
  | blockMapping

/-- The collection that a token begins at a place. -/
def Opening.of? (place : Place) : Token → Option Opening
  | .blockEntry => if place = .indentless then some .indentless else none
  | .flowSequenceStart => some .flowSequence
  | .flowMappingStart => some .flowMapping
  | .blockSequenceStart => if place = .flow then none else some .blockSequence
  | .blockMappingStart => if place = .flow then none else some .blockMapping
  | _ => none

/-- Whether a token ends an entry of a block mapping that has no node. -/
def endsBlockEntry : Token → Bool
  | .key | .value | .blockEnd => true
  | _ => false

/-- Whether a token ends an item of a block sequence that has no node. -/
def endsBlockItem (indentless : Bool) : Token → Bool
  | .blockEntry | .blockEnd => true
  | .key | .value => indentless
  | _ => false

/-- Whether a token ends a key or a value within brackets that has no node. -/
def endsFlow (closing : Token) (afterKey : Bool) (t : Token) : Bool :=
  t == .flowEntry || t == closing || (afterKey && t == .value)

mutual

/-- The node at the front of the tokens. -/
def node (place : Place) : (fuel : Nat) → Reading → Except Fault (Node × Reading)
  | 0, _ => Reading.refuse
  | fuel + 1, r => do
    match ← r.peek with
    | .alias name => (r.resolve name).map fun n => (n, r.drop)
    | _ =>
      let (p, r) ← Properties.read r
      let t ← r.peek
      match Opening.of? place t, t with
      | some opening, _ =>
        let r ← r.claim p.anchor
        let (n, r) ← collection opening p fuel r
        .ok (n, r.settle p.anchor n)
      | none, .scalar text plain =>
        let n := Node.scalar (p.scalarTag text plain) text
        (r.drop.claim p.anchor).map fun r => (n, r.settle p.anchor n)
      | none, _ =>
        -- properties without content are an empty scalar
        if p.isEmpty then Reading.refuse
        else
          let n := Node.scalar (p.scalarTag "" true) ""
          (r.claim p.anchor).map fun r => (n, r.settle p.anchor n)

/-- A collection that begins at the front of the tokens. -/
def collection (opening : Opening) (p : Properties) : (fuel : Nat) → Reading → Except Fault (Node × Reading)
  | 0, _ => Reading.refuse
  | fuel + 1, r =>
    let sequence := fun (items, r) => (Node.sequence (p.collectionTag .sequence) items, r)
    let mapping := fun (entries, r) => (Node.mapping (p.collectionTag .mapping) entries, r)
    match opening with
    | .indentless => (blockItems true fuel r).map sequence
    | .blockSequence => (blockItems false fuel r.drop).map sequence
    | .flowSequence => (flowItems true fuel r.drop).map sequence
    | .blockMapping => (blockEntries fuel r.drop).map mapping
    | .flowMapping => (flowEntries true fuel r.drop).map mapping

/-- The node at the front of the tokens, unless a token stands there that ends its entry. -/
def nodeUnless (ends : Token → Bool) (place : Place) : (fuel : Nat) → Reading → Except Fault (Node × Reading)
  | 0, _ => Reading.refuse
  | fuel + 1, r => do
    if ends (← r.peek) then .ok (.blank, r) else node place fuel r

/-- A value after its mark, or nothing where the mark is missing. -/
def valueNode (ends : Token → Bool) (place : Place) : (fuel : Nat) → Reading → Except Fault (Node × Reading)
  | 0, _ => Reading.refuse
  | fuel + 1, r => do
    if (← r.peek) == .value then nodeUnless ends place fuel r.drop else .ok (.blank, r)

/-- The items of a block sequence up to its end. -/
def blockItems (indentless : Bool) : (fuel : Nat) → Reading → Except Fault (List Node × Reading)
  | 0, _ => Reading.refuse
  | fuel + 1, r => do
    match ← r.peek with
    | .blockEntry =>
      let (n, r) ← nodeUnless (endsBlockItem indentless) .block fuel r.drop
      let (rest, r) ← blockItems indentless fuel r
      .ok (n :: rest, r)
    | t =>
      if indentless then .ok ([], r)
      else if t == .blockEnd then .ok ([], r.drop)
      else Reading.refuse

/-- The entries of a block mapping up to its end. -/
def blockEntries : (fuel : Nat) → Reading → Except Fault (List (Node × Node) × Reading)
  | 0, _ => Reading.refuse
  | fuel + 1, r => do
    match ← r.peek with
    | .key =>
      let (k, r) ← nodeUnless endsBlockEntry .indentless fuel r.drop
      let (v, r) ← valueNode endsBlockEntry .indentless fuel r
      let (rest, r) ← blockEntries fuel r
      .ok ((k, v) :: rest, r)
    | .blockEnd => .ok ([], r.drop)
    | _ => Reading.refuse

/-- The items of a sequence in brackets up to the closing one. An item with a key is a mapping of one
entry. -/
def flowItems (first : Bool) : (fuel : Nat) → Reading → Except Fault (List Node × Reading)
  | 0, _ => Reading.refuse
  | fuel + 1, r => do
    let t ← r.peek
    if t == .flowSequenceEnd then .ok ([], r.drop)
    else if !first && t != .flowEntry then Reading.refuse
    else
      let r := if first then r else r.drop
      match ← r.peek with
      | .flowSequenceEnd => .ok ([], r.drop)
      -- an entry in a sequence is a mapping of its own
      | .key =>
        let (k, r) ← nodeUnless (endsFlow .flowSequenceEnd true) .flow fuel r.drop
        let (v, r) ← valueNode (endsFlow .flowSequenceEnd false) .flow fuel r
        let (rest, r) ← flowItems false fuel r
        .ok (.mapping .mapping [(k, v)] :: rest, r)
      | _ =>
        let (n, r) ← node .flow fuel r
        let (rest, r) ← flowItems false fuel r
        .ok (n :: rest, r)

/-- The entries of a mapping in brackets up to the closing one. -/
def flowEntries (first : Bool) : (fuel : Nat) → Reading → Except Fault (List (Node × Node) × Reading)
  | 0, _ => Reading.refuse
  | fuel + 1, r => do
    let t ← r.peek
    if t == .flowMappingEnd then .ok ([], r.drop)
    else if !first && t != .flowEntry then Reading.refuse
    else
      let r := if first then r else r.drop
      match ← r.peek with
      | .flowMappingEnd => .ok ([], r.drop)
      | .key =>
        let (k, r) ← nodeUnless (endsFlow .flowMappingEnd true) .flow fuel r.drop
        let (v, r) ← valueNode (endsFlow .flowMappingEnd false) .flow fuel r
        let (rest, r) ← flowEntries false fuel r
        .ok ((k, v) :: rest, r)
      | _ =>
        let (k, r) ← node .flow fuel r
        let (rest, r) ← flowEntries false fuel r
        .ok ((k, .blank) :: rest, r)

end

/-! ## Documents -/

/-- The handles that need no directive. -/
def usualHandles : List (String × String) := [("!", "!"), ("!!", tagStem)]

/-- The handles of the directives at the front of the tokens, after some directives of which `versioned` says
whether they give a version. -/
def directives (versioned : Bool) (handles : List (String × String)) :
    (tokens : List Token) → Except Fault (List (String × String) × List Token)
  | .directive d :: rest =>
    match d with
    | .version major =>
      if versioned || major != 1 then Reading.refuse else directives true handles rest
    | .tag handle stem =>
      if (handles.lookup handle).isSome then Reading.refuse
      else directives versioned ((handle, stem) :: handles) rest
    | .other => directives versioned handles rest
  | tokens => .ok (handles, tokens)

/-- The tokens after the marks of the ends of documents. -/
def dropEnds (r : Reading) : Reading :=
  { r with tokens := r.tokens.dropWhile (· == .documentEnd) }

/-- The start of the next document with its directives, after its mark; nothing at the end of the text. -/
def nextDocument (r : Reading) : Except Fault (Option Reading) := do
  let r := dropEnds r
  if (← r.peek) == .streamEnd then .ok none
  else
    let (handles, tokens) ← directives false [] r.tokens
    let r := { r with tokens, handles := handles ++ usualHandles }
    if (← r.peek) == .documentStart then .ok (some r.drop) else Reading.refuse

/-- Whether a document is empty, so that the token after its mark begins no node. -/
def endsDocument : Token → Bool
  | .directive _ | .documentStart | .documentEnd | .streamEnd => true
  | _ => false

/-- Whether a text has a mark before its first node, or no node at all. -/
def startsExplicitly : Token → Bool
  | .directive _ | .documentStart | .streamEnd => true
  | _ => false

/-- The node of a text that holds a single document, if it holds one. No node needs more than four steps for
each of its tokens. -/
def Node.ofTokens? (t : Tokens) : Except Fault (Option Node) := do
  let r : Reading := ⟨t.tokens, t.fault, [], usualHandles⟩
  let fuel := 4 * t.tokens.length + 4
  let found ← if startsExplicitly (← r.peek) then
      match ← nextDocument r with
      | none => .ok none
      | some r => (nodeUnless endsDocument .block fuel r).map some
    else (node .block fuel r).map some
  match found with
  | none => .ok none
  | some (n, r) =>
    match ← nextDocument r with
    | none => .ok (some n)
    | some _ => .error (.refused .composition)

end Tablewright.Yaml
