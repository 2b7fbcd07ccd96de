import Tablewright.CommandLine.Switch
import Tablewright.Text.Quoted
import Tablewright.Value

/-!
# Arguments of the command line

What a user says on the command line.

* `Arguments`: what has been said.
* `Misuse`: what can be wrong with arguments, and the words for it.
* `Role`: what an argument is on its own; names of switches may be shortened as long as they are clear.
* `Arguments.parse`: what a list of arguments says.
-/

namespace Tablewright.CommandLine

/-- What is said on the command line. -/
structure Arguments where
  schemas : List String
  package : Option String
  output : Option String
  tableMetadata : Option String
  config : Option String
  verbose : Bool
  noColor : Bool
  noFormat : Bool
  deriving DecidableEq, Repr

/-- What is wrong with arguments. -/
inductive Misuse where
  | ambiguous (given : String) (names : List String)
  | missingOperand (s : Switch)
  | strayOperand (s : Switch) (operand : String)
  | unknown (arguments : List String)
  deriving DecidableEq, Repr

/-- A switch by all its names. -/
def Switch.label (s : Switch) : String := "/".intercalate s.names

def Misuse.words : Misuse → String
  | ambiguous given names => s!"ambiguous option: {given} could match " ++ ", ".intercalate names
  | missingOperand s => s!"argument {s.label}: expected one argument"
  | strayOperand s operand => s!"argument {s.label}: ignored explicit argument {Text.quote operand}"
  | unknown arguments => "unrecognized arguments: " ++ " ".intercalate arguments

def Misuse.message (m : Misuse) : String := s!"{usage}{programName}: error: {m.words}\n"

/-- Why arguments say nothing to run with: help is asked for, or something is wrong. -/
inductive Stop where
  | help
  | misuse (m : Misuse)
  deriving DecidableEq, Repr

/-- How an operand is attached to the name of a switch. -/
inductive Attachment where
  | none
  | equals (operand : String)
  /-- Right after the letter of a switch. -/
  | joined (operand : String)
  deriving DecidableEq, Repr

/-- The number of characters that are attached to a letter. -/
def Attachment.letters : Attachment → Nat
  | joined operand => operand.length
  | _ => 0

/-- What an argument is on its own. -/
inductive Role where
  /-- An argument that belongs to a switch before it, or to nothing. -/
  | operand
  /-- The mark after which all arguments are operands. -/
  | marker
  | switch (name : String) (s : Switch) (attached : Attachment)
  | unknown
  deriving DecidableEq, Repr

namespace Role

/-- A text before its first equals sign, and what is attached after it. -/
def splitEquals (given : String) : String × Attachment :=
  match given.toList.span (· != '=') with
  | (name, _ :: rest) => (String.ofList name, .equals (String.ofList rest))
  | (_, []) => (given, .none)

/-- The switches that a shortened name may stand for. -/
def candidates (given : String) : List (String × Switch × Attachment) :=
  if given.startsWith "--" then
    let (stem, attached) := splitEquals given
    (Switch.byName.filter fun entry => entry.1.startsWith stem).map fun entry => (entry.1, entry.2, attached)
  else
    let letter := String.ofList (given.toList.take 2)
    Switch.byName.filterMap fun entry =>
      if entry.1 = letter then some (entry.1, entry.2, .joined (String.ofList (given.toList.drop 2)))
      else if entry.1.startsWith given then some (entry.1, entry.2, .none)
      else none

/-- Whether a text is a negative number. -/
def isNegativeNumber (given : String) : Bool :=
  match given.toList with
  | '-' :: rest =>
    let (whole, rest) := rest.span Char.isDigit
    match rest with
    | [] => !whole.isEmpty
    | '.' :: places => !places.isEmpty && places.all Char.isDigit
    | _ => false
  | _ => false

/-- What an argument is that starts with a hyphen and is no name of a switch. -/
def ofShortened (given : String) : Except Misuse Role :=
  match candidates given with
  | [(name, s, attached)] => .ok (.switch name s attached)
  | [] => .ok (if isNegativeNumber given || given.toList.contains ' ' then .operand else .unknown)
  | several => .error (.ambiguous given (several.map (·.1)))

/-- What an argument is. -/
def of (given : String) : Except Misuse Role :=
  if !given.startsWith "-" || given = "-" then .ok .operand
  else
    match Switch.ofName? given with
    | some s => .ok (.switch given s .none)
    | none =>
      match splitEquals given with
      | (name, .equals text) =>
        match Switch.ofName? name with
        | some s => .ok (.switch name s (.equals text))
        | none => ofShortened given
      | _ => ofShortened given

/-- What the arguments of a list are. -/
def ofAll : List String → Except Misuse (List (String × Role))
  | [] => .ok []
  | "--" :: rest => .ok (("--", .marker) :: rest.map fun given => (given, .operand))
  | given :: rest => do
    let role ← of given
    let roles ← ofAll rest
    .ok ((given, role) :: roles)

end Role

/-- A switch that is set, with its operand. -/
abbrev Setting := Switch × String

/-- The switches that one argument sets, and what is left. -/
structure Taken where
  settings : List Setting
  rest : List (String × Role)
  /-- Letters that stand for no switch. -/
  leftOver : List String

/-- Takes a switch with the operand after it, if it needs one. -/
def takePlain (s : Switch) (rest : List (String × Role)) : Except Misuse Taken :=
  if s.operand?.isNone then .ok ⟨[(s, "")], rest, []⟩
  else
    match rest with
    | (operand, .operand) :: rest => .ok ⟨[(s, operand)], rest, []⟩
    | _ => .error (.missingOperand s)

/-- Takes switches whose letters are joined: `attached` is what follows the letter of `s`. The fuel bounds the
number of letters. -/
def takeLetters (rest : List (String × Role)) : (fuel : Nat) → Switch → Attachment → Except Misuse Taken
  | 0, s, _ => takePlain s rest
  | fuel + 1, s, attached =>
    match attached with
    | .none => takePlain s rest
    | .equals operand =>
      if s.operand?.isSome then .ok ⟨[(s, operand)], rest, []⟩ else .error (.strayOperand s operand)
    -- an option takes the rest of its word as operand; one without operand stands before more letters
    | .joined letters =>
      if s.operand?.isSome then .ok ⟨[(s, letters)], rest, []⟩
      else
        match letters.toList with
        | [] => .error (.strayOperand s letters)
        | '-' :: _ => .error (.strayOperand s letters)
        | letter :: more =>
          match Switch.ofName? (String.ofList ['-', letter]) with
          -- the letters are kept, and refused only after everything else is read
          | none => .ok ⟨[(s, "")], rest, ["-" ++ letters]⟩
          | some next =>
            let attached := match more with
              | [] => .none
              | '=' :: operand => .equals (String.ofList operand)
              | more => .joined (String.ofList more)
            (takeLetters rest fuel next attached).map fun t => { t with settings := (s, "") :: t.settings }

namespace Arguments

def nothing : Arguments := ⟨[], none, none, none, none, false, false, false⟩

/-- What is said with one more switch. -/
def set (a : Arguments) : Setting → Except Stop Arguments
  | (.help, _) => .error .help
  | (.schema, operand) => .ok { a with schemas := a.schemas ++ [operand] }
  | (.package, operand) => .ok { a with package := some operand }
  | (.output, operand) => .ok { a with output := some operand }
  | (.tableMetadata, operand) => .ok { a with tableMetadata := some operand }
  | (.config, operand) => .ok { a with config := some operand }
  | (.verbose, _) => .ok { a with verbose := true }
  | (.noColor, _) => .ok { a with noColor := true }
  | (.noFormat, _) => .ok { a with noFormat := true }

/-- What arguments say after those before them, with the arguments that belong to nothing. The fuel bounds
the number of arguments. -/
def parseFrom : (fuel : Nat) → Arguments → (leftOver : List String) → List (String × Role) →
    Except Stop (Arguments × List String)
  | 0, a, leftOver, _ => .ok (a, leftOver)
  | _ + 1, a, leftOver, [] => .ok (a, leftOver)
  | fuel + 1, a, leftOver, (_, .switch _ s attached) :: rest =>
    match takeLetters rest (attached.letters + 1) s attached with
    | .error m => .error (.misuse m)
    | .ok t => do
      let a ← t.settings.foldlM set a
      parseFrom fuel a (leftOver ++ t.leftOver) t.rest
  | fuel + 1, a, leftOver, (given, _) :: rest => parseFrom fuel a (leftOver ++ [given]) rest

def parse (given : List String) : Except Stop Arguments := do
  let roles ← (Role.ofAll given).mapError .misuse
  let (a, leftOver) ← parseFrom (given.length + 1) nothing [] roles
  if leftOver.isEmpty then .ok a else .error (.misuse (.unknown leftOver))

/-- What is said about settings, by their names; what is not said is `null`. -/
def settings (a : Arguments) : List (String × Value) :=
  let text (x : Option String) : Value := (x.map Value.text).getD .null
  [("schemas", if a.schemas.isEmpty then .null else .list (a.schemas.map .text)),
   ("namespace", text a.package), ("output_dir", text a.output), ("table_metadata", text a.tableMetadata),
   ("format_code", if a.noFormat then .bool false else .null),
   ("log_level", if a.verbose then .text "DEBUG" else .null)]

end Arguments

end Tablewright.CommandLine
