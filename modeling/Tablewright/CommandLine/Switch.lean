import Tablewright.Text.Pieces

/-!
# Switches of the command line

What a user can say on the command line, and the help about it.

* `Switch`: the switches, with their names, operands and help.
* `usage`: the line that shows all switches; `help`: the full help.

Texts are filled up to the width of the console less two columns.
-/

namespace Tablewright.CommandLine

/-- A switch. -/
inductive Switch where
  | help
  | schema
  | package
  | output
  | tableMetadata
  | config
  | verbose
  | noColor
  | noFormat
  deriving DecidableEq, Repr

namespace Switch

def all : List Switch := [help, schema, package, output, tableMetadata, config, verbose, noColor, noFormat]

/-- The names of a switch. -/
def names : Switch → List String
  | help => ["-h", "--help"]
  | schema => ["--schema"]
  | package => ["--package"]
  | output => ["--output"]
  | tableMetadata => ["--table-metadata"]
  | config => ["-c", "--config"]
  | verbose => ["-v", "--verbose"]
  | noColor => ["--no-color"]
  | noFormat => ["--no-format"]

/-- What the operand of a switch is called, if it takes one. -/
def operand? : Switch → Option String
  | schema => some "SCHEMAS"
  | package => some "NAMESPACE"
  | output => some "OUTPUT_DIR"
  | tableMetadata => some "TABLE_METADATA"
  | config => some "CONFIG"
  | help | verbose | noColor | noFormat => none

/-- What a switch does. -/
def description : Switch → String
  | help => "show this help message and exit"
  | schema => "Entity schema file (JSON or YAML) or inline JSON. Repeat for every entity of the table."
  | package =>
    "Dotted package the generated modules live in (e.g. 'myapp.model'). Overrides config file setting."
  | output => "Directory the package tree is written below. Overrides config file setting."
  | tableMetadata => "Table metadata file or inline JSON (tableName, tableArn, region, secondary indexes)."
  | config => "Path to the YAML configuration file."
  | verbose => "Enable verbose DEBUG logging for the generator tool."
  | noColor => "Disable colored output (useful for CI/CD environments)."
  | noFormat => "Write generated modules without formatting them with black."

def withOperand (s : Switch) (name : String) : String :=
  match s.operand? with
  | some operand => s!"{name} {operand}"
  | none => name

def usagePart (s : Switch) : String := "[" ++ s.withOperand (s.names.headD "") ++ "]"

/-- A switch with all its names, as the head of its help. -/
def heading (s : Switch) : String := ", ".intercalate (s.names.map s.withOperand)

def byName : List (String × Switch) := all.flatMap fun s => s.names.map fun name => (name, s)

def ofName? (name : String) : Option Switch := byName.lookup name

end Switch

/-! ## Texts -/

def width : Nat := 78

/-- Words in lines of at most a width, where `line` is the line that is being filled. -/
def fillFrom (width : Nat) (line : String) : List String → List String
  | [] => [line]
  | word :: rest =>
    if line.length + 1 + word.length ≤ width then fillFrom width (line ++ " " ++ word) rest
    else line :: fillFrom width word rest

def fill (width : Nat) : List String → List String
  | [] => []
  | word :: rest => fillFrom width word rest

def wordsOf (s : String) : List String := Text.split ' ' s

def blanks (count : Nat) : String := String.ofList (List.replicate count ' ')

def programName : String := "dynamo-codegen"

/-- How all switches are used. -/
def usage : String :=
  let start := s!"usage: {programName} "
  let lines := fill (width - start.length) (Switch.all.map Switch.usagePart)
  start ++ ("\n" ++ blanks start.length).intercalate lines ++ "\n"

def purpose : String :=
  "Generate a typed DynamoDB data-access package (entities, keys, validators, repositories) from entity "
    ++ "schemas."

/-- The column that the help of a switch starts at. -/
def helpColumn : Nat := 24

/-- The lines about a switch: a long head has a line of its own. -/
def Switch.helpLines (s : Switch) : List String :=
  let head := "  " ++ s.heading
  let lines := fill (width - helpColumn) (wordsOf s.description)
  if head.length + 2 ≤ helpColumn then
    match lines with
    | [] => [head]
    | first :: rest =>
      (head ++ blanks (helpColumn - head.length) ++ first) :: rest.map fun l => blanks helpColumn ++ l
  else head :: lines.map fun l => blanks helpColumn ++ l

def help : String :=
  "\n".intercalate
    ([usage] ++ fill width (wordsOf purpose) ++ ["", "options:"] ++ Switch.all.flatMap Switch.helpLines) ++ "\n"

end Tablewright.CommandLine
