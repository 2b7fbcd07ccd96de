import Tablewright.Text.Pieces
import Tablewright.Value

/-!
# Syntax of generated source

The syntax trees that generated modules are built as: the part of Python that data-access packages
need.

* `Expr`, with `Keyword` arguments, `Entry`s of dictionaries and `Part`s of formatted texts.
* `Param`, `Stmt`: parameters, simple and compound statements.
* `Module`: a documentation text and statements.
* `Expr.path` and the other builders: frequent shapes by name.
-/

namespace Tablewright.Source

/-- Comparison operators. -/
inductive Comparison where
  | eq
  | lt
  | gt
  | is
  | isNot
  deriving DecidableEq, Repr

/-- What a comprehension builds. -/
inductive Shape where
  | list
  | set
  | generator
  deriving DecidableEq, Repr

mutual

/-- Expressions. -/
inductive Expr where
  | name (id : String)
  | constant (value : Value)
  | attr (value : Expr) (member : String)
  | subscript (value index : Expr)
  | call (callee : Expr) (args : List Expr) (keywords : List Keyword)
  | tuple (items : List Expr)
  | list (items : List Expr)
  | dict (entries : List Entry)
  | comprehension (shape : Shape) (element : Expr) (target : String) (source : Expr)
  | compare (left : Expr) (op : Comparison) (right : Expr)
  | not (operand : Expr)
  | or (left right : Expr)
  | conditional (body test orelse : Expr)
  | formatted (parts : List Part)

/-- Arguments by name; without a name, a mapping that is spread. -/
inductive Keyword where
  | mk (name : Option String) (value : Expr)

/-- Entries of a dictionary. -/
inductive Entry where
  | mk (key value : Expr)

/-- Parts of a formatted text: literal text, and expressions with an optional conversion. -/
inductive Part where
  | text (s : String)
  | field (value : Expr) (conversion : Option Char)

end

instance : Inhabited Expr := ⟨.name ""⟩

/-- A parameter with its hint and its default. -/
structure Param where
  name : String
  hint : Option Expr
  default : Option Expr

/-- The head of a function: its name, decorators, parameters and result. -/
structure Signature where
  name : String
  decorators : List Expr
  params : List Param
  /-- The parameter that collects the remaining arguments by name. -/
  rest : Option Param
  returns : Option Expr

/-- Statements. -/
inductive Stmt where
  | expr (value : Expr)
  | assign (target value : Expr)
  | annotated (target : String) (hint : Expr) (value : Option Expr)
  | increase (target : String) (value : Expr)
  | result (value : Expr)
  | raise (exception : Expr)
  | pass
  | global (id : String)
  | importModule (module : String)
  | importFrom (module : String) (names : List String)
  | ifThen (test : Expr) (body : List Stmt)
  | forIn (target : String) (source : Expr) (body : List Stmt)
  | loop (test : Expr) (body : List Stmt)
  | withBlock (context : Expr) (body : List Stmt)
  | function (signature : Signature) (doc : Option String) (body : List Stmt)
  | classDef (name : String) (decorators bases : List Expr) (doc : Option String) (body : List Stmt)
  deriving Inhabited

/-- A module: what it is about, and its statements. -/
structure Module where
  doc : String
  body : List Stmt

namespace Expr

/-- The constant `None`. -/
def none : Expr := constant .null

def text (s : String) : Expr := constant (.text s)

def bool (b : Bool) : Expr := constant (.bool b)

/-- A chain of attributes from a name on: the first of the parts is the name. -/
def chain : List String → Expr
  | [] => name ""
  | first :: rest => rest.foldl Expr.attr (.name first)

/-- A dotted path; a text without dots is a name. -/
def path (dotted : String) : Expr := chain (Text.split '.' dotted)

/-- A call of a function by name, with positional arguments. -/
def apply (function : String) (args : List Expr) : Expr := call (name function) args []

/-- A call of a method, with positional arguments. -/
def method (receiver : Expr) (member : String) (args : List Expr) : Expr :=
  call (attr receiver member) args []

def generic (head : String) : List Expr → Expr
  | [] => path head
  | [one] => subscript (path head) one
  | params => subscript (path head) (tuple params)

def isNone (e : Expr) : Expr := compare e .is none

def isNotNone (e : Expr) : Expr := compare e .isNot none

mutual

/-- The expression of a document value: sequences and mappings are spelled out, anything else is one
constant. -/
def ofValue : Value → Expr
  | .dict entries => dict (ofEntries entries)
  | .list items => list (ofValues items)
  | .tuple items => list (ofValues items)
  | v => constant v

def ofValues : List Value → List Expr
  | [] => []
  | v :: rest => ofValue v :: ofValues rest

def ofEntries : List (Value × Value) → List Entry
  | [] => []
  | (k, v) :: rest => .mk (ofValue k) (ofValue v) :: ofEntries rest

end

end Expr

namespace Param

/-- A parameter without hint. -/
def plain (name : String) : Param := ⟨name, none, none⟩

def required (name : String) (hint : Expr) : Param := ⟨name, some hint, none⟩

/-- A parameter that may be left out and is `None` then. -/
def optional (name : String) (hint : Expr) : Param := ⟨name, some hint, some Expr.none⟩

end Param

/-- The first parameter without default that follows one with a default. -/
def misplaced? (params : List Param) : Option String :=
  ((params.dropWhile (·.default.isNone)).find? (·.default.isNone)).map (·.name)

def misplacedMessage (name : String) : String :=
  s!"Parameter '{name}' without a default follows a parameter with one"

namespace Stmt

def bind (target : String) (value : Expr) : Stmt := assign (Expr.name target) value

def put (container : Expr) (key : String) (value : Expr) : Stmt :=
  assign (Expr.subscript container (Expr.text key)) value

end Stmt

/-- A result without value. -/
def noResult : Option Expr := some Expr.none

end Tablewright.Source
