import Tablewright.Source.Literal
import Tablewright.Source.Syntax

/-!
# Printing generated source

The text of a syntax tree, one statement a line, with parentheses only where precedence asks for them.

* `Expr.print`: an expression in a context of a given precedence.
* `Stmt.lines`: the lines of a statement at an indentation.
* `Stmt.print`, `Module.print`: the text of a statement and of a module, refused if a formatted text
  would need a backslash inside one of its fields.
-/

namespace Tablewright.Source

/-- How tightly the context of an expression binds. -/
inductive Precedence where
  | tuple
  | yield
  | test
  | or
  | and
  | not
  | compare
  | operand
  | atom
  deriving DecidableEq, Repr

namespace Precedence

/-- The place of a level in the order from loose to tight. -/
def rank : Precedence → Nat
  | tuple => 0
  | yield => 1
  | test => 2
  | or => 3
  | and => 4
  | not => 5
  | compare => 6
  | operand => 7
  | atom => 8

/-- Whether a context binds tighter than an operator, which then needs parentheses. -/
def exceeds (context operator : Precedence) : Bool := operator.rank < context.rank

end Precedence

def Comparison.sign : Comparison → String
  | eq => "=="
  | lt => "<"
  | gt => ">"
  | is => "is"
  | isNot => "is not"

def Shape.brackets : Shape → String × String
  | list => ("[", "]")
  | set => ("\x7b", "\x7d")
  | generator => ("(", ")")

/-- A text in parentheses where a condition holds. -/
def parenthesize (condition : Bool) (s : String) : String := if condition then s!"({s})" else s

/-- Texts in a row; a single one keeps a comma, so that it is a tuple. -/
def commaRow : List String → String
  | [one] => one ++ ","
  | items => ", ".intercalate items

/-- The text of a constant: infinities are written as a numeral beyond the range, not-a-number as the
difference of two. -/
def constantText : Value → String
  | .float x =>
    if x.isNaN then "(1e309-1e309)"
    else if x.isInf then (if x < 0.0 then "-1e309" else "1e309")
    else Value.floatText x
  | .tuple items => "(" ++ commaRow (Value.literals items) ++ ")"
  | v => v.literal

/-- The text of a field of a formatted text, given the text of its expression. -/
def fieldText (expression : List Char) (conversion : Option Char) : List Char :=
  '\x7b' :: ((if expression.head? == some '\x7b' then [' '] else []) ++ expression
    ++ (match conversion with
      | some c => ['!', c]
      | none => [])
    ++ ['\x7d'])

/-- Literal text of a formatted text: braces are doubled. -/
def doubleBraces (cs : List Char) : List Char :=
  cs.flatMap fun c => if c == '\x7b' || c == '\x7d' then [c, c] else [c]

mutual

/-- The text of an expression in a context. -/
def Expr.print (context : Precedence) : Expr → String
  | .name id => id
  | .constant v => constantText v
  -- without the space the dot would make a decimal of the number
  | .attr (.constant (.int n)) member => constantText (.int n) ++ " ." ++ member
  | .attr value member => value.print .atom ++ "." ++ member
  -- a tuple in brackets needs no parentheses
  | .subscript value (.tuple (first :: rest)) =>
    value.print .atom ++ "[" ++ commaRow (first.print .test :: Expr.printAll rest) ++ "]"
  | .subscript value index => value.print .atom ++ "[" ++ index.print .test ++ "]"
  | .call callee args keywords =>
    callee.print .atom ++ "(" ++ ", ".intercalate (Expr.printAll args ++ Keyword.printAll keywords) ++ ")"
  | .tuple items =>
    parenthesize (items.isEmpty || context.exceeds .tuple) (commaRow (Expr.printAll items))
  | .list items => "[" ++ ", ".intercalate (Expr.printAll items) ++ "]"
  | .dict entries => "\x7b" ++ ", ".intercalate (Entry.printAll entries) ++ "\x7d"
  | .comprehension shape element target source =>
    shape.brackets.1 ++ element.print .test ++ " for " ++ target ++ " in " ++ source.print .or
      ++ shape.brackets.2
  | .compare left op right =>
    parenthesize (context.exceeds .compare)
      (left.print .operand ++ " " ++ op.sign ++ " " ++ right.print .operand)
  | .not operand => parenthesize (context.exceeds .not) ("not " ++ operand.print .not)
  | .or left right =>
    parenthesize (context.exceeds .or) (left.print .and ++ " or " ++ right.print .not)
  | .conditional body test orelse =>
    parenthesize (context.exceeds .test)
      (body.print .or ++ " if " ++ test.print .or ++ " else " ++ orelse.print .test)
  | .formatted parts => formattedLiteral (Part.printAll parts)

def Expr.printAll : List Expr → List String
  | [] => []
  | e :: rest => e.print .test :: Expr.printAll rest

def Keyword.print : Keyword → String
  | .mk (some name) value => name ++ "=" ++ value.print .test
  | .mk none value => "**" ++ value.print .test

def Keyword.printAll : List Keyword → List String
  | [] => []
  | k :: rest => k.print :: Keyword.printAll rest

def Entry.print : Entry → String
  | .mk key value => key.print .test ++ ": " ++ value.print .test

def Entry.printAll : List Entry → List String
  | [] => []
  | e :: rest => e.print :: Entry.printAll rest

/-- A part of a formatted text as it is written, and whether it is literal text. -/
def Part.print : Part → FormattedPart
  | .text s => (doubleBraces s.toList, true)
  | .field value conversion => (fieldText (value.print .or).toList conversion, false)

/-- The parts of a formatted text as they are written. -/
def Part.printAll : List Part → List FormattedPart
  | [] => []
  | p :: rest => p.print :: Part.printAll rest

end

mutual

/-- The expressions inside the formatted texts of an expression. -/
def Expr.formatFields : Expr → List Expr
  | .name _ => []
  | .constant _ => []
  | .attr value _ => value.formatFields
  | .subscript value index => value.formatFields ++ index.formatFields
  | .call callee args keywords =>
    callee.formatFields ++ Expr.formatFieldsAll args ++ Keyword.formatFieldsAll keywords
  | .tuple items => Expr.formatFieldsAll items
  | .list items => Expr.formatFieldsAll items
  | .dict entries => Entry.formatFieldsAll entries
  | .comprehension _ element _ source => element.formatFields ++ source.formatFields
  | .compare left _ right => left.formatFields ++ right.formatFields
  | .not operand => operand.formatFields
  | .or left right => left.formatFields ++ right.formatFields
  | .conditional body test orelse => body.formatFields ++ test.formatFields ++ orelse.formatFields
  | .formatted parts => Part.formatFieldsAll parts

def Expr.formatFieldsAll : List Expr → List Expr
  | [] => []
  | e :: rest => e.formatFields ++ Expr.formatFieldsAll rest

def Keyword.formatFieldsAll : List Keyword → List Expr
  | [] => []
  | .mk _ value :: rest => value.formatFields ++ Keyword.formatFieldsAll rest

def Entry.formatFieldsAll : List Entry → List Expr
  | [] => []
  | .mk key value :: rest => key.formatFields ++ value.formatFields ++ Entry.formatFieldsAll rest

/-- The expressions inside several parts, and inside the formatted texts of these. -/
def Part.formatFieldsAll : List Part → List Expr
  | [] => []
  | .text _ :: rest => Part.formatFieldsAll rest
  | .field value _ :: rest => value :: (value.formatFields ++ Part.formatFieldsAll rest)

end

/-- The text of a parameter. -/
def Param.print (p : Param) : String :=
  p.name
    ++ (match p.hint with
      | some a => ": " ++ a.print .test
      | none => "")
    ++ (match p.default with
      | some d => "=" ++ d.print .test
      | none => "")

/-- The head of a function, without its decorators. -/
def Signature.print (s : Signature) : String :=
  let params := s.params.map Param.print ++ (s.rest.map fun p => "**" ++ p.print).toList
  "def " ++ s.name ++ "(" ++ ", ".intercalate params ++ ")"
    ++ (match s.returns with
      | some e => " -> " ++ e.print .test
      | none => "")
    ++ ":"

/-- The white space in front of a line, four blanks for each level. -/
def indentation (depth : Nat) : String := String.ofList (List.replicate (4 * depth) ' ')

/-- The lines of a documentation text. It is one line here, even if the text holds line feeds. -/
def docLines (depth : Nat) : Option String → List String
  | some doc => [indentation depth ++ docLiteral doc]
  | none => []

def decoratorLines (depth : Nat) (decorators : List Expr) : List String :=
  decorators.map fun d => indentation depth ++ "@" ++ d.print .test

def classHead (name : String) (bases : List Expr) : String :=
  "class " ++ name ++ (if bases.isEmpty then "" else "(" ++ ", ".intercalate (Expr.printAll bases) ++ ")")
    ++ ":"

mutual

/-- The lines of a statement. Functions and classes are set off by an empty line. -/
def Stmt.lines (depth : Nat) : Stmt → List String
  | .expr value => [indentation depth ++ value.print .yield]
  | .assign target value => [indentation depth ++ target.print .tuple ++ " = " ++ value.print .test]
  | .annotated target hint value =>
    [indentation depth ++ target ++ ": " ++ hint.print .test
      ++ (match value with
        | some v => " = " ++ v.print .test
        | none => "")]
  | .increase target value => [indentation depth ++ target ++ " += " ++ value.print .test]
  | .result value => [indentation depth ++ "return " ++ value.print .test]
  | .raise exception => [indentation depth ++ "raise " ++ exception.print .test]
  | .pass => [indentation depth ++ "pass"]
  | .global id => [indentation depth ++ "global " ++ id]
  | .importModule module => [indentation depth ++ "import " ++ module]
  | .importFrom module names =>
    [indentation depth ++ "from " ++ module ++ " import " ++ ", ".intercalate names]
  | .ifThen test body => (indentation depth ++ "if " ++ test.print .test ++ ":") :: Stmt.linesAll (depth + 1) body
  | .forIn target source body =>
    (indentation depth ++ "for " ++ target ++ " in " ++ source.print .test ++ ":")
      :: Stmt.linesAll (depth + 1) body
  | .loop test body =>
    (indentation depth ++ "while " ++ test.print .test ++ ":") :: Stmt.linesAll (depth + 1) body
  | .withBlock context body =>
    (indentation depth ++ "with " ++ context.print .test ++ ":") :: Stmt.linesAll (depth + 1) body
  -- definitions stand behind an empty line
  | .function signature doc body =>
    "" :: (decoratorLines depth signature.decorators ++ [indentation depth ++ signature.print]
      ++ docLines (depth + 1) doc ++ Stmt.linesAll (depth + 1) body)
  | .classDef name decorators bases doc body =>
    "" :: (decoratorLines depth decorators ++ [indentation depth ++ classHead name bases]
      ++ docLines (depth + 1) doc ++ Stmt.linesAll (depth + 1) body)

def Stmt.linesAll (depth : Nat) : List Stmt → List String
  | [] => []
  | s :: rest => s.lines depth ++ Stmt.linesAll depth rest

end

def Signature.exprs (s : Signature) : List Expr :=
  s.decorators ++ (s.params ++ s.rest.toList).flatMap (fun p => p.hint.toList ++ p.default.toList)
    ++ s.returns.toList

mutual

/-- The expressions of a statement and of the statements in it. -/
def Stmt.exprs : Stmt → List Expr
  | .expr value => [value]
  | .assign target value => [target, value]
  | .annotated _ hint value => hint :: value.toList
  | .increase _ value => [value]
  | .result value => [value]
  | .raise exception => [exception]
  | .pass => []
  | .global _ => []
  | .importModule _ => []
  | .importFrom _ _ => []
  | .ifThen test body => test :: Stmt.exprsAll body
  | .forIn _ source body => source :: Stmt.exprsAll body
  | .loop test body => test :: Stmt.exprsAll body
  | .withBlock context body => context :: Stmt.exprsAll body
  | .function signature _ body => signature.exprs ++ Stmt.exprsAll body
  | .classDef _ decorators bases _ body => decorators ++ bases ++ Stmt.exprsAll body

def Stmt.exprsAll : List Stmt → List Expr
  | [] => []
  | s :: rest => s.exprs ++ Stmt.exprsAll rest

end

/-- Why a tree has no text: a field of a formatted text would need a backslash. -/
inductive PrintFault where
  | backslashInField
  deriving DecidableEq, Repr

def PrintFault.message : PrintFault → String
  | backslashInField => "Unable to avoid backslash in f-string expression part"

/-- Whether every field of every formatted text can be written. -/
def printable (exprs : List Expr) : Bool :=
  (Expr.formatFieldsAll exprs).all fun e => !(e.print .or).toList.contains '\\'

/-- A text, refused unless the formatted texts of the given expressions can be written. -/
def guardFields (exprs : List Expr) (text : String) : Except PrintFault String :=
  if printable exprs then .ok text else .error .backslashInField

def Expr.source (e : Expr) : Except PrintFault String := guardFields [e] (e.print .test)

def Stmt.source (s : Stmt) : Except PrintFault String :=
  let lines := s.lines 0
  guardFields s.exprs ("\n".intercalate (if lines.head? = some "" then lines.drop 1 else lines))

/-- The text of a module, without a line feed at the end. -/
def Module.print (m : Module) : Except PrintFault String :=
  guardFields (Stmt.exprsAll m.body) ("\n".intercalate (docLiteral m.doc :: Stmt.linesAll 0 m.body))

end Tablewright.Source
