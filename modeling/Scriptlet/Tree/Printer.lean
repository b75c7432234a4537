import Scriptlet.Numeral.Style
import Scriptlet.Text.Basic
import Scriptlet.Text.Quoted
import Scriptlet.Tree.Basic

set_option autoImplicit false

/-!
The text of a tree: program text with parentheses around every operator.
-/
namespace Scriptlet

open Text (commaSeparated inBraces)

def Literal.text : Literal → String
  | .null => "null"
  | .boolean value => toString value
  | .string value => Text.quoteText value
  | .number value => Numeral.plainText value

/-- The text of an operator between its operands. -/
def infixText (sign : Punctuator) (left right : String) : String :=
  "(" ++ left ++ " " ++ sign.spelling ++ " " ++ right ++ ")"

mutual

def Expression.text : Expression → String
  | .literal _ value => value.text
  | .identifier _ name => name
  | .this _ => "this"
  | .member _ object property => object.text ++ property.text
  | .call _ callee arguments =>
    callee.text ++ "(" ++ commaSeparated (expressionTexts arguments) ++ ")"
  | .assignment _ operator target value => infixText operator.sign target.text value.text
  | .object _ properties =>
    if properties.isEmpty then "\x7b\x7d" else inBraces (commaSeparated (propertyTexts properties))
  | .array _ elements => "[" ++ commaSeparated (expressionTexts elements) ++ "]"
  | .sequence _ expressions => "(" ++ commaSeparated (expressionTexts expressions) ++ ")"
  | .unary _ operator argument => "(" ++ operator.sign.spelling ++ argument.text ++ ")"
  | .binary _ operator left right => infixText operator.sign left.text right.text
  | .logical _ operator left right => infixText operator.sign left.text right.text
  | .function _ name params body =>
    "function" ++ name.elim "" (" " ++ ·) ++ "(" ++ commaSeparated params ++ ") " ++ body.text

def MemberProperty.text : MemberProperty → String
  | .named name => "." ++ name
  | .computed expression => "[" ++ expression.text ++ "]"

def expressionTexts : List Expression → List String
  | [] => []
  | expression :: rest => expression.text :: expressionTexts rest

def ObjectProperty.text : ObjectProperty → String
  | .mk key value _ => key ++ ": " ++ value.text

def propertyTexts : List ObjectProperty → List String
  | [] => []
  | property :: rest => property.text :: propertyTexts rest

def Statement.text : Statement → String
  | .declaration _ kind declarations =>
    kind.keyword.spelling ++ " " ++ commaSeparated (declaratorTexts declarations) ++ ";"
  | .conditional _ condition consequent alternate =>
    "if (" ++ condition.text ++ ") " ++ consequent.text ++ alternateText alternate
  | .while _ test body => "while (" ++ test.text ++ ") " ++ body.text
  | .expression _ expression => expression.text ++ ";"
  | .block block => block.text

def alternateText : Option Statement → String
  | none => ""
  | some statement => " else " ++ statement.text

def Declarator.text : Declarator → String
  | .mk _ name init => name ++ initText init

def initText : Option Expression → String
  | none => ""
  | some expression => " = " ++ expression.text

def declaratorTexts : List Declarator → List String
  | [] => []
  | declarator :: rest => declarator.text :: declaratorTexts rest

def Block.text : Block → String
  | .mk _ statements =>
    if statements.isEmpty then "\x7b\x7d"
    else inBraces (" ".intercalate (statementTexts statements))

def statementTexts : List Statement → List String
  | [] => []
  | statement :: rest => statement.text :: statementTexts rest

end

/-- The text of a program: one top-level statement a line. -/
def Program.text (program : Program) : String :=
  "\n".intercalate (statementTexts program.body.statements)

end Scriptlet
