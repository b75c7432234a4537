import Scriptlet.Span
import Scriptlet.Tree.Operator

set_option autoImplicit false

/-!
Trees of programs. Each node carries its number and its range of the text; a property of an object
has a range only.
-/
namespace Scriptlet

/-- Numbers of nodes, in the order of their creation. -/
structure NodeId where
  index : Nat
  deriving DecidableEq, Repr, Inhabited

def NodeId.text (id : NodeId) : String :=
  ".node_" ++ toString id.index

structure NodeInfo where
  id : NodeId
  span : Span
  deriving DecidableEq, Repr, Inhabited

inductive Literal where
  | null
  | boolean (value : Bool)
  | string (value : String)
  | number (value : Float)
  deriving BEq, Repr

/-- How a variable was declared. All three declare alike. -/
inductive VariableKind where
  | var | «let» | const
  deriving DecidableEq, Repr

def VariableKind.keyword : VariableKind → Keyword
  | .var => .varWord
  | .let => .letWord
  | .const => .constWord

mutual

inductive Expression where
  | literal (info : NodeInfo) (value : Literal)
  | identifier (info : NodeInfo) (name : String)
  | this (info : NodeInfo)
  | member (info : NodeInfo) (object : Expression) (property : MemberProperty)
  | call (info : NodeInfo) (callee : Expression) (arguments : List Expression)
  | assignment (info : NodeInfo) (operator : AssignmentOperator) (target value : Expression)
  | object (info : NodeInfo) (properties : List ObjectProperty)
  | array (info : NodeInfo) (elements : List Expression)
  | sequence (info : NodeInfo) (expressions : List Expression)
  | unary (info : NodeInfo) (operator : UnaryOperator) (argument : Expression)
  | binary (info : NodeInfo) (operator : BinaryOperator) (left right : Expression)
  | logical (info : NodeInfo) (operator : LogicalOperator) (left right : Expression)
  | function (info : NodeInfo) (name : Option String) (params : List String) (body : Block)

/-- What a member expression selects: a name, or the value of an expression. -/
inductive MemberProperty where
  | named (name : String)
  | computed (expression : Expression)

inductive ObjectProperty where
  | mk (key : String) (value : Expression) (span : Span)

inductive Statement where
  | declaration (info : NodeInfo) (kind : VariableKind) (declarations : List Declarator)
  | conditional (info : NodeInfo) (condition : Expression) (consequent : Statement)
      (alternate : Option Statement)
  | while (info : NodeInfo) (test : Expression) (body : Statement)
  | expression (info : NodeInfo) (expression : Expression)
  | block (block : Block)

/-- One name of a variable statement, with its initial value if it has one. -/
inductive Declarator where
  | mk (info : NodeInfo) (name : String) (init : Option Expression)

inductive Block where
  | mk (info : NodeInfo) (statements : List Statement)

end

structure Body where
  id : NodeId
  statements : List Statement

structure Program where
  id : NodeId
  body : Body

inductive NodeKind where
  | nullLiteral | booleanLiteral | stringLiteral | numericLiteral
  | identifier | this | member | call | assignment | object | array | sequence
  | unary | binary | logical | function
  | declarator | declaration | conditional | while | expression | block
  | body | program
  deriving DecidableEq, Repr

def NodeKind.name : NodeKind → String
  | .nullLiteral => "NullLiteral"
  | .booleanLiteral => "BooleanLiteral"
  | .stringLiteral => "StringLiteral"
  | .numericLiteral => "NumericLiteral"
  | .identifier => "Identifier"
  | .this => "ThisExpression"
  | .member => "MemberExpression"
  | .call => "CallExpression"
  | .assignment => "AssignmentExpression"
  | .object => "ObjectExpression"
  | .array => "ArrayExpression"
  | .sequence => "SequenceExpression"
  | .unary => "UnaryExpression"
  | .binary => "BinaryExpression"
  | .logical => "LogicalExpression"
  | .function => "FunctionExpression"
  | .declarator => "VariableDeclarator"
  | .declaration => "VariableStatement"
  | .conditional => "IfStatement"
  | .while => "WhileStatement"
  | .expression => "ExpressionStatement"
  | .block => "BlockStatement"
  | .body => "Body"
  | .program => "Program"

def Literal.nodeKind : Literal → NodeKind
  | .null => .nullLiteral
  | .boolean _ => .booleanLiteral
  | .string _ => .stringLiteral
  | .number _ => .numericLiteral

namespace ObjectProperty

def key : ObjectProperty → String
  | .mk key _ _ => key

def value : ObjectProperty → Expression
  | .mk _ value _ => value

def span : ObjectProperty → Span
  | .mk _ _ span => span

end ObjectProperty

namespace Declarator

/-- The number and range of a declared name. -/
def info : Declarator → NodeInfo
  | .mk info _ _ => info

def name : Declarator → String
  | .mk _ name _ => name

def init : Declarator → Option Expression
  | .mk _ _ init => init

end Declarator

namespace Block

def info : Block → NodeInfo
  | .mk info _ => info

def statements : Block → List Statement
  | .mk _ statements => statements

end Block

namespace Expression

def info : Expression → NodeInfo
  | .literal info _ => info
  | .identifier info _ => info
  | .this info => info
  | .member info _ _ => info
  | .call info _ _ => info
  | .assignment info _ _ _ => info
  | .object info _ => info
  | .array info _ => info
  | .sequence info _ => info
  | .unary info _ _ => info
  | .binary info _ _ _ => info
  | .logical info _ _ _ => info
  | .function info _ _ _ => info

def id (expression : Expression) : NodeId :=
  expression.info.id

def span (expression : Expression) : Span :=
  expression.info.span

def nodeKind : Expression → NodeKind
  | .literal _ value => value.nodeKind
  | .identifier .. => .identifier
  | .this .. => .this
  | .member .. => .member
  | .call .. => .call
  | .assignment .. => .assignment
  | .object .. => .object
  | .array .. => .array
  | .sequence .. => .sequence
  | .unary .. => .unary
  | .binary .. => .binary
  | .logical .. => .logical
  | .function .. => .function

def isAssignable : Expression → Bool
  | .identifier .. => true
  | .member .. => true
  | _ => false

def isFunction : Expression → Bool
  | .function .. => true
  | _ => false

end Expression

namespace Statement

def info : Statement → NodeInfo
  | .declaration info _ _ => info
  | .conditional info _ _ _ => info
  | .while info _ _ => info
  | .expression info _ => info
  | .block inner => inner.info

def nodeKind : Statement → NodeKind
  | .declaration .. => .declaration
  | .conditional .. => .conditional
  | .while .. => .while
  | .expression .. => .expression
  | .block _ => .block

end Statement
end Scriptlet
