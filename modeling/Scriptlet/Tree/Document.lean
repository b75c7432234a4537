import Scriptlet.Json
import Scriptlet.Numeral.Style
import Scriptlet.Tree.Basic

set_option autoImplicit false

/-!
Trees as JSON documents. A node with several forms is an object with one field, named for its form;
the way a numeric constant is written is chosen by the caller.
-/
namespace Scriptlet

def BinaryOperator.name : BinaryOperator → String
  | .add => "Add"
  | .subtract => "Subtract"
  | .multiply => "Multiply"
  | .divide => "Divide"
  | .modulo => "Modulo"
  | .less => "Less"
  | .greater => "Greater"
  | .lessEqual => "LessEqual"
  | .greaterEqual => "GreaterEqual"
  | .equal => "Equal"
  | .notEqual => "NotEqual"
  | .strictEqual => "StrictEqual"
  | .strictNotEqual => "StrictNotEqual"
  | .bitAnd => "BitAnd"
  | .bitOr => "BitOr"
  | .bitXor => "BitXor"
  | .shiftLeft => "ShiftLeft"
  | .shiftRight => "ShiftRight"
  | .unsignedShiftRight => "UnsignedShiftRight"

def LogicalOperator.name : LogicalOperator → String
  | .and => "And"
  | .or => "Or"

def UnaryOperator.name : UnaryOperator → String
  | .negate => "Negate"
  | .plus => "Plus"
  | .not => "Not"
  | .bitNot => "BitNot"

def AssignmentOperator.name : AssignmentOperator → String
  | .assign => "Assign"
  | .addAssign => "AddAssign"
  | .subtractAssign => "SubtractAssign"
  | .multiplyAssign => "MultiplyAssign"
  | .divideAssign => "DivideAssign"
  | .moduloAssign => "ModuloAssign"

def VariableKind.name : VariableKind → String
  | .var => "Var"
  | .let => "Let"
  | .const => "Const"

def Span.toJson (span : Span) : Json :=
  .object [("start", .ofNat span.start), ("end", .ofNat span.stop)]

def NodeId.toJson (id : NodeId) : Json :=
  .ofNat id.index

def Json.tagged (tag : String) (content : Json) : Json :=
  .object [(tag, content)]

/-- A node of a form: its number first, its range last, its own fields between. -/
def NodeInfo.toJson (info : NodeInfo) (form : String) (fields : List (String × Json)) : Json :=
  .tagged form (.object (("id", info.id.toJson) :: fields ++ [("span", info.span.toJson)]))

def Literal.toJson (number : Float → Json) : Literal → Json
  | .null => .string "Null"
  | .boolean value => .tagged "Boolean" (.boolean value)
  | .string value => .tagged "String" (.string value)
  | .number value => .tagged "Numeric" (number value)

mutual

def Expression.toJson (number : Float → Json) : Expression → Json
  | .literal info value => info.toJson "Literal" [("value", value.toJson number)]
  | .identifier info name => info.toJson "Identifier" [("name", .string name)]
  | .this info => info.toJson "This" []
  | .member info object property =>
    info.toJson "Member" [("object", object.toJson number), ("property", property.toJson number)]
  | .call info callee arguments =>
    info.toJson "Call" [("callee", callee.toJson number),
      ("arguments", .array (expressionDocuments number arguments))]
  | .assignment info operator target value =>
    info.toJson "Assignment" [("operator", .string operator.name), ("target", target.toJson number),
      ("value", value.toJson number)]
  | .object info properties =>
    info.toJson "Object" [("properties", .array (propertyDocuments number properties))]
  | .array info elements =>
    info.toJson "Array" [("elements", .array (expressionDocuments number elements))]
  | .sequence info expressions =>
    info.toJson "Sequence" [("expressions", .array (expressionDocuments number expressions))]
  | .unary info operator argument =>
    info.toJson "Unary" [("operator", .string operator.name), ("argument", argument.toJson number)]
  | .binary info operator left right =>
    info.toJson "Binary" [("operator", .string operator.name), ("left", left.toJson number),
      ("right", right.toJson number)]
  | .logical info operator left right =>
    info.toJson "Logical" [("operator", .string operator.name), ("left", left.toJson number),
      ("right", right.toJson number)]
  | .function info name params body =>
    info.toJson "Function" [("name", .ofOption (name.map .string)),
      ("params", .array (params.map .string)), ("body", body.toJson number)]

/-- The selected property of an object as a document. -/
def MemberProperty.toJson (number : Float → Json) : MemberProperty → Json
  | .named name => .tagged "Named" (.string name)
  | .computed expression => .tagged "Computed" (expression.toJson number)

def expressionDocuments (number : Float → Json) : List Expression → List Json
  | [] => []
  | expression :: rest => expression.toJson number :: expressionDocuments number rest

def ObjectProperty.toJson (number : Float → Json) : ObjectProperty → Json
  | .mk key value span =>
    .object [("key", .string key), ("value", value.toJson number), ("span", span.toJson)]

def propertyDocuments (number : Float → Json) : List ObjectProperty → List Json
  | [] => []
  | property :: rest => property.toJson number :: propertyDocuments number rest

def Statement.toJson (number : Float → Json) : Statement → Json
  | .declaration info kind declarations =>
    info.toJson "Variable" [("kind", .string kind.name),
      ("declarations", .array (declaratorDocuments number declarations))]
  | .conditional info condition consequent alternate =>
    info.toJson "If" [("condition", condition.toJson number),
      ("consequent", consequent.toJson number), ("alternate", alternateDocument number alternate)]
  | .while info test body =>
    info.toJson "While" [("test", test.toJson number), ("body", body.toJson number)]
  | .expression info expression =>
    info.toJson "Expression" [("expression", expression.toJson number)]
  | .block block => .tagged "Block" (block.toJson number)

def alternateDocument (number : Float → Json) : Option Statement → Json
  | none => .null
  | some statement => statement.toJson number

def Declarator.toJson (number : Float → Json) : Declarator → Json
  | .mk info name init =>
    .object [("id", info.id.toJson), ("name", .string name), ("init", initDocument number init),
      ("span", info.span.toJson)]

def initDocument (number : Float → Json) : Option Expression → Json
  | none => .null
  | some expression => expression.toJson number

def declaratorDocuments (number : Float → Json) : List Declarator → List Json
  | [] => []
  | declarator :: rest => declarator.toJson number :: declaratorDocuments number rest

def Block.toJson (number : Float → Json) : Block → Json
  | .mk info statements =>
    .object [("id", info.id.toJson), ("statements", .array (statementDocuments number statements)),
      ("span", info.span.toJson)]

def statementDocuments (number : Float → Json) : List Statement → List Json
  | [] => []
  | statement :: rest => statement.toJson number :: statementDocuments number rest

end

def Program.toJson (number : Float → Json) (program : Program) : Json :=
  .object [("id", program.id.toJson), ("body", .object [("id", program.body.id.toJson),
    ("statements", .array (statementDocuments number program.body.statements))])]

/-- A numeric constant in a document: its shortest text, or null if it is not finite. -/
def numberDocument (value : Float) : Json :=
  (Numeral.documentText? value).elim .null .number

end Scriptlet
