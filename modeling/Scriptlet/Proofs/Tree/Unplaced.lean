import Scriptlet.Tree.Builder

set_option autoImplicit false

/-!
Trees without the ranges of their nodes. The numbers stay.
-/
namespace Scriptlet

/-- The number of a node, with its range forgotten. -/
def NodeInfo.unplaced (info : NodeInfo) : NodeInfo :=
  { info with span := ⟨0, 0⟩ }

mutual

/-- An expression with all ranges forgotten. -/
def Expression.unplaced : Expression → Expression
  | .literal info value => .literal info.unplaced value
  | .identifier info name => .identifier info.unplaced name
  | .this info => .this info.unplaced
  | .member info object property => .member info.unplaced object.unplaced property.unplaced
  | .call info callee arguments =>
    .call info.unplaced callee.unplaced (unplacedExpressions arguments)
  | .assignment info operator target value =>
    .assignment info.unplaced operator target.unplaced value.unplaced
  | .object info properties => .object info.unplaced (unplacedProperties properties)
  | .array info elements => .array info.unplaced (unplacedExpressions elements)
  | .sequence info expressions => .sequence info.unplaced (unplacedExpressions expressions)
  | .unary info operator argument => .unary info.unplaced operator argument.unplaced
  | .binary info operator left right =>
    .binary info.unplaced operator left.unplaced right.unplaced
  | .logical info operator left right =>
    .logical info.unplaced operator left.unplaced right.unplaced
  | .function info name params body => .function info.unplaced name params body.unplaced

/-- The selected property of an object with all ranges forgotten. -/
def MemberProperty.unplaced : MemberProperty → MemberProperty
  | .named name => .named name
  | .computed expression => .computed expression.unplaced

/-- Expressions with all ranges forgotten. -/
def unplacedExpressions : List Expression → List Expression
  | [] => []
  | expression :: rest => expression.unplaced :: unplacedExpressions rest

def unplacedProperties : List ObjectProperty → List ObjectProperty
  | [] => []
  | .mk key value _ :: rest => .mk key value.unplaced ⟨0, 0⟩ :: unplacedProperties rest

/-- A statement with all ranges forgotten. -/
def Statement.unplaced : Statement → Statement
  | .declaration info kind declarations =>
    .declaration info.unplaced kind (unplacedDeclarators declarations)
  | .conditional info condition consequent alternate =>
    .conditional info.unplaced condition.unplaced consequent.unplaced
      (unplacedAlternate alternate)
  | .while info test body => .while info.unplaced test.unplaced body.unplaced
  | .expression info expression => .expression info.unplaced expression.unplaced
  | .block block => .block block.unplaced

/-- The second statement of a choice with all ranges forgotten. -/
def unplacedAlternate : Option Statement → Option Statement
  | none => none
  | some statement => some statement.unplaced

/-- Declared names with all ranges forgotten. -/
def unplacedDeclarators : List Declarator → List Declarator
  | [] => []
  | declarator :: rest => declarator.unplaced :: unplacedDeclarators rest

/-- A declared name with all ranges forgotten. -/
def Declarator.unplaced : Declarator → Declarator
  | .mk info name init => .mk info.unplaced name (unplacedInit init)

/-- An initial value with all ranges forgotten. -/
def unplacedInit : Option Expression → Option Expression
  | none => none
  | some expression => some expression.unplaced

/-- A block with all ranges forgotten. -/
def Block.unplaced : Block → Block
  | .mk info statements => .mk info.unplaced (unplacedStatements statements)

/-- Statements with all ranges forgotten. -/
def unplacedStatements : List Statement → List Statement
  | [] => []
  | statement :: rest => statement.unplaced :: unplacedStatements rest

end

/-- A program with all ranges forgotten. -/
def Program.unplaced (program : Program) : Program :=
  ⟨program.id, program.body.id, unplacedStatements program.body.statements⟩

namespace Expression

variable (expression : Expression)

@[simp]
theorem span_unplaced : expression.unplaced.span = ⟨0, 0⟩ := by
  cases expression <;> rfl

@[simp]
theorem isAssignable_unplaced : expression.unplaced.isAssignable = expression.isAssignable := by
  cases expression <;> rfl

@[simp]
theorem isFunction_unplaced : expression.unplaced.isFunction = expression.isFunction := by
  cases expression <;> rfl

@[simp]
theorem nodeKind_unplaced : expression.unplaced.nodeKind = expression.nodeKind := by
  cases expression <;> rfl

end Expression

namespace Builder

variable (builder : Builder)

theorem assignment_unplaced (operator : AssignmentOperator) (target value : Expression) :
    builder.assignment operator target.unplaced value.unplaced =
      ((builder.assignment operator target value).1.unplaced,
        (builder.assignment operator target value).2) := by
  rw [assignment, target.span_unplaced, value.span_unplaced]
  rfl

theorem infixed_unplaced (operator : InfixOperator) (left right : Expression) :
    builder.infixed operator left.unplaced right.unplaced =
      ((builder.infixed operator left right).1.unplaced,
        (builder.infixed operator left right).2) := by
  cases operator
  all_goals
    simp only [infixed, left.span_unplaced, right.span_unplaced]
    rfl

end Builder
end Scriptlet
