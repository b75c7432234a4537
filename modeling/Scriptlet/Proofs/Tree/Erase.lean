import Scriptlet.Proofs.Tree.Every

set_option autoImplicit false

/-!
Trees without the numbers and ranges of their nodes.
-/
namespace Scriptlet

mutual

/-- An expression with all numbers and ranges forgotten. -/
def Expression.erase : Expression → Expression
  | .literal _ value => .literal default value
  | .identifier _ name => .identifier default name
  | .this _ => .this default
  | .member _ object property => .member default object.erase property.erase
  | .call _ callee arguments => .call default callee.erase (eraseExpressions arguments)
  | .assignment _ operator target value =>
    .assignment default operator target.erase value.erase
  | .object _ properties => .object default (eraseProperties properties)
  | .array _ elements => .array default (eraseExpressions elements)
  | .sequence _ expressions => .sequence default (eraseExpressions expressions)
  | .unary _ operator argument => .unary default operator argument.erase
  | .binary _ operator left right => .binary default operator left.erase right.erase
  | .logical _ operator left right => .logical default operator left.erase right.erase
  | .function _ name params body => .function default name params body.erase

/-- The selected property of an object with all numbers and ranges forgotten. -/
def MemberProperty.erase : MemberProperty → MemberProperty
  | .named name => .named name
  | .computed expression => .computed expression.erase

/-- Expressions with all numbers and ranges forgotten. -/
def eraseExpressions : List Expression → List Expression
  | [] => []
  | expression :: rest => expression.erase :: eraseExpressions rest

/-- Properties of an object with all numbers and ranges forgotten. -/
def eraseProperties : List ObjectProperty → List ObjectProperty
  | [] => []
  | .mk key value _ :: rest => .mk key value.erase default :: eraseProperties rest

/-- A statement with all numbers and ranges forgotten. -/
def Statement.erase : Statement → Statement
  | .declaration _ kind declarations => .declaration default kind (eraseDeclarators declarations)
  | .conditional _ condition consequent alternate =>
    .conditional default condition.erase consequent.erase (eraseAlternate alternate)
  | .while _ test body => .while default test.erase body.erase
  | .expression _ expression => .expression default expression.erase
  | .block block => .block block.erase

/-- The second statement of a choice with all numbers and ranges forgotten. -/
def eraseAlternate : Option Statement → Option Statement
  | none => none
  | some statement => some statement.erase

/-- Declared names with all numbers and ranges forgotten. -/
def eraseDeclarators : List Declarator → List Declarator
  | [] => []
  | .mk _ name init :: rest => .mk default name (eraseInit init) :: eraseDeclarators rest

/-- An initial value with all numbers and ranges forgotten. -/
def eraseInit : Option Expression → Option Expression
  | none => none
  | some expression => some expression.erase

/-- A block with all numbers and ranges forgotten. -/
def Block.erase : Block → Block
  | .mk _ statements => .mk default (eraseStatements statements)

/-- Statements with all numbers and ranges forgotten. -/
def eraseStatements : List Statement → List Statement
  | [] => []
  | statement :: rest => statement.erase :: eraseStatements rest

end

/-- A program with all numbers and ranges forgotten. -/
def Program.erase (program : Program) : Program :=
  ⟨default, default, eraseStatements program.body.statements⟩

namespace Expression

theorem isAssignable_erase (expression : Expression) :
    expression.erase.isAssignable = expression.isAssignable := by
  cases expression <;> rfl

end Expression
end Scriptlet
