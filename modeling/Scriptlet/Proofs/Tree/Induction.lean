import Scriptlet.Tree.Basic

set_option autoImplicit false

/-!
Induction on trees. Expressions and statements contain each other, also through lists and blocks;
`TreeCases` asks for one case for each kind of node.
-/
namespace Scriptlet

/-- What proves a property of all expressions and another of all statements: a proof for each kind
of node from those for the nodes inside it. -/
structure TreeCases (P : Expression → Prop) (Q : Statement → Prop) : Prop where
  literal (info : NodeInfo) (value : Literal) : P (.literal info value)
  identifier (info : NodeInfo) (name : String) : P (.identifier info name)
  this (info : NodeInfo) : P (.this info)
  named (info : NodeInfo) {object : Expression} (name : String) (inner : P object) :
    P (.member info object (.named name))
  computed (info : NodeInfo) {object index : Expression} (inner : P object) (selector : P index) :
    P (.member info object (.computed index))
  call (info : NodeInfo) {callee : Expression} {arguments : List Expression} (inner : P callee)
    (each : ∀ argument ∈ arguments, P argument) : P (.call info callee arguments)
  assignment (info : NodeInfo) (operator : AssignmentOperator) {target value : Expression}
    (left : P target) (right : P value) : P (.assignment info operator target value)
  object (info : NodeInfo) {properties : List ObjectProperty}
    (each : ∀ property ∈ properties, P property.value) : P (.object info properties)
  array (info : NodeInfo) {elements : List Expression} (each : ∀ element ∈ elements, P element) :
    P (.array info elements)
  sequence (info : NodeInfo) {expressions : List Expression}
    (each : ∀ expression ∈ expressions, P expression) : P (.sequence info expressions)
  unary (info : NodeInfo) (operator : UnaryOperator) {argument : Expression}
    (inner : P argument) : P (.unary info operator argument)
  binary (info : NodeInfo) (operator : BinaryOperator) {left right : Expression}
    (first : P left) (second : P right) : P (.binary info operator left right)
  logical (info : NodeInfo) (operator : LogicalOperator) {left right : Expression}
    (first : P left) (second : P right) : P (.logical info operator left right)
  function (info : NodeInfo) (name : Option String) (params : List String) {body : Block}
    (each : ∀ statement ∈ body.statements, Q statement) : P (.function info name params body)
  declaration (info : NodeInfo) (kind : VariableKind) {declarations : List Declarator}
    (each : ∀ declarator ∈ declarations, ∀ value, declarator.init = some value → P value) :
    Q (.declaration info kind declarations)
  choice (info : NodeInfo) {condition : Expression} {consequent : Statement} (test : P condition)
    (first : Q consequent) : Q (.conditional info condition consequent none)
  alternative (info : NodeInfo) {condition : Expression} {consequent alternate : Statement}
    (test : P condition) (first : Q consequent) (second : Q alternate) :
    Q (.conditional info condition consequent (some alternate))
  loop (info : NodeInfo) {test : Expression} {body : Statement} (condition : P test)
    (inner : Q body) : Q (.while info test body)
  expression (info : NodeInfo) {value : Expression} (inner : P value) : Q (.expression info value)
  block (info : NodeInfo) {statements : List Statement}
    (each : ∀ statement ∈ statements, Q statement) : Q (.block (.mk info statements))

namespace TreeCases

variable {P : Expression → Prop} {Q : Statement → Prop}

mutual

theorem forExpression (cases : TreeCases P Q) : (expression : Expression) → P expression
  | .literal info value => cases.literal info value
  | .identifier info name => cases.identifier info name
  | .this info => cases.this info
  | .member info object (.named name) => cases.named info name (cases.forExpression object)
  | .member info object (.computed index) =>
    cases.computed info (cases.forExpression object) (cases.forExpression index)
  | .call info callee arguments =>
    cases.call info (cases.forExpression callee) (cases.forExpressions arguments)
  | .assignment info operator target value =>
    cases.assignment info operator (cases.forExpression target) (cases.forExpression value)
  | .object info properties => cases.object info (cases.forProperties properties)
  | .array info elements => cases.array info (cases.forExpressions elements)
  | .sequence info expressions => cases.sequence info (cases.forExpressions expressions)
  | .unary info operator argument => cases.unary info operator (cases.forExpression argument)
  | .binary info operator left right =>
    cases.binary info operator (cases.forExpression left) (cases.forExpression right)
  | .logical info operator left right =>
    cases.logical info operator (cases.forExpression left) (cases.forExpression right)
  | .function info name params (.mk _ statements) =>
    cases.function info name params (cases.forStatements statements)

theorem forExpressions (cases : TreeCases P Q) :
    (expressions : List Expression) → ∀ expression ∈ expressions, P expression
  | [] => nofun
  | expression :: rest =>
    List.forall_mem_cons.mpr ⟨cases.forExpression expression, cases.forExpressions rest⟩

theorem forProperties (cases : TreeCases P Q) :
    (properties : List ObjectProperty) → ∀ property ∈ properties, P property.value
  | [] => nofun
  | .mk _ value _ :: rest =>
    List.forall_mem_cons.mpr ⟨cases.forExpression value, cases.forProperties rest⟩

theorem forStatement (cases : TreeCases P Q) : (statement : Statement) → Q statement
  | .declaration info kind declarations =>
    cases.declaration info kind (cases.forDeclarators declarations)
  | .conditional info condition consequent none =>
    cases.choice info (cases.forExpression condition) (cases.forStatement consequent)
  | .conditional info condition consequent (some alternate) =>
    cases.alternative info (cases.forExpression condition) (cases.forStatement consequent)
      (cases.forStatement alternate)
  | .while info test body => cases.loop info (cases.forExpression test) (cases.forStatement body)
  | .expression info expression => cases.expression info (cases.forExpression expression)
  | .block (.mk info statements) => cases.block info (cases.forStatements statements)

theorem forDeclarators (cases : TreeCases P Q) :
    (declarations : List Declarator) →
      ∀ declarator ∈ declarations, ∀ value, declarator.init = some value → P value
  | [] => nofun
  | .mk _ _ none :: rest => List.forall_mem_cons.mpr ⟨nofun, cases.forDeclarators rest⟩
  | .mk _ _ (some init) :: rest =>
    List.forall_mem_cons.mpr ⟨fun _ init_eq => Option.some.inj init_eq ▸ cases.forExpression init,
      cases.forDeclarators rest⟩

theorem forStatements (cases : TreeCases P Q) :
    (statements : List Statement) → ∀ statement ∈ statements, Q statement
  | [] => nofun
  | statement :: rest =>
    List.forall_mem_cons.mpr ⟨cases.forStatement statement, cases.forStatements rest⟩

end

end TreeCases

end Scriptlet
