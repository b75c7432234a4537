import Scriptlet.Proofs.Tree.Induction

set_option autoImplicit false

/-!
Properties of all nodes of a tree.
-/
namespace Scriptlet

/-- Nodes of trees. The block of a function is its body; other blocks are statements. -/
inductive Node where
  | expression (expression : Expression)
  | property (property : ObjectProperty)
  | body (block : Block)
  | declarator (declarator : Declarator)
  | statement (statement : Statement)

mutual

def Expression.Every (good : Node → Prop) : Expression → Prop
  | .literal info value => good (.expression (.literal info value))
  | .identifier info name => good (.expression (.identifier info name))
  | .this info => good (.expression (.this info))
  | .member info object property =>
    object.Every good ∧ property.Every good ∧ good (.expression (.member info object property))
  | .call info callee arguments =>
    callee.Every good ∧ EveryExpression good arguments ∧
      good (.expression (.call info callee arguments))
  | .assignment info operator target value =>
    target.Every good ∧ value.Every good ∧
      good (.expression (.assignment info operator target value))
  | .object info properties =>
    EveryProperty good properties ∧ good (.expression (.object info properties))
  | .array info elements =>
    EveryExpression good elements ∧ good (.expression (.array info elements))
  | .sequence info expressions =>
    EveryExpression good expressions ∧ good (.expression (.sequence info expressions))
  | .unary info operator argument =>
    argument.Every good ∧ good (.expression (.unary info operator argument))
  | .binary info operator left right =>
    left.Every good ∧ right.Every good ∧ good (.expression (.binary info operator left right))
  | .logical info operator left right =>
    left.Every good ∧ right.Every good ∧ good (.expression (.logical info operator left right))
  | .function info name params body =>
    body.Every good ∧ good (.body body) ∧ good (.expression (.function info name params body))

/-- Whether every node of the selected property of an object has a property. -/
def MemberProperty.Every (good : Node → Prop) : MemberProperty → Prop
  | .named _ => True
  | .computed expression => expression.Every good

def EveryExpression (good : Node → Prop) : List Expression → Prop
  | [] => True
  | expression :: rest => expression.Every good ∧ EveryExpression good rest

def EveryProperty (good : Node → Prop) : List ObjectProperty → Prop
  | [] => True
  | .mk key value span :: rest =>
    value.Every good ∧ good (.property (.mk key value span)) ∧ EveryProperty good rest

def Statement.Every (good : Node → Prop) : Statement → Prop
  | .declaration info kind declarations =>
    EveryDeclarator good declarations ∧ good (.statement (.declaration info kind declarations))
  | .conditional info condition consequent alternate =>
    condition.Every good ∧ consequent.Every good ∧ EveryAlternate good alternate ∧
      good (.statement (.conditional info condition consequent alternate))
  | .while info test body =>
    test.Every good ∧ body.Every good ∧ good (.statement (.while info test body))
  | .expression info expression =>
    expression.Every good ∧ good (.statement (.expression info expression))
  | .block block => block.Every good ∧ good (.statement (.block block))

/-- Whether every node of the second statement of a choice has a property. -/
def EveryAlternate (good : Node → Prop) : Option Statement → Prop
  | none => True
  | some statement => statement.Every good

def EveryDeclarator (good : Node → Prop) : List Declarator → Prop
  | [] => True
  | .mk info name init :: rest =>
    EveryInit good init ∧ good (.declarator (.mk info name init)) ∧ EveryDeclarator good rest

def EveryInit (good : Node → Prop) : Option Expression → Prop
  | none => True
  | some expression => expression.Every good

def Block.Every (good : Node → Prop) : Block → Prop
  | .mk _ statements => EveryStatement good statements

def EveryStatement (good : Node → Prop) : List Statement → Prop
  | [] => True
  | statement :: rest => statement.Every good ∧ EveryStatement good rest

end

def Program.Every (good : Node → Prop) (program : Program) : Prop :=
  EveryStatement good program.body.statements

section

variable {good : Node → Prop}

theorem everyExpression_iff {expressions : List Expression} :
    EveryExpression good expressions ↔ ∀ expression ∈ expressions, expression.Every good := by
  induction expressions with
  | nil => simp [EveryExpression]
  | cons first rest inductive_hypothesis => simp [EveryExpression, inductive_hypothesis]

theorem everyProperty_iff {properties : List ObjectProperty} :
    EveryProperty good properties ↔
      ∀ property ∈ properties, property.value.Every good ∧ good (.property property) := by
  induction properties with
  | nil => simp [EveryProperty]
  | cons first rest inductive_hypothesis =>
    cases first
    simp [EveryProperty, ObjectProperty.value, inductive_hypothesis, and_assoc]

theorem everyInit_iff {init : Option Expression} :
    EveryInit good init ↔ ∀ value, init = some value → value.Every good := by
  cases init <;> simp [EveryInit]

theorem everyDeclarator_iff {declarators : List Declarator} :
    EveryDeclarator good declarators ↔
      ∀ declarator ∈ declarators,
        EveryInit good declarator.init ∧ good (.declarator declarator) := by
  induction declarators with
  | nil => simp [EveryDeclarator]
  | cons first rest inductive_hypothesis =>
    cases first
    simp [EveryDeclarator, Declarator.init, inductive_hypothesis, and_assoc]

theorem everyStatement_iff {statements : List Statement} :
    EveryStatement good statements ↔ ∀ statement ∈ statements, statement.Every good := by
  induction statements with
  | nil => simp [EveryStatement]
  | cons first rest inductive_hypothesis => simp [EveryStatement, inductive_hypothesis]

end

/-- Two properties of all nodes are a property of all nodes. -/
theorem everyAndCases {first second : Node → Prop} :
    TreeCases
      (fun expression => expression.Every first → expression.Every second →
        expression.Every fun node => first node ∧ second node)
      (fun statement => statement.Every first → statement.Every second →
        statement.Every fun node => first node ∧ second node) where
  literal _ _ one other := ⟨one, other⟩
  identifier _ _ one other := ⟨one, other⟩
  this _ one other := ⟨one, other⟩
  named _ _ _ inner one other := ⟨inner one.1 other.1, trivial, one.2.2, other.2.2⟩
  computed _ _ _ inner selector one other :=
    ⟨inner one.1 other.1, selector one.2.1 other.2.1, one.2.2, other.2.2⟩
  call _ _ _ inner each one other := by
    have one_each := everyExpression_iff.mp one.2.1
    have other_each := everyExpression_iff.mp other.2.1
    exact ⟨inner one.1 other.1, everyExpression_iff.mpr fun argument member =>
      each argument member (one_each argument member) (other_each argument member),
      one.2.2, other.2.2⟩
  assignment _ _ _ _ left right one other :=
    ⟨left one.1 other.1, right one.2.1 other.2.1, one.2.2, other.2.2⟩
  object _ _ each one other := by
    have one_each := everyProperty_iff.mp one.1
    have other_each := everyProperty_iff.mp other.1
    refine ⟨everyProperty_iff.mpr fun property member => ?_, one.2, other.2⟩
    exact ⟨each property member (one_each property member).1 (other_each property member).1,
      (one_each property member).2, (other_each property member).2⟩
  array _ _ each one other := by
    have one_each := everyExpression_iff.mp one.1
    have other_each := everyExpression_iff.mp other.1
    exact ⟨everyExpression_iff.mpr fun element member =>
      each element member (one_each element member) (other_each element member), one.2, other.2⟩
  sequence _ _ each one other := by
    have one_each := everyExpression_iff.mp one.1
    have other_each := everyExpression_iff.mp other.1
    exact ⟨everyExpression_iff.mpr fun expression member =>
      each expression member (one_each expression member) (other_each expression member),
      one.2, other.2⟩
  unary _ _ _ inner one other := ⟨inner one.1 other.1, one.2, other.2⟩
  binary _ _ _ _ left right one other :=
    ⟨left one.1 other.1, right one.2.1 other.2.1, one.2.2, other.2.2⟩
  logical _ _ _ _ left right one other :=
    ⟨left one.1 other.1, right one.2.1 other.2.1, one.2.2, other.2.2⟩
  function _ _ _ body each one other := by
    cases body
    have one_each := everyStatement_iff.mp one.1
    have other_each := everyStatement_iff.mp other.1
    exact ⟨everyStatement_iff.mpr fun statement member =>
      each statement member (one_each statement member) (other_each statement member),
      ⟨one.2.1, other.2.1⟩, one.2.2, other.2.2⟩
  declaration _ _ _ each one other := by
    have one_each := everyDeclarator_iff.mp one.1
    have other_each := everyDeclarator_iff.mp other.1
    refine ⟨everyDeclarator_iff.mpr fun declarator member => ?_, one.2, other.2⟩
    obtain ⟨one_init, one_good⟩ := one_each declarator member
    obtain ⟨other_init, other_good⟩ := other_each declarator member
    exact ⟨everyInit_iff.mpr fun value init_eq => each declarator member value init_eq
      (everyInit_iff.mp one_init value init_eq) (everyInit_iff.mp other_init value init_eq),
      one_good, other_good⟩
  choice _ _ _ test chosen one other :=
    ⟨test one.1 other.1, chosen one.2.1 other.2.1, trivial, one.2.2.2, other.2.2.2⟩
  alternative _ _ _ _ test chosen rejected one other :=
    ⟨test one.1 other.1, chosen one.2.1 other.2.1, rejected one.2.2.1 other.2.2.1, one.2.2.2,
      other.2.2.2⟩
  loop _ _ _ condition inner one other :=
    ⟨condition one.1 other.1, inner one.2.1 other.2.1, one.2.2, other.2.2⟩
  expression _ _ inner one other := ⟨inner one.1 other.1, one.2, other.2⟩
  block _ _ each one other := by
    have one_each := everyStatement_iff.mp one.1
    have other_each := everyStatement_iff.mp other.1
    exact ⟨everyStatement_iff.mpr fun statement member =>
      each statement member (one_each statement member) (other_each statement member),
      one.2, other.2⟩

theorem Program.Every.and {first second : Node → Prop} {program : Program}
    (one : program.Every first) (other : program.Every second) :
    program.Every fun node => first node ∧ second node := by
  have one_each := everyStatement_iff.mp one
  have other_each := everyStatement_iff.mp other
  exact everyStatement_iff.mpr fun statement member => everyAndCases.forStatement statement
    (one_each statement member) (other_each statement member)

end Scriptlet
