import Scriptlet.Proofs.Tree.Every

set_option autoImplicit false

/-!
The nodes right below a node, in the order of the text.
-/
namespace Scriptlet

theorem Block.every_iff {good : Node → Prop} {block : Block} :
    block.Every good ↔ ∀ statement ∈ block.statements, statement.Every good := by
  cases block
  exact everyStatement_iff

namespace Node

def span : Node → Span
  | .expression value => value.span
  | .property entry => entry.span
  | .body block => block.info.span
  | .declarator name => name.info.span
  | .statement value => value.info.span

/-- The nodes right below a node. The block of a statement is the statement itself. -/
@[simp]
def children : Node → List Node
  | .expression (.literal ..) => []
  | .expression (.identifier ..) => []
  | .expression (.this _) => []
  | .expression (.member _ object (.named _)) => [.expression object]
  | .expression (.member _ object (.computed index)) => [.expression object, .expression index]
  | .expression (.call _ callee arguments) => .expression callee :: arguments.map .expression
  | .expression (.assignment _ _ target value) => [.expression target, .expression value]
  | .expression (.object _ properties) => properties.map .property
  | .expression (.array _ elements) => elements.map .expression
  | .expression (.sequence _ expressions) => expressions.map .expression
  | .expression (.unary _ _ argument) => [.expression argument]
  | .expression (.binary _ _ left right) => [.expression left, .expression right]
  | .expression (.logical _ _ left right) => [.expression left, .expression right]
  | .expression (.function _ _ _ inner) => [.body inner]
  | .property entry => [.expression entry.value]
  | .body block => block.statements.map .statement
  | .declarator name => name.init.toList.map .expression
  | .statement (.declaration _ _ declarations) => declarations.map .declarator
  | .statement (.conditional _ condition consequent alternate) =>
    .expression condition :: .statement consequent :: alternate.toList.map .statement
  | .statement (.while _ test inner) => [.expression test, .statement inner]
  | .statement (.expression _ value) => [.expression value]
  | .statement (.block block) => block.statements.map .statement

section

variable {P : Node → Prop} (step : ∀ node, (∀ child ∈ node.children, P child) → P node)

include step

theorem treeCases_of_step :
    TreeCases (fun value => P (.expression value)) (fun value => P (.statement value)) where
  literal _ _ := step _ (by simp)
  identifier _ _ := step _ (by simp)
  this _ := step _ (by simp)
  named _ _ _ inner := step _ (by simpa using inner)
  computed _ _ _ inner selector := step _ (by simpa using ⟨inner, selector⟩)
  call _ _ _ inner each := step _ (by simpa using ⟨inner, each⟩)
  assignment _ _ _ _ left right := step _ (by simpa using ⟨left, right⟩)
  object _ properties each := by
    apply step
    simp only [children, List.forall_mem_map]
    intro entry member
    exact step _ (by simpa using each entry member)
  array _ _ each := step _ (by simpa using each)
  sequence _ _ each := step _ (by simpa using each)
  unary _ _ _ inner := step _ (by simpa using inner)
  binary _ _ _ _ first second := step _ (by simpa using ⟨first, second⟩)
  logical _ _ _ _ first second := step _ (by simpa using ⟨first, second⟩)
  function _ _ _ _ each := by
    apply step
    simp only [children, List.forall_mem_singleton]
    exact step _ (by simpa using each)
  declaration _ _ _ each := by
    apply step
    simp only [children, List.forall_mem_map]
    intro name member
    exact step _ (by simpa using each name member)
  choice _ _ _ test first := step _ (by simpa using ⟨test, first⟩)
  alternative _ _ _ _ test first second :=
    step _ (by simpa using ⟨test, first, second⟩)
  loop _ _ _ condition inner := step _ (by simpa using ⟨condition, inner⟩)
  expression _ _ inner := step _ (by simpa using inner)
  block _ _ each := step _ (by simpa [Block.statements] using each)

/-- What holds of a node whenever it holds of those right below it holds of every node. -/
theorem induction (node : Node) : P node := by
  have cases := treeCases_of_step step
  cases node with
  | expression value => exact cases.forExpression value
  | property entry => exact step _ (by simpa using cases.forExpression entry.value)
  | body block =>
    exact step _ (by simpa using cases.forStatements block.statements)
  | declarator name =>
    apply step
    simp only [children, List.forall_mem_map]
    intro value _
    exact cases.forExpression value
  | statement value => exact cases.forStatement value

end

def Every (good : Node → Prop) : Node → Prop
  | .expression value => value.Every good
  | .property entry => entry.value.Every good ∧ good (.property entry)
  | .body block => block.Every good ∧ good (.body block)
  | .declarator name => EveryInit good name.init ∧ good (.declarator name)
  | .statement value => value.Every good

theorem every_iff {good : Node → Prop} {node : Node} :
    node.Every good ↔ (∀ child ∈ node.children, child.Every good) ∧ good node := by
  unfold Every
  cases node with
  | expression value =>
    cases value with
    | member info object selected =>
      cases selected <;> simp [Expression.Every, MemberProperty.Every, and_assoc]
    | _ =>
      simp [Expression.Every, everyExpression_iff, everyProperty_iff, Block.every_iff,
        and_assoc]
  | property entry => simp
  | body block => simp [Block.every_iff]
  | declarator name => simp [everyInit_iff]
  | statement value =>
    cases value with
    | conditional info condition consequent alternate =>
      cases alternate <;> simp [Statement.Every, EveryAlternate, and_assoc]
    | _ =>
      simp [Statement.Every, everyDeclarator_iff, Block.every_iff, and_assoc]

/-- Two properties of all nodes give a third one. -/
theorem Every.combine {first second good : Node → Prop} {node : Node}
    (each : ∀ node, first node → second node → good node) (one : node.Every first)
    (other : node.Every second) : node.Every good := by
  induction node using Node.induction with
  | step node ih =>
    obtain ⟨oneBelow, oneHere⟩ := every_iff.mp one
    obtain ⟨otherBelow, otherHere⟩ := every_iff.mp other
    refine every_iff.mpr ⟨fun child member => ?_, each node oneHere otherHere⟩
    exact ih child member (oneBelow child member) (otherBelow child member)

theorem Every.imp {first good : Node → Prop} {node : Node} (each : ∀ node, first node → good node)
    (every : node.Every first) : node.Every good :=
  every.combine (fun node here _ => each node here) every

end Node
end Scriptlet
