import Scriptlet.Tree.Basic

set_option autoImplicit false

/-!
Making trees. A builder remembers the kind of every node it has made; the number of a node is the
count of those made before it, so numbers increase in the order of creation.
-/
namespace Scriptlet

/-- The kinds of the nodes made so far, in order. -/
structure Builder where
  created : Array NodeKind := #[]

namespace Builder

def nodeCount (builder : Builder) : Nat :=
  builder.created.size

def create (builder : Builder) (kind : NodeKind) (span : Span) : NodeInfo × Builder :=
  (⟨⟨builder.nodeCount⟩, span⟩, ⟨builder.created.push kind⟩)

def literal (builder : Builder) (value : Literal) (span : Span) : Expression × Builder :=
  let (info, builder) := builder.create value.nodeKind span
  (.literal info value, builder)

def identifier (builder : Builder) (name : String) (span : Span) : Expression × Builder :=
  let (info, builder) := builder.create .identifier span
  (.identifier info name, builder)

def this (builder : Builder) (span : Span) : Expression × Builder :=
  let (info, builder) := builder.create .this span
  (.this info, builder)

def member (builder : Builder) (object : Expression) (property : MemberProperty) (span : Span) :
    Expression × Builder :=
  let (info, builder) := builder.create .member span
  (.member info object property, builder)

def call (builder : Builder) (callee : Expression) (arguments : List Expression) (span : Span) :
    Expression × Builder :=
  let (info, builder) := builder.create .call span
  (.call info callee arguments, builder)

def assignment (builder : Builder) (operator : AssignmentOperator) (target value : Expression) :
    Expression × Builder :=
  let (info, builder) := builder.create .assignment (target.span.merge value.span)
  (.assignment info operator target value, builder)

def object (builder : Builder) (properties : List ObjectProperty) (span : Span) :
    Expression × Builder :=
  let (info, builder) := builder.create .object span
  (.object info properties, builder)

def array (builder : Builder) (elements : List Expression) (span : Span) : Expression × Builder :=
  let (info, builder) := builder.create .array span
  (.array info elements, builder)

def sequence (builder : Builder) (expressions : List Expression) (span : Span) :
    Expression × Builder :=
  let (info, builder) := builder.create .sequence span
  (.sequence info expressions, builder)

def unary (builder : Builder) (operator : UnaryOperator) (argument : Expression) (span : Span) :
    Expression × Builder :=
  let (info, builder) := builder.create .unary span
  (.unary info operator argument, builder)

def infixed (builder : Builder) (operator : InfixOperator) (left right : Expression) :
    Expression × Builder :=
  let span := left.span.merge right.span
  match operator with
  | .binary operator =>
    let (info, builder) := builder.create .binary span
    (.binary info operator left right, builder)
  | .logical operator =>
    let (info, builder) := builder.create .logical span
    (.logical info operator left right, builder)

def function (builder : Builder) (name : Option String) (params : List String) (body : Block)
    (span : Span) : Expression × Builder :=
  let (info, builder) := builder.create .function span
  (.function info name params body, builder)

def declarator (builder : Builder) (name : String) (init : Option Expression) (span : Span) :
    Declarator × Builder :=
  let (info, builder) := builder.create .declarator span
  (.mk info name init, builder)

def declaration (builder : Builder) (kind : VariableKind) (declarations : List Declarator)
    (span : Span) : Statement × Builder :=
  let (info, builder) := builder.create .declaration span
  (.declaration info kind declarations, builder)

/-- A choice between two statements, the second of which may be missing. -/
def conditional (builder : Builder) (condition : Expression) (consequent : Statement)
    (alternate : Option Statement) (span : Span) : Statement × Builder :=
  let (info, builder) := builder.create .conditional span
  (.conditional info condition consequent alternate, builder)

def loop (builder : Builder) (test : Expression) (body : Statement) (span : Span) :
    Statement × Builder :=
  let (info, builder) := builder.create .while span
  (.while info test body, builder)

def expression (builder : Builder) (inner : Expression) (span : Span) : Statement × Builder :=
  let (info, builder) := builder.create .expression span
  (.expression info inner, builder)

def block (builder : Builder) (statements : List Statement) (span : Span) : Block × Builder :=
  let (info, builder) := builder.create .block span
  (.mk info statements, builder)

def program (builder : Builder) (statements : List Statement) : Program × Builder :=
  let (body, builder) := builder.create .body ⟨0, 0⟩
  let (info, builder) := builder.create .program ⟨0, 0⟩
  (⟨info.id, ⟨body.id, statements⟩⟩, builder)

end Builder
end Scriptlet
