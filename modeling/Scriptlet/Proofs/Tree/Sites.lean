import Scriptlet.Proofs.Tree.Every
import Scriptlet.Scope

set_option autoImplicit false

/-!
Where the nodes of a tree stand. The sites of a tree are its nodes, each after the nodes inside it,
with the scopes that the tree opens around them.
-/
namespace Scriptlet

/-- A node with the kinds of the scopes opened around it, innermost first. -/
structure Site where
  node : Node
  scopes : List ScopeKind

mutual

def Expression.sites (scopes : List ScopeKind) : Expression → List Site
  | .literal info value => [⟨.expression (.literal info value), scopes⟩]
  | .identifier info name => [⟨.expression (.identifier info name), scopes⟩]
  | .this info => [⟨.expression (.this info), scopes⟩]
  | .member info object property =>
    object.sites scopes ++ property.sites scopes ++
      [⟨.expression (.member info object property), scopes⟩]
  | .call info callee arguments =>
    callee.sites scopes ++ expressionSites scopes arguments ++
      [⟨.expression (.call info callee arguments), scopes⟩]
  | .assignment info operator target value =>
    target.sites scopes ++ value.sites scopes ++
      [⟨.expression (.assignment info operator target value), scopes⟩]
  | .object info properties =>
    propertySites scopes properties ++ [⟨.expression (.object info properties), scopes⟩]
  | .array info elements =>
    expressionSites scopes elements ++ [⟨.expression (.array info elements), scopes⟩]
  | .sequence info expressions =>
    expressionSites scopes expressions ++ [⟨.expression (.sequence info expressions), scopes⟩]
  | .unary info operator argument =>
    argument.sites scopes ++ [⟨.expression (.unary info operator argument), scopes⟩]
  | .binary info operator left right =>
    left.sites scopes ++ right.sites scopes ++
      [⟨.expression (.binary info operator left right), scopes⟩]
  | .logical info operator left right =>
    left.sites scopes ++ right.sites scopes ++
      [⟨.expression (.logical info operator left right), scopes⟩]
  | .function info name params body =>
    body.sites (.function :: scopes) ++
      [⟨.body body, scopes⟩, ⟨.expression (.function info name params body), scopes⟩]

def MemberProperty.sites (scopes : List ScopeKind) : MemberProperty → List Site
  | .named _ => []
  | .computed expression => expression.sites scopes

def expressionSites (scopes : List ScopeKind) : List Expression → List Site
  | [] => []
  | expression :: rest => expression.sites scopes ++ expressionSites scopes rest

def ObjectProperty.sites (scopes : List ScopeKind) : ObjectProperty → List Site
  | .mk key value span => value.sites scopes ++ [⟨.property (.mk key value span), scopes⟩]

def propertySites (scopes : List ScopeKind) : List ObjectProperty → List Site
  | [] => []
  | property :: rest => property.sites scopes ++ propertySites scopes rest

def Statement.sites (scopes : List ScopeKind) : Statement → List Site
  | .declaration info kind declarations =>
    declaratorSites scopes declarations ++
      [⟨.statement (.declaration info kind declarations), scopes⟩]
  | .conditional info condition consequent alternate =>
    condition.sites scopes ++ consequent.sites scopes ++ alternateSites scopes alternate ++
      [⟨.statement (.conditional info condition consequent alternate), scopes⟩]
  | .while info test body =>
    test.sites scopes ++ body.sites scopes ++ [⟨.statement (.while info test body), scopes⟩]
  | .expression info expression =>
    expression.sites scopes ++ [⟨.statement (.expression info expression), scopes⟩]
  | .block block => block.sites (.block :: scopes) ++ [⟨.statement (.block block), scopes⟩]

def alternateSites (scopes : List ScopeKind) : Option Statement → List Site
  | none => []
  | some statement => statement.sites scopes

def Declarator.sites (scopes : List ScopeKind) : Declarator → List Site
  | .mk info name init =>
    initSites scopes init ++ [⟨.declarator (.mk info name init), scopes⟩]

def initSites (scopes : List ScopeKind) : Option Expression → List Site
  | none => []
  | some expression => expression.sites scopes

def declaratorSites (scopes : List ScopeKind) : List Declarator → List Site
  | [] => []
  | declarator :: rest => declarator.sites scopes ++ declaratorSites scopes rest

def Block.sites (scopes : List ScopeKind) : Block → List Site
  | .mk _ statements => statementSites scopes statements

def statementSites (scopes : List ScopeKind) : List Statement → List Site
  | [] => []
  | statement :: rest => statement.sites scopes ++ statementSites scopes rest

end

section Lists

variable {scopes : List ScopeKind} {site : Site}

theorem mem_expressionSites {expressions : List Expression} :
    site ∈ expressionSites scopes expressions ↔
      ∃ expression ∈ expressions, site ∈ expression.sites scopes := by
  induction expressions with
  | nil => simp [expressionSites]
  | cons first rest inductive_hypothesis => simp [expressionSites, inductive_hypothesis]

theorem mem_propertySites {properties : List ObjectProperty} :
    site ∈ propertySites scopes properties ↔
      ∃ property ∈ properties, site ∈ property.sites scopes := by
  induction properties with
  | nil => simp [propertySites]
  | cons first rest inductive_hypothesis => simp [propertySites, inductive_hypothesis]

end Lists

def Program.sites (program : Program) : List Site :=
  statementSites [] program.body.statements

end Scriptlet
