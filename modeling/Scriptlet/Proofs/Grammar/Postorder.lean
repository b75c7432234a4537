import Mathlib.Data.List.Basic
import Scriptlet.Proofs.Grammar.Numbering
import Scriptlet.Proofs.Tree.Children

set_option autoImplicit false

/-!
Numbers that count up in the order of the sites, seen from a node: its own number is larger than
those below it, and the numbers of its children follow each other.
-/
namespace Scriptlet

namespace Node

def sites (scopes : List ScopeKind) : Node → List Site
  | .expression value => value.sites scopes
  | .property entry => entry.sites scopes
  | .body block => block.sites scopes ++ [⟨.body block, scopes⟩]
  | .declarator name => name.sites scopes
  | .statement value => value.sites scopes

def inside (scopes : List ScopeKind) : Node → List ScopeKind
  | .expression (.function ..) => .function :: scopes
  | .statement (.block _) => .block :: scopes
  | _ => scopes

/-- The numbers of a node and of the nodes below it, in the order of the sites. -/
def numbers (node : Node) : List Nat :=
  Scriptlet.numbers (node.sites [])

end Node

section Lists

variable (scopes : List ScopeKind)

theorem expressionSites_eq (expressions : List Expression) :
    expressionSites scopes expressions =
      (expressions.map .expression).flatMap (Node.sites scopes) := by
  induction expressions with
  | nil => rfl
  | cons first rest ih => simp [expressionSites, ih, Node.sites]

theorem propertySites_eq (properties : List ObjectProperty) :
    propertySites scopes properties = (properties.map .property).flatMap (Node.sites scopes) := by
  induction properties with
  | nil => rfl
  | cons first rest ih => simp [propertySites, ih, Node.sites]

theorem declaratorSites_eq (declarators : List Declarator) :
    declaratorSites scopes declarators =
      (declarators.map .declarator).flatMap (Node.sites scopes) := by
  induction declarators with
  | nil => rfl
  | cons first rest ih => simp [declaratorSites, ih, Node.sites]

theorem statementSites_eq (statements : List Statement) :
    statementSites scopes statements =
      (statements.map .statement).flatMap (Node.sites scopes) := by
  induction statements with
  | nil => rfl
  | cons first rest ih => simp [statementSites, ih, Node.sites]

theorem blockSites_eq (block : Block) :
    block.sites scopes = (block.statements.map .statement).flatMap (Node.sites scopes) := by
  cases block
  exact statementSites_eq scopes _

end Lists

theorem numbers_flatMap {α : Type} (items : List α) (sites : α → List Site) :
    numbers (items.flatMap sites) = items.flatMap fun item => numbers (sites item) := by
  induction items with
  | nil => rfl
  | cons first rest ih => simp [ih]

theorem numbers_eq_filterMap (sites : List Site) :
    numbers sites = (sites.map Site.node).filterMap Node.number? := by
  rw [List.filterMap_map]
  rfl

namespace Node

/-- The sites of a node are those of the nodes right below it, one after the other, and its own. -/
theorem map_sites_eq (node : Node) (scopes : List ScopeKind) :
    (node.sites scopes).map Site.node =
      (node.children.flatMap fun child => (child.sites (node.inside scopes)).map Site.node) ++
        [node] := by
  cases node with
  | expression value =>
    cases value with
    | member info object selected =>
      cases selected <;> simp [sites, inside, Expression.sites, MemberProperty.sites]
    | function info name params body => simp [sites, inside, Expression.sites]
    | _ =>
      simp [sites, inside, Expression.sites, expressionSites_eq, propertySites_eq,
        List.map_flatMap]
  | property entry =>
    cases entry
    simp [sites, inside, ObjectProperty.sites, ObjectProperty.value]
  | body block => simp [sites, inside, blockSites_eq, List.map_flatMap]
  | declarator name =>
    obtain ⟨info, name, init⟩ := name
    cases init <;> simp [sites, inside, Declarator.sites, initSites, Declarator.init]
  | statement value =>
    cases value with
    | conditional info condition consequent alternate =>
      cases alternate <;> simp [sites, inside, Statement.sites, alternateSites]
    | _ =>
      simp [sites, inside, Statement.sites, declaratorSites_eq, blockSites_eq, List.map_flatMap]

/-- What holds of every node of a tree holds of the nodes of its sites. -/
theorem Every.sites {good : Node → Prop} {node : Node} (every : node.Every good)
    (scopes : List ScopeKind) : ∀ site ∈ node.sites scopes, good site.node := by
  revert scopes
  induction node using Node.induction with
  | step node ih =>
    obtain ⟨below, here⟩ := every_iff.mp every
    intro scopes site member
    have listed : site.node ∈ (node.sites scopes).map Site.node := List.mem_map_of_mem member
    rw [map_sites_eq, List.mem_append, List.mem_flatMap] at listed
    rcases listed with ⟨child, childMember, inside⟩ | own
    · obtain ⟨other, otherMember, same⟩ := List.mem_map.mp inside
      rw [← same]
      exact ih child childMember (below child childMember) _ other otherMember
    · rw [List.mem_singleton.mp own]
      exact here

/-- The numbers of a node are those of the nodes right below it, one after the other, and its
own. -/
theorem numbers_sites_eq (node : Node) (scopes : List ScopeKind) :
    Scriptlet.numbers (node.sites scopes) =
      (node.children.flatMap fun child => Scriptlet.numbers (child.sites (node.inside scopes))) ++
        node.number?.toList := by
  rw [numbers_eq_filterMap, map_sites_eq, List.filterMap_append, List.filterMap_flatMap]
  simp only [← numbers_eq_filterMap]
  cases number_eq : node.number? <;> simp [number_eq]

/-- The scopes around a node have nothing to do with its number. -/
theorem numbers_sites (node : Node) (scopes : List ScopeKind) :
    Scriptlet.numbers (node.sites scopes) = node.numbers := by
  revert scopes
  induction node using Node.induction with
  | step node ih =>
    intro scopes
    have each (around : List ScopeKind) :
        (node.children.flatMap fun child => Scriptlet.numbers (child.sites around)) =
          node.children.flatMap numbers :=
      List.flatMap_congr fun child member => ih child member around
    rw [numbers, numbers_sites_eq, numbers_sites_eq, each, each]

theorem numbers_eq (node : Node) :
    node.numbers = node.children.flatMap numbers ++ node.number?.toList := by
  rw [numbers, numbers_sites_eq]
  simp only [numbers_sites]

/-- The number of a node is larger than those below it, and those of the nodes right below it follow
each other. -/
structure Numbered (node : Node) : Prop where
  last : ∀ child ∈ node.children, ∀ number ∈ child.numbers, ∀ own, node.number? = some own →
    number < own
  inOrder : node.children.Pairwise fun left right =>
    ∀ one ∈ left.numbers, ∀ other ∈ right.numbers, one < other

/-- Where the numbers below a node increase, every node has its number after those below it. -/
theorem every_numbered {node : Node} (increasing : node.numbers.Pairwise (· < ·)) :
    node.Every Numbered := by
  induction node using Node.induction with
  | step node ih =>
    rw [numbers_eq, List.pairwise_append, List.pairwise_flatMap] at increasing
    obtain ⟨⟨within, between⟩, _, below⟩ := increasing
    refine every_iff.mpr ⟨fun child member => ih child member (within child member), ?_, between⟩
    intro child member number numberMember own own_eq
    exact below number (List.mem_flatMap.mpr ⟨child, member, numberMember⟩) own (by simp [own_eq])

end Node

/-- What holds of every node of a program holds of the nodes of its sites. -/
theorem Program.Every.sites {good : Node → Prop} {program : Program} (every : program.Every good) :
    ∀ site ∈ program.sites, good site.node := by
  intro site member
  rw [Program.sites, statementSites_eq] at member
  obtain ⟨node, listed, inside⟩ := List.mem_flatMap.mp member
  obtain ⟨statement, statementMember, rfl⟩ := List.mem_map.mp listed
  have whole : (Node.statement statement).Every good :=
    everyStatement_iff.mp every statement statementMember
  exact whole.sites [] site inside

end Scriptlet
