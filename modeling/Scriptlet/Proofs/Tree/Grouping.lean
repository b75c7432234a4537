import Scriptlet.Tree.Basic

set_option autoImplicit false

/-!
How operators between names group them. A chain of names with operators between them can be put
into a tree in many ways; in one of them only, every operator binds at least as strongly as the one
it is an operand of, and more strongly if it is the right operand (`Grouped.unique`).
-/
namespace Scriptlet

theorem InfixOperator.rank_rightPrecedence (operator : InfixOperator) :
    operator.rightPrecedence.rank = operator.precedence.rank + 1 := by
  rcases operator with operator | operator <;> cases operator <;> rfl

theorem InfixOperator.logicalOr_le (operator : InfixOperator) :
    Precedence.logicalOr ≤ operator.precedence := by
  rcases operator with operator | operator <;> cases operator <;> decide

/-- Names that operators put together. -/
inductive OperatorTree where
  | operand (name : String)
  | infixed (operator : InfixOperator) (left right : OperatorTree)

namespace OperatorTree

/-- The first name of a tree, from left to right. -/
def first : OperatorTree → String
  | .operand name => name
  | .infixed _ left _ => left.first

/-- The operators of a tree from left to right, each with the name behind it. -/
def links : OperatorTree → List (InfixOperator × String)
  | .operand _ => []
  | .infixed operator left right => left.links ++ (operator, right.first) :: right.links

/-- How strongly the outermost operator of a tree binds, if it has one. -/
def precedence? : OperatorTree → Option Precedence
  | .operand _ => none
  | .infixed operator _ _ => some operator.precedence

/-- Whether every operator of a tree binds its operands no more strongly than the operators inside
them, and those to its right less strongly. -/
def Grouped : OperatorTree → Prop
  | .operand _ => True
  | .infixed operator left right =>
    left.Grouped ∧ right.Grouped ∧
      (∀ inner ∈ left.precedence?, operator.precedence ≤ inner) ∧
      ∀ inner ∈ right.precedence?, operator.precedence < inner

instance decidableGrouped : (tree : OperatorTree) → Decidable tree.Grouped
  | .operand _ => inferInstanceAs (Decidable True)
  | .infixed operator left right =>
    have : Decidable left.Grouped := decidableGrouped left
    have : Decidable right.Grouped := decidableGrouped right
    inferInstanceAs (Decidable (left.Grouped ∧ right.Grouped ∧
      (∀ inner ∈ left.precedence?, operator.precedence ≤ inner) ∧
        ∀ inner ∈ right.precedence?, operator.precedence < inner))

/-- The expression of a tree, without numbers and ranges. -/
def expression : OperatorTree → Expression
  | .operand name => .identifier default name
  | .infixed (.binary operator) left right =>
    .binary default operator left.expression right.expression
  | .infixed (.logical operator) left right =>
    .logical default operator left.expression right.expression

/-- The outermost operator binds least. -/
theorem Grouped.precedence?_le {tree : OperatorTree} (grouped : tree.Grouped) {inner : Precedence}
    (inner_eq : tree.precedence? = some inner) :
    ∀ link ∈ tree.links, inner ≤ link.1.precedence := by
  induction tree generalizing inner with
  | operand name => cases inner_eq
  | infixed operator left right left_ih right_ih =>
    cases inner_eq
    obtain ⟨left_grouped, right_grouped, left_weak, right_weak⟩ := grouped
    intro link member
    rcases List.mem_append.mp member with before | member
    · cases left with
      | operand name => cases before
      | infixed other one two =>
        have outer : operator.precedence.rank ≤ other.precedence.rank := left_weak _ rfl
        have inside : other.precedence.rank ≤ link.1.precedence.rank :=
          left_ih left_grouped rfl link before
        exact Nat.le_trans outer inside
    · rcases List.mem_cons.mp member with same | behind
      · rw [same]
        exact Nat.le_refl _
      · cases right with
        | operand name => cases behind
        | infixed other one two =>
          have outer : operator.precedence.rank < other.precedence.rank := right_weak _ rfl
          have inside : other.precedence.rank ≤ link.1.precedence.rank :=
            right_ih right_grouped rfl link behind
          exact Nat.le_of_lt (Nat.lt_of_lt_of_le outer inside)

section Operands

variable {operator : InfixOperator} {left right : OperatorTree}

theorem Grouped.le_of_mem_left (grouped : (infixed operator left right).Grouped) :
    ∀ link ∈ left.links, operator.precedence ≤ link.1.precedence := by
  intro link member
  exact grouped.precedence?_le rfl link (List.mem_append_left _ member)

theorem Grouped.lt_of_mem_right (grouped : (infixed operator left right).Grouped) :
    ∀ link ∈ right.links, operator.precedence < link.1.precedence := by
  intro link member
  cases right with
  | operand name => cases member
  | infixed other one two =>
    have outer : operator.precedence.rank < other.precedence.rank := grouped.2.2.2 _ rfl
    have inside : other.precedence.rank ≤ link.1.precedence.rank :=
      grouped.2.1.precedence?_le rfl link member
    exact Nat.lt_of_lt_of_le outer inside

end Operands

/-- The outermost operators of two groupings of one chain do not stand at different places: the
front one would be to the left of the other, and bind at least as strongly, and the other to the
right of it, and bind more strongly. -/
theorem Grouped.not_before {front back : InfixOperator} {left right left' right' : OperatorTree}
    (one : (infixed front left right).Grouped) (other : (infixed back left' right').Grouped)
    {between : List (InfixOperator × String)}
    (left_eq : left'.links = left.links ++ (front, right.first) :: between)
    (right_eq : right.links = between ++ (back, right'.first) :: right'.links) : False := by
  have least : back.precedence.rank ≤ front.precedence.rank :=
    other.le_of_mem_left (front, right.first) (by simp [left_eq])
  have most : front.precedence.rank < back.precedence.rank :=
    one.lt_of_mem_right (back, right'.first) (by simp [right_eq])
  omega

/-- A chain of names and operators is grouped in one way only. -/
theorem Grouped.unique {tree other : OperatorTree} (grouped : tree.Grouped)
    (other_grouped : other.Grouped) (first_eq : tree.first = other.first)
    (links_eq : tree.links = other.links) : tree = other := by
  induction tree generalizing other with
  | operand name =>
    cases other with
    | operand name' =>
      have same : name = name' := first_eq
      rw [same]
    | infixed operator left right => simp [links] at links_eq
  | infixed operator left right left_ih right_ih =>
    cases other with
    | operand name => simp [links] at links_eq
    | infixed operator' left' right' =>
      simp only [links] at links_eq
      rcases List.append_eq_append_iff.mp links_eq with
        ⟨between, left_eq, right_eq⟩ | ⟨between, left_eq, right_eq⟩
      · cases between with
        | cons link between =>
          rw [List.cons_append, List.cons.injEq] at right_eq
          obtain ⟨rfl, right_eq⟩ := right_eq
          exact (grouped.not_before other_grouped left_eq right_eq).elim
        | nil =>
          rw [List.nil_append, List.cons.injEq, Prod.mk.injEq] at right_eq
          obtain ⟨⟨operator_eq, name_eq⟩, behind_eq⟩ := right_eq
          rw [List.append_nil] at left_eq
          rw [operator_eq, left_ih grouped.1 other_grouped.1 first_eq left_eq.symm,
            right_ih grouped.2.1 other_grouped.2.1 name_eq behind_eq]
      · cases between with
        | cons link between =>
          rw [List.cons_append, List.cons.injEq] at right_eq
          obtain ⟨rfl, right_eq⟩ := right_eq
          exact (other_grouped.not_before grouped left_eq right_eq).elim
        | nil =>
          rw [List.nil_append, List.cons.injEq, Prod.mk.injEq] at right_eq
          obtain ⟨⟨operator_eq, name_eq⟩, behind_eq⟩ := right_eq
          rw [List.append_nil] at left_eq
          rw [operator_eq, left_ih grouped.1 other_grouped.1 first_eq left_eq,
            right_ih grouped.2.1 other_grouped.2.1 name_eq.symm behind_eq.symm]

end OperatorTree
end Scriptlet
