import Scriptlet.Token.Word

set_option autoImplicit false

/-!
Operators of expressions, the signs that denote them, and how strongly they bind.
-/
namespace Scriptlet

inductive BinaryOperator where
  | add | subtract | multiply | divide | modulo
  | less | greater | lessEqual | greaterEqual
  | equal | notEqual | strictEqual | strictNotEqual
  | bitAnd | bitOr | bitXor | shiftLeft | shiftRight | unsignedShiftRight
  deriving DecidableEq, Repr

/-- Operators whose right operand is evaluated only if the left one does not decide. -/
inductive LogicalOperator where
  | and | or
  deriving DecidableEq, Repr

inductive InfixOperator where
  | binary (operator : BinaryOperator)
  | logical (operator : LogicalOperator)
  deriving DecidableEq, Repr

inductive UnaryOperator where
  | negate | plus | not | bitNot
  deriving DecidableEq, Repr

/-- Operators that change a binding or a property. -/
inductive AssignmentOperator where
  | assign | addAssign | subtractAssign | multiplyAssign | divideAssign | moduloAssign
  deriving DecidableEq, Repr

def BinaryOperator.sign : BinaryOperator → Punctuator
  | .add => .plus
  | .subtract => .minus
  | .multiply => .star
  | .divide => .slash
  | .modulo => .percent
  | .less => .less
  | .greater => .greater
  | .lessEqual => .lessEqual
  | .greaterEqual => .greaterEqual
  | .equal => .equal
  | .notEqual => .notEqual
  | .strictEqual => .strictEqual
  | .strictNotEqual => .strictNotEqual
  | .bitAnd => .ampersand
  | .bitOr => .pipe
  | .bitXor => .caret
  | .shiftLeft => .shiftLeft
  | .shiftRight => .shiftRight
  | .unsignedShiftRight => .unsignedShiftRight

def LogicalOperator.sign : LogicalOperator → Punctuator
  | .and => .doubleAmpersand
  | .or => .doublePipe

def InfixOperator.sign : InfixOperator → Punctuator
  | .binary operator => operator.sign
  | .logical operator => operator.sign

def UnaryOperator.sign : UnaryOperator → Punctuator
  | .negate => .minus
  | .plus => .plus
  | .not => .bang
  | .bitNot => .tilde

def AssignmentOperator.sign : AssignmentOperator → Punctuator
  | .assign => .assign
  | .addAssign => .plusAssign
  | .subtractAssign => .minusAssign
  | .multiplyAssign => .starAssign
  | .divideAssign => .slashAssign
  | .moduloAssign => .percentAssign

/-- The operator that a compound assignment applies to the old and the new operand. -/
def AssignmentOperator.binary? : AssignmentOperator → Option BinaryOperator
  | .assign => none
  | .addAssign => some .add
  | .subtractAssign => some .subtract
  | .multiplyAssign => some .multiply
  | .divideAssign => some .divide
  | .moduloAssign => some .modulo

inductive Precedence where
  | lowest | sequence | assignment | logicalOr | logicalAnd | bitwiseOr | bitwiseXor | bitwiseAnd
  | equality | relational | shift | additive | multiplicative | unary | postfixed
  deriving DecidableEq, Repr

namespace Precedence

/-- The place of a strength in the order, from zero. -/
def rank : Precedence → Nat
  | .lowest => 0
  | .sequence => 1
  | .assignment => 2
  | .logicalOr => 3
  | .logicalAnd => 4
  | .bitwiseOr => 5
  | .bitwiseXor => 6
  | .bitwiseAnd => 7
  | .equality => 8
  | .relational => 9
  | .shift => 10
  | .additive => 11
  | .multiplicative => 12
  | .unary => 13
  | .postfixed => 14

instance : LE Precedence := ⟨fun a b => a.rank ≤ b.rank⟩
instance : LT Precedence := ⟨fun a b => a.rank < b.rank⟩
instance (a b : Precedence) : Decidable (a ≤ b) := inferInstanceAs (Decidable (a.rank ≤ b.rank))
instance (a b : Precedence) : Decidable (a < b) := inferInstanceAs (Decidable (a.rank < b.rank))

/-- The next stronger strength; the strongest stays. -/
def above : Precedence → Precedence
  | .lowest => .sequence
  | .sequence => .assignment
  | .assignment => .logicalOr
  | .logicalOr => .logicalAnd
  | .logicalAnd => .bitwiseOr
  | .bitwiseOr => .bitwiseXor
  | .bitwiseXor => .bitwiseAnd
  | .bitwiseAnd => .equality
  | .equality => .relational
  | .relational => .shift
  | .shift => .additive
  | .additive => .multiplicative
  | .multiplicative => .unary
  | .unary => .postfixed
  | .postfixed => .postfixed

end Precedence

/-- How strongly an operator between two operands binds. -/
def InfixOperator.precedence : InfixOperator → Precedence
  | .logical .or => .logicalOr
  | .logical .and => .logicalAnd
  | .binary .bitOr => .bitwiseOr
  | .binary .bitXor => .bitwiseXor
  | .binary .bitAnd => .bitwiseAnd
  | .binary .equal => .equality
  | .binary .notEqual => .equality
  | .binary .strictEqual => .equality
  | .binary .strictNotEqual => .equality
  | .binary .less => .relational
  | .binary .greater => .relational
  | .binary .lessEqual => .relational
  | .binary .greaterEqual => .relational
  | .binary .shiftLeft => .shift
  | .binary .shiftRight => .shift
  | .binary .unsignedShiftRight => .shift
  | .binary .add => .additive
  | .binary .subtract => .additive
  | .binary .multiply => .multiplicative
  | .binary .divide => .multiplicative
  | .binary .modulo => .multiplicative

/-- The least strength of what may stand to the right of an operator. Every operator between two
operands groups to the left, so it is the next stronger one. -/
def InfixOperator.rightPrecedence (operator : InfixOperator) : Precedence :=
  operator.precedence.above

namespace Punctuator

/-- The operator between two operands that a sign denotes. -/
def infixOperator? : Punctuator → Option InfixOperator
  | .doublePipe => some (.logical .or)
  | .doubleAmpersand => some (.logical .and)
  | .pipe => some (.binary .bitOr)
  | .caret => some (.binary .bitXor)
  | .ampersand => some (.binary .bitAnd)
  | .equal => some (.binary .equal)
  | .notEqual => some (.binary .notEqual)
  | .strictEqual => some (.binary .strictEqual)
  | .strictNotEqual => some (.binary .strictNotEqual)
  | .less => some (.binary .less)
  | .greater => some (.binary .greater)
  | .lessEqual => some (.binary .lessEqual)
  | .greaterEqual => some (.binary .greaterEqual)
  | .shiftLeft => some (.binary .shiftLeft)
  | .shiftRight => some (.binary .shiftRight)
  | .unsignedShiftRight => some (.binary .unsignedShiftRight)
  | .plus => some (.binary .add)
  | .minus => some (.binary .subtract)
  | .star => some (.binary .multiply)
  | .slash => some (.binary .divide)
  | .percent => some (.binary .modulo)
  | _ => none

def unaryOperator? : Punctuator → Option UnaryOperator
  | .minus => some .negate
  | .plus => some .plus
  | .bang => some .not
  | .tilde => some .bitNot
  | _ => none

def assignmentOperator? : Punctuator → Option AssignmentOperator
  | .assign => some .assign
  | .plusAssign => some .addAssign
  | .minusAssign => some .subtractAssign
  | .starAssign => some .multiplyAssign
  | .slashAssign => some .divideAssign
  | .percentAssign => some .moduloAssign
  | _ => none

theorem infixOperator?_eq_some_iff {sign : Punctuator} {operator : InfixOperator} :
    sign.infixOperator? = some operator ↔ operator.sign = sign := by
  rcases operator with operator | operator <;> cases operator <;> cases sign <;> decide

theorem unaryOperator?_eq_some_iff {sign : Punctuator} {operator : UnaryOperator} :
    sign.unaryOperator? = some operator ↔ operator.sign = sign := by
  cases operator <;> cases sign <;> decide

theorem assignmentOperator?_eq_some_iff {sign : Punctuator} {operator : AssignmentOperator} :
    sign.assignmentOperator? = some operator ↔ operator.sign = sign := by
  cases operator <;> cases sign <;> decide

end Punctuator
end Scriptlet
