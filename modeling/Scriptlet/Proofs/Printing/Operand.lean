import Scriptlet.Proofs.Printing.Place
import Scriptlet.Proofs.Tree.Erase

set_option autoImplicit false

/-!
Printed expressions are operands. Every printed operator stands in parentheses, so an expression is
a primary with selections behind it, and only the sign that follows decides where it ends:
`ReadsOperand` leaves that open.
-/
namespace Scriptlet

namespace Punctuator

/-- Whether a sign selects something of the expression before it. -/
def isSelector (sign : Punctuator) : Bool :=
  [dot, leftBracket, leftParen].contains sign

/-- Whether a sign ends what stands between brackets or commas, or a statement. -/
def isCloser (sign : Punctuator) : Bool :=
  [rightParen, rightBracket, rightBrace, comma, semicolon].contains sign

theorem isSolitary_of_isCloser {sign : Punctuator} (closer : sign.isCloser = true) :
    sign.isSolitary = true := by
  cases sign <;> first | rfl | cases closer

theorem infixOperator?_of_isCloser {sign : Punctuator} (closer : sign.isCloser = true) :
    sign.infixOperator? = none := by
  cases sign <;> first | rfl | cases closer

theorem not_isSelector_infix (operator : InfixOperator) : operator.sign.isSelector = false := by
  rcases operator with operator | operator <;> cases operator <;> rfl

end Punctuator

/-- Whether a text may start with a lexeme as its first token, when the text is that of an
expression. -/
def Lexeme.Opens (text : String) : Lexeme → Prop
  | .punctuator sign =>
    sign = .leftParen ∨ sign = .leftBracket ∨
      sign = .leftBrace ∧ text.toList.head? = some '\x7b'
  | .keyword word => word = .thisWord ∨ word = .functionWord
  | .endOfSource => False
  | _ => True

theorem Lexeme.Opens.append {lexeme : Lexeme} {text : String} (opens : lexeme.Opens text)
    (more : String) : lexeme.Opens (text ++ more) := by
  cases lexeme with
  | punctuator sign =>
    refine opens.imp_right (Or.imp_right fun ⟨isBrace, first⟩ => ⟨isBrace, ?_⟩)
    rw [String.toList_append, List.head?_append, first]
    rfl
  | _ => exact opens

theorem Lexeme.Opens.not_closer {token : Token} {text : String} (opens : token.lexeme.Opens text)
    (sign : Punctuator) (closer : sign.isCloser = true) : token.punctuator? ≠ some sign := by
  intro sign_eq
  rw [Token.punctuator?_eq_some_iff.mp sign_eq] at opens
  rcases opens with rfl | rfl | ⟨rfl, _⟩ <;> cases closer

namespace Grammar

theorem State.Sees.imp {state : State} {first second : Token → Prop} (sees : state.Sees first)
    (onward : ∀ token, first token → second token) : state.Sees second := by
  obtain ⟨token, next_eq, holds⟩ := sees
  exact ⟨token, next_eq, onward token holds⟩

theorem Takes.sees {state later : State} {token : Token} {property : Token → Prop}
    (taken : Takes state token later) (holds : property token) : state.Sees property :=
  ⟨token, taken.1, holds⟩

namespace State.IsAt

variable {state : State} {rest : List Char}

theorem seesSign (sign : Punctuator) (isAt : state.IsAt (sign.characters ++ rest))
    (stops : ∀ c, rest.head? = some c → sign.goesOn c = false) :
    state.Sees (·.punctuator? = some sign) := by
  obtain ⟨token, taken, lexeme_eq, _⟩ := isAt.sign stops
  exact taken.sees (Token.punctuator?_eq_some_iff.mpr lexeme_eq)

theorem takesSign (sign : Punctuator) (isAt : state.IsAt (sign.characters ++ rest))
    (stops : ∀ c, rest.head? = some c → sign.goesOn c = false) :
    ∃ later, TakesSign state sign later ∧ later.IsAt rest := by
  obtain ⟨token, taken, lexeme_eq, later⟩ := isAt.sign stops
  exact ⟨_, ⟨token, taken, Token.punctuator?_eq_some_iff.mpr lexeme_eq⟩, later⟩

/-- A sign that nothing goes on with is taken. -/
theorem solitary (sign : Punctuator) (isAt : state.IsAt (sign.characters ++ rest))
    (alone : sign.isSolitary = true) :
    state.Sees (·.punctuator? = some sign) ∧
      ∃ later, TakesSign state sign later ∧ later.IsAt rest :=
  have stops := fun c _ => Punctuator.not_goesOn_of_isSolitary alone c
  ⟨isAt.seesSign sign stops, isAt.takesSign sign stops⟩

end State.IsAt

/-- Whatever selections follow, an operand is read that starts with an expression. -/
def ReadsOperand (state : State) (inner : Expression) (later : State) : Prop :=
  ∀ whole last, Derives (.selections inner) later whole last → Derives .operand state whole last

namespace ReadsOperand

variable {s t : State} {inner : Expression} {sign : Punctuator}

/-- The expression is the operand if no selection follows. -/
theorem operand (reads : ReadsOperand s inner t) (sees : t.Sees (·.punctuator? = some sign))
    (other : sign.isSelector = false) : Derives .operand s inner t := by
  refine reads inner t (.selections_done (sees.imp fun token sign_eq => ?_))
  rw [sign_eq]
  cases sign <;> first | exact ⟨by decide, by decide, by decide⟩ | cases other

end ReadsOperand

/-- A sign that is no operator between two operands does not go on with an operation. -/
theorem operationRest_of_sees {s : State} {left : Expression} {sign : Punctuator}
    (sees : s.Sees (·.punctuator? = some sign)) (done : sign.infixOperator? = none)
    (least : Precedence) : Derives (.operationRest least left) s left s := by
  refine .operationRest_done (sees.imp fun token sign_eq operator operator_eq => ?_)
  rw [sign_eq, Option.some.injEq] at operator_eq
  rw [operator_eq, Punctuator.infixOperator?_eq_some_iff.mpr rfl] at done
  cases done

/-- An operation that a closing sign ends is read by the rule for assignments. -/
theorem Derives.assignment_of_operation {s t : State} {inner : Expression} {sign : Punctuator}
    (derived : Derives (.operation .logicalOr) s inner t)
    (sees : t.Sees (·.punctuator? = some sign)) (closer : sign.isCloser = true) :
    Derives .assignment s inner t := by
  refine .assignment_plain derived (sees.imp fun token sign_eq operator operator_eq => ?_)
  rw [sign_eq, Option.some.injEq] at operator_eq
  rw [operator_eq] at closer
  cases operator <;> cases closer

theorem Derives.assignment_of_operand {s t : State} {inner : Expression} {sign : Punctuator}
    (derived : Derives .operand s inner t) (sees : t.Sees (·.punctuator? = some sign))
    (closer : sign.isCloser = true) : Derives .assignment s inner t :=
  have done := operationRest_of_sees sees (Punctuator.infixOperator?_of_isCloser closer) .logicalOr
  (Derives.operation derived done).assignment_of_operation sees closer

theorem Derives.expression_of_assignment {s t : State} {inner : Expression} {sign : Punctuator}
    (derived : Derives .assignment s inner t) (sees : t.Sees (·.punctuator? = some sign))
    (other : sign ≠ .comma) : Derives .expression s inner t :=
  .expression_single derived (sees.imp fun token sign_eq => by simpa [sign_eq] using other)

theorem ReadsOperand.assignment {s t : State} {inner : Expression} {sign : Punctuator}
    (reads : ReadsOperand s inner t) (sees : t.Sees (·.punctuator? = some sign))
    (closer : sign.isCloser = true) : Derives .assignment s inner t := by
  refine (reads.operand sees ?_).assignment_of_operand sees closer
  cases sign <;> first | rfl | cases closer

/-- A primary is an operand that selections may follow. -/
theorem readsOperand_primary {s t : State} {inner : Expression} {text : String}
    (sees : s.Sees (·.lexeme.Opens text)) (primary : Derives .primary s inner t) :
    ReadsOperand s inner t := by
  refine fun whole last tail => .operand_plain (sees.imp fun token opens operator sign_eq => ?_)
    primary tail
  rw [Token.punctuator?_eq_some_iff.mp sign_eq] at opens
  rcases opens with isParen | isBracket | ⟨isBrace, _⟩
  · cases operator <;> cases isParen
  · cases operator <;> cases isBracket
  · cases operator <;> cases isBrace

end Grammar

open Grammar

/-- What reading gives where an expression is printed: an operand that is the same up to numbers and
ranges, with what is printed next left to read. -/
def Expression.Restores (expression : Expression) : Prop :=
  ∀ (state : State) (rest : List Char), Apart rest →
    state.IsAt (expression.text.toList ++ rest) →
      ∃ again later, again.erase = expression.erase ∧ later.IsAt rest ∧
        state.Sees (·.lexeme.Opens expression.text) ∧ ReadsOperand state again later

theorem apart_sign (sign : Punctuator) (alone : sign.isSolitary = true) (rest : List Char) :
    Apart (sign.characters ++ rest) := by
  cases sign <;> first | exact apart_cons (by decide) (by decide) _ | cases alone

theorem apart_space (rest : List Char) : Apart (' ' :: rest) :=
  apart_cons (by decide) (by decide) rest

/-- Whether a text starts, behind white space, with a sign that ends an expression. -/
structure Closes (rest : List Char) (sign : Punctuator) : Prop where
  apart : Apart rest
  closer : sign.isCloser = true
  sees : ∀ state : State, state.IsAt rest → state.Sees (·.punctuator? = some sign)

theorem closes_sign (sign : Punctuator) (closer : sign.isCloser = true) (rest : List Char) :
    Closes (sign.characters ++ rest) sign :=
  have alone := Punctuator.isSolitary_of_isCloser closer
  ⟨apart_sign sign alone rest, closer, fun _ isAt => (isAt.solitary sign alone).1⟩

theorem Closes.space {rest : List Char} {sign : Punctuator} (closes : Closes rest sign) :
    Closes (' ' :: rest) sign :=
  ⟨apart_space rest, closes.closer, fun state isAt => closes.sees state isAt.blank⟩

namespace Expression

variable {inner : Expression} {state : State} {rest : List Char} {sign : Punctuator}

/-- An expression that ends in front of a closing sign is read by the rule for assignments. -/
theorem Restores.assignment (restores : inner.Restores) (closes : Closes rest sign)
    (isAt : state.IsAt (inner.text.toList ++ rest)) :
    ∃ again later, again.erase = inner.erase ∧ later.IsAt rest ∧
      state.Sees (·.lexeme.Opens inner.text) ∧ Derives .assignment state again later := by
  obtain ⟨again, later, erase_eq, later_isAt, opens, reads⟩ :=
    restores state rest closes.apart isAt
  exact ⟨again, later, erase_eq, later_isAt, opens,
    reads.assignment (closes.sees later later_isAt) closes.closer⟩

/-- The same for a whole expression, which a comma does not end. -/
theorem Restores.expression (restores : inner.Restores) (closes : Closes rest sign)
    (other : sign ≠ .comma) (isAt : state.IsAt (inner.text.toList ++ rest)) :
    ∃ again later, again.erase = inner.erase ∧ later.IsAt rest ∧
      state.Sees (·.lexeme.Opens inner.text) ∧ Derives .expression state again later := by
  obtain ⟨again, later, erase_eq, later_isAt, opens, derived⟩ := restores.assignment closes isAt
  exact ⟨again, later, erase_eq, later_isAt, opens,
    derived.expression_of_assignment (closes.sees later later_isAt) other⟩

end Expression
end Scriptlet
