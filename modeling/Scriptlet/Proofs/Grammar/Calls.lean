import Mathlib.Logic.Relation
import Scriptlet.Proofs.Grammar.Complete

set_option autoImplicit false

/-!
Which rules a rule goes to, and at which states. A rule goes to another one before it has taken a
token only if the other one is for a smaller construct, so that no rule comes back to itself, or to
one for a larger construct, without taking a token.
-/
namespace Scriptlet.Grammar

/-- A rule that is read at a state. -/
inductive Call where
  | form {α : Type} (rule : Form α) (state : State)
  | parameters (state : State)

namespace Call

/-- The state that a rule is read at. -/
def state : Call → State
  | .form _ state => state
  | .parameters state => state

/-- The larger the construct of a rule, the higher its rank. -/
def rank : Call → Nat
  | .form rule _ => rule.rank
  | .parameters _ => 1

end Call

/-- A rule goes to another: when the parts before it have been read, it reads the other one where
they end. -/
inductive GoesTo : Call → Call → Prop where
  | expression_first {s : State} : GoesTo (.form .expression s) (.form .assignment s)
  | expression_rest {s t : State} {first : Expression} (head : Derives .assignment s first t)
    (comma : t.Sees (·.punctuator? = some .comma)) :
    GoesTo (.form .expression s) (.form .sequenceRest t)
  | sequenceRest_next {s t : State} (comma : TakesSign s .comma t) :
    GoesTo (.form .sequenceRest s) (.form .assignment t)
  | sequenceRest_more {s t u : State} {first : Expression} (comma : TakesSign s .comma t)
    (head : Derives .assignment t first u) :
    GoesTo (.form .sequenceRest s) (.form .sequenceRest u)
  | assignment_target {s : State} :
    GoesTo (.form .assignment s) (.form (.operation .logicalOr) s)
  | assignment_value {s t u : State} {token : Token} {operator : AssignmentOperator}
    {target : Expression} (left : Derives (.operation .logicalOr) s target t)
    (taken : Takes t token u) (sign_eq : token.punctuator? = some operator.sign)
    (assignable : target.isAssignable = true) :
    GoesTo (.form .assignment s) (.form .assignment u)
  | operation_first {s : State} {least : Precedence} :
    GoesTo (.form (.operation least) s) (.form .operand s)
  | operation_rest {s t : State} {least : Precedence} {left : Expression}
    (head : Derives .operand s left t) :
    GoesTo (.form (.operation least) s) (.form (.operationRest least left) t)
  | operationRest_right {s t : State} {least : Precedence} {left : Expression} {token : Token}
    {operator : InfixOperator} (taken : Takes s token t)
    (sign_eq : token.punctuator? = some operator.sign) (strong : ¬ operator.precedence < least) :
    GoesTo (.form (.operationRest least left) s) (.form (.operation operator.rightPrecedence) t)
  | operationRest_more {s t u : State} {least : Precedence} {left right : Expression}
    {token : Token} {operator : InfixOperator} (taken : Takes s token t)
    (sign_eq : token.punctuator? = some operator.sign) (strong : ¬ operator.precedence < least)
    (argument : Derives (.operation operator.rightPrecedence) t right u) :
    GoesTo (.form (.operationRest least left) s)
      (.form (.operationRest least (u.made (·.infixed operator left right)).1)
        (u.made (·.infixed operator left right)).2)
  | operand_primary {s : State} (other : s.Sees (fun token => ∀ operator : UnaryOperator,
      token.punctuator? ≠ some operator.sign)) : GoesTo (.form .operand s) (.form .primary s)
  | operand_selections {s t : State} {inner : Expression}
    (other : s.Sees (fun token => ∀ operator : UnaryOperator,
      token.punctuator? ≠ some operator.sign)) (head : Derives .primary s inner t) :
    GoesTo (.form .operand s) (.form (.selections inner) t)
  | operand_unary {s t : State} {token : Token} {operator : UnaryOperator}
    (taken : Takes s token t) (sign_eq : token.punctuator? = some operator.sign) :
    GoesTo (.form .operand s) (.form .operand t)
  | selections_named {s t u : State} {inner : Expression} {token : Token} {name : String}
    (dot : TakesSign s .dot t) (taken : Takes t token u) (name_eq : token.word? = some name) :
    GoesTo (.form (.selections inner) s)
      (.form (.selections (u.made (·.member inner (.named name) (u.spanSince inner.span.start))).1)
        (u.made (·.member inner (.named name) (u.spanSince inner.span.start))).2)
  | selections_index {s t : State} {inner : Expression} (opens : TakesSign s .leftBracket t) :
    GoesTo (.form (.selections inner) s) (.form .expression t)
  | selections_computed {s t u v : State} {inner index : Expression}
    (opens : TakesSign s .leftBracket t) (inside : Derives .expression t index u)
    (closes : TakesSign u .rightBracket v) :
    GoesTo (.form (.selections inner) s)
      (.form (.selections
          (v.made (·.member inner (.computed index) (v.spanSince inner.span.start))).1)
        (v.made (·.member inner (.computed index) (v.spanSince inner.span.start))).2)
  | selections_arguments {s t : State} {inner : Expression} (opens : TakesSign s .leftParen t) :
    GoesTo (.form (.selections inner) s) (.form .arguments t)
  | selections_call {s t u : State} {inner : Expression} {arguments : List Expression}
    (opens : TakesSign s .leftParen t) (inside : Derives .arguments t arguments u) :
    GoesTo (.form (.selections inner) s)
      (.form (.selections (u.made (·.call inner arguments (u.spanSince inner.span.start))).1)
        (u.made (·.call inner arguments (u.spanSince inner.span.start))).2)
  | arguments_first {s : State} (other : s.Sees (·.punctuator? ≠ some .rightParen)) :
    GoesTo (.form .arguments s) (.form .assignment s)
  | arguments_rest {s t : State} {first : Expression}
    (other : s.Sees (·.punctuator? ≠ some .rightParen)) (head : Derives .assignment s first t) :
    GoesTo (.form .arguments s) (.form .sequenceRest t)
  | primary_function {s t : State} {token : Token} (taken : Takes s token t)
    (lexeme_eq : token.lexeme = .keyword .functionWord) :
    GoesTo (.form .primary s) (.form (.functionRest token.span.start) t)
  | primary_parens {s t : State} (opens : TakesSign s .leftParen t) :
    GoesTo (.form .primary s) (.form .expression t)
  | primary_array {s t : State} (opens : TakesSign s .leftBracket t) :
    GoesTo (.form .primary s) (.form .elements t)
  | primary_object {s t : State} (opens : TakesSign s .leftBrace t) :
    GoesTo (.form .primary s) (.form .properties t)
  | elements_first {s : State} (other : s.Sees (·.punctuator? ≠ some .rightBracket)) :
    GoesTo (.form .elements s) (.form .assignment s)
  | elements_more {s t u : State} {first : Expression}
    (other : s.Sees (·.punctuator? ≠ some .rightBracket)) (head : Derives .assignment s first t)
    (comma : TakesSign t .comma u) : GoesTo (.form .elements s) (.form .elements u)
  | properties_value {s t u : State} {token : Token} {key : String}
    (other : s.Sees (·.punctuator? ≠ some .rightBrace)) (taken : Takes s token t)
    (key_eq : propertyKey? token = some key) (colon : TakesSign t .colon u) :
    GoesTo (.form .properties s) (.form .assignment u)
  | properties_more {s t u v w : State} {token : Token} {key : String} {value : Expression}
    (other : s.Sees (·.punctuator? ≠ some .rightBrace)) (taken : Takes s token t)
    (key_eq : propertyKey? token = some key) (colon : TakesSign t .colon u)
    (head : Derives .assignment u value v) (comma : TakesSign v .comma w) :
    GoesTo (.form .properties s) (.form .properties w)
  | functionRest_parameters {s t u : State} {start : Nat} {name : Option String}
    (named : TakesName s name t) (opens : TakesSign t .leftParen u)
    (other : u.Sees (·.punctuator? ≠ some .rightParen)) :
    GoesTo (.form (.functionRest start) s) (.parameters u)
  | functionRest_block {s t u v : State} {start : Nat} {name : Option String}
    {params : List String} (named : TakesName s name t) (opens : TakesSign t .leftParen u)
    (listed : TakesParameterList u params v) :
    GoesTo (.form (.functionRest start) s) (.form .block v)
  | parameters_more {s t u : State} {token : Token} {name : String} (taken : Takes s token t)
    (name_eq : token.identifier? = some name) (comma : TakesSign t .comma u) :
    GoesTo (.parameters s) (.parameters u)
  | block_statements {s t : State} (opens : TakesSign s .leftBrace t) :
    GoesTo (.form .block s) (.form (.statements true) t)
  | statements_skip {s t : State} {inBlock : Bool} (semicolon : TakesSign s .semicolon t) :
    GoesTo (.form (.statements inBlock) s) (.form (.statements inBlock) t)
  | statements_first {s : State} {inBlock : Bool}
    (other : s.Sees (fun token => token.punctuator? ≠ some .semicolon ∧ token.isEnd = false ∧
      (inBlock = true → token.punctuator? ≠ some .rightBrace))) :
    GoesTo (.form (.statements inBlock) s) (.form .statement s)
  | statements_more {s t : State} {inBlock : Bool} {first : Statement}
    (other : s.Sees (fun token => token.punctuator? ≠ some .semicolon ∧ token.isEnd = false ∧
      (inBlock = true → token.punctuator? ≠ some .rightBrace)))
    (head : Derives .statement s first t) :
    GoesTo (.form (.statements inBlock) s) (.form (.statements inBlock) t)
  | statement_block {s : State} (opens : s.Sees (·.punctuator? = some .leftBrace)) :
    GoesTo (.form .statement s) (.form .block s)
  | statement_declaration {s : State} {kind : VariableKind}
    (opens : s.Sees (·.lexeme = .keyword kind.keyword)) :
    GoesTo (.form .statement s) (.form (.declaration kind) s)
  | statement_conditional {s : State} (opens : s.Sees (·.lexeme = .keyword .ifWord)) :
    GoesTo (.form .statement s) (.form .conditional s)
  | statement_loop {s : State} (opens : s.Sees (·.lexeme = .keyword .whileWord)) :
    GoesTo (.form .statement s) (.form .loop s)
  | statement_expression {s : State} (opens : s.Sees (startsExpressionStatement ·.lexeme = true)) :
    GoesTo (.form .statement s) (.form .expressionStatement s)
  | declaration_declarators {s t : State} {token : Token} {kind : VariableKind}
    (taken : Takes s token t) : GoesTo (.form (.declaration kind) s) (.form .declarators t)
  | initializer_value {s t : State} (sign : TakesSign s .assign t) :
    GoesTo (.form .initializer s) (.form .assignment t)
  | declarators_value {s t : State} {token : Token} {name : String} (taken : Takes s token t)
    (name_eq : token.identifier? = some name) :
    GoesTo (.form .declarators s) (.form .initializer t)
  | declarators_more {s t u v : State} {token : Token} {name : String} {init : Option Expression}
    (taken : Takes s token t) (name_eq : token.identifier? = some name)
    (value : Derives .initializer t init u)
    (comma : TakesSign (u.made (·.declarator name init (u.spanSince token.span.start))).2
      .comma v) :
    GoesTo (.form .declarators s) (.form .declarators v)
  | alternate_statement {s t : State} {token : Token} (taken : Takes s token t)
    (word_eq : token.keyword? = some .elseWord) :
    GoesTo (.form .alternate s) (.form .statement t)
  | conditional_condition {s t u : State} {token : Token} (taken : Takes s token t)
    (word_eq : token.keyword? = some .ifWord) (opens : TakesSign t .leftParen u) :
    GoesTo (.form .conditional s) (.form .expression u)
  | conditional_consequent {s t u v w : State} {token : Token} {condition : Expression}
    (taken : Takes s token t) (word_eq : token.keyword? = some .ifWord)
    (opens : TakesSign t .leftParen u) (inside : Derives .expression u condition v)
    (closes : TakesSign v .rightParen w) :
    GoesTo (.form .conditional s) (.form .statement w)
  | conditional_alternate {s t u v w x : State} {token : Token} {condition : Expression}
    {consequent : Statement} (taken : Takes s token t) (word_eq : token.keyword? = some .ifWord)
    (opens : TakesSign t .leftParen u) (inside : Derives .expression u condition v)
    (closes : TakesSign v .rightParen w) (first : Derives .statement w consequent x) :
    GoesTo (.form .conditional s) (.form .alternate x)
  | loop_test {s t u : State} {token : Token} (taken : Takes s token t)
    (word_eq : token.keyword? = some .whileWord) (opens : TakesSign t .leftParen u) :
    GoesTo (.form .loop s) (.form .expression u)
  | loop_body {s t u v w : State} {token : Token} {test : Expression} (taken : Takes s token t)
    (word_eq : token.keyword? = some .whileWord) (opens : TakesSign t .leftParen u)
    (inside : Derives .expression u test v) (closes : TakesSign v .rightParen w) :
    GoesTo (.form .loop s) (.form .statement w)
  | expressionStatement_inner {s : State} :
    GoesTo (.form .expressionStatement s) (.form .expression s)

/-- Between two calls no token comes back, and some are gone unless the later rule is for a smaller
construct. -/
structure Advances (call later : Call) : Prop where
  shortens : Shortens call.state 0 later.state
  taken : call.rank ≤ later.rank → Shortens call.state 1 later.state

theorem Advances.of_shortens {call later : Call} (shortens : Shortens call.state 1 later.state) :
    Advances call later :=
  ⟨shortens.mono (Nat.zero_le 1), fun _ => shortens⟩

theorem Advances.of_rank_lt {call later : Call} (shortens : Shortens call.state 0 later.state)
    (lower : later.rank < call.rank) : Advances call later :=
  ⟨shortens, fun le => absurd lower (Nat.not_lt.mpr le)⟩

theorem Derives.keeps {α : Type} {form : Form α} {state later : State} {value : α}
    (derived : Derives form state value later) (closed : state.Closed) : Shortens state 0 later :=
  (derived.shortens closed).mono (Nat.zero_le _)

theorem GoesTo.advances {call later : Call} (goesTo : GoesTo call later)
    (closed : call.state.Closed) : Advances call later := by
  cases goesTo
  -- Nothing is taken before a rule for a smaller construct.
  case expression_first | assignment_target | operation_first | operand_primary |
      arguments_first | elements_first | statements_first | statement_block |
      statement_declaration | statement_conditional | statement_loop | statement_expression |
      expressionStatement_inner =>
    exact .of_rank_lt (.refl closed) (by simp [Call.rank, Form.rank])
  case declaration_declarators taken =>
    exact .of_rank_lt (taken.shortens closed).1 (by simp [Call.rank, Form.rank])
  -- The part that is read first takes a token.
  case expression_rest head _ | operation_rest head | operand_selections _ head |
      arguments_rest _ head | statements_more _ head =>
    exact .of_shortens (head.shortens closed)
  all_goals
    apply Advances.of_shortens
    simp only [Call.state, shortens_made_iff, ← Token.keyword?_eq_some_iff] at *
    -- What each part takes, one part after the other; only numbers of tokens are compared.
    grind -ring -linarith [Shortens, Shortens.mono, → Shortens.trans, → Takes.shortens,
      → TakesSign.shortens, → TakesSign.made_shortens, → Derives.keeps, → TakesName.shortens,
      → TakesParameterList.shortens, → isEnd_of_punctuator?, → isEnd_of_keyword?,
      → isEnd_of_identifier?]

theorem Advances.trans {call between later : Call} (front : Advances call between)
    (back : Advances between later) : Advances call later := by
  refine ⟨front.shortens.trans back.shortens, fun le => ?_⟩
  -- If the rank is no lower in the end, then it is no lower after one of the two parts.
  rcases Nat.lt_or_ge between.rank call.rank with lower | higher
  · exact front.shortens.trans (back.taken (Nat.le_trans (Nat.le_of_lt lower) le))
  · exact (front.taken higher).trans back.shortens

/-- A chain of calls takes a token, unless it ends at a rule for a smaller construct. -/
theorem advances_of_transGen {call later : Call} (chain : Relation.TransGen GoesTo call later)
    (closed : call.state.Closed) : Advances call later := by
  induction chain with
  | single goesTo => exact goesTo.advances closed
  | tail _ goesTo ih => exact ih.trans (goesTo.advances ih.shortens.closed)

/-- The number of steps that is enough for a call: sixteen for each token, and one for each rule
that it may go to before it takes one. -/
def Call.need (call : Call) : Nat :=
  16 * call.state.tokens.length + call.rank

theorem Call.rank_le (call : Call) : call.rank ≤ 8 := by
  cases call with
  | form rule => cases rule <;> simp [rank, Form.rank]
  | parameters => simp [rank]

theorem Advances.need_lt {call later : Call} (advances : Advances call later) :
    later.need < call.need := by
  have fewer := advances.shortens.tokens
  have low := later.rank_le
  unfold Call.need
  rcases Nat.lt_or_ge later.rank call.rank with lower | higher
  · omega
  · have taken := (advances.taken higher).tokens
    omega

/-- No chain of calls goes on for ever. -/
theorem acc_of_closed {call : Call} (closed : call.state.Closed) :
    Acc (fun later call => GoesTo call later) call := by
  induction need_eq : call.need using Nat.strongRecOn generalizing call with
  | ind need ih =>
    refine ⟨call, fun later goesTo => ?_⟩
    have advances := goesTo.advances closed
    exact ih later.need (need_eq ▸ advances.need_lt) advances.shortens.closed rfl

end Scriptlet.Grammar
