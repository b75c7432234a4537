import Scriptlet.Proofs.Grammar.Extension
import Scriptlet.Proofs.Grammar.Report
import Scriptlet.Proofs.Tree.Erase

set_option autoImplicit false

/-!
Reading on. What is derived from some tokens is derived again, up to numbers and ranges, when more
tokens follow them: those of a whole program up to its end, and then what follows.
-/
namespace Scriptlet

theorem Expression.isFunction_erase (expression : Expression) :
    expression.erase.isFunction = expression.isFunction := by
  cases expression <;> rfl

theorem erase_infixed {left right first second : Expression} (first_eq : first.erase = left.erase)
    (second_eq : second.erase = right.erase) (operator : InfixOperator)
    (builder other : Builder) :
    (other.infixed operator first second).1.erase =
      (builder.infixed operator left right).1.erase := by
  cases operator with
  | binary operator =>
    show Expression.binary default operator first.erase second.erase = _
    rw [first_eq, second_eq]
    rfl
  | logical operator =>
    show Expression.logical default operator first.erase second.erase = _
    rw [first_eq, second_eq]
    rfl

theorem AssignmentOperator.sign_ne_semicolon (operator : AssignmentOperator) :
    operator.sign ≠ .semicolon := by
  cases operator <;> decide

theorem InfixOperator.sign_ne_semicolon (operator : InfixOperator) :
    operator.sign ≠ .semicolon := by
  rcases operator with operator | operator <;> cases operator <;> decide

theorem UnaryOperator.sign_ne_semicolon (operator : UnaryOperator) :
    operator.sign ≠ .semicolon := by
  cases operator <;> decide

namespace Grammar

/-- What a form reads, with all numbers and ranges forgotten. -/
@[simp] def Form.erase {α : Type} : Form α → α → α
  | .expression, value => value.erase
  | .sequenceRest, value => eraseExpressions value
  | .assignment, value => value.erase
  | .operation _, value => value.erase
  | .operationRest .., value => value.erase
  | .operand, value => value.erase
  | .selections _, value => value.erase
  | .arguments, value => eraseExpressions value
  | .primary, value => value.erase
  | .elements, value => eraseExpressions value
  | .properties, value => eraseProperties value
  | .functionRest _, value => value.erase
  | .block, value => value.erase
  | .statements _, value => eraseStatements value
  | .statement, value => value.erase
  | .declaration _, value => value.erase
  | .initializer, value => eraseInit value
  | .declarators, value => eraseDeclarators value
  | .alternate, value => eraseAlternate value
  | .conditional, value => value.erase
  | .loop, value => value.erase
  | .expressionStatement, value => value.erase

/-- Where a form stops with more tokens behind. Only a statement may take the semicolon there. -/
@[simp] def Form.EndsAt {α : Type} (behind state other : State) : Form α → Prop
  | .statement | .declaration _ | .conditional | .loop | .expressionStatement | .alternate =>
    Arrives behind state other
  | _ => Extends behind state other

/-- A form reads the same again, but for numbers and ranges, and stops at the same place. -/
@[simp] def Form.ReadsAgain {α : Type} (behind later other : State) (value : α)
    (form : Form α) : Prop :=
  ∃ again after, Derives form other again after ∧ form.erase again = form.erase value ∧
    form.EndsAt behind later after

/-- How a form reads with more tokens behind. What a tree or a place that the form begins with has
for numbers and ranges does not matter. The statements of a whole program are read up to the end of
its own tokens, and then whatever statements follow there. -/
@[simp] def Form.Rereads {α : Type} (behind later other : State) (value : α) : Form α → Prop
  | .operationRest least left => ∀ same : Expression, same.erase = left.erase →
    Form.ReadsAgain behind later other value (.operationRest least same)
  | .selections inner => ∀ same : Expression, same.erase = inner.erase →
    Form.ReadsAgain behind later other value (.selections same)
  | .functionRest _ => ∀ start, Form.ReadsAgain behind later other value (.functionRest start)
  | .statements inBlock =>
    if inBlock then Form.ReadsAgain behind later other value (.statements true)
    else later.tokens = [] ∧ ∃ again after,
      eraseStatements again = eraseStatements value ∧ Arrives behind later after ∧
        ∀ rest last, Derives (.statements false) after rest last →
          Derives (.statements false) other (again ++ rest) last
  | form => form.ReadsAgain behind later other value

theorem isEnd_of_word? {token : Token} {name : String} (name_eq : token.word? = some name) :
    token.isEnd = false := by
  rw [Bool.eq_false_iff]
  intro last
  simp [Token.word?, Token.isEnd_iff.mp last] at name_eq

theorem isEnd_of_propertyKey? {token : Token} {key : String}
    (key_eq : propertyKey? token = some key) : token.isEnd = false := by
  rw [Bool.eq_false_iff]
  intro last
  simp [propertyKey?, Token.word?, Token.isEnd_iff.mp last] at key_eq

section Join

variable {behind : State}

theorem sees_last {state : State} {property : Token → Prop} (closed : state.Closed)
    (done : state.tokens = []) (sees : state.Sees property) :
    ∃ token, token.isEnd = true ∧ property token := by
  obtain ⟨token, next_eq, holds⟩ := sees
  rw [State.next, done] at next_eq
  exact ⟨token, closed token next_eq, holds⟩

theorem not_takesSign_of_done {state later : State} {sign : Punctuator} (closed : state.Closed)
    (done : state.tokens = []) : ¬ TakesSign state sign later := by
  rintro ⟨token, taken, sign_eq⟩
  have sees : state.Sees (·.punctuator? = some sign) := ⟨token, taken.1, sign_eq⟩
  obtain ⟨last, isEnd, last_eq⟩ := sees_last closed done sees
  exact Token.punctuator?_ne_of_isEnd isEnd _ last_eq

/-- What the optional forms read where no tokens are left. -/
def Form.Idles {α : Type} (state later : State) (value : α) : Form α → Prop
  | .statements inBlock => inBlock = false ∧ value = [] ∧ later = state
  | .alternate => value = none ∧ later = state
  | _ => True

theorem Derives.idles {α : Type} {form : Form α} {state later : State} {value : α}
    (derived : Derives form state value later) (closed : state.Closed)
    (done : state.tokens = []) : form.Idles state later value := by
  cases derived with
  | statements_skip semicolon => exact absurd semicolon (not_takesSign_of_done closed done)
  | statements_close closes =>
    obtain ⟨token, last, sign_eq⟩ := sees_last closed done closes
    exact absurd sign_eq (Token.punctuator?_ne_of_isEnd last _)
  | statements_end => exact ⟨rfl, rfl, rfl⟩
  | statements_cons other =>
    obtain ⟨token, last, _, going, _⟩ := sees_last closed done other
    rw [last] at going
    cases going
  | alternate_none => exact ⟨rfl, rfl⟩
  | alternate_some taken word_eq =>
    have sees : state.Sees (·.keyword? = some .elseWord) := ⟨_, taken.1, word_eq⟩
    obtain ⟨token, last, same⟩ := sees_last closed done sees
    rw [isEnd_of_keyword? same] at last
    cases last
  | _ => trivial

/-- Behind the semicolon that ends a statement there is no second statement of a choice. -/
theorem Crosses.alternate_none (stops : Stops behind) {state other : State}
    (crosses : Crosses behind state other) : Derives .alternate other none other := by
  obtain ⟨between, taken, tokens_eq, ending_eq⟩ := crosses.taken
  obtain ⟨token, next_eq, apart⟩ := stops.alternate between taken
  exact .alternate_none ⟨token, (next_congr tokens_eq ending_eq).trans next_eq, apart⟩

theorem Extends.endsExpression (stops : Stops behind) {state other later : State}
    {inner same : Expression} (longer : Extends behind state other)
    (same_eq : same.erase = inner.erase)
    (ends : if inner.isFunction then Accepts state .semicolon later
      else EndsStatement state later) :
    ∃ after, (if same.isFunction then Accepts other .semicolon after
      else EndsStatement other after) ∧ Arrives behind later after := by
  have isFunction_eq : same.isFunction = inner.isFunction := by
    rw [← same.isFunction_erase, same_eq, inner.isFunction_erase]
  rw [isFunction_eq]
  by_cases isFunction : inner.isFunction = true
  · simp only [isFunction, ↓reduceIte] at ends ⊢
    exact longer.accepts stops ends
  · simp only [isFunction, Bool.false_eq_true, ↓reduceIte] at ends ⊢
    exact longer.endsStatement stops ends

/-- What is derived is derived again with more tokens behind. -/
@[simp] def Derives.Resumes {α : Type} {form : Form α} {state later : State} {value : α}
    (_ : Derives form state value later) (behind : State) : Prop :=
  ∀ other, Extends behind state other → form.Rereads behind later other value

theorem expression_several_resumes (stops : Stops behind) {s t u : State} {first : Expression}
    {rest : List Expression} (head : Derives .assignment s first t)
    (comma : t.Sees (·.punctuator? = some .comma)) (tail : Derives .sequenceRest t rest u)
    (head_ih : head.Resumes behind) (tail_ih : tail.Resumes behind) :
    (Derives.expression_several head comma tail).Resumes behind := by
  simp only [Derives.Resumes, Form.Rereads, Form.ReadsAgain, Form.erase, Form.EndsAt] at *
  intro again longer
  obtain ⟨first, between, head, first_eq, longer⟩ := head_ih again longer
  have comma := longer.sees_sign stops (by decide) comma
  obtain ⟨rest, after, tail, rest_eq, longer⟩ := tail_ih between longer
  refine ⟨_, _, .expression_several head comma tail, ?_, longer.made⟩
  show Expression.sequence default (first.erase :: eraseExpressions rest) = _
  rw [first_eq, rest_eq]
  rfl

theorem assignment_some_resumes {s t u v : State} {token : Token} {operator : AssignmentOperator}
    {target value : Expression} (left : Derives (.operation .logicalOr) s target t)
    (taken : Takes t token u) (sign_eq : token.punctuator? = some operator.sign)
    (assignable : target.isAssignable = true) (right : Derives .assignment u value v)
    (left_ih : left.Resumes behind) (right_ih : right.Resumes behind) :
    (Derives.assignment_some left taken sign_eq assignable right).Resumes behind := by
  simp only [Derives.Resumes, Form.Rereads, Form.ReadsAgain, Form.erase, Form.EndsAt] at *
  intro again longer
  obtain ⟨target, between, left, target_eq, longer⟩ := left_ih again longer
  obtain ⟨same, start, taken, sign_eq, longer⟩ := longer.takesPunctuator taken sign_eq
  obtain ⟨value, after, right, value_eq, longer⟩ := right_ih start longer
  have assignable : target.isAssignable = true := by
    rw [← target.isAssignable_erase, target_eq, Expression.isAssignable_erase, assignable]
  refine ⟨_, _, .assignment_some left taken sign_eq assignable right, ?_, longer.made⟩
  show Expression.assignment default operator target.erase value.erase = _
  rw [target_eq, value_eq]
  rfl

theorem operand_unary_resumes {s t u : State} {token : Token} {operator : UnaryOperator}
    {argument : Expression} (taken : Takes s token t)
    (sign_eq : token.punctuator? = some operator.sign) (inner : Derives .operand t argument u)
    (inner_ih : inner.Resumes behind) :
    (Derives.operand_unary taken sign_eq inner).Resumes behind := by
  simp only [Derives.Resumes, Form.Rereads, Form.ReadsAgain, Form.erase, Form.EndsAt] at *
  intro again longer
  obtain ⟨same, start, taken, sign_eq, longer⟩ := longer.takesPunctuator taken sign_eq
  obtain ⟨argument, after, inner, argument_eq, longer⟩ := inner_ih start longer
  refine ⟨_, _, .operand_unary taken sign_eq inner, ?_, longer.made⟩
  show Expression.unary default operator argument.erase = _
  rw [argument_eq]
  rfl

theorem selections_named_resumes {s t u v : State} {inner whole : Expression} {token : Token}
    {name : String} (dot : TakesSign s .dot t) (taken : Takes t token u)
    (name_eq : token.word? = some name)
    (tail : Derives (.selections
        (u.made (·.member inner (.named name) (u.spanSince inner.span.start))).1)
      (u.made (·.member inner (.named name) (u.spanSince inner.span.start))).2 whole v)
    (tail_ih : tail.Resumes behind) :
    (Derives.selections_named dot taken name_eq tail).Resumes behind := by
  simp only [Derives.Resumes, Form.Rereads, Form.ReadsAgain, Form.erase, Form.EndsAt] at *
  intro again longer inner inner_eq
  obtain ⟨point, dot, longer⟩ := longer.takesSign dot
  obtain ⟨same, between, taken, like, longer⟩ := longer.takes taken (isEnd_of_word? name_eq)
  have member_eq := congrArg (Expression.member default · (.named name)) inner_eq
  obtain ⟨whole, after, tail, whole_eq, longer⟩ := tail_ih _ longer.made
    (between.made (·.member inner (.named name) (between.spanSince inner.span.start))).1 member_eq
  exact ⟨whole, after, .selections_named dot taken (by rw [like.word?_eq, name_eq]) tail,
    whole_eq, longer⟩

theorem selections_computed_resumes {s t u v w : State} {inner index whole : Expression}
    (opens : TakesSign s .leftBracket t) (inside : Derives .expression t index u)
    (closes : TakesSign u .rightBracket v)
    (tail : Derives (.selections
        (v.made (·.member inner (.computed index) (v.spanSince inner.span.start))).1)
      (v.made (·.member inner (.computed index) (v.spanSince inner.span.start))).2 whole w)
    (inside_ih : inside.Resumes behind) (tail_ih : tail.Resumes behind) :
    (Derives.selections_computed opens inside closes tail).Resumes behind := by
  simp only [Derives.Resumes, Form.Rereads, Form.ReadsAgain, Form.erase, Form.EndsAt] at *
  intro again longer inner inner_eq
  obtain ⟨start, opens, longer⟩ := longer.takesSign opens
  obtain ⟨index, stop, inside, index_eq, longer⟩ := inside_ih start longer
  obtain ⟨between, closes, longer⟩ := longer.takesSign closes
  obtain ⟨whole, after, tail, whole_eq, longer⟩ := tail_ih _ longer.made
    (between.made (·.member inner (.computed index) (between.spanSince inner.span.start))).1 (by
      show Expression.member default inner.erase (.computed index.erase) = _
      rw [inner_eq, index_eq]
      rfl)
  exact ⟨whole, after, .selections_computed opens inside closes tail, whole_eq, longer⟩

theorem selections_call_resumes {s t u v : State} {inner whole : Expression}
    {arguments : List Expression} (opens : TakesSign s .leftParen t)
    (inside : Derives .arguments t arguments u)
    (tail : Derives (.selections
        (u.made (·.call inner arguments (u.spanSince inner.span.start))).1)
      (u.made (·.call inner arguments (u.spanSince inner.span.start))).2 whole v)
    (inside_ih : inside.Resumes behind) (tail_ih : tail.Resumes behind) :
    (Derives.selections_call opens inside tail).Resumes behind := by
  simp only [Derives.Resumes, Form.Rereads, Form.ReadsAgain, Form.erase, Form.EndsAt] at *
  intro again longer inner inner_eq
  obtain ⟨start, opens, longer⟩ := longer.takesSign opens
  obtain ⟨given, between, inside, given_eq, longer⟩ := inside_ih start longer
  obtain ⟨whole, after, tail, whole_eq, longer⟩ := tail_ih _ longer.made
    (between.made (·.call inner given (between.spanSince inner.span.start))).1 (by
      show Expression.call default inner.erase (eraseExpressions given) = _
      rw [inner_eq, given_eq]
      rfl)
  exact ⟨whole, after, .selections_call opens inside tail, whole_eq, longer⟩

theorem arguments_cons_resumes (stops : Stops behind) {s t u v : State} {first : Expression}
    {rest : List Expression} (other : s.Sees (·.punctuator? ≠ some .rightParen))
    (head : Derives .assignment s first t) (tail : Derives .sequenceRest t rest u)
    (closes : TakesSign u .rightParen v) (head_ih : head.Resumes behind)
    (tail_ih : tail.Resumes behind) :
    (Derives.arguments_cons other head tail closes).Resumes behind := by
  simp only [Derives.Resumes, Form.Rereads, Form.ReadsAgain, Form.erase, Form.EndsAt] at *
  intro again longer
  have other := longer.sees_ne stops (by decide) other
  obtain ⟨first, between, head, first_eq, longer⟩ := head_ih again longer
  obtain ⟨rest, stop, tail, rest_eq, longer⟩ := tail_ih between longer
  obtain ⟨after, closes, longer⟩ := longer.takesSign closes
  refine ⟨first :: rest, after, .arguments_cons other head tail closes, ?_, longer⟩
  rw [eraseExpressions, eraseExpressions, first_eq, rest_eq]

theorem elements_cons_resumes (stops : Stops behind) {s t u v : State} {first : Expression}
    {rest : List Expression} (other : s.Sees (·.punctuator? ≠ some .rightBracket))
    (head : Derives .assignment s first t) (comma : TakesSign t .comma u)
    (tail : Derives .elements u rest v) (head_ih : head.Resumes behind)
    (tail_ih : tail.Resumes behind) :
    (Derives.elements_cons other head comma tail).Resumes behind := by
  simp only [Derives.Resumes, Form.Rereads, Form.ReadsAgain, Form.erase, Form.EndsAt] at *
  intro again longer
  have other := longer.sees_ne stops (by decide) other
  obtain ⟨first, between, head, first_eq, longer⟩ := head_ih again longer
  obtain ⟨start, comma, longer⟩ := longer.takesSign comma
  obtain ⟨rest, after, tail, rest_eq, longer⟩ := tail_ih start longer
  refine ⟨first :: rest, after, .elements_cons other head comma tail, ?_, longer⟩
  rw [eraseExpressions, eraseExpressions, first_eq, rest_eq]

theorem properties_last_resumes (stops : Stops behind) {s t u v w : State} {token : Token}
    {key : String} {value : Expression} (other : s.Sees (·.punctuator? ≠ some .rightBrace))
    (taken : Takes s token t) (key_eq : propertyKey? token = some key)
    (colon : TakesSign t .colon u) (head : Derives .assignment u value v)
    (closes : TakesSign v .rightBrace w) (head_ih : head.Resumes behind) :
    (Derives.properties_last other taken key_eq colon head closes).Resumes behind := by
  simp only [Derives.Resumes, Form.Rereads, Form.ReadsAgain, Form.erase, Form.EndsAt] at *
  intro again longer
  have other := longer.sees_ne stops (by decide) other
  obtain ⟨same, named, taken, like, longer⟩ := longer.takes taken (isEnd_of_propertyKey? key_eq)
  obtain ⟨start, colon, longer⟩ := longer.takesSign colon
  obtain ⟨value, stop, head, value_eq, longer⟩ := head_ih start longer
  obtain ⟨after, closes, longer⟩ := longer.takesSign closes
  refine ⟨_, after, .properties_last other taken (by rw [like.propertyKey?_eq, key_eq]) colon head
    closes, ?_, longer⟩
  exact congrArg (fun value => [ObjectProperty.mk _ value default]) value_eq

theorem properties_cons_resumes (stops : Stops behind) {s t u v w x : State} {token : Token}
    {key : String} {value : Expression} {rest : List ObjectProperty}
    (other : s.Sees (·.punctuator? ≠ some .rightBrace)) (taken : Takes s token t)
    (key_eq : propertyKey? token = some key) (colon : TakesSign t .colon u)
    (head : Derives .assignment u value v) (comma : TakesSign v .comma w)
    (tail : Derives .properties w rest x) (head_ih : head.Resumes behind)
    (tail_ih : tail.Resumes behind) :
    (Derives.properties_cons other taken key_eq colon head comma tail).Resumes behind := by
  simp only [Derives.Resumes, Form.Rereads, Form.ReadsAgain, Form.erase, Form.EndsAt] at *
  intro again longer
  have other := longer.sees_ne stops (by decide) other
  obtain ⟨same, named, taken, like, longer⟩ := longer.takes taken (isEnd_of_propertyKey? key_eq)
  obtain ⟨start, colon, longer⟩ := longer.takesSign colon
  obtain ⟨value, stop, head, value_eq, longer⟩ := head_ih start longer
  obtain ⟨between, comma, longer⟩ := longer.takesSign comma
  obtain ⟨rest, after, tail, rest_eq, longer⟩ := tail_ih between longer
  refine ⟨_, after, .properties_cons other taken (by rw [like.propertyKey?_eq, key_eq]) colon head
    comma tail, ?_, longer⟩
  rw [eraseProperties, eraseProperties, value_eq, rest_eq]

theorem functionRest_resumes (stops : Stops behind) (origin : Nat) {s t u v w : State}
    {name : Option String} {params : List String} {body : Block} (named : TakesName s name t)
    (opens : TakesSign t .leftParen u) (listed : TakesParameterList u params v)
    (inside : Derives .block v body w) (inside_ih : inside.Resumes behind) :
    (Derives.functionRest named opens listed inside :
      Derives (.functionRest origin) s _ _).Resumes behind := by
  simp only [Derives.Resumes, Form.Rereads, Form.ReadsAgain, Form.erase, Form.EndsAt] at *
  intro again longer start
  obtain ⟨before, named, longer⟩ := longer.takesName stops named
  obtain ⟨opened, opens, longer⟩ := longer.takesSign opens
  obtain ⟨stop, listed, longer⟩ := longer.takesParameterList stops listed
  obtain ⟨body, after, inside, body_eq, longer⟩ := inside_ih stop longer
  refine ⟨_, _, .functionRest named opens listed inside, ?_, longer.made⟩
  exact congrArg (Expression.function default name params) body_eq

theorem statements_skip_resumes {s t u : State} {inBlock : Bool} {statements : List Statement}
    (semicolon : TakesSign s .semicolon t) (tail : Derives (.statements inBlock) t statements u)
    (tail_ih : tail.Resumes behind) : (Derives.statements_skip semicolon tail).Resumes behind := by
  simp only [Derives.Resumes, Form.Rereads, Form.ReadsAgain, Form.erase, Form.EndsAt] at *
  intro again longer
  obtain ⟨start, semicolon, longer⟩ := longer.takesSign semicolon
  cases inBlock with
  | true =>
    obtain ⟨listed, after, tail, listed_eq, longer⟩ := tail_ih start longer
    exact ⟨listed, after, .statements_skip semicolon tail, listed_eq, longer⟩
  | false =>
    obtain ⟨done, listed, after, listed_eq, arrives, goes⟩ := tail_ih start longer
    exact ⟨done, listed, after, listed_eq, arrives, fun rest last derived =>
      .statements_skip semicolon (goes rest last derived)⟩

theorem statements_cons_resumes (stops : Stops behind) {s t u : State} {inBlock : Bool}
    {first : Statement} {rest : List Statement}
    (other : s.Sees (fun token => token.punctuator? ≠ some .semicolon ∧ token.isEnd = false ∧
      (inBlock = true → token.punctuator? ≠ some .rightBrace)))
    (head : Derives .statement s first t) (tail : Derives (.statements inBlock) t rest u)
    (head_ih : head.Resumes behind) (tail_ih : tail.Resumes behind) :
    (Derives.statements_cons other head tail).Resumes behind := by
  simp only [Derives.Resumes, Form.Rereads, Form.ReadsAgain, Form.erase, Form.EndsAt] at *
  intro again longer
  have other := longer.sees stops other fun {token same} stands ⟨unsigned, going, open_eq⟩ => by
    obtain like | ⟨last, _⟩ | ⟨last, _⟩ := stands
    · rw [like.punctuator?_eq, like.isEnd_eq]
      exact ⟨unsigned, going, open_eq⟩
    all_goals
      rw [last] at going
      cases going
  obtain ⟨first, between, statement, first_eq, arrives⟩ := head_ih again longer
  cases inBlock with
  | true =>
    -- A block does not end before its brace, so the semicolon behind the tokens is not taken.
    rcases arrives with longer | crosses
    · obtain ⟨rest, after, tail, rest_eq, longer⟩ := tail_ih between longer
      refine ⟨first :: rest, after, .statements_cons other statement tail, ?_, longer⟩
      rw [eraseStatements, eraseStatements, first_eq, rest_eq]
    · obtain ⟨inside, _⟩ := tail.idles crosses.closed crosses.done
      cases inside
  | false =>
    rcases arrives with longer | crosses
    · obtain ⟨done, rest, after, rest_eq, arrives, goes⟩ := tail_ih between longer
      refine ⟨done, first :: rest, after, ?_, arrives, fun more last derived =>
        .statements_cons other statement (goes more last derived)⟩
      rw [eraseStatements, eraseStatements, first_eq, rest_eq]
    · obtain ⟨_, rfl, rfl⟩ := tail.idles crosses.closed crosses.done
      refine ⟨crosses.done, [first], between, ?_, .inr crosses, fun more last derived =>
        .statements_cons other statement derived⟩
      exact congrArg (fun statement => [statement]) first_eq

theorem declaration_resumes (stops : Stops behind) (kind : VariableKind) {s t u v : State}
    {token : Token} {declarations : List Declarator} (taken : Takes s token t)
    (inside : Derives .declarators t declarations u) (ends : EndsStatement u v)
    (inside_ih : inside.Resumes behind) :
    (Derives.declaration taken inside ends : Derives (.declaration kind) s _ _).Resumes behind := by
  simp only [Derives.Resumes, Form.Rereads, Form.ReadsAgain, Form.erase, Form.EndsAt] at *
  intro again longer
  -- Any token may be the first of a declaration, but names follow it.
  have declared := (inside.shortens (taken.shortens longer.closed).1.closed).tokens
  have present := List.ne_nil_of_length_pos (Nat.lt_of_lt_of_le (Nat.succ_pos _) declared)
  obtain ⟨same, start, taken, _, longer⟩ :=
    longer.takes taken (longer.going_of_takes taken present)
  obtain ⟨declarations, stop, inside, declarations_eq, longer⟩ := inside_ih start longer
  obtain ⟨after, ends, arrives⟩ := longer.endsStatement stops ends
  refine ⟨_, _, .declaration taken inside ends, ?_, arrives.made⟩
  exact congrArg (Statement.declaration default kind) declarations_eq

theorem declarators_cons_resumes {s t u v w : State} {token : Token} {name : String}
    {init : Option Expression} {rest : List Declarator} (taken : Takes s token t)
    (name_eq : token.identifier? = some name) (value : Derives .initializer t init u)
    (comma : TakesSign (u.made (·.declarator name init (u.spanSince token.span.start))).2 .comma v)
    (tail : Derives .declarators v rest w) (value_ih : value.Resumes behind)
    (tail_ih : tail.Resumes behind) :
    (Derives.declarators_cons taken name_eq value comma tail).Resumes behind := by
  simp only [Derives.Resumes, Form.Rereads, Form.ReadsAgain, Form.erase, Form.EndsAt] at *
  intro again longer
  obtain ⟨same, start, taken, name_eq, longer⟩ := longer.takesIdentifier taken name_eq
  obtain ⟨init, stop, value, init_eq, longer⟩ := value_ih start longer
  obtain ⟨between, comma, longer⟩ := longer.made.takesSign comma
  obtain ⟨rest, after, tail, rest_eq, longer⟩ := tail_ih between longer
  refine ⟨_, after, .declarators_cons taken name_eq value comma tail, ?_, longer⟩
  show Declarator.mk default _ (eraseInit init) :: eraseDeclarators rest = _
  rw [init_eq, rest_eq]
  rfl

theorem conditional_resumes (stops : Stops behind) {s t u v w x y : State} {token : Token}
    {condition : Expression} {consequent : Statement} {alternate : Option Statement}
    (taken : Takes s token t) (word_eq : token.keyword? = some .ifWord)
    (opens : TakesSign t .leftParen u) (inside : Derives .expression u condition v)
    (closes : TakesSign v .rightParen w) (first : Derives .statement w consequent x)
    (second : Derives .alternate x alternate y) (inside_ih : inside.Resumes behind)
    (first_ih : first.Resumes behind) (second_ih : second.Resumes behind) :
    (Derives.conditional taken word_eq opens inside closes first second).Resumes behind := by
  simp only [Derives.Resumes, Form.Rereads, Form.ReadsAgain, Form.erase, Form.EndsAt] at *
  intro again longer
  obtain ⟨same, named, taken, word_eq, longer⟩ := longer.takesKeyword taken word_eq
  obtain ⟨start, opens, longer⟩ := longer.takesSign opens
  obtain ⟨condition, stop, inside, condition_eq, longer⟩ := inside_ih start longer
  obtain ⟨between, closes, longer⟩ := longer.takesSign closes
  obtain ⟨consequent, before, first, consequent_eq, arrives⟩ := first_ih between longer
  obtain ⟨other, after, second, other_eq, arrives⟩ : ∃ other after,
      Derives .alternate before other after ∧ eraseAlternate other = eraseAlternate alternate ∧
        Arrives behind _ after := by
    -- Once the semicolon is taken, the choice ends as it does at the end of the source.
    rcases arrives with longer | crosses
    · exact second_ih before longer
    · obtain ⟨rfl, rfl⟩ := second.idles crosses.closed crosses.done
      exact ⟨none, before, crosses.alternate_none stops, rfl, .inr crosses⟩
  refine ⟨_, _, .conditional taken word_eq opens inside closes first second, ?_, arrives.made⟩
  show Statement.conditional default condition.erase consequent.erase (eraseAlternate other) = _
  rw [condition_eq, consequent_eq, other_eq]
  rfl

theorem loop_resumes {s t u v w x : State} {token : Token} {test : Expression} {body : Statement}
    (taken : Takes s token t) (word_eq : token.keyword? = some .whileWord)
    (opens : TakesSign t .leftParen u) (inside : Derives .expression u test v)
    (closes : TakesSign v .rightParen w) (repeated : Derives .statement w body x)
    (inside_ih : inside.Resumes behind) (repeated_ih : repeated.Resumes behind) :
    (Derives.loop taken word_eq opens inside closes repeated).Resumes behind := by
  simp only [Derives.Resumes, Form.Rereads, Form.ReadsAgain, Form.erase, Form.EndsAt] at *
  intro again longer
  obtain ⟨same, named, taken, word_eq, longer⟩ := longer.takesKeyword taken word_eq
  obtain ⟨start, opens, longer⟩ := longer.takesSign opens
  obtain ⟨test, stop, inside, test_eq, longer⟩ := inside_ih start longer
  obtain ⟨between, closes, longer⟩ := longer.takesSign closes
  obtain ⟨body, after, repeated, body_eq, arrives⟩ := repeated_ih between longer
  refine ⟨_, _, .loop taken word_eq opens inside closes repeated, ?_, arrives.made⟩
  show Statement.while default test.erase body.erase = _
  rw [test_eq, body_eq]
  rfl

theorem rereads (stops : Stops behind) {α : Type} {form : Form α} {state later : State}
    {value : α} (derived : Derives form state value later) : derived.Resumes behind := by
  -- One part after the other is read again; `longer` says of one state after the other that it is
  -- extended.
  induction derived
  all_goals
    simp only [Derives.Resumes, Form.Rereads, Form.ReadsAgain, Form.erase, Form.EndsAt, ↓reduceIte,
      Bool.false_eq_true] at *
  case expression_single head other head_ih =>
    intro again longer
    obtain ⟨first, after, head, first_eq, longer⟩ := head_ih again longer
    exact ⟨first, after, .expression_single head (longer.sees_ne stops (by decide) other), first_eq,
      longer⟩
  case expression_several head comma tail head_ih tail_ih =>
    exact expression_several_resumes stops head comma tail head_ih tail_ih
  case sequenceRest_nil other =>
    intro again longer
    exact ⟨[], again, .sequenceRest_nil (longer.sees_ne stops (by decide) other), rfl, longer⟩
  case sequenceRest_cons comma head tail head_ih tail_ih =>
    intro again longer
    obtain ⟨start, comma, longer⟩ := longer.takesSign comma
    obtain ⟨first, between, head, first_eq, longer⟩ := head_ih start longer
    obtain ⟨rest, after, tail, rest_eq, longer⟩ := tail_ih between longer
    refine ⟨first :: rest, after, .sequenceRest_cons comma head tail, ?_, longer⟩
    rw [eraseExpressions, eraseExpressions, first_eq, rest_eq]
  case assignment_plain inner other inner_ih =>
    intro again longer
    obtain ⟨target, after, inner, target_eq, longer⟩ := inner_ih again longer
    refine ⟨target, after, .assignment_plain inner ?_, target_eq, longer⟩
    exact longer.sees stops other fun stands none operator sign_eq =>
      none operator ((stands.punctuator?_iff operator.sign_ne_semicolon).mp sign_eq)
  case assignment_some left taken sign_eq assignable right left_ih right_ih =>
    exact assignment_some_resumes left taken sign_eq assignable right left_ih right_ih
  case operation head tail head_ih tail_ih =>
    intro again longer
    obtain ⟨left, between, head, left_eq, longer⟩ := head_ih again longer
    obtain ⟨whole, after, tail, whole_eq, longer⟩ := tail_ih between longer left left_eq
    exact ⟨whole, after, .operation head tail, whole_eq, longer⟩
  case operationRest_done other =>
    intro again longer same same_eq
    refine ⟨same, again, .operationRest_done ?_, same_eq, longer⟩
    exact longer.sees stops other fun stands weak operator sign_eq =>
      weak operator ((stands.punctuator?_iff operator.sign_ne_semicolon).mp sign_eq)
  case operationRest_more operator taken sign_eq strong argument tail argument_ih tail_ih =>
    intro again longer left left_eq
    obtain ⟨same, start, taken, sign_eq, longer⟩ := longer.takesPunctuator taken sign_eq
    obtain ⟨right, between, argument, right_eq, longer⟩ := argument_ih start longer
    obtain ⟨whole, after, tail, whole_eq, longer⟩ := tail_ih _ longer.made
      (between.made (·.infixed operator left right)).1 (erase_infixed left_eq right_eq operator _ _)
    exact ⟨whole, after, .operationRest_more taken sign_eq strong argument tail, whole_eq, longer⟩
  case operand_plain other head tail head_ih tail_ih =>
    intro again longer
    have other := longer.sees stops other fun stands none operator sign_eq =>
      none operator ((stands.punctuator?_iff operator.sign_ne_semicolon).mp sign_eq)
    obtain ⟨inner, between, head, inner_eq, longer⟩ := head_ih again longer
    obtain ⟨whole, after, tail, whole_eq, longer⟩ := tail_ih between longer inner inner_eq
    exact ⟨whole, after, .operand_plain other head tail, whole_eq, longer⟩
  case operand_unary taken sign_eq inner inner_ih =>
    exact operand_unary_resumes taken sign_eq inner inner_ih
  case selections_done other =>
    intro again longer same same_eq
    refine ⟨same, again, .selections_done ?_, same_eq, longer⟩
    exact longer.sees stops other fun stands ⟨noDot, noBracket, noParen⟩ =>
      ⟨fun sign_eq => noDot ((stands.punctuator?_iff (by decide)).mp sign_eq),
        fun sign_eq => noBracket ((stands.punctuator?_iff (by decide)).mp sign_eq),
        fun sign_eq => noParen ((stands.punctuator?_iff (by decide)).mp sign_eq)⟩
  case selections_named dot taken name_eq tail tail_ih =>
    exact selections_named_resumes dot taken name_eq tail tail_ih
  case selections_computed opens inside closes tail inside_ih tail_ih =>
    exact selections_computed_resumes opens inside closes tail inside_ih tail_ih
  case selections_call opens inside tail inside_ih tail_ih =>
    exact selections_call_resumes opens inside tail inside_ih tail_ih
  case arguments_nil closes =>
    intro again longer
    obtain ⟨after, closes, longer⟩ := longer.takesSign closes
    exact ⟨[], after, .arguments_nil closes, rfl, longer⟩
  case arguments_cons other head tail closes head_ih tail_ih =>
    exact arguments_cons_resumes stops other head tail closes head_ih tail_ih
  case primary_literal taken literal_eq =>
    intro again longer
    obtain ⟨same, after, taken, like, longer⟩ := longer.takes taken (isEnd_of_literal? literal_eq)
    exact ⟨_, _, .primary_literal taken (by rw [like.lexeme, literal_eq]), rfl, longer.made⟩
  case primary_identifier taken lexeme_eq =>
    intro again longer
    rw [← Token.identifier?_eq_some_iff] at lexeme_eq
    obtain ⟨same, after, taken, name_eq, longer⟩ := longer.takesIdentifier taken lexeme_eq
    exact ⟨_, _, .primary_identifier taken (Token.identifier?_eq_some_iff.mp name_eq), rfl,
      longer.made⟩
  case primary_this taken lexeme_eq =>
    intro again longer
    rw [← Token.keyword?_eq_some_iff] at lexeme_eq
    obtain ⟨same, after, taken, word_eq, longer⟩ := longer.takesKeyword taken lexeme_eq
    exact ⟨_, _, .primary_this taken (Token.keyword?_eq_some_iff.mp word_eq), rfl, longer.made⟩
  case primary_function taken lexeme_eq tail tail_ih =>
    intro again longer
    rw [← Token.keyword?_eq_some_iff] at lexeme_eq
    obtain ⟨same, start, taken, word_eq, longer⟩ := longer.takesKeyword taken lexeme_eq
    obtain ⟨whole, after, tail, whole_eq, longer⟩ := tail_ih start longer same.span.start
    exact ⟨whole, after, .primary_function taken (Token.keyword?_eq_some_iff.mp word_eq) tail,
      whole_eq, longer⟩
  case primary_parens opens inside closes inside_ih =>
    intro again longer
    obtain ⟨start, opens, longer⟩ := longer.takesSign opens
    obtain ⟨inner, stop, inside, inner_eq, longer⟩ := inside_ih start longer
    obtain ⟨after, closes, longer⟩ := longer.takesSign closes
    exact ⟨inner, after, .primary_parens opens inside closes, inner_eq, longer⟩
  case primary_array taken sign_eq inside inside_ih =>
    intro again longer
    obtain ⟨same, start, taken, sign_eq, longer⟩ := longer.takesPunctuator taken sign_eq
    obtain ⟨elements, after, inside, elements_eq, longer⟩ := inside_ih start longer
    refine ⟨_, _, .primary_array taken sign_eq inside, ?_, longer.made⟩
    exact congrArg (Expression.array default) elements_eq
  case primary_object taken sign_eq inside inside_ih =>
    intro again longer
    obtain ⟨same, start, taken, sign_eq, longer⟩ := longer.takesPunctuator taken sign_eq
    obtain ⟨properties, after, inside, properties_eq, longer⟩ := inside_ih start longer
    refine ⟨_, _, .primary_object taken sign_eq inside, ?_, longer.made⟩
    exact congrArg (Expression.object default) properties_eq
  case elements_nil closes =>
    intro again longer
    obtain ⟨after, closes, longer⟩ := longer.takesSign closes
    exact ⟨[], after, .elements_nil closes, rfl, longer⟩
  case elements_last other head closes head_ih =>
    intro again longer
    have other := longer.sees_ne stops (by decide) other
    obtain ⟨first, between, head, first_eq, longer⟩ := head_ih again longer
    obtain ⟨after, closes, longer⟩ := longer.takesSign closes
    refine ⟨[first], after, .elements_last other head closes, ?_, longer⟩
    exact congrArg (fun expression => [expression]) first_eq
  case elements_cons other head comma tail head_ih tail_ih =>
    exact elements_cons_resumes stops other head comma tail head_ih tail_ih
  case properties_nil closes =>
    intro again longer
    obtain ⟨after, closes, longer⟩ := longer.takesSign closes
    exact ⟨[], after, .properties_nil closes, rfl, longer⟩
  case properties_last other taken key_eq colon head closes head_ih =>
    exact properties_last_resumes stops other taken key_eq colon head closes head_ih
  case properties_cons other taken key_eq colon head comma tail head_ih tail_ih =>
    exact properties_cons_resumes stops other taken key_eq colon head comma tail head_ih tail_ih
  case functionRest origin _ _ _ named opens listed inside inside_ih =>
    exact functionRest_resumes stops origin named opens listed inside inside_ih
  case block taken sign_eq inside closes inside_ih =>
    intro again longer
    obtain ⟨same, start, taken, sign_eq, longer⟩ := longer.takesPunctuator taken sign_eq
    obtain ⟨listed, stop, inside, listed_eq, longer⟩ := inside_ih start longer
    obtain ⟨after, closes, longer⟩ := longer.takesSign closes
    refine ⟨_, _, .block taken sign_eq inside closes, ?_, longer.made⟩
    exact congrArg (Block.mk default) listed_eq
  case statements_skip semicolon tail tail_ih =>
    exact statements_skip_resumes semicolon tail tail_ih
  case statements_close closes =>
    intro again longer
    exact ⟨[], again, .statements_close (longer.sees_sign stops (by decide) closes), rfl, longer⟩
  case statements_end ends =>
    intro again longer
    obtain ⟨token, next_eq, last⟩ := ends
    exact ⟨longer.tokens_eq_nil next_eq last, [], again, rfl, .inl longer,
      fun rest last derived => derived⟩
  case statements_cons other head tail head_ih tail_ih =>
    exact statements_cons_resumes stops other head tail head_ih tail_ih
  case statement_block opens inside inside_ih =>
    intro again longer
    have opens := longer.sees_sign stops (by decide) opens
    obtain ⟨inner, after, inside, inner_eq, longer⟩ := inside_ih again longer
    exact ⟨.block inner, after, .statement_block opens inside, congrArg Statement.block inner_eq,
      .inl longer⟩
  case statement_declaration opens inside inside_ih =>
    intro again longer
    have opens := longer.sees_keyword stops opens
    obtain ⟨whole, after, inside, whole_eq, arrives⟩ := inside_ih again longer
    exact ⟨whole, after, .statement_declaration opens inside, whole_eq, arrives⟩
  case statement_conditional opens inside inside_ih =>
    intro again longer
    have opens := longer.sees_keyword stops opens
    obtain ⟨whole, after, inside, whole_eq, arrives⟩ := inside_ih again longer
    exact ⟨whole, after, .statement_conditional opens inside, whole_eq, arrives⟩
  case statement_loop opens inside inside_ih =>
    intro again longer
    have opens := longer.sees_keyword stops opens
    obtain ⟨whole, after, inside, whole_eq, arrives⟩ := inside_ih again longer
    exact ⟨whole, after, .statement_loop opens inside, whole_eq, arrives⟩
  case statement_expression opens inside inside_ih =>
    intro again longer
    have opens := longer.sees stops opens fun stands holds => by
      rw [stands.startsExpressionStatement_eq, holds]
    obtain ⟨whole, after, inside, whole_eq, arrives⟩ := inside_ih again longer
    exact ⟨whole, after, .statement_expression opens inside, whole_eq, arrives⟩
  case declaration kind _ taken inside ends inside_ih =>
    exact declaration_resumes stops kind taken inside ends inside_ih
  case initializer_none other =>
    intro again longer
    exact ⟨none, again, .initializer_none (longer.sees_ne stops (by decide) other), rfl, longer⟩
  case initializer_some sign inner inner_ih =>
    intro again longer
    obtain ⟨start, sign, longer⟩ := longer.takesSign sign
    obtain ⟨value, after, inner, value_eq, longer⟩ := inner_ih start longer
    exact ⟨some value, after, .initializer_some sign inner, congrArg some value_eq, longer⟩
  case declarators_last taken name_eq value other value_ih =>
    intro again longer
    obtain ⟨same, start, taken, name_eq, longer⟩ := longer.takesIdentifier taken name_eq
    obtain ⟨init, after, value, init_eq, longer⟩ := value_ih start longer
    refine ⟨_, _, .declarators_last taken name_eq value
      (longer.made.sees_ne stops (by decide) other), ?_, longer.made⟩
    exact congrArg (fun init => [Declarator.mk default _ init]) init_eq
  case declarators_cons taken name_eq value comma tail value_ih tail_ih =>
    exact declarators_cons_resumes taken name_eq value comma tail value_ih tail_ih
  case alternate_none other =>
    intro again longer
    have other := longer.sees stops other fun stands apart => by rwa [stands.keyword?_eq]
    exact ⟨none, again, .alternate_none other, rfl, .inl longer⟩
  case alternate_some taken word_eq inside inside_ih =>
    intro again longer
    obtain ⟨same, start, taken, word_eq, longer⟩ := longer.takesKeyword taken word_eq
    obtain ⟨inner, after, inside, inner_eq, arrives⟩ := inside_ih start longer
    exact ⟨some inner, after, .alternate_some taken word_eq inside, congrArg some inner_eq, arrives⟩
  case conditional taken word_eq opens inside closes first second inside_ih first_ih second_ih =>
    exact conditional_resumes stops taken word_eq opens inside closes first second inside_ih
      first_ih second_ih
  case loop taken word_eq opens inside closes repeated inside_ih repeated_ih =>
    exact loop_resumes taken word_eq opens inside closes repeated inside_ih repeated_ih
  case expressionStatement inside ends inside_ih =>
    intro again longer
    obtain ⟨inner, stop, inside, inner_eq, longer⟩ := inside_ih again longer
    obtain ⟨after, ends, arrives⟩ := longer.endsExpression stops inner_eq ends
    refine ⟨_, _, .expressionStatement inside ends, ?_, arrives.made⟩
    exact congrArg (Statement.expression default) inner_eq

/-- The statements of a whole program are read again up to the end of its own tokens. -/
theorem rereads_whole (stops : Stops behind) {state other later : State} {value : List Statement}
    (derived : Derives (.statements false) state value later)
    (longer : Extends behind state other) :
    later.tokens = [] ∧ ∃ again after, eraseStatements again = eraseStatements value ∧
      Arrives behind later after ∧ ∀ rest last, Derives (.statements false) after rest last →
        Derives (.statements false) other (again ++ rest) last :=
  rereads stops derived other longer

end Join

end Grammar
end Scriptlet
