import Scriptlet.Proofs.Grammar.Outcome

set_option autoImplicit false

/-!
One step of each rule: what a rule reads, when the rules that it goes to have read their part.
-/
namespace Scriptlet.Grammar

section

variable {steps : Nat} {s t u v w x y : State}

theorem isAt_of_sees {sign : Punctuator} (here : s.Sees (·.punctuator? = some sign)) :
    isAt sign s = .ok true s := by
  obtain ⟨token, next_eq, sign_eq⟩ := here
  exact isAt_ok.mpr ⟨⟨token, next_eq, by simpa using sign_eq⟩, rfl⟩

theorem isAt_of_sees_other {sign : Punctuator} (other : s.Sees (·.punctuator? ≠ some sign)) :
    isAt sign s = .ok false s := by
  obtain ⟨token, next_eq, sign_eq⟩ := other
  exact isAt_ok.mpr ⟨⟨token, next_eq, by simpa using sign_eq⟩, rfl⟩

theorem accept_of_takes {sign : Punctuator} (taken : TakesSign s sign t) :
    accept sign s = .ok true t :=
  accept_ok.mpr (.inl ⟨rfl, taken⟩)

theorem accept_of_sees_other {sign : Punctuator} (other : s.Sees (·.punctuator? ≠ some sign)) :
    accept sign s = .ok false s :=
  accept_ok.mpr (.inr ⟨rfl, other, rfl⟩)

/-- A sign that comes next is not another one. -/
theorem TakesSign.sees_other {sign other : Punctuator} (taken : TakesSign s sign t)
    (differ : sign ≠ other) : s.Sees (·.punctuator? ≠ some other) := by
  obtain ⟨token, taken, sign_eq⟩ := taken
  refine ⟨token, taken.1, fun same => differ ?_⟩
  rw [sign_eq, Option.some.injEq] at same
  exact same

theorem discard_take_of_takes {token : Token} (taken : Takes s token t) :
    (discard take) s = .ok () t :=
  discard_ok.mpr ⟨token, take_ok.mpr taken⟩

theorem expression_single {first : Expression} (head : assignment steps s = .ok first t)
    (other : t.Sees (·.punctuator? ≠ some .comma)) : expression (steps + 1) s = .ok first t := by
  simp only [expression, bind_ok]
  refine ⟨first, t, head, false, t, isAt_of_sees_other other, ?_⟩
  simp only [Bool.false_eq_true, ↓reduceIte, pure_ok, and_self]

theorem expression_several {first : Expression} {rest : List Expression}
    (head : assignment steps s = .ok first t) (comma : t.Sees (·.punctuator? = some .comma))
    (tail : sequenceRest steps t = .ok rest u) :
    expression (steps + 1) s = .ok
      (u.made (·.sequence (first :: rest) (u.spanSince first.span.start))).1
      (u.made (·.sequence (first :: rest) (u.spanSince first.span.start))).2 := by
  simp only [expression, bind_ok]
  refine ⟨first, t, head, true, t, isAt_of_sees comma, ?_⟩
  simp only [↓reduceIte, bind_ok, spanFrom_ok, make_ok]
  exact ⟨rest, u, tail, _, u, ⟨rfl, rfl⟩, rfl⟩

theorem sequenceRest_nil (other : s.Sees (·.punctuator? ≠ some .comma)) :
    sequenceRest (steps + 1) s = .ok [] s := by
  simp only [sequenceRest, bind_ok]
  refine ⟨false, s, accept_of_sees_other other, ?_⟩
  simp only [Bool.false_eq_true, ↓reduceIte, pure_ok, and_self]

theorem sequenceRest_cons {first : Expression} {rest : List Expression}
    (comma : TakesSign s .comma t) (head : assignment steps t = .ok first u)
    (tail : sequenceRest steps u = .ok rest v) :
    sequenceRest (steps + 1) s = .ok (first :: rest) v := by
  simp only [sequenceRest, bind_ok]
  refine ⟨true, t, accept_of_takes comma, ?_⟩
  simp only [↓reduceIte, bind_ok, pure_ok]
  exact ⟨first, u, head, rest, v, tail, rfl, rfl⟩

theorem assignment_plain {target : Expression} (inner : operation steps .logicalOr s = .ok target t)
    (other : t.Sees (fun token => ∀ operator : AssignmentOperator,
      token.punctuator? ≠ some operator.sign)) : assignment (steps + 1) s = .ok target t := by
  obtain ⟨token, next_eq, other⟩ := other
  have operator_eq : token.punctuator?.bind Punctuator.assignmentOperator? = none := by
    rw [Option.eq_none_iff_forall_ne_some]
    intro operator operator_eq
    exact other operator (bind_assignmentOperator?.mp operator_eq)
  simp only [assignment, bind_ok, peek_ok]
  refine ⟨target, t, inner, token, t, ⟨next_eq, rfl⟩, ?_⟩
  simp only [operator_eq, pure_ok, and_self]

theorem assignment_some {token : Token} {operator : AssignmentOperator} {target value : Expression}
    (left : operation steps .logicalOr s = .ok target t) (taken : Takes t token u)
    (sign_eq : token.punctuator? = some operator.sign) (assignable : target.isAssignable = true)
    (right : assignment steps u = .ok value v) :
    assignment (steps + 1) s = .ok (v.made (·.assignment operator target value)).1
      (v.made (·.assignment operator target value)).2 := by
  simp only [assignment, bind_ok, peek_ok]
  refine ⟨target, t, left, token, t, ⟨taken.1, rfl⟩, ?_⟩
  simp only [bind_assignmentOperator?.mpr sign_eq, assignable, ↓reduceIte, bind_ok, make_ok]
  exact ⟨(), u, discard_take_of_takes taken, value, v, right, rfl⟩

theorem operation_step {least : Precedence} {left whole : Expression}
    (head : operand steps s = .ok left t) (tail : operationRest steps least left t = .ok whole u) :
    operation (steps + 1) least s = .ok whole u := by
  simp only [operation, bind_ok]
  exact ⟨left, t, head, tail⟩

theorem operationRest_done {least : Precedence} {left : Expression}
    (other : s.Sees (fun token => ∀ operator : InfixOperator,
      token.punctuator? = some operator.sign → operator.precedence < least)) :
    operationRest (steps + 1) least left s = .ok left s := by
  obtain ⟨token, next_eq, other⟩ := other
  simp only [operationRest, bind_ok, peek_ok]
  refine ⟨token, s, ⟨next_eq, rfl⟩, ?_⟩
  cases operator_eq : token.punctuator?.bind Punctuator.infixOperator? with
  | none => simp only [pure_ok, and_self]
  | some operator =>
    simp only [other operator (bind_infixOperator?.mp operator_eq), ↓reduceIte, pure_ok, and_self]

theorem operationRest_more {least : Precedence} {left right whole : Expression} {token : Token}
    {operator : InfixOperator} (taken : Takes s token t)
    (sign_eq : token.punctuator? = some operator.sign) (strong : ¬ operator.precedence < least)
    (argument : operation steps operator.rightPrecedence t = .ok right u)
    (tail : operationRest steps least (u.made (·.infixed operator left right)).1
      (u.made (·.infixed operator left right)).2 = .ok whole v) :
    operationRest (steps + 1) least left s = .ok whole v := by
  simp only [operationRest, bind_ok, peek_ok]
  refine ⟨token, s, ⟨taken.1, rfl⟩, ?_⟩
  simp only [bind_infixOperator?.mpr sign_eq, strong, ↓reduceIte, bind_ok, make_ok]
  exact ⟨(), t, discard_take_of_takes taken, right, u, argument, _, _, rfl, tail⟩

theorem operand_plain {inner whole : Expression}
    (other : s.Sees (fun token => ∀ operator : UnaryOperator,
      token.punctuator? ≠ some operator.sign)) (head : primary steps s = .ok inner t)
    (tail : selections steps inner t = .ok whole u) : operand (steps + 1) s = .ok whole u := by
  obtain ⟨token, next_eq, other⟩ := other
  have operator_eq : token.punctuator?.bind Punctuator.unaryOperator? = none := by
    rw [Option.eq_none_iff_forall_ne_some]
    intro operator operator_eq
    exact other operator (bind_unaryOperator?.mp operator_eq)
  simp only [operand, bind_ok, peek_ok]
  refine ⟨token, s, ⟨next_eq, rfl⟩, ?_⟩
  simp only [operator_eq, bind_ok]
  exact ⟨inner, t, head, tail⟩

theorem operand_unary {token : Token} {operator : UnaryOperator} {argument : Expression}
    (taken : Takes s token t) (sign_eq : token.punctuator? = some operator.sign)
    (inner : operand steps t = .ok argument u) :
    operand (steps + 1) s = .ok
      (u.made (·.unary operator argument ⟨token.span.start, argument.span.stop⟩)).1
      (u.made (·.unary operator argument ⟨token.span.start, argument.span.stop⟩)).2 := by
  simp only [operand, bind_ok, peek_ok]
  refine ⟨token, s, ⟨taken.1, rfl⟩, ?_⟩
  simp only [bind_unaryOperator?.mpr sign_eq, bind_ok, take_ok, make_ok]
  exact ⟨token, t, taken, argument, u, inner, rfl⟩

theorem selections_done {inner : Expression}
    (other : s.Sees (fun token => token.punctuator? ≠ some .dot ∧
      token.punctuator? ≠ some .leftBracket ∧ token.punctuator? ≠ some .leftParen)) :
    selections (steps + 1) inner s = .ok inner s := by
  obtain ⟨token, next_eq, not_dot, not_bracket, not_paren⟩ := other
  simp only [selections, bind_ok, peek_ok]
  refine ⟨token, s, ⟨next_eq, rfl⟩, ?_⟩
  generalize token.punctuator? = sign? at not_dot not_bracket not_paren ⊢
  split
  · exact absurd rfl not_dot
  · exact absurd rfl not_bracket
  · exact absurd rfl not_paren
  · exact pure_ok.mpr ⟨rfl, rfl⟩

theorem selections_named {inner whole : Expression} {token : Token} {name : String}
    (dot : TakesSign s .dot t) (taken : Takes t token u) (name_eq : token.word? = some name)
    (tail : selections steps
      (u.made (·.member inner (.named name) (u.spanSince inner.span.start))).1
      (u.made (·.member inner (.named name) (u.spanSince inner.span.start))).2 = .ok whole v) :
    selections (steps + 1) inner s = .ok whole v := by
  obtain ⟨point, point_taken, sign_eq⟩ := dot
  simp only [selections, bind_ok, peek_ok]
  refine ⟨point, s, ⟨point_taken.1, rfl⟩, ?_⟩
  simp only [sign_eq, bind_ok, expectPropertyName_ok, spanFrom_ok, make_ok]
  exact ⟨(), t, discard_take_of_takes point_taken, name, u, ⟨token, taken, name_eq⟩, _, u,
    ⟨rfl, rfl⟩, _, _, rfl, tail⟩

theorem selections_computed {inner index whole : Expression} (opens : TakesSign s .leftBracket t)
    (inside : expression steps t = .ok index u) (closes : TakesSign u .rightBracket v)
    (tail : selections steps
      (v.made (·.member inner (.computed index) (v.spanSince inner.span.start))).1
      (v.made (·.member inner (.computed index) (v.spanSince inner.span.start))).2 = .ok whole w) :
    selections (steps + 1) inner s = .ok whole w := by
  obtain ⟨bracket, taken, sign_eq⟩ := opens
  simp only [selections, bind_ok, peek_ok]
  refine ⟨bracket, s, ⟨taken.1, rfl⟩, ?_⟩
  simp only [sign_eq, bind_ok, discard_expect_ok, spanFrom_ok, make_ok]
  exact ⟨(), t, discard_take_of_takes taken, index, u, inside, (), v, closes, _, v, ⟨rfl, rfl⟩, _,
    _, rfl, tail⟩

theorem selections_call {inner whole : Expression} {listed : List Expression}
    (opens : TakesSign s .leftParen t) (inside : arguments steps t = .ok listed u)
    (tail : selections steps (u.made (·.call inner listed (u.spanSince inner.span.start))).1
      (u.made (·.call inner listed (u.spanSince inner.span.start))).2 = .ok whole v) :
    selections (steps + 1) inner s = .ok whole v := by
  obtain ⟨paren, taken, sign_eq⟩ := opens
  simp only [selections, bind_ok, peek_ok]
  refine ⟨paren, s, ⟨taken.1, rfl⟩, ?_⟩
  simp only [sign_eq, bind_ok, spanFrom_ok, make_ok]
  exact ⟨(), t, discard_take_of_takes taken, listed, u, inside, _, u, ⟨rfl, rfl⟩, _, _, rfl, tail⟩

theorem arguments_nil (closes : TakesSign s .rightParen t) :
    arguments (steps + 1) s = .ok [] t := by
  simp only [arguments, bind_ok]
  refine ⟨true, t, accept_of_takes closes, ?_⟩
  simp only [↓reduceIte, pure_ok, and_self]

theorem arguments_cons {first : Expression} {rest : List Expression}
    (other : s.Sees (·.punctuator? ≠ some .rightParen)) (head : assignment steps s = .ok first t)
    (tail : sequenceRest steps t = .ok rest u) (closes : TakesSign u .rightParen v) :
    arguments (steps + 1) s = .ok (first :: rest) v := by
  simp only [arguments, bind_ok]
  refine ⟨false, s, accept_of_sees_other other, ?_⟩
  simp only [Bool.false_eq_true, ↓reduceIte, bind_ok, discard_expect_ok, pure_ok]
  exact ⟨first, t, head, rest, u, tail, (), v, closes, rfl, rfl⟩

theorem primary_literal {token : Token} {value : Literal} (taken : Takes s token t)
    (literal_eq : literal? token.lexeme = some value) :
    primary (steps + 1) s = .ok (t.made (·.literal value token.span)).1
      (t.made (·.literal value token.span)).2 := by
  simp only [primary, bind_ok, take_ok]
  refine ⟨token, t, taken, ?_⟩
  generalize token.lexeme = lexeme at literal_eq
  cases lexeme <;> cases literal_eq <;> rfl

theorem primary_identifier {token : Token} {name : String} (taken : Takes s token t)
    (lexeme_eq : token.lexeme = .identifier name) :
    primary (steps + 1) s = .ok (t.made (·.identifier name token.span)).1
      (t.made (·.identifier name token.span)).2 := by
  simp only [primary, bind_ok, take_ok]
  refine ⟨token, t, taken, ?_⟩
  simp only [lexeme_eq]
  rfl

theorem primary_this {token : Token} (taken : Takes s token t)
    (lexeme_eq : token.lexeme = .keyword .thisWord) :
    primary (steps + 1) s =
      .ok (t.made (·.this token.span)).1 (t.made (·.this token.span)).2 := by
  simp only [primary, bind_ok, take_ok]
  refine ⟨token, t, taken, ?_⟩
  simp only [lexeme_eq]
  rfl

theorem primary_function {token : Token} {whole : Expression} (taken : Takes s token t)
    (lexeme_eq : token.lexeme = .keyword .functionWord)
    (tail : functionRest steps token.span.start t = .ok whole u) :
    primary (steps + 1) s = .ok whole u := by
  simp only [primary, bind_ok, take_ok]
  refine ⟨token, t, taken, ?_⟩
  simp only [lexeme_eq]
  exact tail

theorem primary_parens {inner : Expression} (opens : TakesSign s .leftParen t)
    (inside : expression steps t = .ok inner u) (closes : TakesSign u .rightParen v) :
    primary (steps + 1) s = .ok inner v := by
  obtain ⟨paren, taken, sign_eq⟩ := opens
  simp only [primary, bind_ok, take_ok]
  refine ⟨paren, t, taken, ?_⟩
  simp only [Token.punctuator?_eq_some_iff.mp sign_eq, bind_ok, discard_expect_ok, pure_ok]
  exact ⟨inner, u, inside, (), v, closes, rfl, rfl⟩

theorem primary_array {token : Token} {listed : List Expression} (taken : Takes s token t)
    (sign_eq : token.punctuator? = some .leftBracket) (inside : elements steps t = .ok listed u) :
    primary (steps + 1) s = .ok (u.made (·.array listed (u.spanSince token.span.start))).1
      (u.made (·.array listed (u.spanSince token.span.start))).2 := by
  simp only [primary, bind_ok, take_ok]
  refine ⟨token, t, taken, ?_⟩
  simp only [Token.punctuator?_eq_some_iff.mp sign_eq, bind_ok, spanFrom_ok, make_ok]
  exact ⟨listed, u, inside, _, u, ⟨rfl, rfl⟩, rfl⟩

theorem primary_object {token : Token} {listed : List ObjectProperty} (taken : Takes s token t)
    (sign_eq : token.punctuator? = some .leftBrace) (inside : properties steps t = .ok listed u) :
    primary (steps + 1) s = .ok (u.made (·.object listed (u.spanSince token.span.start))).1
      (u.made (·.object listed (u.spanSince token.span.start))).2 := by
  simp only [primary, bind_ok, take_ok]
  refine ⟨token, t, taken, ?_⟩
  simp only [Token.punctuator?_eq_some_iff.mp sign_eq, bind_ok, spanFrom_ok, make_ok]
  exact ⟨listed, u, inside, _, u, ⟨rfl, rfl⟩, rfl⟩

theorem elements_nil (closes : TakesSign s .rightBracket t) :
    elements (steps + 1) s = .ok [] t := by
  simp only [elements, bind_ok]
  refine ⟨true, t, accept_of_takes closes, ?_⟩
  simp only [↓reduceIte, pure_ok, and_self]

theorem elements_last {first : Expression} (other : s.Sees (·.punctuator? ≠ some .rightBracket))
    (head : assignment steps s = .ok first t) (closes : TakesSign t .rightBracket u) :
    elements (steps + 1) s = .ok [first] u := by
  simp only [elements, bind_ok]
  refine ⟨false, s, accept_of_sees_other other, ?_⟩
  simp only [Bool.false_eq_true, ↓reduceIte, bind_ok]
  refine ⟨first, t, head, false, t, accept_of_sees_other (closes.sees_other nofun), ?_⟩
  simp only [Bool.false_eq_true, ↓reduceIte, bind_ok, discard_expect_ok, pure_ok]
  exact ⟨(), u, closes, trivial, rfl⟩

theorem elements_cons {first : Expression} {rest : List Expression}
    (other : s.Sees (·.punctuator? ≠ some .rightBracket)) (head : assignment steps s = .ok first t)
    (comma : TakesSign t .comma u) (tail : elements steps u = .ok rest v) :
    elements (steps + 1) s = .ok (first :: rest) v := by
  simp only [elements, bind_ok]
  refine ⟨false, s, accept_of_sees_other other, ?_⟩
  simp only [Bool.false_eq_true, ↓reduceIte, bind_ok]
  refine ⟨first, t, head, true, u, accept_of_takes comma, ?_⟩
  simp only [↓reduceIte, bind_ok, pure_ok]
  exact ⟨rest, v, tail, rfl, rfl⟩

theorem properties_nil (closes : TakesSign s .rightBrace t) :
    properties (steps + 1) s = .ok [] t := by
  simp only [properties, bind_ok]
  refine ⟨true, t, accept_of_takes closes, ?_⟩
  simp only [↓reduceIte, pure_ok, and_self]

theorem properties_last {token : Token} {key : String} {value : Expression}
    (other : s.Sees (·.punctuator? ≠ some .rightBrace)) (taken : Takes s token t)
    (key_eq : propertyKey? token = some key) (colon : TakesSign t .colon u)
    (head : assignment steps u = .ok value v) (closes : TakesSign v .rightBrace w) :
    properties (steps + 1) s = .ok [.mk key value (v.spanSince token.span.start)] w := by
  simp only [properties, bind_ok]
  refine ⟨false, s, accept_of_sees_other other, ?_⟩
  simp only [Bool.false_eq_true, ↓reduceIte, bind_ok, take_ok]
  refine ⟨token, t, taken, ?_⟩
  simp only [key_eq, bind_ok, discard_expect_ok, spanFrom_ok]
  refine ⟨(), u, colon, value, v, head, _, v, ⟨rfl, rfl⟩, false, v,
    accept_of_sees_other (closes.sees_other nofun), ?_⟩
  simp only [Bool.false_eq_true, ↓reduceIte, bind_ok, discard_expect_ok, pure_ok]
  exact ⟨(), w, closes, trivial, rfl⟩

theorem properties_cons {token : Token} {key : String} {value : Expression}
    {rest : List ObjectProperty} (other : s.Sees (·.punctuator? ≠ some .rightBrace))
    (taken : Takes s token t) (key_eq : propertyKey? token = some key)
    (colon : TakesSign t .colon u) (head : assignment steps u = .ok value v)
    (comma : TakesSign v .comma w) (tail : properties steps w = .ok rest x) :
    properties (steps + 1) s = .ok (.mk key value (v.spanSince token.span.start) :: rest) x := by
  simp only [properties, bind_ok]
  refine ⟨false, s, accept_of_sees_other other, ?_⟩
  simp only [Bool.false_eq_true, ↓reduceIte, bind_ok, take_ok]
  refine ⟨token, t, taken, ?_⟩
  simp only [key_eq, bind_ok, discard_expect_ok, spanFrom_ok]
  refine ⟨(), u, colon, value, v, head, _, v, ⟨rfl, rfl⟩, true, w, accept_of_takes comma, ?_⟩
  simp only [↓reduceIte, bind_ok, pure_ok]
  exact ⟨rest, x, tail, rfl, rfl⟩

theorem functionRest_step {start : Nat} {name : Option String} {params : List String} {body : Block}
    (named : TakesName s name t) (opens : TakesSign t .leftParen u)
    (listed : parameterList steps u = .ok params v) (inside : block steps v = .ok body w) :
    functionRest (steps + 1) start s = .ok
      (w.made (·.function name params body (w.spanSince start))).1
      (w.made (·.function name params body (w.spanSince start))).2 := by
  simp only [functionRest_eq, bind_ok, functionName_ok, discard_expect_ok, spanFrom_ok, make_ok]
  exact ⟨name, t, named, (), u, opens, params, v, listed, body, w, inside, _, w, ⟨rfl, rfl⟩, rfl⟩

theorem block_step {token : Token} {listed : List Statement} (taken : Takes s token t)
    (sign_eq : token.punctuator? = some .leftBrace)
    (inside : statements steps true t = .ok listed u) (closes : TakesSign u .rightBrace v) :
    block (steps + 1) s = .ok (v.made (·.block listed (v.spanSince token.span.start))).1
      (v.made (·.block listed (v.spanSince token.span.start))).2 := by
  simp only [block, bind_ok, expect_ok, discard_expect_ok, spanFrom_ok, make_ok]
  exact ⟨token, t, ⟨taken, sign_eq⟩, listed, u, inside, (), v, closes, _, v, ⟨rfl, rfl⟩, rfl⟩

theorem statements_skip {inBlock : Bool} {listed : List Statement}
    (semicolon : TakesSign s .semicolon t) (tail : statements steps inBlock t = .ok listed u) :
    statements (steps + 1) inBlock s = .ok listed u := by
  simp only [statements, bind_ok]
  refine ⟨true, t, accept_of_takes semicolon, ?_⟩
  simp only [↓reduceIte]
  exact tail

theorem statements_close (closes : s.Sees (·.punctuator? = some .rightBrace)) :
    statements (steps + 1) true s = .ok [] s := by
  obtain ⟨token, next_eq, sign_eq⟩ := closes
  simp only [statements, bind_ok]
  refine ⟨false, s, accept_of_sees_other ⟨token, next_eq, by simp [sign_eq]⟩, ?_⟩
  simp only [Bool.false_eq_true, ↓reduceIte, bind_ok, peek_ok]
  refine ⟨token, s, ⟨next_eq, rfl⟩, ?_⟩
  simp only [sign_eq, BEq.rfl, Bool.and_self, ↓reduceIte, pure_ok, and_self]

theorem statements_end (ends : s.Sees (·.isEnd = true)) :
    statements (steps + 1) false s = .ok [] s := by
  obtain ⟨token, next_eq, isEnd⟩ := ends
  have signless : token.punctuator? ≠ some .semicolon := by
    rw [Ne, Token.punctuator?_eq_some_iff]
    intro lexeme_eq
    simp [Token.isEnd, lexeme_eq] at isEnd
  simp only [statements, bind_ok]
  refine ⟨false, s, accept_of_sees_other ⟨token, next_eq, signless⟩, ?_⟩
  simp only [Bool.false_eq_true, ↓reduceIte, bind_ok, peek_ok]
  refine ⟨token, s, ⟨next_eq, rfl⟩, ?_⟩
  simp only [Bool.false_and, Bool.false_eq_true, ↓reduceIte, isEnd, pure_ok, and_self]

theorem statements_cons {inBlock : Bool} {first : Statement} {rest : List Statement}
    (other : s.Sees (fun token => token.punctuator? ≠ some .semicolon ∧ token.isEnd = false ∧
      (inBlock = true → token.punctuator? ≠ some .rightBrace)))
    (head : statement steps s = .ok first t) (tail : statements steps inBlock t = .ok rest u) :
    statements (steps + 1) inBlock s = .ok (first :: rest) u := by
  obtain ⟨token, next_eq, signless, going, inside⟩ := other
  have open_eq : (inBlock && token.punctuator? == some .rightBrace) = false := by
    simpa using inside
  simp only [statements, bind_ok]
  refine ⟨false, s, accept_of_sees_other ⟨token, next_eq, signless⟩, ?_⟩
  simp only [Bool.false_eq_true, ↓reduceIte, bind_ok, peek_ok]
  refine ⟨token, s, ⟨next_eq, rfl⟩, ?_⟩
  simp only [open_eq, going, Bool.false_eq_true, ↓reduceIte, bind_ok, pure_ok]
  exact ⟨first, t, head, rest, u, tail, rfl, rfl⟩

theorem statement_block {inner : Block} (opens : s.Sees (·.punctuator? = some .leftBrace))
    (inside : block steps s = .ok inner t) : statement (steps + 1) s = .ok (.block inner) t := by
  obtain ⟨token, next_eq, sign_eq⟩ := opens
  simp only [statement, bind_ok, peek_ok]
  refine ⟨token, s, ⟨next_eq, rfl⟩, ?_⟩
  simp only [Token.punctuator?_eq_some_iff.mp sign_eq, map_ok]
  exact ⟨inner, inside, rfl⟩

theorem statement_declaration {kind : VariableKind} {whole : Statement}
    (opens : s.Sees (·.lexeme = .keyword kind.keyword))
    (inside : declaration steps kind s = .ok whole t) : statement (steps + 1) s = .ok whole t := by
  obtain ⟨token, next_eq, lexeme_eq⟩ := opens
  simp only [statement, bind_ok, peek_ok]
  refine ⟨token, s, ⟨next_eq, rfl⟩, ?_⟩
  rw [lexeme_eq]
  cases kind <;> exact inside

theorem statement_conditional {whole : Statement} (opens : s.Sees (·.lexeme = .keyword .ifWord))
    (inside : conditional steps s = .ok whole t) : statement (steps + 1) s = .ok whole t := by
  obtain ⟨token, next_eq, lexeme_eq⟩ := opens
  simp only [statement, bind_ok, peek_ok]
  refine ⟨token, s, ⟨next_eq, rfl⟩, ?_⟩
  rw [lexeme_eq]
  exact inside

theorem statement_loop {whole : Statement} (opens : s.Sees (·.lexeme = .keyword .whileWord))
    (inside : loop steps s = .ok whole t) : statement (steps + 1) s = .ok whole t := by
  obtain ⟨token, next_eq, lexeme_eq⟩ := opens
  simp only [statement, bind_ok, peek_ok]
  refine ⟨token, s, ⟨next_eq, rfl⟩, ?_⟩
  rw [lexeme_eq]
  exact inside

theorem statement_expression {whole : Statement}
    (opens : s.Sees (startsExpressionStatement ·.lexeme = true))
    (inside : expressionStatement steps s = .ok whole t) :
    statement (steps + 1) s = .ok whole t := by
  obtain ⟨token, next_eq, starts⟩ := opens
  simp only [statement, bind_ok, peek_ok]
  refine ⟨token, s, ⟨next_eq, rfl⟩, ?_⟩
  generalize token.lexeme = lexeme at starts
  split
  case h_7 | h_8 | h_11 => exact inside
  case h_10 not_var not_let not_const not_if not_while not_function not_this not_else =>
    simp only [startsExpressionStatement, Bool.or_eq_true, beq_iff_eq] at starts
    rcases starts with rfl | rfl
    · exact absurd rfl not_function
    · exact absurd rfl not_this
  all_goals cases starts

theorem declaration_step {token : Token} {kind : VariableKind} {declared : List Declarator}
    (taken : Takes s token t) (inside : declarators steps t = .ok declared u)
    (ends : EndsStatement u v) :
    declaration (steps + 1) kind s = .ok
      (v.made (·.declaration kind declared (v.spanSince token.span.start))).1
      (v.made (·.declaration kind declared (v.spanSince token.span.start))).2 := by
  simp only [declaration, bind_ok, take_ok, endStatement_ok, spanFrom_ok, make_ok]
  exact ⟨token, t, taken, declared, u, inside, (), v, ends, _, v, ⟨rfl, rfl⟩, rfl⟩

theorem initializer_none (other : s.Sees (·.punctuator? ≠ some .assign)) :
    initializer steps s = .ok none s := by
  simp only [initializer, bind_ok]
  refine ⟨false, s, accept_of_sees_other other, ?_⟩
  simp only [Bool.false_eq_true, ↓reduceIte, pure_ok, and_self]

theorem initializer_some {value : Expression} (sign : TakesSign s .assign t)
    (inner : assignment steps t = .ok value u) : initializer steps s = .ok (some value) u := by
  simp only [initializer, bind_ok]
  refine ⟨true, t, accept_of_takes sign, ?_⟩
  simp only [↓reduceIte, map_ok]
  exact ⟨value, inner, rfl⟩

theorem declarators_last {token : Token} {name : String} {init : Option Expression}
    (taken : Takes s token t) (name_eq : token.identifier? = some name)
    (value : initializer steps t = .ok init u)
    (other : (u.made (·.declarator name init (u.spanSince token.span.start))).2.Sees
      (·.punctuator? ≠ some .comma)) :
    declarators (steps + 1) s = .ok
      [(u.made (·.declarator name init (u.spanSince token.span.start))).1]
      (u.made (·.declarator name init (u.spanSince token.span.start))).2 := by
  simp only [declarators_eq, bind_ok, expectIdentifier_ok, spanFrom_ok, make_ok]
  refine ⟨(name, token.span), t, ⟨token, taken, name_eq, rfl⟩, init, u, value, _, u, ⟨rfl, rfl⟩, _,
    _, rfl, false, _, accept_of_sees_other other, ?_⟩
  simp only [Bool.false_eq_true, ↓reduceIte, pure_ok]
  exact ⟨rfl, rfl⟩

theorem declarators_cons {token : Token} {name : String} {init : Option Expression}
    {rest : List Declarator} (taken : Takes s token t) (name_eq : token.identifier? = some name)
    (value : initializer steps t = .ok init u)
    (comma : TakesSign (u.made (·.declarator name init (u.spanSince token.span.start))).2 .comma v)
    (tail : declarators steps v = .ok rest w) :
    declarators (steps + 1) s = .ok
      ((u.made (·.declarator name init (u.spanSince token.span.start))).1 :: rest) w := by
  simp only [declarators_eq, bind_ok, expectIdentifier_ok, spanFrom_ok, make_ok]
  refine ⟨(name, token.span), t, ⟨token, taken, name_eq, rfl⟩, init, u, value, _, u, ⟨rfl, rfl⟩, _,
    _, rfl, true, v, accept_of_takes comma, ?_⟩
  simp only [↓reduceIte, bind_ok, pure_ok]
  exact ⟨rest, w, tail, rfl, rfl⟩

theorem alternate_none (other : s.Sees (·.keyword? ≠ some .elseWord)) :
    alternate steps s = .ok none s := by
  obtain ⟨token, next_eq, other⟩ := other
  have other : (token.keyword? == some .elseWord) = false := by simpa using other
  simp only [alternate, bind_ok, peek_ok]
  refine ⟨token, s, ⟨next_eq, rfl⟩, ?_⟩
  simp only [other, Bool.false_eq_true, ↓reduceIte, pure_ok, and_self]

theorem alternate_some {token : Token} {inner : Statement} (taken : Takes s token t)
    (word_eq : token.keyword? = some .elseWord) (inside : statement steps t = .ok inner u) :
    alternate steps s = .ok (some inner) u := by
  simp only [alternate, bind_ok, peek_ok]
  refine ⟨token, s, ⟨taken.1, rfl⟩, ?_⟩
  simp only [word_eq, BEq.rfl, ↓reduceIte, bind_ok, map_ok]
  exact ⟨(), t, discard_take_of_takes taken, inner, inside, rfl⟩

theorem conditional_step {token : Token} {condition : Expression} {consequent : Statement}
    {second : Option Statement} (taken : Takes s token t)
    (word_eq : token.keyword? = some .ifWord) (opens : TakesSign t .leftParen u)
    (inside : expression steps u = .ok condition v) (closes : TakesSign v .rightParen w)
    (first : statement steps w = .ok consequent x) (last : alternate steps x = .ok second y) :
    conditional (steps + 1) s = .ok
      (y.made (·.conditional condition consequent second (y.spanSince token.span.start))).1
      (y.made (·.conditional condition consequent second (y.spanSince token.span.start))).2 := by
  simp only [conditional_eq, bind_ok, expectKeyword_ok, discard_expect_ok, spanFrom_ok, make_ok]
  exact ⟨token, t, ⟨taken, word_eq⟩, (), u, opens, condition, v, inside, (), w, closes, consequent,
    x, first, second, y, last, _, y, ⟨rfl, rfl⟩, rfl⟩

theorem loop_step {token : Token} {test : Expression} {body : Statement} (taken : Takes s token t)
    (word_eq : token.keyword? = some .whileWord) (opens : TakesSign t .leftParen u)
    (inside : expression steps u = .ok test v) (closes : TakesSign v .rightParen w)
    (repeated : statement steps w = .ok body x) :
    loop (steps + 1) s = .ok (x.made (·.loop test body (x.spanSince token.span.start))).1
      (x.made (·.loop test body (x.spanSince token.span.start))).2 := by
  simp only [loop, bind_ok, expectKeyword_ok, discard_expect_ok, spanFrom_ok, make_ok]
  exact ⟨token, t, ⟨taken, word_eq⟩, (), u, opens, test, v, inside, (), w, closes, body, x,
    repeated, _, x, ⟨rfl, rfl⟩, rfl⟩

theorem expressionStatement_step {inner : Expression} (inside : expression steps s = .ok inner t)
    (ends : if inner.isFunction then Accepts t .semicolon u else EndsStatement t u) :
    expressionStatement (steps + 1) s = .ok
      (u.made (·.expression inner (u.spanSince inner.span.start))).1
      (u.made (·.expression inner (u.spanSince inner.span.start))).2 := by
  simp only [expressionStatement_eq, bind_ok, endExpression_ok, spanFrom_ok, make_ok]
  exact ⟨inner, t, inside, (), u, ends, _, u, ⟨rfl, rfl⟩, rfl⟩

end

end Scriptlet.Grammar
