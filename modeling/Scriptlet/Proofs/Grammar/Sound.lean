import Scriptlet.Proofs.Grammar.Outcome

set_option autoImplicit false

/-!
What a rule reads is what the grammar derives (`sound`).
-/
namespace Scriptlet.Grammar

theorem parameters_sound {steps : Nat} {state later : State} {names : List String}
    (read_eq : parameters steps state = .ok names later) : TakesParameters state names later := by
  induction steps generalizing state names with
  | zero => exact absurd read_eq throw_ok
  | succ steps inductive_hypothesis =>
    simp only [parameters, bind_ok, expectIdentifier_ok, accept_ok] at read_eq
    obtain ⟨⟨name, span⟩, named, ⟨token, taken, name_eq, _⟩, comma, between, accepted, rest⟩ :=
      read_eq
    rcases accepted with ⟨rfl, accepted⟩ | ⟨rfl, other, rfl⟩
    · simp only [↓reduceIte, bind_ok, pure_ok] at rest
      obtain ⟨names, _, rest_eq, rfl, rfl⟩ := rest
      exact .more taken name_eq accepted (inductive_hypothesis rest_eq)
    · simp only [Bool.false_eq_true, ↓reduceIte, pure_ok] at rest
      obtain ⟨rfl, rfl⟩ := rest
      exact .last taken name_eq other

theorem parameterList_sound {steps : Nat} {state later : State} {names : List String}
    (read_eq : parameterList steps state = .ok names later) :
    TakesParameterList state names later := by
  simp only [parameterList, bind_ok, accept_ok] at read_eq
  obtain ⟨closed, between, (⟨rfl, taken⟩ | ⟨rfl, other, rfl⟩), rest⟩ := read_eq
  · simp only [↓reduceIte, pure_ok] at rest
    obtain ⟨rfl, rfl⟩ := rest
    exact .inl ⟨taken, rfl⟩
  · simp only [Bool.false_eq_true, ↓reduceIte, bind_ok, discard_expect_ok, pure_ok] at rest
    obtain ⟨names, named, names_eq, _, _, closes, rfl, rfl⟩ := rest
    exact .inr ⟨other, named, parameters_sound names_eq, closes⟩

def Form.rule {α : Type} : Form α → Nat → Rule α
  | .expression => Grammar.expression
  | .sequenceRest => Grammar.sequenceRest
  | .assignment => Grammar.assignment
  | .operation least => fun steps => Grammar.operation steps least
  | .operationRest least left => fun steps => Grammar.operationRest steps least left
  | .operand => Grammar.operand
  | .selections inner => fun steps => Grammar.selections steps inner
  | .arguments => Grammar.arguments
  | .primary => Grammar.primary
  | .elements => Grammar.elements
  | .properties => Grammar.properties
  | .functionRest start => fun steps => Grammar.functionRest steps start
  | .block => Grammar.block
  | .statements inBlock => fun steps => Grammar.statements steps inBlock
  | .statement => Grammar.statement
  | .declaration kind => fun steps => Grammar.declaration steps kind
  | .initializer => Grammar.initializer
  | .declarators => Grammar.declarators
  | .alternate => Grammar.alternate
  | .conditional => Grammar.conditional
  | .loop => Grammar.loop
  | .expressionStatement => Grammar.expressionStatement

/-- What rules with a number of steps read is derived. -/
def Sound (steps : Nat) : Prop :=
  ∀ {α : Type} (form : Form α) {state later : State} {value : α},
    form.rule steps state = .ok value later → Derives form state value later

section Steps

variable {steps : Nat} {s t : State}

theorem expression_sound (sound : Sound steps) {value : Expression}
    (read_eq : expression (steps + 1) s = .ok value t) : Derives .expression s value t := by
  simp only [expression, bind_ok, isAt_ok] at read_eq
  obtain ⟨first, u, head, comma, _, ⟨⟨token, next_eq, rfl⟩, rfl⟩, rest⟩ := read_eq
  have head := sound .assignment head
  split at rest
  · rename_i sign_eq
    simp only [bind_ok, spanFrom_ok, make_ok] at rest
    obtain ⟨tail, v, tail_eq, _, _, ⟨rfl, rfl⟩, made_eq⟩ := rest
    have derived := Derives.expression_several head ⟨token, next_eq, by simpa using sign_eq⟩
      (sound .sequenceRest tail_eq)
    rwa [made_eq] at derived
  · rename_i other
    rw [pure_ok] at rest
    obtain ⟨rfl, rfl⟩ := rest
    exact .expression_single head ⟨token, next_eq, by simpa using other⟩

theorem sequenceRest_sound (sound : Sound steps) {value : List Expression}
    (read_eq : sequenceRest (steps + 1) s = .ok value t) : Derives .sequenceRest s value t := by
  simp only [sequenceRest, bind_ok, accept_ok] at read_eq
  obtain ⟨comma, u, (⟨rfl, taken⟩ | ⟨rfl, other, rfl⟩), rest⟩ := read_eq
  · simp only [↓reduceIte, bind_ok, pure_ok] at rest
    obtain ⟨first, v, head, tail, w, tail_eq, rfl, rfl⟩ := rest
    exact .sequenceRest_cons taken (sound .assignment head) (sound .sequenceRest tail_eq)
  · simp only [Bool.false_eq_true, ↓reduceIte, pure_ok] at rest
    obtain ⟨rfl, rfl⟩ := rest
    exact .sequenceRest_nil other

/-- A token that was looked at is the one that is taken. -/
theorem discard_take_ok {token : Token} {value : Unit} (next_eq : s.next = .ok token) :
    (discard take) s = .ok value t ↔ Takes s token t := by
  simp only [discard_ok, take_ok]
  constructor
  · rintro ⟨taken, takes⟩
    have := takes.1
    rw [next_eq, Except.ok.injEq] at this
    exact this ▸ takes
  · intro takes
    exact ⟨token, takes⟩

theorem assignment_sound (sound : Sound steps) {value : Expression}
    (read_eq : assignment (steps + 1) s = .ok value t) : Derives .assignment s value t := by
  simp only [assignment, bind_ok, peek_ok] at read_eq
  obtain ⟨target, u, target_eq, token, _, ⟨next_eq, rfl⟩, rest⟩ := read_eq
  have target_derived := sound (.operation .logicalOr) target_eq
  cases operator_eq : token.punctuator?.bind Punctuator.assignmentOperator? with
  | none =>
    simp only [operator_eq, pure_ok] at rest
    obtain ⟨rfl, rfl⟩ := rest
    refine .assignment_plain target_derived ⟨token, next_eq, fun operator sign_eq => ?_⟩
    rw [bind_assignmentOperator?.mpr sign_eq] at operator_eq
    cases operator_eq
  | some operator =>
    simp only [operator_eq] at rest
    split at rest
    · rename_i assignable
      simp only [bind_ok, discard_take_ok next_eq, make_ok] at rest
      obtain ⟨_, v, taken, right, w, right_eq, made_eq⟩ := rest
      have derived := Derives.assignment_some target_derived taken
        (bind_assignmentOperator?.mp operator_eq) assignable (sound .assignment right_eq)
      rwa [made_eq] at derived
    · exact absurd rest reject_ok

theorem operation_sound (sound : Sound steps) {least : Precedence} {value : Expression}
    (read_eq : operation (steps + 1) least s = .ok value t) :
    Derives (.operation least) s value t := by
  simp only [operation, bind_ok] at read_eq
  obtain ⟨left, u, left_eq, rest⟩ := read_eq
  exact .operation (sound .operand left_eq) (sound (.operationRest least left) rest)

theorem operationRest_sound (sound : Sound steps) {least : Precedence} {left value : Expression}
    (read_eq : operationRest (steps + 1) least left s = .ok value t) :
    Derives (.operationRest least left) s value t := by
  simp only [operationRest, bind_ok, peek_ok] at read_eq
  obtain ⟨token, _, ⟨next_eq, rfl⟩, rest⟩ := read_eq
  cases operator_eq : token.punctuator?.bind Punctuator.infixOperator? with
  | none =>
    simp only [operator_eq, pure_ok] at rest
    obtain ⟨rfl, rfl⟩ := rest
    refine .operationRest_done ⟨token, next_eq, fun operator sign_eq => ?_⟩
    rw [bind_infixOperator?.mpr sign_eq] at operator_eq
    cases operator_eq
  | some operator =>
    simp only [operator_eq] at rest
    split at rest
    · rename_i weak
      rw [pure_ok] at rest
      obtain ⟨rfl, rfl⟩ := rest
      refine .operationRest_done ⟨token, next_eq, fun other sign_eq => ?_⟩
      rw [bind_infixOperator?.mpr sign_eq] at operator_eq
      cases operator_eq
      exact weak
    · rename_i strong
      simp only [bind_ok, discard_take_ok next_eq, make_ok] at rest
      obtain ⟨_, u, taken, right, v, right_eq, whole, w, made_eq, rest⟩ := rest
      have tail := sound (.operationRest least whole) rest
      refine .operationRest_more taken (bind_infixOperator?.mp operator_eq) strong
        (sound (.operation operator.rightPrecedence) right_eq) ?_
      rwa [made_eq]

theorem operand_sound (sound : Sound steps) {value : Expression}
    (read_eq : operand (steps + 1) s = .ok value t) : Derives .operand s value t := by
  simp only [operand, bind_ok, peek_ok] at read_eq
  obtain ⟨token, _, ⟨next_eq, rfl⟩, rest⟩ := read_eq
  cases operator_eq : token.punctuator?.bind Punctuator.unaryOperator? with
  | none =>
    simp only [operator_eq, bind_ok] at rest
    obtain ⟨inner, u, inner_eq, rest⟩ := rest
    refine .operand_plain ⟨token, next_eq, fun operator sign_eq => ?_⟩ (sound .primary inner_eq)
      (sound (.selections inner) rest)
    rw [bind_unaryOperator?.mpr sign_eq] at operator_eq
    cases operator_eq
  | some operator =>
    simp only [operator_eq, bind_ok, take_ok, make_ok] at rest
    obtain ⟨taken, u, takes, argument, v, argument_eq, made_eq⟩ := rest
    have same : taken = token := by
      have := takes.1
      rw [next_eq, Except.ok.injEq] at this
      exact this.symm
    subst same
    have derived := Derives.operand_unary takes (bind_unaryOperator?.mp operator_eq)
      (sound .operand argument_eq)
    rwa [made_eq] at derived

theorem selections_sound (sound : Sound steps) {inner value : Expression}
    (read_eq : selections (steps + 1) inner s = .ok value t) :
    Derives (.selections inner) s value t := by
  simp only [selections, bind_ok, peek_ok] at read_eq
  obtain ⟨token, _, ⟨next_eq, rfl⟩, rest⟩ := read_eq
  generalize sign_eq : token.punctuator? = sign? at rest
  split at rest
  · simp only [bind_ok, discard_take_ok next_eq, expectPropertyName_ok, spanFrom_ok,
      make_ok] at rest
    obtain ⟨_, u, dot, name, v, ⟨named, taken, name_eq⟩, _, _, ⟨rfl, rfl⟩, whole, w, made_eq,
      rest⟩ := rest
    have tail := sound (.selections whole) rest
    refine .selections_named ⟨token, dot, sign_eq⟩ taken name_eq ?_
    rwa [made_eq]
  · simp only [bind_ok, discard_take_ok next_eq, discard_expect_ok, spanFrom_ok, make_ok] at rest
    obtain ⟨_, u, opens, index, v, index_eq, _, w, closes, _, _, ⟨rfl, rfl⟩, whole, x, made_eq,
      rest⟩ := rest
    have tail := sound (.selections whole) rest
    refine .selections_computed ⟨token, opens, sign_eq⟩ (sound .expression index_eq) closes ?_
    rwa [made_eq]
  · simp only [bind_ok, discard_take_ok next_eq, spanFrom_ok, make_ok] at rest
    obtain ⟨_, u, opens, listed, v, listed_eq, _, _, ⟨rfl, rfl⟩, whole, w, made_eq, rest⟩ := rest
    have tail := sound (.selections whole) rest
    refine .selections_call ⟨token, opens, sign_eq⟩ (sound .arguments listed_eq) ?_
    rwa [made_eq]
  · rename_i not_dot not_bracket not_paren
    rw [pure_ok] at rest
    obtain ⟨rfl, rfl⟩ := rest
    subst sign_eq
    exact .selections_done ⟨token, next_eq, not_dot, not_bracket, not_paren⟩

theorem arguments_sound (sound : Sound steps) {value : List Expression}
    (read_eq : arguments (steps + 1) s = .ok value t) : Derives .arguments s value t := by
  simp only [arguments, bind_ok, accept_ok] at read_eq
  obtain ⟨closed, u, (⟨rfl, taken⟩ | ⟨rfl, other, rfl⟩), rest⟩ := read_eq
  · simp only [↓reduceIte, pure_ok] at rest
    obtain ⟨rfl, rfl⟩ := rest
    exact .arguments_nil taken
  · simp only [Bool.false_eq_true, ↓reduceIte, bind_ok, discard_expect_ok, pure_ok] at rest
    obtain ⟨first, v, head, tail, w, tail_eq, _, x, closes, rfl, rfl⟩ := rest
    exact .arguments_cons other (sound .assignment head) (sound .sequenceRest tail_eq) closes

theorem elements_sound (sound : Sound steps) {value : List Expression}
    (read_eq : elements (steps + 1) s = .ok value t) : Derives .elements s value t := by
  simp only [elements, bind_ok, accept_ok] at read_eq
  obtain ⟨closed, u, (⟨rfl, taken⟩ | ⟨rfl, other, rfl⟩), rest⟩ := read_eq
  · simp only [↓reduceIte, pure_ok] at rest
    obtain ⟨rfl, rfl⟩ := rest
    exact .elements_nil taken
  · simp only [Bool.false_eq_true, ↓reduceIte, bind_ok, accept_ok] at rest
    obtain ⟨first, v, head, comma, w, (⟨rfl, taken⟩ | ⟨rfl, _, rfl⟩), rest⟩ := rest
    · simp only [↓reduceIte, bind_ok, pure_ok] at rest
      obtain ⟨tail, x, tail_eq, rfl, rfl⟩ := rest
      exact .elements_cons other (sound .assignment head) taken (sound .elements tail_eq)
    · simp only [Bool.false_eq_true, ↓reduceIte, bind_ok, discard_expect_ok, pure_ok] at rest
      obtain ⟨_, x, closes, rfl, rfl⟩ := rest
      exact .elements_last other (sound .assignment head) closes

theorem properties_sound (sound : Sound steps) {value : List ObjectProperty}
    (read_eq : properties (steps + 1) s = .ok value t) : Derives .properties s value t := by
  simp only [properties, bind_ok, accept_ok] at read_eq
  obtain ⟨closed, u, (⟨rfl, taken⟩ | ⟨rfl, other, rfl⟩), rest⟩ := read_eq
  · simp only [↓reduceIte, pure_ok] at rest
    obtain ⟨rfl, rfl⟩ := rest
    exact .properties_nil taken
  · simp only [Bool.false_eq_true, ↓reduceIte, bind_ok, take_ok] at rest
    obtain ⟨token, v, taken, rest⟩ := rest
    cases key_eq : propertyKey? token with
    | none =>
      simp only [key_eq] at rest
      exact absurd rest unexpected_ok
    | some key =>
      simp only [key_eq, bind_ok, discard_expect_ok, spanFrom_ok, accept_ok] at rest
      obtain ⟨_, w, colon, inner, x, inner_eq, _, _, ⟨rfl, rfl⟩, comma, y,
        (⟨rfl, comma⟩ | ⟨rfl, _, rfl⟩), rest⟩ := rest
      · simp only [↓reduceIte, bind_ok, pure_ok] at rest
        obtain ⟨tail, z, tail_eq, rfl, rfl⟩ := rest
        exact .properties_cons other taken key_eq colon (sound .assignment inner_eq) comma
          (sound .properties tail_eq)
      · simp only [Bool.false_eq_true, ↓reduceIte, bind_ok, discard_expect_ok, pure_ok] at rest
        obtain ⟨_, z, closes, rfl, rfl⟩ := rest
        exact .properties_last other taken key_eq colon (sound .assignment inner_eq) closes

theorem primary_sound (sound : Sound steps) {value : Expression}
    (read_eq : primary (steps + 1) s = .ok value t) : Derives .primary s value t := by
  simp only [primary, bind_ok, take_ok] at read_eq
  obtain ⟨token, u, taken, rest⟩ := read_eq
  have literal {value : Literal} (literal_eq : literal? token.lexeme = some value)
      {whole : Expression} (made_eq : u.made (·.literal value token.span) = (whole, t)) :
      Derives .primary s whole t := by
    have derived := Derives.primary_literal taken literal_eq
    rwa [made_eq] at derived
  generalize lexeme_eq : token.lexeme = lexeme at rest
  split at rest
  · exact literal (by rw [lexeme_eq]; rfl) (make_ok.mp rest)
  · exact literal (by rw [lexeme_eq]; rfl) (make_ok.mp rest)
  · exact literal (by rw [lexeme_eq]; rfl) (make_ok.mp rest)
  · exact literal (by rw [lexeme_eq]; rfl) (make_ok.mp rest)
  · have derived := Derives.primary_identifier taken lexeme_eq
    rwa [make_ok.mp rest] at derived
  · have derived := Derives.primary_this taken lexeme_eq
    rwa [make_ok.mp rest] at derived
  · exact .primary_function taken lexeme_eq (sound (.functionRest token.span.start) rest)
  · simp only [bind_ok, discard_expect_ok, pure_ok] at rest
    obtain ⟨inner, v, inner_eq, _, w, closes, rfl, rfl⟩ := rest
    exact .primary_parens ⟨token, taken, Token.punctuator?_eq_some_iff.mpr lexeme_eq⟩
      (sound .expression inner_eq) closes
  · simp only [bind_ok, spanFrom_ok, make_ok] at rest
    obtain ⟨inner, v, inner_eq, _, _, ⟨rfl, rfl⟩, made_eq⟩ := rest
    have derived := Derives.primary_array taken (Token.punctuator?_eq_some_iff.mpr lexeme_eq)
      (sound .elements inner_eq)
    rwa [made_eq] at derived
  · simp only [bind_ok, spanFrom_ok, make_ok] at rest
    obtain ⟨inner, v, inner_eq, _, _, ⟨rfl, rfl⟩, made_eq⟩ := rest
    have derived := Derives.primary_object taken (Token.punctuator?_eq_some_iff.mpr lexeme_eq)
      (sound .properties inner_eq)
    rwa [made_eq] at derived
  · exact absurd rest unexpected_ok

theorem functionRest_sound (sound : Sound steps) {start : Nat} {value : Expression}
    (read_eq : functionRest (steps + 1) start s = .ok value t) :
    Derives (.functionRest start) s value t := by
  simp only [functionRest_eq, bind_ok, functionName_ok, discard_expect_ok, spanFrom_ok,
    make_ok] at read_eq
  obtain ⟨name, u, named, _, v, opens, params, w, params_eq, body, x, body_eq, _, _, ⟨rfl, rfl⟩,
    made_eq⟩ := read_eq
  have derived : Derives (.functionRest start) s _ _ :=
    .functionRest named opens (parameterList_sound params_eq) (sound .block body_eq)
  rwa [made_eq] at derived

theorem block_sound (sound : Sound steps) {value : Block}
    (read_eq : block (steps + 1) s = .ok value t) : Derives .block s value t := by
  simp only [block, bind_ok, expect_ok, discard_expect_ok, spanFrom_ok, make_ok] at read_eq
  obtain ⟨token, u, ⟨taken, sign_eq⟩, inner, v, inner_eq, _, w, closes, _, _, ⟨rfl, rfl⟩,
    made_eq⟩ := read_eq
  have derived := Derives.block taken sign_eq (sound (.statements true) inner_eq) closes
  rwa [made_eq] at derived

theorem statements_sound (sound : Sound steps) {inBlock : Bool} {value : List Statement}
    (read_eq : statements (steps + 1) inBlock s = .ok value t) :
    Derives (.statements inBlock) s value t := by
  simp only [statements, bind_ok, accept_ok] at read_eq
  obtain ⟨skipped, u, (⟨rfl, taken⟩ | ⟨rfl, other, rfl⟩), rest⟩ := read_eq
  · simp only [↓reduceIte] at rest
    exact .statements_skip taken (sound (.statements inBlock) rest)
  · simp only [Bool.false_eq_true, ↓reduceIte, bind_ok, peek_ok] at rest
    obtain ⟨token, _, ⟨next_eq, rfl⟩, rest⟩ := rest
    obtain ⟨seen, seen_eq, not_semicolon⟩ := other
    rw [next_eq, Except.ok.injEq] at seen_eq
    subst seen_eq
    split at rest
    · rename_i closes
      rw [pure_ok] at rest
      obtain ⟨rfl, rfl⟩ := rest
      obtain ⟨rfl, sign_eq⟩ : inBlock = true ∧ token.punctuator? = some .rightBrace := by
        simpa using closes
      exact .statements_close ⟨token, next_eq, sign_eq⟩
    · rename_i inside
      split at rest
      · rename_i ends
        split at rest
        · simp only [bind_ok] at rest
          obtain ⟨_, _, _, rest⟩ := rest
          exact absurd rest unexpected_ok
        · rename_i outer
          rw [pure_ok] at rest
          obtain ⟨rfl, rfl⟩ := rest
          obtain rfl : inBlock = false := by simpa using outer
          exact .statements_end ⟨token, next_eq, ends⟩
      · rename_i going
        simp only [bind_ok, pure_ok] at rest
        obtain ⟨first, u, first_eq, tail, v, tail_eq, rfl, rfl⟩ := rest
        refine .statements_cons ⟨token, next_eq, not_semicolon, by simpa using going, ?_⟩
          (sound .statement first_eq) (sound (.statements inBlock) tail_eq)
        simpa using inside

theorem statement_sound (sound : Sound steps) {value : Statement}
    (read_eq : statement (steps + 1) s = .ok value t) : Derives .statement s value t := by
  simp only [statement, bind_ok, peek_ok] at read_eq
  obtain ⟨token, _, ⟨next_eq, rfl⟩, rest⟩ := read_eq
  generalize lexeme_eq : token.lexeme = lexeme at rest
  split at rest
  · rw [map_ok] at rest
    obtain ⟨inner, inner_eq, rfl⟩ := rest
    exact .statement_block ⟨token, next_eq, Token.punctuator?_eq_some_iff.mpr lexeme_eq⟩
      (sound .block inner_eq)
  · have opens : s.Sees (·.lexeme = .keyword (VariableKind.keyword .var)) :=
      ⟨token, next_eq, lexeme_eq⟩
    exact .statement_declaration opens (sound (.declaration .var) rest)
  · have opens : s.Sees (·.lexeme = .keyword (VariableKind.keyword .let)) :=
      ⟨token, next_eq, lexeme_eq⟩
    exact .statement_declaration opens (sound (.declaration .let) rest)
  · have opens : s.Sees (·.lexeme = .keyword (VariableKind.keyword .const)) :=
      ⟨token, next_eq, lexeme_eq⟩
    exact .statement_declaration opens (sound (.declaration .const) rest)
  · exact .statement_conditional ⟨token, next_eq, lexeme_eq⟩ (sound .conditional rest)
  · exact .statement_loop ⟨token, next_eq, lexeme_eq⟩ (sound .loop rest)
  · exact .statement_expression ⟨token, next_eq, by simp only [lexeme_eq]; rfl⟩
      (sound .expressionStatement rest)
  · exact .statement_expression ⟨token, next_eq, by simp only [lexeme_eq]; rfl⟩
      (sound .expressionStatement rest)
  · simp only [bind_ok] at rest
    obtain ⟨_, _, _, rest⟩ := rest
    exact absurd rest unexpected_ok
  · simp only [bind_ok] at rest
    obtain ⟨_, _, _, rest⟩ := rest
    exact absurd rest reject_ok
  · refine .statement_expression ⟨token, next_eq, ?_⟩ (sound .expressionStatement rest)
    subst lexeme_eq
    unfold startsExpressionStatement
    split <;> simp_all

theorem declaration_sound (sound : Sound steps) {kind : VariableKind} {value : Statement}
    (read_eq : declaration (steps + 1) kind s = .ok value t) :
    Derives (.declaration kind) s value t := by
  simp only [declaration, bind_ok, take_ok, endStatement_ok, spanFrom_ok, make_ok] at read_eq
  obtain ⟨token, u, taken, inner, v, inner_eq, _, w, ends, _, _, ⟨rfl, rfl⟩, made_eq⟩ := read_eq
  have derived : Derives (.declaration kind) s _ _ :=
    .declaration taken (sound .declarators inner_eq) ends
  rwa [made_eq] at derived

theorem initializer_sound
    (sound : ∀ {s t : State} {value : Expression}, assignment steps s = .ok value t →
      Derives .assignment s value t) {value : Option Expression}
    (read_eq : initializer steps s = .ok value t) : Derives .initializer s value t := by
  simp only [initializer, bind_ok, accept_ok] at read_eq
  obtain ⟨found, u, (⟨rfl, taken⟩ | ⟨rfl, other, rfl⟩), rest⟩ := read_eq
  · simp only [↓reduceIte, map_ok] at rest
    obtain ⟨inner, inner_eq, rfl⟩ := rest
    exact .initializer_some taken (sound inner_eq)
  · simp only [Bool.false_eq_true, ↓reduceIte, pure_ok] at rest
    obtain ⟨rfl, rfl⟩ := rest
    exact .initializer_none other

theorem declarators_sound (sound : Sound steps) {value : List Declarator}
    (read_eq : declarators (steps + 1) s = .ok value t) : Derives .declarators s value t := by
  simp only [declarators_eq, bind_ok, expectIdentifier_ok, spanFrom_ok, make_ok,
    accept_ok] at read_eq
  obtain ⟨⟨name, place⟩, u, ⟨token, taken, name_eq, rfl⟩, init, v, init_eq, _, _, ⟨rfl, rfl⟩,
    declared, w, made_eq, comma, x, accepted, rest⟩ := read_eq
  have init_derived := sound .initializer init_eq
  rcases accepted with ⟨rfl, comma⟩ | ⟨rfl, other, rfl⟩
  · simp only [↓reduceIte, bind_ok, pure_ok] at rest
    obtain ⟨tail, y, tail_eq, rfl, rfl⟩ := rest
    have derived := Derives.declarators_cons taken name_eq init_derived (by rwa [made_eq])
      (sound .declarators tail_eq)
    rwa [made_eq] at derived
  · simp only [Bool.false_eq_true, ↓reduceIte, pure_ok] at rest
    obtain ⟨rfl, rfl⟩ := rest
    have derived := Derives.declarators_last taken name_eq init_derived (by rwa [made_eq])
    rwa [made_eq] at derived

theorem alternate_sound
    (sound : ∀ {s t : State} {value : Statement}, statement steps s = .ok value t →
      Derives .statement s value t) {value : Option Statement}
    (read_eq : alternate steps s = .ok value t) : Derives .alternate s value t := by
  simp only [alternate, bind_ok, peek_ok] at read_eq
  obtain ⟨token, _, ⟨next_eq, rfl⟩, rest⟩ := read_eq
  split at rest
  · rename_i word_eq
    simp only [bind_ok, discard_take_ok next_eq, map_ok] at rest
    obtain ⟨_, u, taken, inner, inner_eq, rfl⟩ := rest
    exact .alternate_some taken (by simpa using word_eq) (sound inner_eq)
  · rename_i other
    rw [pure_ok] at rest
    obtain ⟨rfl, rfl⟩ := rest
    exact .alternate_none ⟨token, next_eq, by simpa using other⟩

theorem conditional_sound (sound : Sound steps) {value : Statement}
    (read_eq : conditional (steps + 1) s = .ok value t) : Derives .conditional s value t := by
  simp only [conditional_eq, bind_ok, expectKeyword_ok, discard_expect_ok, spanFrom_ok,
    make_ok] at read_eq
  obtain ⟨token, u, ⟨taken, word_eq⟩, _, v, opens, condition, w, condition_eq, _, x, closes,
    consequent, y, consequent_eq, second, z, second_eq, _, _, ⟨rfl, rfl⟩, made_eq⟩ := read_eq
  have derived := Derives.conditional taken word_eq opens (sound .expression condition_eq) closes
    (sound .statement consequent_eq) (sound .alternate second_eq)
  rwa [made_eq] at derived

theorem loop_sound (sound : Sound steps) {value : Statement}
    (read_eq : loop (steps + 1) s = .ok value t) : Derives .loop s value t := by
  simp only [loop, bind_ok, expectKeyword_ok, discard_expect_ok, spanFrom_ok, make_ok] at read_eq
  obtain ⟨token, u, ⟨taken, word_eq⟩, _, v, opens, test, w, test_eq, _, x, closes, body, y,
    body_eq, _, _, ⟨rfl, rfl⟩, made_eq⟩ := read_eq
  have derived := Derives.loop taken word_eq opens (sound .expression test_eq) closes
    (sound .statement body_eq)
  rwa [made_eq] at derived

theorem expressionStatement_sound (sound : Sound steps) {value : Statement}
    (read_eq : expressionStatement (steps + 1) s = .ok value t) :
    Derives .expressionStatement s value t := by
  simp only [expressionStatement_eq, bind_ok, endExpression_ok, spanFrom_ok, make_ok] at read_eq
  obtain ⟨inner, u, inner_eq, _, v, ends, _, _, ⟨rfl, rfl⟩, made_eq⟩ := read_eq
  have derived := Derives.expressionStatement (sound .expression inner_eq) ends
  rwa [made_eq] at derived

end Steps

/-- What a rule reads is derived. -/
theorem sound (steps : Nat) : Sound steps := by
  induction steps with
  | zero =>
    intro α form state later value read_eq
    cases form with
    | initializer => exact initializer_sound (fun read_eq => absurd read_eq throw_ok) read_eq
    | alternate => exact alternate_sound (fun read_eq => absurd read_eq throw_ok) read_eq
    | _ => exact absurd read_eq throw_ok
  | succ steps sound =>
    intro α form state later value read_eq
    cases form with
    | expression => exact expression_sound sound read_eq
    | sequenceRest => exact sequenceRest_sound sound read_eq
    | assignment => exact assignment_sound sound read_eq
    | operation least => exact operation_sound sound read_eq
    | operationRest least left => exact operationRest_sound sound read_eq
    | operand => exact operand_sound sound read_eq
    | selections inner => exact selections_sound sound read_eq
    | arguments => exact arguments_sound sound read_eq
    | primary => exact primary_sound sound read_eq
    | elements => exact elements_sound sound read_eq
    | properties => exact properties_sound sound read_eq
    | functionRest start => exact functionRest_sound sound read_eq
    | block => exact block_sound sound read_eq
    | statements inBlock => exact statements_sound sound read_eq
    | statement => exact statement_sound sound read_eq
    | declaration kind => exact declaration_sound sound read_eq
    | initializer => exact initializer_sound (assignment_sound sound) read_eq
    | declarators => exact declarators_sound sound read_eq
    | alternate => exact alternate_sound (statement_sound sound) read_eq
    | conditional => exact conditional_sound sound read_eq
    | loop => exact loop_sound sound read_eq
    | expressionStatement => exact expressionStatement_sound sound read_eq

end Scriptlet.Grammar
