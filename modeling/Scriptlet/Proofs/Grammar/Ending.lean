import Scriptlet.Proofs.Grammar.Calls
import Scriptlet.Proofs.Grammar.Report

set_option autoImplicit false

/-!
Reading comes to an end. What a rule gives with a number of steps is settled by what the rules that
it goes to give with one step less, and from a number of steps on that the tokens decide it is the
same for every number.
-/
namespace Scriptlet.Grammar

/-- A call gives the same with two numbers of steps. -/
def Call.Agrees (one other : Nat) : Call → Prop
  | .form rule state => rule.rule one state = rule.rule other state
  | .parameters state => Grammar.parameters one state = Grammar.parameters other state

/-- The steps that a rule takes itself. A rule for an optional part takes none. -/
def Call.cost : Call → Nat
  | .form .initializer _ => 0
  | .form .alternate _ => 0
  | _ => 1

/-- Whatever a call goes to gives the same with two numbers of steps. -/
def Call.InnerAgree (one other : Nat) (call : Call) : Prop :=
  ∀ later, GoesTo call later → later.Agrees one other

section Agree

variable {α β : Type} {one other : Nat} {s : State}

theorem bind_agree {rule same : Rule α} {next rest : α → Rule β} (first : rule s = same s)
    (later : ∀ value t, rule s = .ok value t → next value t = rest value t) :
    (rule >>= next) s = (same >>= rest) s := by
  show EStateM.bind rule next s = EStateM.bind same rest s
  unfold EStateM.bind
  rw [← first]
  cases read_eq : rule s with
  | ok value t => exact later value t read_eq
  | error failure t => rfl

theorem map_agree {rule same : Rule α} (first : rule s = same s) (transform : α → β) :
    (transform <$> rule) s = (transform <$> same) s := by
  show EStateM.map transform rule s = EStateM.map transform same s
  unfold EStateM.map
  rw [← first]

theorem expression_agrees (inner : Call.InnerAgree one other (.form .expression s)) :
    expression (one + 1) s = expression (other + 1) s := by
  refine bind_agree (inner _ .expression_first) fun first t head => ?_
  have derived := sound one .assignment head
  refine bind_agree rfl fun comma u at_eq => ?_
  obtain ⟨⟨token, next_eq, rfl⟩, rfl⟩ := isAt_ok.mp at_eq
  split
  · rename_i sign_eq
    exact bind_agree (inner _ (.expression_rest derived ⟨token, next_eq, beq_iff_eq.mp sign_eq⟩))
      fun _ _ _ => rfl
  · rfl

theorem sequenceRest_agrees (inner : Call.InnerAgree one other (.form .sequenceRest s)) :
    sequenceRest (one + 1) s = sequenceRest (other + 1) s := by
  refine bind_agree rfl fun comma t accept_eq => ?_
  rcases accept_ok.mp accept_eq with ⟨rfl, taken⟩ | ⟨rfl, _⟩
  · refine bind_agree (inner _ (.sequenceRest_next taken)) fun first u head => ?_
    exact bind_agree (inner _ (.sequenceRest_more taken (sound one .assignment head)))
      fun _ _ _ => rfl
  · rfl

theorem assignment_agrees (inner : Call.InnerAgree one other (.form .assignment s)) :
    assignment (one + 1) s = assignment (other + 1) s := by
  refine bind_agree (inner _ .assignment_target) fun target t left => ?_
  have derived := sound one (.operation .logicalOr) left
  refine bind_agree rfl fun token u peek_eq => ?_
  obtain ⟨next_eq, rfl⟩ := peek_ok.mp peek_eq
  cases operator_eq : token.punctuator?.bind Punctuator.assignmentOperator? with
  | none => rfl
  | some operator =>
    have sign_eq := bind_assignmentOperator?.mp operator_eq
    by_cases assignable : target.isAssignable
    · simp only [assignable]
      refine bind_agree rfl fun _ u take_eq => ?_
      have taken := (discard_take_ok next_eq).mp take_eq
      exact bind_agree (inner _ (.assignment_value derived taken sign_eq assignable))
        fun _ _ _ => rfl
    · simp only [assignable]
      rfl

theorem operation_agrees {least : Precedence}
    (inner : Call.InnerAgree one other (.form (.operation least) s)) :
    operation (one + 1) least s = operation (other + 1) least s := by
  refine bind_agree (inner _ .operation_first) fun left t head => ?_
  exact inner _ (.operation_rest (sound one .operand head))

theorem operationRest_agrees {least : Precedence} {left : Expression}
    (inner : Call.InnerAgree one other (.form (.operationRest least left) s)) :
    operationRest (one + 1) least left s = operationRest (other + 1) least left s := by
  refine bind_agree rfl fun token u peek_eq => ?_
  obtain ⟨next_eq, rfl⟩ := peek_ok.mp peek_eq
  cases operator_eq : token.punctuator?.bind Punctuator.infixOperator? with
  | none => rfl
  | some operator =>
    have sign_eq := bind_infixOperator?.mp operator_eq
    by_cases weak : operator.precedence < least
    · simp only [weak]
      rfl
    · simp only [weak]
      refine bind_agree rfl fun _ t take_eq => ?_
      have taken := (discard_take_ok next_eq).mp take_eq
      refine bind_agree (inner _ (.operationRest_right taken sign_eq weak)) fun right u tail => ?_
      have argument := sound one (.operation operator.rightPrecedence) tail
      refine bind_agree rfl fun whole v make_eq => ?_
      have more : GoesTo (.form (.operationRest least left) s) _ :=
        .operationRest_more taken sign_eq weak argument
      rw [make_ok.mp make_eq] at more
      exact inner _ more

theorem operand_agrees (inner : Call.InnerAgree one other (.form .operand s)) :
    operand (one + 1) s = operand (other + 1) s := by
  refine bind_agree rfl fun token u peek_eq => ?_
  obtain ⟨next_eq, rfl⟩ := peek_ok.mp peek_eq
  cases operator_eq : token.punctuator?.bind Punctuator.unaryOperator? with
  | none =>
    have plain : s.Sees fun token => ∀ operator : UnaryOperator,
        token.punctuator? ≠ some operator.sign := by
      refine ⟨token, next_eq, fun operator sign_eq => ?_⟩
      rw [bind_unaryOperator?.mpr sign_eq] at operator_eq
      cases operator_eq
    refine bind_agree (inner _ (.operand_primary plain)) fun whole t head => ?_
    exact inner _ (.operand_selections plain (sound one .primary head))
  | some operator =>
    have sign_eq := bind_unaryOperator?.mp operator_eq
    refine bind_agree rfl fun same t take_eq => ?_
    have taken := take_ok.mp take_eq
    obtain rfl : same = token := Except.ok.inj (taken.1.symm.trans next_eq)
    exact bind_agree (inner _ (.operand_unary taken sign_eq)) fun _ _ _ => rfl

theorem selections_agrees {object : Expression}
    (inner : Call.InnerAgree one other (.form (.selections object) s)) :
    selections (one + 1) object s = selections (other + 1) object s := by
  refine bind_agree rfl fun token u peek_eq => ?_
  obtain ⟨next_eq, rfl⟩ := peek_ok.mp peek_eq
  have opens {sign : Punctuator} {t : State} {value : Unit}
      (sign_eq : token.punctuator? = some sign) (take_eq : (discard take) s = .ok value t) :
      TakesSign s sign t :=
    ⟨token, (discard_take_ok next_eq).mp take_eq, sign_eq⟩
  rcases sign_eq : token.punctuator? with _ | sign
  · rfl
  cases sign with
  | dot =>
    refine bind_agree rfl fun _ t take_eq => ?_
    have dot := opens sign_eq take_eq
    refine bind_agree rfl fun name u name_eq => ?_
    obtain ⟨_, taken, word_eq⟩ := expectPropertyName_ok.mp name_eq
    refine bind_agree rfl fun span v span_eq => ?_
    obtain ⟨rfl, rfl⟩ := spanFrom_ok.mp span_eq
    refine bind_agree rfl fun whole w make_eq => ?_
    have more : GoesTo (.form (.selections object) s) _ := .selections_named dot taken word_eq
    rw [make_ok.mp make_eq] at more
    exact inner _ more
  | leftBracket =>
    refine bind_agree rfl fun _ t take_eq => ?_
    have opens := opens sign_eq take_eq
    refine bind_agree (inner _ (.selections_index opens)) fun index u inside => ?_
    refine bind_agree rfl fun _ v close_eq => ?_
    refine bind_agree rfl fun span w span_eq => ?_
    obtain ⟨rfl, rfl⟩ := spanFrom_ok.mp span_eq
    refine bind_agree rfl fun whole w make_eq => ?_
    have more : GoesTo (.form (.selections object) s) _ :=
      .selections_computed opens (sound one .expression inside) (discard_expect_ok.mp close_eq)
    rw [make_ok.mp make_eq] at more
    exact inner _ more
  | leftParen =>
    refine bind_agree rfl fun _ t take_eq => ?_
    have opens := opens sign_eq take_eq
    refine bind_agree (inner _ (.selections_arguments opens)) fun listed u inside => ?_
    refine bind_agree rfl fun span w span_eq => ?_
    obtain ⟨rfl, rfl⟩ := spanFrom_ok.mp span_eq
    refine bind_agree rfl fun whole w make_eq => ?_
    have more : GoesTo (.form (.selections object) s) _ :=
      .selections_call opens (sound one .arguments inside)
    rw [make_ok.mp make_eq] at more
    exact inner _ more
  | _ => rfl

theorem arguments_agrees (inner : Call.InnerAgree one other (.form .arguments s)) :
    arguments (one + 1) s = arguments (other + 1) s := by
  refine bind_agree rfl fun closed t accept_eq => ?_
  rcases accept_ok.mp accept_eq with ⟨rfl, _⟩ | ⟨rfl, sees, rfl⟩
  · rfl
  · refine bind_agree (inner _ (.arguments_first sees)) fun first u head => ?_
    exact bind_agree (inner _ (.arguments_rest sees (sound one .assignment head))) fun _ _ _ => rfl

theorem primary_agrees (inner : Call.InnerAgree one other (.form .primary s)) :
    primary (one + 1) s = primary (other + 1) s := by
  refine bind_agree rfl fun token t take_eq => ?_
  have taken := take_ok.mp take_eq
  rcases token with ⟨lexeme, span, newline⟩
  have opens {sign : Punctuator} (same : lexeme = .punctuator sign) : TakesSign s sign t :=
    ⟨_, taken, Token.punctuator?_eq_some_iff.mpr same⟩
  cases lexeme with
  | keyword word =>
    cases word with
    | functionWord => exact inner _ (.primary_function taken rfl)
    | _ => rfl
  | punctuator sign =>
    cases sign with
    | leftParen => exact bind_agree (inner _ (.primary_parens (opens rfl))) fun _ _ _ => rfl
    | leftBracket => exact bind_agree (inner _ (.primary_array (opens rfl))) fun _ _ _ => rfl
    | leftBrace => exact bind_agree (inner _ (.primary_object (opens rfl))) fun _ _ _ => rfl
    | _ => rfl
  | _ => rfl

theorem elements_agrees (inner : Call.InnerAgree one other (.form .elements s)) :
    elements (one + 1) s = elements (other + 1) s := by
  refine bind_agree rfl fun closed t accept_eq => ?_
  rcases accept_ok.mp accept_eq with ⟨rfl, _⟩ | ⟨rfl, sees, rfl⟩
  · rfl
  · refine bind_agree (inner _ (.elements_first sees)) fun first u head => ?_
    refine bind_agree rfl fun comma v comma_eq => ?_
    rcases accept_ok.mp comma_eq with ⟨rfl, taken⟩ | ⟨rfl, _⟩
    · exact bind_agree (inner _ (.elements_more sees (sound one .assignment head) taken))
        fun _ _ _ => rfl
    · rfl

theorem properties_agrees (inner : Call.InnerAgree one other (.form .properties s)) :
    properties (one + 1) s = properties (other + 1) s := by
  refine bind_agree rfl fun closed t accept_eq => ?_
  rcases accept_ok.mp accept_eq with ⟨rfl, _⟩ | ⟨rfl, sees, rfl⟩
  · rfl
  · refine bind_agree rfl fun token t take_eq => ?_
    have taken := take_ok.mp take_eq
    cases key_eq : propertyKey? token with
    | none => rfl
    | some key =>
      refine bind_agree rfl fun _ u colon_eq => ?_
      have colon := discard_expect_ok.mp colon_eq
      refine bind_agree (inner _ (.properties_value sees taken key_eq colon)) fun value v head => ?_
      refine bind_agree rfl fun span w span_eq => ?_
      obtain ⟨rfl, rfl⟩ := spanFrom_ok.mp span_eq
      refine bind_agree rfl fun comma w comma_eq => ?_
      rcases accept_ok.mp comma_eq with ⟨rfl, more⟩ | ⟨rfl, _⟩
      · exact bind_agree (inner _ (.properties_more sees taken key_eq colon
          (sound one .assignment head) more)) fun _ _ _ => rfl
      · rfl

theorem parameters_agrees (inner : Call.InnerAgree one other (.parameters s)) :
    parameters (one + 1) s = parameters (other + 1) s := by
  refine bind_agree rfl fun named t name_eq => ?_
  obtain ⟨token, taken, word_eq, _⟩ := expectIdentifier_ok.mp name_eq
  refine bind_agree rfl fun comma u comma_eq => ?_
  rcases accept_ok.mp comma_eq with ⟨rfl, more⟩ | ⟨rfl, _⟩
  · exact bind_agree (inner _ (.parameters_more taken word_eq more)) fun _ _ _ => rfl
  · rfl

theorem functionRest_agrees {start : Nat}
    (inner : Call.InnerAgree one other (.form (.functionRest start) s)) :
    functionRest (one + 1) start s = functionRest (other + 1) start s := by
  rw [functionRest_eq, functionRest_eq]
  refine bind_agree rfl fun name t name_eq => ?_
  have named := functionName_ok.mp name_eq
  refine bind_agree rfl fun _ u open_eq => ?_
  have opens := discard_expect_ok.mp open_eq
  have list_agrees : parameterList one u = parameterList other u := by
    refine bind_agree rfl fun closed v accept_eq => ?_
    rcases accept_ok.mp accept_eq with ⟨rfl, _⟩ | ⟨rfl, sees, rfl⟩
    · rfl
    · exact bind_agree (inner _ (.functionRest_parameters named opens sees)) fun _ _ _ => rfl
  refine bind_agree list_agrees fun params v list_eq => ?_
  have listed := parameterList_sound list_eq
  exact bind_agree (inner _ (.functionRest_block named opens listed)) fun _ _ _ => rfl

theorem block_agrees (inner : Call.InnerAgree one other (.form .block s)) :
    block (one + 1) s = block (other + 1) s := by
  refine bind_agree rfl fun token t open_eq => ?_
  have opens : TakesSign s .leftBrace t := ⟨token, expect_ok.mp open_eq⟩
  exact bind_agree (inner _ (.block_statements opens)) fun _ _ _ => rfl

theorem statements_agrees {inBlock : Bool}
    (inner : Call.InnerAgree one other (.form (.statements inBlock) s)) :
    statements (one + 1) inBlock s = statements (other + 1) inBlock s := by
  refine bind_agree rfl fun skipped t accept_eq => ?_
  rcases accept_ok.mp accept_eq with ⟨rfl, semicolon⟩ | ⟨rfl, ⟨token, next_eq, other⟩, rfl⟩
  · exact inner _ (.statements_skip semicolon)
  · refine bind_agree rfl fun same u peek_eq => ?_
    obtain ⟨same_eq, rfl⟩ := peek_ok.mp peek_eq
    obtain rfl : same = token := Except.ok.inj (same_eq.symm.trans next_eq)
    by_cases closes : (inBlock && same.punctuator? == some .rightBrace) = true
    · simp only [closes]
      rfl
    · cases isEnd : same.isEnd with
      | true =>
        simp only [closes]
        rfl
      | false =>
        have goes : t.Sees fun token => token.punctuator? ≠ some .semicolon ∧
            token.isEnd = false ∧ (inBlock = true → token.punctuator? ≠ some .rightBrace) :=
          ⟨same, next_eq, other, isEnd, by simpa using closes⟩
        simp only [closes]
        refine bind_agree (inner _ (.statements_first goes)) fun first u head => ?_
        exact bind_agree (inner _ (.statements_more goes (sound one .statement head)))
          fun _ _ _ => rfl

theorem statement_agrees (inner : Call.InnerAgree one other (.form .statement s)) :
    statement (one + 1) s = statement (other + 1) s := by
  refine bind_agree rfl fun token t peek_eq => ?_
  obtain ⟨next_eq, rfl⟩ := peek_ok.mp peek_eq
  rcases token with ⟨lexeme, span, newline⟩
  have starts (start : startsExpressionStatement lexeme = true) :
      expressionStatement one s = expressionStatement other s :=
    inner _ (.statement_expression ⟨_, next_eq, start⟩)
  have declares (kind : VariableKind) (word_eq : lexeme = .keyword kind.keyword) :
      declaration one kind s = declaration other kind s :=
    inner _ (.statement_declaration ⟨_, next_eq, word_eq⟩)
  cases lexeme with
  | keyword word =>
    cases word with
    | varWord => exact declares .var rfl
    | letWord => exact declares .let rfl
    | constWord => exact declares .const rfl
    | ifWord => exact inner _ (.statement_conditional ⟨_, next_eq, rfl⟩)
    | whileWord => exact inner _ (.statement_loop ⟨_, next_eq, rfl⟩)
    | functionWord | thisWord => exact starts rfl
    | _ => rfl
  | punctuator sign =>
    cases sign with
    | leftBrace => exact map_agree (inner _ (.statement_block ⟨_, next_eq, rfl⟩)) _
    | _ => exact starts rfl
  | _ => exact starts rfl

theorem declaration_agrees {kind : VariableKind}
    (inner : Call.InnerAgree one other (.form (.declaration kind) s)) :
    declaration (one + 1) kind s = declaration (other + 1) kind s := by
  refine bind_agree rfl fun token t take_eq => ?_
  exact bind_agree (inner _ (.declaration_declarators (take_ok.mp take_eq))) fun _ _ _ => rfl

theorem initializer_agrees (inner : Call.InnerAgree one other (.form .initializer s)) :
    initializer one s = initializer other s := by
  refine bind_agree rfl fun sign t accept_eq => ?_
  rcases accept_ok.mp accept_eq with ⟨rfl, taken⟩ | ⟨rfl, _⟩
  · exact map_agree (inner _ (.initializer_value taken)) some
  · rfl

theorem declarators_agrees (inner : Call.InnerAgree one other (.form .declarators s)) :
    declarators (one + 1) s = declarators (other + 1) s := by
  rw [declarators_eq, declarators_eq]
  refine bind_agree rfl fun named t name_eq => ?_
  obtain ⟨token, taken, word_eq, span_eq⟩ := expectIdentifier_ok.mp name_eq
  obtain ⟨name, place⟩ := named
  obtain rfl : token.span = place := span_eq
  refine bind_agree (inner _ (.declarators_value taken word_eq)) fun init u init_eq => ?_
  refine bind_agree rfl fun span v span_eq => ?_
  obtain ⟨rfl, rfl⟩ := spanFrom_ok.mp span_eq
  refine bind_agree rfl fun declarator v make_eq => ?_
  refine bind_agree rfl fun comma w comma_eq => ?_
  rcases accept_ok.mp comma_eq with ⟨rfl, more⟩ | ⟨rfl, _⟩
  · have made_eq := congrArg Prod.snd (make_ok.mp make_eq)
    dsimp only at made_eq
    subst made_eq
    exact bind_agree (inner _ (.declarators_more taken word_eq (sound one .initializer init_eq)
      more)) fun _ _ _ => rfl
  · rfl

theorem alternate_agrees (inner : Call.InnerAgree one other (.form .alternate s)) :
    alternate one s = alternate other s := by
  refine bind_agree rfl fun token t peek_eq => ?_
  obtain ⟨next_eq, rfl⟩ := peek_ok.mp peek_eq
  split
  · rename_i word_eq
    refine bind_agree rfl fun _ t take_eq => ?_
    have taken := (discard_take_ok next_eq).mp take_eq
    exact map_agree (inner _ (.alternate_statement taken (beq_iff_eq.mp word_eq))) some
  · rfl

theorem conditional_agrees (inner : Call.InnerAgree one other (.form .conditional s)) :
    conditional (one + 1) s = conditional (other + 1) s := by
  rw [conditional_eq, conditional_eq]
  refine bind_agree rfl fun token t word_eq => ?_
  obtain ⟨taken, word_eq⟩ := expectKeyword_ok.mp word_eq
  refine bind_agree rfl fun _ u open_eq => ?_
  have opens := discard_expect_ok.mp open_eq
  refine bind_agree (inner _ (.conditional_condition taken word_eq opens)) fun test v inside => ?_
  have inside := sound one .expression inside
  refine bind_agree rfl fun _ w close_eq => ?_
  have closes := discard_expect_ok.mp close_eq
  refine bind_agree (inner _ (.conditional_consequent taken word_eq opens inside closes))
    fun consequent x first => ?_
  exact bind_agree (inner _ (.conditional_alternate taken word_eq opens inside closes
    (sound one .statement first))) fun _ _ _ => rfl

theorem loop_agrees (inner : Call.InnerAgree one other (.form .loop s)) :
    loop (one + 1) s = loop (other + 1) s := by
  refine bind_agree rfl fun token t word_eq => ?_
  obtain ⟨taken, word_eq⟩ := expectKeyword_ok.mp word_eq
  refine bind_agree rfl fun _ u open_eq => ?_
  have opens := discard_expect_ok.mp open_eq
  refine bind_agree (inner _ (.loop_test taken word_eq opens)) fun test v inside => ?_
  refine bind_agree rfl fun _ w close_eq => ?_
  exact bind_agree (inner _ (.loop_body taken word_eq opens (sound one .expression inside)
    (discard_expect_ok.mp close_eq))) fun _ _ _ => rfl

theorem expressionStatement_agrees
    (inner : Call.InnerAgree one other (.form .expressionStatement s)) :
    expressionStatement (one + 1) s = expressionStatement (other + 1) s :=
  bind_agree (inner _ .expressionStatement_inner) fun _ _ _ => rfl

end Agree

/-- A call gives the same with two numbers of steps, if all that it goes to does so with the steps
that are left. -/
theorem Call.InnerAgree.agrees {one other : Nat} {call : Call} (inner : call.InnerAgree one other) :
    call.Agrees (one + call.cost) (other + call.cost) := by
  cases call with
  | parameters state => exact parameters_agrees inner
  | form rule state =>
    cases rule with
    | expression => exact expression_agrees inner
    | sequenceRest => exact sequenceRest_agrees inner
    | assignment => exact assignment_agrees inner
    | operation least => exact operation_agrees inner
    | operationRest least left => exact operationRest_agrees inner
    | operand => exact operand_agrees inner
    | selections object => exact selections_agrees inner
    | arguments => exact arguments_agrees inner
    | primary => exact primary_agrees inner
    | elements => exact elements_agrees inner
    | properties => exact properties_agrees inner
    | functionRest start => exact functionRest_agrees inner
    | block => exact block_agrees inner
    | statements inBlock => exact statements_agrees inner
    | statement => exact statement_agrees inner
    | declaration kind => exact declaration_agrees inner
    | initializer => exact initializer_agrees inner
    | declarators => exact declarators_agrees inner
    | alternate => exact alternate_agrees inner
    | conditional => exact conditional_agrees inner
    | loop => exact loop_agrees inner
    | expressionStatement => exact expressionStatement_agrees inner

theorem Call.cost_le (call : Call) : call.cost ≤ 1 := by
  unfold cost
  split <;> simp

theorem Call.need_pos (call : Call) : 1 ≤ call.need := by
  have positive : 1 ≤ call.rank := by
    cases call with
    | form rule => exact rule.rank_pos
    | parameters => exact Nat.le_refl 1
  unfold need
  omega

/-- More steps than a call needs make no difference. -/
theorem Call.agrees_of_need {call : Call} (closed : call.state.Closed) {one other : Nat}
    (enough : call.need ≤ one) (enoughOther : call.need ≤ other) : call.Agrees one other := by
  induction need_eq : call.need using Nat.strongRecOn generalizing call one other with
  | ind need ih =>
    have positive := call.need_pos
    have cheap := call.cost_le
    have inner : call.InnerAgree (one - call.cost) (other - call.cost) := by
      intro later goesTo
      have advances := goesTo.advances closed
      have fewer := advances.need_lt
      exact ih later.need (need_eq ▸ fewer) advances.shortens.closed (by omega) (by omega) rfl
    have agrees := inner.agrees
    rwa [Nat.sub_add_cancel (by omega), Nat.sub_add_cancel (by omega)] at agrees

/-- Every text is read to an end: it is a program, or it is reported what is wrong with it. No chain
of the calls that reading it comes to goes on for ever, and none comes back to a rule, or to one for
a larger construct, without taking a token. So there are steps enough, and more of them make no
difference; the calls that a rule goes to are all that its outcome depends on. -/
theorem reading_ends (text : String) :
    let start := Call.form (.statements false) (.ofStream (.ofText text))
    ((∃ program, Program.ofText text = .ok program) ∨
      ∃ error, Program.ofText text = .error (.rejected error)) ∧
    Acc (fun later call => GoesTo call later) start ∧
    (∀ call later, Relation.ReflTransGen GoesTo start call → Relation.TransGen GoesTo call later →
      call.rank ≤ later.rank → later.state.tokens.length < call.state.tokens.length) ∧
    (∀ steps, stepsFor (TokenStream.ofText text).tokens.length ≤ steps →
      start.Agrees steps (stepsFor (TokenStream.ofText text).tokens.length)) ∧
    ∀ (call : Call) one other, call.InnerAgree one other →
      call.Agrees (one + call.cost) (other + call.cost) := by
  intro start
  have placed := State.placed_ofText text
  have closed : start.state.Closed := placed.closed
  refine ⟨?_, acc_of_closed closed, fun call later reached chain le => ?_, fun steps enough => ?_,
    fun call one other => Call.InnerAgree.agrees⟩
  · cases read_eq : Program.ofText text with
    | ok program => exact .inl ⟨program, rfl⟩
    | error failure =>
      cases failure with
      | rejected error => exact .inr ⟨error, rfl⟩
      | exhausted => exact (read_foundIn placed read_eq).elim
  · have call_closed : call.state.Closed := by
      rcases Relation.reflTransGen_iff_eq_or_transGen.mp reached with rfl | before
      · exact closed
      · exact (advances_of_transGen before closed).shortens.closed
    exact ((advances_of_transGen chain call_closed).taken le).tokens
  · have needed : start.need ≤ stepsFor (TokenStream.ofText text).tokens.length := by
      show 16 * (TokenStream.ofText text).tokens.length + 8 ≤ _
      unfold stepsFor
      omega
    exact Call.agrees_of_need closed (Nat.le_trans needed enough) needed

end Scriptlet.Grammar
