import Scriptlet.Proofs.Grammar.Failure

set_option autoImplicit false

/-!
How the rules that read trees fail. With enough steps they fail like the small rules (`failsIn`), so
they never run out of steps. The proofs follow the rules step by step: a rule may go to a smaller
one at once (`Form.Enough.lower`), and to any other once it has taken a token (`Form.Enough.after`).
-/
namespace Scriptlet.Grammar

/-- Whether a form that is read with a number of steps cannot run out of them. -/
def Form.Enough {α : Type} (form : Form α) (state : State) (steps : Nat) : Prop :=
  16 * state.tokens.length + form.rank ≤ steps

section Steps

variable {α β : Type} {stream : TokenStream} {steps : Nat} {s t : State}

theorem Form.rank_le {form : Form α} : form.rank ≤ 8 := by
  cases form <;> simp [Form.rank]

/-- A rule goes to a smaller one without taking a token. -/
theorem Form.Enough.lower {form : Form α} {other : Form β} {count : Nat} {later : State}
    (enough : form.Enough s (steps + 1)) (passes : Passes stream s count later)
    (lower : other.rank < form.rank) : other.Enough later steps := by
  have fewer := passes.shortens.tokens
  unfold Form.Enough at *
  omega

/-- A rule may go to any other one as soon as it has taken a token. -/
theorem Form.Enough.after {form : Form α} {other : Form β} {count : Nat} {later : State}
    (enough : form.Enough s (steps + 1)) (passes : Passes stream s count later)
    (taken : 0 < count) : other.Enough later steps := by
  have bound := @Form.rank_le β other
  have fewer := passes.shortens.tokens
  unfold Form.Enough at *
  omega

theorem Form.Enough.succ {form : Form α} (enough : form.Enough s steps) :
    form.Enough s (steps + 1) :=
  Nat.le_succ_of_le enough

theorem parameters_failsIn (placed : s.Placed stream) (enough : s.tokens.length < steps) :
    FailsIn stream (parameters steps) s := by
  induction steps generalizing s with
  | zero => omega
  | succ steps ih =>
    refine .expectIdentifier_bind placed fun named t name => ?_
    refine .accept_bind name.placed (fun u comma => ?_) failsIn_pure
    have fewer := (name.trans comma).shortens.tokens
    exact (ih comma.placed (by omega)).bind fun _ _ _ => failsIn_pure

theorem parameterList_failsIn (placed : s.Placed stream) (enough : s.tokens.length < steps) :
    FailsIn stream (parameterList steps) s := by
  refine .accept_bind placed (fun t _ => failsIn_pure) ?_
  refine (parameters_failsIn placed enough).bind fun names t names_eq => ?_
  have listed := (parameters_sound names_eq).proceeds placed
  exact .discard_expect_bind listed.1 fun u _ => failsIn_pure

/-- Rules with a number of steps that is enough fail on account of the text. -/
def FailsInWith (stream : TokenStream) (steps : Nat) : Prop :=
  ∀ {α : Type} (form : Form α) {state : State}, state.Placed stream → form.Enough state steps →
    FailsIn stream (form.rule steps) state

theorem FailsInWith.bind {next : α → Rule β} (failsIn : FailsInWith stream steps)
    (form : Form α) (placed : s.Placed stream) (enough : form.Enough s steps)
    (rest : ∀ value later, Passes stream s form.least later → FailsIn stream (next value) later) :
    FailsIn stream (form.rule steps >>= next) s := by
  refine (failsIn form placed enough).bind fun value later read_eq => ?_
  exact rest value later ((sound steps form read_eq).passes placed)

theorem expression_failsIn (failsIn : FailsInWith stream steps) (placed : s.Placed stream)
    (enough : Form.expression.Enough s (steps + 1)) :
    FailsIn stream (expression (steps + 1)) s := by
  have first : Form.assignment.Enough s steps := enough.lower (.refl placed) (by decide)
  refine failsIn.bind .assignment placed first fun first t head => ?_
  refine (failsIn_isAt head.placed).bind fun comma u at_eq => ?_
  obtain ⟨_, rfl⟩ := isAt_ok.mp at_eq
  split
  · have more : Form.sequenceRest.Enough t steps := enough.after head Nat.one_pos
    exact failsIn.bind .sequenceRest head.placed more fun _ _ _ => failsIn_closing
  · exact failsIn_pure

theorem sequenceRest_failsIn (failsIn : FailsInWith stream steps) (placed : s.Placed stream)
    (enough : Form.sequenceRest.Enough s (steps + 1)) :
    FailsIn stream (sequenceRest (steps + 1)) s := by
  refine .accept_bind placed (fun t comma => ?_) failsIn_pure
  have next : Form.assignment.Enough t steps := enough.after comma Nat.one_pos
  refine failsIn.bind .assignment comma.placed next fun first u head => ?_
  have more : Form.sequenceRest.Enough u steps :=
    enough.after (comma.trans head) (Nat.succ_pos _)
  exact failsIn.bind .sequenceRest head.placed more fun _ _ _ => failsIn_pure

theorem assignment_failsIn (failsIn : FailsInWith stream steps) (placed : s.Placed stream)
    (enough : Form.assignment.Enough s (steps + 1)) :
    FailsIn stream (assignment (steps + 1)) s := by
  have first : (Form.operation .logicalOr).Enough s steps :=
    enough.lower (.refl placed) (by decide)
  refine (failsIn (.operation .logicalOr) placed first).bind fun target t read_eq => ?_
  have derived := sound steps (.operation .logicalOr) read_eq
  have left := derived.passes placed
  refine .peek_bind left.placed fun token next_eq => ?_
  split
  · exact failsIn_pure
  · rename_i operator operator_eq
    have sign_eq := bind_assignmentOperator?.mp operator_eq
    split
    · refine .discard_take_bind left.placed next_eq (isEnd_of_punctuator? sign_eq) fun u taken => ?_
      have more : Form.assignment.Enough u steps :=
        enough.after (left.trans taken) (Nat.succ_pos _)
      exact failsIn.bind .assignment taken.placed more fun _ _ _ => failsIn_make
    · obtain ⟨⟨_, forward, inside⟩, _⟩ := derived.fits placed fits_refl
      exact failsIn_reject ⟨forward, Nat.le_trans inside left.placed.le⟩

theorem operation_failsIn (failsIn : FailsInWith stream steps) (placed : s.Placed stream)
    {least : Precedence} (enough : (Form.operation least).Enough s (steps + 1)) :
    FailsIn stream (operation (steps + 1) least) s := by
  have first : Form.operand.Enough s steps := enough.lower (.refl placed) (show 2 < 3 by decide)
  refine failsIn.bind .operand placed first fun left t head => ?_
  exact failsIn (.operationRest least left) head.placed (enough.after head Nat.one_pos)

theorem operationRest_failsIn (failsIn : FailsInWith stream steps) (placed : s.Placed stream)
    {least : Precedence} {left : Expression}
    (enough : (Form.operationRest least left).Enough s (steps + 1)) :
    FailsIn stream (operationRest (steps + 1) least left) s := by
  refine .peek_bind placed fun token next_eq => ?_
  split
  · exact failsIn_pure
  · rename_i operator operator_eq
    have sign_eq := bind_infixOperator?.mp operator_eq
    split
    · exact failsIn_pure
    · refine .discard_take_bind placed next_eq (isEnd_of_punctuator? sign_eq) fun t taken => ?_
      have argument : (Form.operation operator.rightPrecedence).Enough t steps :=
        enough.after taken Nat.one_pos
      refine failsIn.bind (.operation operator.rightPrecedence) taken.placed argument
        fun right u tail => ?_
      have both : Passes stream s _ (u.made (·.infixed operator left right)).2 :=
        (taken.trans tail).made
      refine .make_bind ?_
      generalize u.made (·.infixed operator left right) = made at both ⊢
      exact failsIn (.operationRest least made.1) both.placed (enough.after both Nat.two_pos)

theorem operand_failsIn (failsIn : FailsInWith stream steps) (placed : s.Placed stream)
    (enough : Form.operand.Enough s (steps + 1)) : FailsIn stream (operand (steps + 1)) s := by
  refine .peek_bind placed fun token next_eq => ?_
  split
  · have first : Form.primary.Enough s steps := enough.lower (.refl placed) (by decide)
    refine failsIn.bind .primary placed first fun inner t head => ?_
    exact failsIn (.selections inner) head.placed (enough.after head Nat.one_pos)
  · rename_i operator operator_eq
    have sign_eq := bind_unaryOperator?.mp operator_eq
    refine .take_bind placed fun taken t takes => ?_
    have same : taken = token := Except.ok.inj (takes.1.symm.trans next_eq)
    have front := (takes.passes placed).2 (same ▸ isEnd_of_punctuator? sign_eq)
    have argument : Form.operand.Enough t steps := enough.after front Nat.one_pos
    exact failsIn.bind .operand front.placed argument fun _ _ _ => failsIn_make

theorem selections_failsIn (failsIn : FailsInWith stream steps) (placed : s.Placed stream)
    {inner : Expression} (enough : (Form.selections inner).Enough s (steps + 1)) :
    FailsIn stream (selections (steps + 1) inner) s := by
  -- The tail of each case is the rule itself, for a larger expression.
  have goes_on {whole : Expression} {count : Nat} {t : State} (passes : Passes stream s count t)
      (taken : 0 < count) : FailsIn stream (selections steps whole) t :=
    failsIn (.selections whole) passes.placed (enough.after passes taken)
  refine .peek_bind placed fun token next_eq => ?_
  split
  · rename_i sign_eq
    refine .discard_take_bind placed next_eq (isEnd_of_punctuator? sign_eq) fun t dot => ?_
    refine .expectPropertyName_bind dot.placed fun name u named => ?_
    exact .spanFrom_bind (.make_bind (goes_on (dot.trans named).made Nat.one_pos))
  · rename_i sign_eq
    refine .discard_take_bind placed next_eq (isEnd_of_punctuator? sign_eq) fun t opens => ?_
    have inside : Form.expression.Enough t steps := enough.after opens Nat.one_pos
    refine failsIn.bind .expression opens.placed inside fun index u inside => ?_
    refine .discard_expect_bind inside.placed fun v closes => ?_
    have front := opens.trans (inside.trans closes)
    exact .spanFrom_bind (.make_bind (goes_on front.made (Nat.succ_pos _)))
  · rename_i sign_eq
    refine .discard_take_bind placed next_eq (isEnd_of_punctuator? sign_eq) fun t opens => ?_
    have inside : Form.arguments.Enough t steps := enough.after opens Nat.one_pos
    refine failsIn.bind .arguments opens.placed inside fun listed u inside => ?_
    have front := opens.trans inside
    exact .spanFrom_bind (.make_bind (goes_on front.made (Nat.succ_pos _)))
  · exact failsIn_pure

theorem arguments_failsIn (failsIn : FailsInWith stream steps) (placed : s.Placed stream)
    (enough : Form.arguments.Enough s (steps + 1)) :
    FailsIn stream (arguments (steps + 1)) s := by
  refine .accept_bind placed (fun t _ => failsIn_pure) ?_
  have first : Form.assignment.Enough s steps := enough.lower (.refl placed) (by decide)
  refine failsIn.bind .assignment placed first fun first t head => ?_
  have more : Form.sequenceRest.Enough t steps := enough.after head Nat.one_pos
  refine failsIn.bind .sequenceRest head.placed more fun rest u tail => ?_
  exact .discard_expect_bind tail.placed fun v _ => failsIn_pure

theorem primary_failsIn (failsIn : FailsInWith stream steps) (placed : s.Placed stream)
    (enough : Form.primary.Enough s (steps + 1)) : FailsIn stream (primary (steps + 1)) s := by
  refine .take_bind placed fun token t taken => ?_
  have passes (going : token.isEnd = false) : Passes stream s 1 t := (taken.passes placed).2 going
  generalize lexeme_eq : token.lexeme = lexeme
  split
  case h_1 | h_2 | h_3 | h_4 | h_5 | h_6 => exact failsIn_make
  case h_7 =>
    have front := passes (by simp [Token.isEnd, lexeme_eq])
    exact failsIn (.functionRest token.span.start) front.placed (enough.after front Nat.one_pos)
  case h_8 =>
    have front := passes (by simp [Token.isEnd, lexeme_eq])
    have inside : Form.expression.Enough t steps := enough.after front Nat.one_pos
    refine failsIn.bind .expression front.placed inside fun inner u inside => ?_
    exact .discard_expect_bind inside.placed fun v _ => failsIn_pure
  case h_9 =>
    have front := passes (by simp [Token.isEnd, lexeme_eq])
    have inside : Form.elements.Enough t steps := enough.after front Nat.one_pos
    exact failsIn.bind .elements front.placed inside fun _ _ _ => failsIn_closing
  case h_10 =>
    have front := passes (by simp [Token.isEnd, lexeme_eq])
    have inside : Form.properties.Enough t steps := enough.after front Nat.one_pos
    exact failsIn.bind .properties front.placed inside fun _ _ _ => failsIn_closing
  case h_11 => exact failsIn_unexpected placed taken.1

theorem elements_failsIn (failsIn : FailsInWith stream steps) (placed : s.Placed stream)
    (enough : Form.elements.Enough s (steps + 1)) : FailsIn stream (elements (steps + 1)) s := by
  refine .accept_bind placed (fun t _ => failsIn_pure) ?_
  have first : Form.assignment.Enough s steps := enough.lower (.refl placed) (by decide)
  refine failsIn.bind .assignment placed first fun first t head => ?_
  refine .accept_bind head.placed (fun u comma => ?_) ?_
  · have more : Form.elements.Enough u steps :=
      enough.after (head.trans comma) (Nat.succ_pos _)
    exact failsIn.bind .elements comma.placed more fun _ _ _ => failsIn_pure
  · exact .discard_expect_bind head.placed fun u _ => failsIn_pure

theorem properties_failsIn (failsIn : FailsInWith stream steps) (placed : s.Placed stream)
    (enough : Form.properties.Enough s (steps + 1)) :
    FailsIn stream (properties (steps + 1)) s := by
  refine .accept_bind placed (fun t _ => failsIn_pure) ?_
  refine .take_bind placed fun token t taken => ?_
  split
  · exact failsIn_unexpected placed taken.1
  · have front := (taken.passes placed).1
    refine .discard_expect_bind front.placed fun u colon => ?_
    have first : Form.assignment.Enough u steps :=
      enough.after (front.trans colon) (Nat.succ_pos _)
    refine failsIn.bind .assignment colon.placed first fun value v head => ?_
    refine .spanFrom_bind (.accept_bind head.placed (fun w comma => ?_) ?_)
    · have more : Form.properties.Enough w steps :=
        enough.after (front.trans (colon.trans (head.trans comma))) (by decide)
      exact failsIn.bind .properties comma.placed more fun _ _ _ => failsIn_pure
    · exact .discard_expect_bind head.placed fun w _ => failsIn_pure

theorem functionRest_failsIn (failsIn : FailsInWith stream steps) (placed : s.Placed stream)
    {start : Nat} (enough : (Form.functionRest start).Enough s (steps + 1)) :
    FailsIn stream (functionRest (steps + 1) start) s := by
  rw [functionRest_eq]
  refine (failsIn_functionName placed).bind fun name t name_eq => ?_
  have named := functionName_ok.mp name_eq
  have front : Passes stream s 0 t := ⟨(named.proceeds placed).1, named.shortens placed.closed⟩
  refine .discard_expect_bind front.placed fun u opens => ?_
  have few : u.tokens.length < steps := by
    have fewer := (front.trans opens).shortens.tokens
    simp only [Form.Enough, Form.rank] at enough
    omega
  refine (parameterList_failsIn opens.placed few).bind fun params v list_eq => ?_
  have listed := parameterList_sound list_eq
  have closes : Passes stream u 1 v :=
    ⟨(listed.proceeds opens.placed).1, listed.shortens opens.placed.closed⟩
  have inside : Form.block.Enough v steps :=
    enough.after (front.trans (opens.trans closes)) (by decide)
  exact failsIn.bind .block closes.placed inside fun _ _ _ => failsIn_closing

theorem block_failsIn (failsIn : FailsInWith stream steps) (placed : s.Placed stream)
    (enough : Form.block.Enough s (steps + 1)) : FailsIn stream (block (steps + 1)) s := by
  refine .expect_bind placed fun token t opens => ?_
  have inside : (Form.statements true).Enough t steps := enough.after opens Nat.one_pos
  refine failsIn.bind (.statements true) opens.placed inside fun listed u inside => ?_
  exact .discard_expect_bind inside.placed fun v _ => failsIn_closing

theorem statements_failsIn (failsIn : FailsInWith stream steps) (placed : s.Placed stream)
    {inBlock : Bool} (enough : (Form.statements inBlock).Enough s (steps + 1)) :
    FailsIn stream (statements (steps + 1) inBlock) s := by
  refine .accept_bind placed (fun t skipped => ?_) ?_
  · exact failsIn (.statements inBlock) skipped.placed (enough.after skipped Nat.one_pos)
  · refine .peek_bind placed fun token next_eq => ?_
    split
    · exact failsIn_pure
    · split
      · split
        · exact .take_bind placed fun taken t takes => failsIn_unexpected placed takes.1
        · exact failsIn_pure
      · have first : Form.statement.Enough s steps :=
          enough.lower (.refl placed) (show 7 < 8 by decide)
        refine failsIn.bind .statement placed first fun first t head => ?_
        have more : (Form.statements inBlock).Enough t steps := enough.after head Nat.one_pos
        exact failsIn.bind (.statements inBlock) head.placed more fun _ _ _ => failsIn_pure

theorem statement_failsIn (failsIn : FailsInWith stream steps) (placed : s.Placed stream)
    (enough : Form.statement.Enough s (steps + 1)) :
    FailsIn stream (statement (steps + 1)) s := by
  have lower {α : Type} {form : Form α} (lower : form.rank < 7) : form.Enough s steps :=
    enough.lower (.refl placed) lower
  refine .peek_bind placed fun token next_eq => ?_
  split
  case h_1 => exact (failsIn .block placed (lower (by decide))).map
  case h_2 => exact failsIn (.declaration .var) placed (lower (by decide))
  case h_3 => exact failsIn (.declaration .let) placed (lower (by decide))
  case h_4 => exact failsIn (.declaration .const) placed (lower (by decide))
  case h_5 => exact failsIn .conditional placed (lower (by decide))
  case h_6 => exact failsIn .loop placed (lower (by decide))
  case h_7 | h_8 | h_11 => exact failsIn .expressionStatement placed (lower (by decide))
  case h_9 => exact .take_bind placed fun taken t takes => failsIn_unexpected placed takes.1
  case h_10 =>
    refine .take_bind placed fun taken t takes => ?_
    obtain ⟨_, forward, inside, _⟩ := placed.next takes.1
    exact failsIn_reject ⟨forward, inside⟩

theorem declaration_failsIn (failsIn : FailsInWith stream steps) (placed : s.Placed stream)
    {kind : VariableKind} (enough : (Form.declaration kind).Enough s (steps + 1)) :
    FailsIn stream (declaration (steps + 1) kind) s := by
  refine .take_bind placed fun token t taken => ?_
  have front := (taken.passes placed).1
  have inside : Form.declarators.Enough t steps := enough.lower front (show 1 < 2 by decide)
  refine failsIn.bind .declarators front.placed inside fun listed u inside => ?_
  exact (failsIn_endStatement inside.placed).bind fun _ _ _ => failsIn_closing

theorem initializer_failsIn
    (failsIn : ∀ {t : State}, t.Placed stream → Form.assignment.Enough t steps →
      FailsIn stream (assignment steps) t) (placed : s.Placed stream)
    (enough : Form.initializer.Enough s steps) : FailsIn stream (initializer steps) s := by
  refine .accept_bind placed (fun t sign => ?_) failsIn_pure
  exact (failsIn sign.placed (enough.succ.after sign Nat.one_pos)).map

theorem declarators_failsIn (failsIn : FailsInWith stream steps) (placed : s.Placed stream)
    (enough : Form.declarators.Enough s (steps + 1)) :
    FailsIn stream (declarators (steps + 1)) s := by
  rw [declarators_eq]
  refine .expectIdentifier_bind placed fun named t name => ?_
  have value : Form.initializer.Enough t steps := enough.after name Nat.one_pos
  refine failsIn.bind .initializer name.placed value fun init u value => ?_
  refine .spanFrom_bind (.make_bind ?_)
  have front := name.trans value
  refine .accept_bind front.made.placed (fun v comma => ?_) failsIn_pure
  have more : Form.declarators.Enough v steps :=
    enough.after (front.made.trans comma) (Nat.succ_pos _)
  exact failsIn.bind .declarators comma.placed more fun _ _ _ => failsIn_pure

theorem alternate_failsIn
    (failsIn : ∀ {t : State}, t.Placed stream → Form.statement.Enough t steps →
      FailsIn stream (statement steps) t) (placed : s.Placed stream)
    (enough : Form.alternate.Enough s steps) : FailsIn stream (alternate steps) s := by
  refine .peek_bind placed fun token next_eq => ?_
  split
  · rename_i word_eq
    have going := isEnd_of_keyword? (beq_iff_eq.mp word_eq)
    refine .discard_take_bind placed next_eq going fun t taken => ?_
    exact (failsIn taken.placed (enough.succ.after taken Nat.one_pos)).map
  · exact failsIn_pure

theorem conditional_failsIn (failsIn : FailsInWith stream steps) (placed : s.Placed stream)
    (enough : Form.conditional.Enough s (steps + 1)) :
    FailsIn stream (conditional (steps + 1)) s := by
  rw [conditional_eq]
  refine .expectKeyword_bind placed fun token t word => ?_
  refine .discard_expect_bind word.placed fun u opens => ?_
  have front := word.trans opens
  have inside : Form.expression.Enough u steps := enough.after front Nat.two_pos
  refine failsIn.bind .expression opens.placed inside fun condition v inside => ?_
  refine .discard_expect_bind inside.placed fun w closes => ?_
  have head := front.trans (inside.trans closes)
  have next : Form.statement.Enough w steps := enough.after head (Nat.succ_pos _)
  refine failsIn.bind .statement closes.placed next fun consequent x first => ?_
  have more : Form.alternate.Enough x steps := enough.after (head.trans first) (Nat.succ_pos _)
  exact failsIn.bind .alternate first.placed more fun _ _ _ => failsIn_closing

theorem loop_failsIn (failsIn : FailsInWith stream steps) (placed : s.Placed stream)
    (enough : Form.loop.Enough s (steps + 1)) : FailsIn stream (loop (steps + 1)) s := by
  refine .expectKeyword_bind placed fun token t word => ?_
  refine .discard_expect_bind word.placed fun u opens => ?_
  have front := word.trans opens
  have inside : Form.expression.Enough u steps := enough.after front Nat.two_pos
  refine failsIn.bind .expression opens.placed inside fun test v inside => ?_
  refine .discard_expect_bind inside.placed fun w closes => ?_
  have head := front.trans (inside.trans closes)
  have next : Form.statement.Enough w steps := enough.after head (Nat.succ_pos _)
  exact failsIn.bind .statement closes.placed next fun _ _ _ => failsIn_closing

theorem expressionStatement_failsIn (failsIn : FailsInWith stream steps)
    (placed : s.Placed stream) (enough : Form.expressionStatement.Enough s (steps + 1)) :
    FailsIn stream (expressionStatement (steps + 1)) s := by
  rw [expressionStatement_eq]
  have inside : Form.expression.Enough s steps := enough.lower (.refl placed) (by decide)
  refine failsIn.bind .expression placed inside fun inner t inside => ?_
  exact (failsIn_endExpression inside.placed).bind fun _ _ _ => failsIn_closing

end Steps

/-- With enough steps, a rule fails on account of the text only. -/
theorem failsIn (stream : TokenStream) (steps : Nat) : FailsInWith stream steps := by
  induction steps with
  | zero =>
    intro α form state placed enough
    have some_steps := form.rank_pos
    unfold Form.Enough at enough
    omega
  | succ steps failsIn =>
    intro α form state placed enough
    cases form with
    | expression => exact expression_failsIn failsIn placed enough
    | sequenceRest => exact sequenceRest_failsIn failsIn placed enough
    | assignment => exact assignment_failsIn failsIn placed enough
    | operation least => exact operation_failsIn failsIn placed enough
    | operationRest least left => exact operationRest_failsIn failsIn placed enough
    | operand => exact operand_failsIn failsIn placed enough
    | selections inner => exact selections_failsIn failsIn placed enough
    | arguments => exact arguments_failsIn failsIn placed enough
    | primary => exact primary_failsIn failsIn placed enough
    | elements => exact elements_failsIn failsIn placed enough
    | properties => exact properties_failsIn failsIn placed enough
    | functionRest start => exact functionRest_failsIn failsIn placed enough
    | block => exact block_failsIn failsIn placed enough
    | statements inBlock => exact statements_failsIn failsIn placed enough
    | statement => exact statement_failsIn failsIn placed enough
    | declaration kind => exact declaration_failsIn failsIn placed enough
    | initializer => exact initializer_failsIn (assignment_failsIn failsIn) placed enough
    | declarators => exact declarators_failsIn failsIn placed enough
    | alternate => exact alternate_failsIn (statement_failsIn failsIn) placed enough
    | conditional => exact conditional_failsIn failsIn placed enough
    | loop => exact loop_failsIn failsIn placed enough
    | expressionStatement => exact expressionStatement_failsIn failsIn placed enough

end Scriptlet.Grammar
