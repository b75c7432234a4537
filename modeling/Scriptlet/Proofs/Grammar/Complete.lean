import Scriptlet.Proofs.Grammar.Sound
import Scriptlet.Proofs.Grammar.Step

set_option autoImplicit false

/-!
What the grammar derives is read, with a number of steps that depends on the tokens taken.
-/
namespace Scriptlet.Grammar

/-- Nothing but the end of the source comes after the tokens that are left. -/
def State.Closed (state : State) : Prop :=
  ∀ token, state.ending = .ok token → token.isEnd = true

/-- Some tokens of a state are gone. -/
structure Shortens (state : State) (count : Nat) (later : State) : Prop where
  closed : later.Closed
  tokens : later.tokens.length + count ≤ state.tokens.length

@[simp] def Form.least {α : Type} : Form α → Nat
  | .sequenceRest | .operationRest .. | .selections _ | .statements _ => 0
  | .initializer | .alternate => 0
  | _ => 1

section Small

variable {state later : State}

theorem Takes.shortens {token : Token} (taken : Takes state token later) (closed : state.Closed) :
    Shortens state 0 later ∧ (token.isEnd = false → Shortens state 1 later) := by
  obtain ⟨next_eq, rfl⟩ := taken
  have later_closed : (state.after token).Closed := closed
  have length_eq : (state.after token).tokens.length = state.tokens.length - 1 :=
    List.length_tail
  refine ⟨⟨later_closed, by omega⟩, fun going => ⟨later_closed, ?_⟩⟩
  unfold State.next at next_eq
  split at next_eq
  · rename_i tokens_eq
    simp only [tokens_eq, List.length_cons] at length_eq ⊢
    omega
  · rw [closed token next_eq] at going
    cases going

theorem isEnd_of_punctuator? {token : Token} {sign : Punctuator}
    (sign_eq : token.punctuator? = some sign) : token.isEnd = false := by
  rw [Token.punctuator?_eq_some_iff] at sign_eq
  simp [Token.isEnd, sign_eq]

theorem isEnd_of_keyword? {token : Token} {word : Keyword}
    (word_eq : token.keyword? = some word) : token.isEnd = false := by
  rw [Token.keyword?_eq_some_iff] at word_eq
  simp [Token.isEnd, word_eq]

theorem isEnd_of_identifier? {token : Token} {name : String}
    (name_eq : token.identifier? = some name) : token.isEnd = false := by
  rw [Token.identifier?_eq_some_iff] at name_eq
  simp [Token.isEnd, name_eq]

theorem TakesSign.shortens {sign : Punctuator} (taken : TakesSign state sign later)
    (closed : state.Closed) : Shortens state 1 later := by
  obtain ⟨token, taken, sign_eq⟩ := taken
  exact (taken.shortens closed).2 (isEnd_of_punctuator? sign_eq)

theorem Takes.shortens_keyword {token : Token} {word : Keyword} (taken : Takes state token later)
    (word_eq : token.keyword? = some word) (closed : state.Closed) : Shortens state 1 later :=
  (taken.shortens closed).2 (isEnd_of_keyword? word_eq)

theorem Takes.shortens_identifier {token : Token} {name : String}
    (taken : Takes state token later) (name_eq : token.identifier? = some name)
    (closed : state.Closed) : Shortens state 1 later :=
  (taken.shortens closed).2 (isEnd_of_identifier? name_eq)

theorem Shortens.refl (closed : state.Closed) : Shortens state 0 state :=
  ⟨closed, Nat.le_refl _⟩

theorem Shortens.trans {between : State} {first second : Nat}
    (front : Shortens state first between) (back : Shortens between second later) :
    Shortens state (first + second) later := by
  have := front.tokens
  have := back.tokens
  exact ⟨back.closed, by omega⟩

theorem Shortens.mono {least count : Nat} (shortens : Shortens state count later)
    (le : least ≤ count) : Shortens state least later := by
  have := shortens.tokens
  exact ⟨shortens.closed, by omega⟩

theorem EndsStatement.shortens (ends : EndsStatement state later) (closed : state.Closed) :
    Shortens state 0 later := by
  rcases ends with taken | ⟨_, rfl⟩
  · exact (taken.shortens closed).mono (Nat.zero_le 1)
  · exact .refl closed

theorem Accepts.shortens {sign : Punctuator} (accepts : Accepts state sign later)
    (closed : state.Closed) : Shortens state 0 later := by
  rcases accepts with taken | ⟨_, rfl⟩
  · exact (taken.shortens closed).mono (Nat.zero_le 1)
  · exact .refl closed

theorem endsExpression_shortens {inner : Expression}
    (ends : if inner.isFunction then Accepts state .semicolon later else EndsStatement state later)
    (closed : state.Closed) : Shortens state 0 later := by
  split at ends
  · exact ends.shortens closed
  · exact ends.shortens closed

theorem TakesName.shortens {name : Option String} (named : TakesName state name later)
    (closed : state.Closed) : Shortens state 0 later := by
  rcases named with ⟨token, word, taken, _⟩ | ⟨_, _, rfl⟩
  · exact (taken.shortens closed).1
  · exact .refl closed

theorem TakesParameters.shortens {names : List String}
    (listed : TakesParameters state names later) (closed : state.Closed) :
    Shortens state 1 later := by
  induction listed with
  | last taken name_eq other => exact (taken.shortens closed).2 (isEnd_of_identifier? name_eq)
  | more taken name_eq comma _ inductive_hypothesis =>
    have named := (taken.shortens closed).1
    have between := comma.shortens named.closed
    exact (named.trans (between.trans (inductive_hypothesis between.closed))).mono (by omega)

theorem TakesParameterList.shortens {names : List String}
    (listed : TakesParameterList state names later) (closed : state.Closed) :
    Shortens state 1 later := by
  rcases listed with ⟨taken, _⟩ | ⟨_, named, names_taken, closes⟩
  · exact taken.shortens closed
  · have front := names_taken.shortens closed
    exact (front.trans (closes.shortens front.closed)).mono (by omega)

theorem isEnd_of_literal? {token : Token} {value : Literal}
    (literal_eq : literal? token.lexeme = some value) : token.isEnd = false := by
  unfold literal? at literal_eq
  unfold Token.isEnd
  split at literal_eq <;> simp_all

theorem shortens_made_iff {α : Type} {count : Nat} {node : Builder → α × Builder} :
    Shortens state count (later.made node).2 ↔ Shortens state count later :=
  ⟨fun ⟨closed, tokens⟩ => ⟨closed, tokens⟩, fun ⟨closed, tokens⟩ => ⟨closed, tokens⟩⟩

theorem made_shortens_iff {α : Type} {count : Nat} {node : Builder → α × Builder} :
    Shortens (state.made node).2 count later ↔ Shortens state count later :=
  ⟨fun ⟨closed, tokens⟩ => ⟨closed, tokens⟩, fun ⟨closed, tokens⟩ => ⟨closed, tokens⟩⟩

theorem made_tokens {α : Type} {node : Builder → α × Builder} :
    (state.made node).2.tokens = state.tokens :=
  rfl

theorem made_closed_iff {α : Type} {node : Builder → α × Builder} :
    (state.made node).2.Closed ↔ state.Closed :=
  .rfl

theorem TakesSign.made_shortens {α : Type} {sign : Punctuator} {node : Builder → α × Builder}
    (taken : TakesSign (state.made node).2 sign later) (closed : state.Closed) :
    Shortens state 1 later :=
  made_shortens_iff.mp (taken.shortens closed)

end Small

/-- A form takes the tokens that it needs at least. -/
theorem Derives.shortens {α : Type} {form : Form α} {state later : State} {value : α}
    (derived : Derives form state value later) (closed : state.Closed) :
    Shortens state form.least later := by
  induction derived
  all_goals
    simp only [Form.least, shortens_made_iff, made_shortens_iff, made_closed_iff,
      ← Token.identifier?_eq_some_iff, ← Token.keyword?_eq_some_iff] at *
    -- What each part takes, one part after the other; only numbers of tokens are compared.
    grind -ring -linarith [Shortens, Shortens.refl, Shortens.mono, → Shortens.trans,
      → Takes.shortens, → TakesSign.shortens, → TakesSign.made_shortens, → EndsStatement.shortens,
      → Accepts.shortens, → TakesName.shortens, → TakesParameterList.shortens,
      → isEnd_of_punctuator?, → isEnd_of_keyword?, → isEnd_of_identifier?, → isEnd_of_literal?]

/-- What a form needs besides sixteen steps for each token: the rules that it goes through before it
takes one. -/
@[simp] def Form.rank {α : Type} : Form α → Nat
  | .operand => 2
  | .operation _ => 3
  | .assignment => 4
  | .expression => 5
  | .arguments => 5
  | .elements => 5
  | .expressionStatement => 6
  | .statement => 7
  | .statements _ => 8
  | .declaration _ => 2
  | _ => 1

/-- A number of steps that is enough for a form between two states. -/
@[simp] def Form.Affords {α : Type} (form : Form α) (state later : State) (steps : Nat) : Prop :=
  16 * state.tokens.length + form.rank ≤ 16 * later.tokens.length + steps

theorem parameters_complete {state later : State} {names : List String}
    (listed : TakesParameters state names later) (closed : state.Closed) {steps : Nat}
    (enough : state.tokens.length - later.tokens.length ≤ steps) :
    parameters steps state = .ok names later := by
  have shortens := listed.shortens closed
  have := shortens.tokens
  induction listed generalizing steps with
  | last taken name_eq other =>
    obtain ⟨steps, rfl⟩ := Nat.exists_eq_add_of_le' (show 1 ≤ steps by omega)
    simp only [parameters, bind_ok, expectIdentifier_ok, accept_ok]
    refine ⟨(_, _), _, ⟨_, taken, name_eq, rfl⟩, false, _, .inr ⟨rfl, other, rfl⟩, ?_⟩
    simp only [Bool.false_eq_true, ↓reduceIte, pure_ok, and_self]
  | @more s t u v token name names taken name_eq comma rest inductive_hypothesis =>
    have named := (taken.shortens closed).1
    have between := comma.shortens named.closed
    have later_shortens := rest.shortens between.closed
    have := named.tokens
    have := between.tokens
    have := later_shortens.tokens
    obtain ⟨steps, rfl⟩ := Nat.exists_eq_add_of_le' (show 1 ≤ steps by omega)
    have rest_eq : parameters steps u = .ok names v :=
      inductive_hypothesis between.closed (by omega) later_shortens (by omega)
    simp only [parameters, bind_ok, expectIdentifier_ok, accept_ok]
    refine ⟨(_, _), t, ⟨token, taken, name_eq, rfl⟩, true, u, .inl ⟨rfl, comma⟩, ?_⟩
    simp only [↓reduceIte, bind_ok, pure_ok]
    exact ⟨names, v, rest_eq, rfl, rfl⟩

theorem parameterList_complete {state later : State} {names : List String}
    (listed : TakesParameterList state names later) (closed : state.Closed) {steps : Nat}
    (enough : state.tokens.length - later.tokens.length ≤ steps) :
    parameterList steps state = .ok names later := by
  simp only [parameterList, bind_ok, accept_ok]
  rcases listed with ⟨taken, rfl⟩ | ⟨other, named, names_taken, closes⟩
  · exact ⟨true, later, .inl ⟨rfl, taken⟩, by simp [pure_ok]⟩
  · have front := names_taken.shortens closed
    have back := closes.shortens front.closed
    have := front.tokens
    have := back.tokens
    refine ⟨false, state, .inr ⟨rfl, other, rfl⟩, ?_⟩
    simp only [Bool.false_eq_true, ↓reduceIte, bind_ok, discard_expect_ok, pure_ok]
    exact ⟨names, named, parameters_complete names_taken closed (by omega), (), later, closes, rfl,
      rfl⟩

theorem Form.rank_pos {α : Type} (form : Form α) : 1 ≤ form.rank := by
  cases form <;> simp [Form.rank]

theorem Form.Affords.exists_step {α : Type} {form : Form α} {state later : State} {value : α}
    {steps : Nat} (enough : form.Affords state later steps) (closed : state.Closed)
    (derived : Derives form state value later) : ∃ fewer, steps = fewer + 1 := by
  have := form.rank_pos
  have := (derived.shortens closed).tokens
  unfold Form.Affords at enough
  exact Nat.exists_eq_add_of_le' (show 1 ≤ steps by omega)

/-- Enough steps read what is derived. -/
@[simp] def Derives.Completes {α : Type} {form : Form α} {state later : State} {value : α}
    (_ : Derives form state value later) : Prop :=
  state.Closed → ∀ {steps : Nat}, form.Affords state later steps →
    form.rule steps state = .ok value later

theorem assignment_some_completes {s t u v : State} {token : Token} {operator : AssignmentOperator}
    {target value : Expression} (left : Derives (.operation .logicalOr) s target t)
    (taken : Takes t token u) (sign_eq : token.punctuator? = some operator.sign)
    (assignable : target.isAssignable = true) (right : Derives .assignment u value v)
    (left_ih : left.Completes) (right_ih : right.Completes) :
    (Derives.assignment_some left taken sign_eq assignable right).Completes := by
  intro closed steps enough
  obtain ⟨left_closed, left_taken⟩ := left.shortens closed
  obtain ⟨taken_closed, taken_taken⟩ := TakesSign.shortens ⟨_, taken, sign_eq⟩ left_closed
  obtain ⟨_, right_taken⟩ := right.shortens taken_closed
  simp only [Derives.Completes, Form.Affords, Form.rank, Form.least, made_tokens] at *
  obtain ⟨steps, rfl⟩ := Nat.exists_eq_add_of_le' (show 1 ≤ steps by omega)
  exact assignment_some (left_ih closed (by omega)) taken sign_eq assignable
    (right_ih taken_closed (by omega))

theorem operationRest_more_completes {s t u v : State} {least : Precedence}
    {left right whole : Expression} {token : Token} {operator : InfixOperator}
    (taken : Takes s token t) (sign_eq : token.punctuator? = some operator.sign)
    (strong : ¬ operator.precedence < least)
    (argument : Derives (.operation operator.rightPrecedence) t right u)
    (tail : Derives (.operationRest least (u.made (·.infixed operator left right)).1)
      (u.made (·.infixed operator left right)).2 whole v)
    (argument_ih : argument.Completes) (tail_ih : tail.Completes) :
    (Derives.operationRest_more taken sign_eq strong argument tail).Completes := by
  intro closed steps enough
  obtain ⟨taken_closed, taken_taken⟩ := TakesSign.shortens ⟨_, taken, sign_eq⟩ closed
  obtain ⟨argument_closed, argument_taken⟩ := argument.shortens taken_closed
  obtain ⟨_, tail_taken⟩ := tail.shortens argument_closed
  simp only [Derives.Completes, Form.Affords, Form.rank, Form.least, made_tokens] at *
  obtain ⟨steps, rfl⟩ := Nat.exists_eq_add_of_le' (show 1 ≤ steps by omega)
  exact operationRest_more taken sign_eq strong (argument_ih taken_closed (by omega))
    (tail_ih argument_closed (by omega))

theorem selections_computed_completes {s t u v w : State} {inner index whole : Expression}
    (opens : TakesSign s .leftBracket t) (inside : Derives .expression t index u)
    (closes : TakesSign u .rightBracket v)
    (tail : Derives (.selections
        (v.made (·.member inner (.computed index) (v.spanSince inner.span.start))).1)
      (v.made (·.member inner (.computed index) (v.spanSince inner.span.start))).2 whole w)
    (inside_ih : inside.Completes) (tail_ih : tail.Completes) :
    (Derives.selections_computed opens inside closes tail).Completes := by
  intro closed steps enough
  obtain ⟨opens_closed, opens_taken⟩ := opens.shortens closed
  obtain ⟨inside_closed, inside_taken⟩ := inside.shortens opens_closed
  obtain ⟨closes_closed, closes_taken⟩ := closes.shortens inside_closed
  obtain ⟨_, tail_taken⟩ := tail.shortens closes_closed
  simp only [Derives.Completes, Form.Affords, Form.rank, Form.least, made_tokens] at *
  obtain ⟨steps, rfl⟩ := Nat.exists_eq_add_of_le' (show 1 ≤ steps by omega)
  exact selections_computed opens (inside_ih opens_closed (by omega)) closes
    (tail_ih closes_closed (by omega))

theorem selections_call_completes {s t u v : State} {inner whole : Expression}
    {arguments : List Expression} (opens : TakesSign s .leftParen t)
    (inside : Derives .arguments t arguments u)
    (tail : Derives (.selections
        (u.made (·.call inner arguments (u.spanSince inner.span.start))).1)
      (u.made (·.call inner arguments (u.spanSince inner.span.start))).2 whole v)
    (inside_ih : inside.Completes) (tail_ih : tail.Completes) :
    (Derives.selections_call opens inside tail).Completes := by
  intro closed steps enough
  obtain ⟨opens_closed, opens_taken⟩ := opens.shortens closed
  obtain ⟨inside_closed, inside_taken⟩ := inside.shortens opens_closed
  obtain ⟨_, tail_taken⟩ := tail.shortens inside_closed
  simp only [Derives.Completes, Form.Affords, Form.rank, Form.least, made_tokens] at *
  obtain ⟨steps, rfl⟩ := Nat.exists_eq_add_of_le' (show 1 ≤ steps by omega)
  exact selections_call opens (inside_ih opens_closed (by omega))
    (tail_ih inside_closed (by omega))

theorem properties_last_completes {s t u v w : State} {token : Token} {key : String}
    {value : Expression} (other : s.Sees (·.punctuator? ≠ some .rightBrace))
    (taken : Takes s token t) (key_eq : propertyKey? token = some key)
    (colon : TakesSign t .colon u) (head : Derives .assignment u value v)
    (closes : TakesSign v .rightBrace w) (head_ih : head.Completes) :
    (Derives.properties_last other taken key_eq colon head closes).Completes := by
  intro closed steps enough
  obtain ⟨taken_closed, taken_taken⟩ := (taken.shortens closed).1
  obtain ⟨colon_closed, colon_taken⟩ := colon.shortens taken_closed
  obtain ⟨head_closed, head_taken⟩ := head.shortens colon_closed
  obtain ⟨_, closes_taken⟩ := closes.shortens head_closed
  simp only [Derives.Completes, Form.Affords, Form.rank, Form.least] at *
  obtain ⟨steps, rfl⟩ := Nat.exists_eq_add_of_le' (show 1 ≤ steps by omega)
  exact properties_last other taken key_eq colon (head_ih colon_closed (by omega)) closes

theorem properties_cons_completes {s t u v w x : State} {token : Token} {key : String}
    {value : Expression} {rest : List ObjectProperty}
    (other : s.Sees (·.punctuator? ≠ some .rightBrace)) (taken : Takes s token t)
    (key_eq : propertyKey? token = some key) (colon : TakesSign t .colon u)
    (head : Derives .assignment u value v) (comma : TakesSign v .comma w)
    (tail : Derives .properties w rest x) (head_ih : head.Completes) (tail_ih : tail.Completes) :
    (Derives.properties_cons other taken key_eq colon head comma tail).Completes := by
  intro closed steps enough
  obtain ⟨taken_closed, taken_taken⟩ := (taken.shortens closed).1
  obtain ⟨colon_closed, colon_taken⟩ := colon.shortens taken_closed
  obtain ⟨head_closed, head_taken⟩ := head.shortens colon_closed
  obtain ⟨comma_closed, comma_taken⟩ := comma.shortens head_closed
  obtain ⟨_, tail_taken⟩ := tail.shortens comma_closed
  simp only [Derives.Completes, Form.Affords, Form.rank, Form.least] at *
  obtain ⟨steps, rfl⟩ := Nat.exists_eq_add_of_le' (show 1 ≤ steps by omega)
  exact properties_cons other taken key_eq colon (head_ih colon_closed (by omega)) comma
    (tail_ih comma_closed (by omega))

theorem functionRest_completes {s t u v w : State} {start : Nat} {name : Option String}
    {params : List String} {body : Block} (named : TakesName s name t)
    (opens : TakesSign t .leftParen u) (listed : TakesParameterList u params v)
    (inside : Derives .block v body w) (inside_ih : inside.Completes) :
    (Derives.functionRest named opens listed inside :
      Derives (.functionRest start) s _ _).Completes := by
  intro closed steps enough
  obtain ⟨named_closed, named_taken⟩ := named.shortens closed
  obtain ⟨opens_closed, opens_taken⟩ := opens.shortens named_closed
  obtain ⟨listed_closed, listed_taken⟩ := listed.shortens opens_closed
  obtain ⟨_, inside_taken⟩ := inside.shortens listed_closed
  simp only [Derives.Completes, Form.Affords, Form.rank, Form.least, made_tokens] at *
  obtain ⟨steps, rfl⟩ := Nat.exists_eq_add_of_le' (show 1 ≤ steps by omega)
  exact functionRest_step named opens (parameterList_complete listed opens_closed (by omega))
    (inside_ih listed_closed (by omega))

theorem declarators_cons_completes {s t u v w : State} {token : Token} {name : String}
    {init : Option Expression} {rest : List Declarator} (taken : Takes s token t)
    (name_eq : token.identifier? = some name) (value : Derives .initializer t init u)
    (comma : TakesSign (u.made (·.declarator name init (u.spanSince token.span.start))).2 .comma v)
    (tail : Derives .declarators v rest w) (value_ih : value.Completes) (tail_ih : tail.Completes) :
    (Derives.declarators_cons taken name_eq value comma tail).Completes := by
  intro closed steps enough
  obtain ⟨taken_closed, taken_taken⟩ := taken.shortens_identifier name_eq closed
  obtain ⟨value_closed, value_taken⟩ := value.shortens taken_closed
  obtain ⟨comma_closed, comma_taken⟩ := comma.shortens value_closed
  obtain ⟨_, tail_taken⟩ := tail.shortens comma_closed
  simp only [Derives.Completes, Form.Affords, Form.rank, Form.least, made_tokens] at *
  obtain ⟨steps, rfl⟩ := Nat.exists_eq_add_of_le' (show 1 ≤ steps by omega)
  exact declarators_cons taken name_eq (value_ih taken_closed (by omega)) comma
    (tail_ih comma_closed (by omega))

theorem conditional_completes {s t u v w x y : State} {token : Token} {condition : Expression}
    {consequent : Statement} {alternate : Option Statement} (taken : Takes s token t)
    (word_eq : token.keyword? = some .ifWord) (opens : TakesSign t .leftParen u)
    (inside : Derives .expression u condition v) (closes : TakesSign v .rightParen w)
    (first : Derives .statement w consequent x) (second : Derives .alternate x alternate y)
    (inside_ih : inside.Completes) (first_ih : first.Completes) (second_ih : second.Completes) :
    (Derives.conditional taken word_eq opens inside closes first second).Completes := by
  intro closed steps enough
  obtain ⟨taken_closed, taken_taken⟩ := taken.shortens_keyword word_eq closed
  obtain ⟨opens_closed, opens_taken⟩ := opens.shortens taken_closed
  obtain ⟨inside_closed, inside_taken⟩ := inside.shortens opens_closed
  obtain ⟨closes_closed, closes_taken⟩ := closes.shortens inside_closed
  obtain ⟨first_closed, first_taken⟩ := first.shortens closes_closed
  obtain ⟨_, second_taken⟩ := second.shortens first_closed
  simp only [Derives.Completes, Form.Affords, Form.rank, Form.least, made_tokens] at *
  obtain ⟨steps, rfl⟩ := Nat.exists_eq_add_of_le' (show 1 ≤ steps by omega)
  exact conditional_step taken word_eq opens (inside_ih opens_closed (by omega)) closes
    (first_ih closes_closed (by omega)) (second_ih first_closed (by omega))

theorem loop_completes {s t u v w x : State} {token : Token} {test : Expression} {body : Statement}
    (taken : Takes s token t) (word_eq : token.keyword? = some .whileWord)
    (opens : TakesSign t .leftParen u) (inside : Derives .expression u test v)
    (closes : TakesSign v .rightParen w) (repeated : Derives .statement w body x)
    (inside_ih : inside.Completes) (repeated_ih : repeated.Completes) :
    (Derives.loop taken word_eq opens inside closes repeated).Completes := by
  intro closed steps enough
  obtain ⟨taken_closed, taken_taken⟩ := taken.shortens_keyword word_eq closed
  obtain ⟨opens_closed, opens_taken⟩ := opens.shortens taken_closed
  obtain ⟨inside_closed, inside_taken⟩ := inside.shortens opens_closed
  obtain ⟨closes_closed, closes_taken⟩ := closes.shortens inside_closed
  obtain ⟨_, repeated_taken⟩ := repeated.shortens closes_closed
  simp only [Derives.Completes, Form.Affords, Form.rank, Form.least, made_tokens] at *
  obtain ⟨steps, rfl⟩ := Nat.exists_eq_add_of_le' (show 1 ≤ steps by omega)
  exact loop_step taken word_eq opens (inside_ih opens_closed (by omega)) closes
    (repeated_ih closes_closed (by omega))

theorem complete {α : Type} {form : Form α} {state later : State} {value : α}
    (derived : Derives form state value later) (closed : state.Closed) {steps : Nat}
    (enough : form.Affords state later steps) : form.rule steps state = .ok value later := by
  induction derived generalizing steps with
  | expression_single head other head_ih =>
    obtain ⟨_, head_taken⟩ := head.shortens closed
    simp only [Form.Affords, Form.rank, Form.least] at *
    obtain ⟨steps, rfl⟩ := Nat.exists_eq_add_of_le' (show 1 ≤ steps by omega)
    exact expression_single (head_ih closed (by omega)) other
  | expression_several head comma tail head_ih tail_ih =>
    obtain ⟨head_closed, head_taken⟩ := head.shortens closed
    obtain ⟨_, tail_taken⟩ := tail.shortens head_closed
    simp only [Form.Affords, Form.rank, Form.least, made_tokens] at *
    obtain ⟨steps, rfl⟩ := Nat.exists_eq_add_of_le' (show 1 ≤ steps by omega)
    exact expression_several (head_ih closed (by omega)) comma (tail_ih head_closed (by omega))
  | sequenceRest_nil other =>
    obtain ⟨steps, rfl⟩ := enough.exists_step closed (.sequenceRest_nil other)
    exact sequenceRest_nil other
  | sequenceRest_cons comma head tail head_ih tail_ih =>
    obtain ⟨comma_closed, comma_taken⟩ := comma.shortens closed
    obtain ⟨head_closed, head_taken⟩ := head.shortens comma_closed
    obtain ⟨_, tail_taken⟩ := tail.shortens head_closed
    simp only [Form.Affords, Form.rank, Form.least] at *
    obtain ⟨steps, rfl⟩ := Nat.exists_eq_add_of_le' (show 1 ≤ steps by omega)
    exact sequenceRest_cons comma (head_ih comma_closed (by omega)) (tail_ih head_closed (by omega))
  | assignment_plain inner other inner_ih =>
    obtain ⟨_, inner_taken⟩ := inner.shortens closed
    simp only [Form.Affords, Form.rank, Form.least] at *
    obtain ⟨steps, rfl⟩ := Nat.exists_eq_add_of_le' (show 1 ≤ steps by omega)
    exact assignment_plain (inner_ih closed (by omega)) other
  | assignment_some left taken sign_eq assignable right left_ih right_ih =>
    exact assignment_some_completes left taken sign_eq assignable right left_ih right_ih closed
      enough
  | operation head tail head_ih tail_ih =>
    obtain ⟨head_closed, head_taken⟩ := head.shortens closed
    obtain ⟨_, tail_taken⟩ := tail.shortens head_closed
    simp only [Form.Affords, Form.rank, Form.least] at *
    obtain ⟨steps, rfl⟩ := Nat.exists_eq_add_of_le' (show 1 ≤ steps by omega)
    exact operation_step (head_ih closed (by omega)) (tail_ih head_closed (by omega))
  | operationRest_done other =>
    obtain ⟨steps, rfl⟩ := enough.exists_step closed (.operationRest_done other)
    exact operationRest_done other
  | operationRest_more taken sign_eq strong argument tail argument_ih tail_ih =>
    exact operationRest_more_completes taken sign_eq strong argument tail argument_ih tail_ih closed
      enough
  | operand_plain other head tail head_ih tail_ih =>
    obtain ⟨head_closed, head_taken⟩ := head.shortens closed
    obtain ⟨_, tail_taken⟩ := tail.shortens head_closed
    simp only [Form.Affords, Form.rank, Form.least] at *
    obtain ⟨steps, rfl⟩ := Nat.exists_eq_add_of_le' (show 1 ≤ steps by omega)
    exact operand_plain other (head_ih closed (by omega)) (tail_ih head_closed (by omega))
  | operand_unary taken sign_eq inner inner_ih =>
    obtain ⟨taken_closed, taken_taken⟩ := TakesSign.shortens ⟨_, taken, sign_eq⟩ closed
    obtain ⟨_, inner_taken⟩ := inner.shortens taken_closed
    simp only [Form.Affords, Form.rank, Form.least, made_tokens] at *
    obtain ⟨steps, rfl⟩ := Nat.exists_eq_add_of_le' (show 1 ≤ steps by omega)
    exact operand_unary taken sign_eq (inner_ih taken_closed (by omega))
  | selections_done other =>
    obtain ⟨steps, rfl⟩ := enough.exists_step closed (.selections_done other)
    exact selections_done other
  | selections_named dot taken name_eq tail tail_ih =>
    obtain ⟨dot_closed, dot_taken⟩ := dot.shortens closed
    obtain ⟨taken_closed, taken_taken⟩ := (taken.shortens dot_closed).1
    obtain ⟨_, tail_taken⟩ := tail.shortens taken_closed
    simp only [Form.Affords, Form.rank, Form.least, made_tokens] at *
    obtain ⟨steps, rfl⟩ := Nat.exists_eq_add_of_le' (show 1 ≤ steps by omega)
    exact selections_named dot taken name_eq (tail_ih taken_closed (by omega))
  | selections_computed opens inside closes tail inside_ih tail_ih =>
    exact selections_computed_completes opens inside closes tail inside_ih tail_ih closed enough
  | selections_call opens inside tail inside_ih tail_ih =>
    exact selections_call_completes opens inside tail inside_ih tail_ih closed enough
  | arguments_nil closes =>
    obtain ⟨steps, rfl⟩ := enough.exists_step closed (.arguments_nil closes)
    exact arguments_nil closes
  | arguments_cons other head tail closes head_ih tail_ih =>
    obtain ⟨head_closed, head_taken⟩ := head.shortens closed
    obtain ⟨tail_closed, tail_taken⟩ := tail.shortens head_closed
    obtain ⟨_, closes_taken⟩ := closes.shortens tail_closed
    simp only [Form.Affords, Form.rank, Form.least] at *
    obtain ⟨steps, rfl⟩ := Nat.exists_eq_add_of_le' (show 1 ≤ steps by omega)
    exact arguments_cons other (head_ih closed (by omega)) (tail_ih head_closed (by omega)) closes
  | primary_literal taken literal_eq =>
    obtain ⟨steps, rfl⟩ := enough.exists_step closed (.primary_literal taken literal_eq)
    exact primary_literal taken literal_eq
  | primary_identifier taken lexeme_eq =>
    obtain ⟨steps, rfl⟩ := enough.exists_step closed (.primary_identifier taken lexeme_eq)
    exact primary_identifier taken lexeme_eq
  | primary_this taken lexeme_eq =>
    obtain ⟨steps, rfl⟩ := enough.exists_step closed (.primary_this taken lexeme_eq)
    exact primary_this taken lexeme_eq
  | primary_function taken lexeme_eq tail tail_ih =>
    obtain ⟨taken_closed, taken_taken⟩ :=
      taken.shortens_keyword (Token.keyword?_eq_some_iff.mpr lexeme_eq) closed
    obtain ⟨_, tail_taken⟩ := tail.shortens taken_closed
    simp only [Form.Affords, Form.rank, Form.least] at *
    obtain ⟨steps, rfl⟩ := Nat.exists_eq_add_of_le' (show 1 ≤ steps by omega)
    exact primary_function taken lexeme_eq (tail_ih taken_closed (by omega))
  | primary_parens opens inside closes inside_ih =>
    obtain ⟨opens_closed, opens_taken⟩ := opens.shortens closed
    obtain ⟨inside_closed, inside_taken⟩ := inside.shortens opens_closed
    obtain ⟨_, closes_taken⟩ := closes.shortens inside_closed
    simp only [Form.Affords, Form.rank, Form.least] at *
    obtain ⟨steps, rfl⟩ := Nat.exists_eq_add_of_le' (show 1 ≤ steps by omega)
    exact primary_parens opens (inside_ih opens_closed (by omega)) closes
  | primary_array taken sign_eq inside inside_ih =>
    obtain ⟨taken_closed, taken_taken⟩ := TakesSign.shortens ⟨_, taken, sign_eq⟩ closed
    obtain ⟨_, inside_taken⟩ := inside.shortens taken_closed
    simp only [Form.Affords, Form.rank, Form.least, made_tokens] at *
    obtain ⟨steps, rfl⟩ := Nat.exists_eq_add_of_le' (show 1 ≤ steps by omega)
    exact primary_array taken sign_eq (inside_ih taken_closed (by omega))
  | primary_object taken sign_eq inside inside_ih =>
    obtain ⟨taken_closed, taken_taken⟩ := TakesSign.shortens ⟨_, taken, sign_eq⟩ closed
    obtain ⟨_, inside_taken⟩ := inside.shortens taken_closed
    simp only [Form.Affords, Form.rank, Form.least, made_tokens] at *
    obtain ⟨steps, rfl⟩ := Nat.exists_eq_add_of_le' (show 1 ≤ steps by omega)
    exact primary_object taken sign_eq (inside_ih taken_closed (by omega))
  | elements_nil closes =>
    obtain ⟨steps, rfl⟩ := enough.exists_step closed (.elements_nil closes)
    exact elements_nil closes
  | elements_last other head closes head_ih =>
    obtain ⟨head_closed, head_taken⟩ := head.shortens closed
    obtain ⟨_, closes_taken⟩ := closes.shortens head_closed
    simp only [Form.Affords, Form.rank, Form.least] at *
    obtain ⟨steps, rfl⟩ := Nat.exists_eq_add_of_le' (show 1 ≤ steps by omega)
    exact elements_last other (head_ih closed (by omega)) closes
  | elements_cons other head comma tail head_ih tail_ih =>
    obtain ⟨head_closed, head_taken⟩ := head.shortens closed
    obtain ⟨comma_closed, comma_taken⟩ := comma.shortens head_closed
    obtain ⟨_, tail_taken⟩ := tail.shortens comma_closed
    simp only [Form.Affords, Form.rank, Form.least] at *
    obtain ⟨steps, rfl⟩ := Nat.exists_eq_add_of_le' (show 1 ≤ steps by omega)
    exact elements_cons other (head_ih closed (by omega)) comma (tail_ih comma_closed (by omega))
  | properties_nil closes =>
    obtain ⟨steps, rfl⟩ := enough.exists_step closed (.properties_nil closes)
    exact properties_nil closes
  | properties_last other taken key_eq colon head closes head_ih =>
    exact properties_last_completes other taken key_eq colon head closes head_ih closed enough
  | properties_cons other taken key_eq colon head comma tail head_ih tail_ih =>
    exact properties_cons_completes other taken key_eq colon head comma tail head_ih tail_ih closed
      enough
  | functionRest named opens listed inside inside_ih =>
    exact functionRest_completes named opens listed inside inside_ih closed enough
  | block taken sign_eq inside closes inside_ih =>
    obtain ⟨taken_closed, taken_taken⟩ := TakesSign.shortens ⟨_, taken, sign_eq⟩ closed
    obtain ⟨inside_closed, inside_taken⟩ := inside.shortens taken_closed
    obtain ⟨_, closes_taken⟩ := closes.shortens inside_closed
    simp only [Form.Affords, Form.rank, Form.least, made_tokens] at *
    obtain ⟨steps, rfl⟩ := Nat.exists_eq_add_of_le' (show 1 ≤ steps by omega)
    exact block_step taken sign_eq (inside_ih taken_closed (by omega)) closes
  | statements_skip semicolon tail tail_ih =>
    obtain ⟨semicolon_closed, semicolon_taken⟩ := semicolon.shortens closed
    obtain ⟨_, tail_taken⟩ := tail.shortens semicolon_closed
    simp only [Form.Affords, Form.rank, Form.least] at *
    obtain ⟨steps, rfl⟩ := Nat.exists_eq_add_of_le' (show 1 ≤ steps by omega)
    exact statements_skip semicolon (tail_ih semicolon_closed (by omega))
  | statements_close closes =>
    obtain ⟨steps, rfl⟩ := enough.exists_step closed (.statements_close closes)
    exact statements_close closes
  | statements_end ends =>
    obtain ⟨steps, rfl⟩ := enough.exists_step closed (.statements_end ends)
    exact statements_end ends
  | statements_cons other head tail head_ih tail_ih =>
    obtain ⟨head_closed, head_taken⟩ := head.shortens closed
    obtain ⟨_, tail_taken⟩ := tail.shortens head_closed
    simp only [Form.Affords, Form.rank, Form.least] at *
    obtain ⟨steps, rfl⟩ := Nat.exists_eq_add_of_le' (show 1 ≤ steps by omega)
    exact statements_cons other (head_ih closed (by omega)) (tail_ih head_closed (by omega))
  | statement_block opens inside inside_ih =>
    obtain ⟨_, inside_taken⟩ := inside.shortens closed
    simp only [Form.Affords, Form.rank, Form.least] at *
    obtain ⟨steps, rfl⟩ := Nat.exists_eq_add_of_le' (show 1 ≤ steps by omega)
    exact statement_block opens (inside_ih closed (by omega))
  | statement_declaration opens inside inside_ih =>
    obtain ⟨_, inside_taken⟩ := inside.shortens closed
    simp only [Form.Affords, Form.rank, Form.least] at *
    obtain ⟨steps, rfl⟩ := Nat.exists_eq_add_of_le' (show 1 ≤ steps by omega)
    exact statement_declaration opens (inside_ih closed (by omega))
  | statement_conditional opens inside inside_ih =>
    obtain ⟨_, inside_taken⟩ := inside.shortens closed
    simp only [Form.Affords, Form.rank, Form.least] at *
    obtain ⟨steps, rfl⟩ := Nat.exists_eq_add_of_le' (show 1 ≤ steps by omega)
    exact statement_conditional opens (inside_ih closed (by omega))
  | statement_loop opens inside inside_ih =>
    obtain ⟨_, inside_taken⟩ := inside.shortens closed
    simp only [Form.Affords, Form.rank, Form.least] at *
    obtain ⟨steps, rfl⟩ := Nat.exists_eq_add_of_le' (show 1 ≤ steps by omega)
    exact statement_loop opens (inside_ih closed (by omega))
  | statement_expression opens inside inside_ih =>
    obtain ⟨_, inside_taken⟩ := inside.shortens closed
    simp only [Form.Affords, Form.rank, Form.least] at *
    obtain ⟨steps, rfl⟩ := Nat.exists_eq_add_of_le' (show 1 ≤ steps by omega)
    exact statement_expression opens (inside_ih closed (by omega))
  | declaration taken inside ends inside_ih =>
    obtain ⟨taken_closed, taken_taken⟩ := (taken.shortens closed).1
    obtain ⟨inside_closed, inside_taken⟩ := inside.shortens taken_closed
    obtain ⟨_, ends_taken⟩ := ends.shortens inside_closed
    simp only [Form.Affords, Form.rank, Form.least, made_tokens] at *
    obtain ⟨steps, rfl⟩ := Nat.exists_eq_add_of_le' (show 1 ≤ steps by omega)
    exact declaration_step taken (inside_ih taken_closed (by omega)) ends
  | initializer_none other =>
    exact initializer_none other
  | initializer_some sign inner inner_ih =>
    obtain ⟨sign_closed, sign_taken⟩ := sign.shortens closed
    obtain ⟨_, inner_taken⟩ := inner.shortens sign_closed
    simp only [Form.Affords, Form.rank, Form.least] at *
    exact initializer_some sign (inner_ih sign_closed (by omega))
  | declarators_last taken name_eq value other value_ih =>
    obtain ⟨taken_closed, taken_taken⟩ := taken.shortens_identifier name_eq closed
    obtain ⟨_, value_taken⟩ := value.shortens taken_closed
    simp only [Form.Affords, Form.rank, Form.least, made_tokens] at *
    obtain ⟨steps, rfl⟩ := Nat.exists_eq_add_of_le' (show 1 ≤ steps by omega)
    exact declarators_last taken name_eq (value_ih taken_closed (by omega)) other
  | declarators_cons taken name_eq value comma tail value_ih tail_ih =>
    exact declarators_cons_completes taken name_eq value comma tail value_ih tail_ih closed enough
  | alternate_none other =>
    exact alternate_none other
  | alternate_some taken word_eq inside inside_ih =>
    obtain ⟨taken_closed, taken_taken⟩ := taken.shortens_keyword word_eq closed
    obtain ⟨_, inside_taken⟩ := inside.shortens taken_closed
    simp only [Form.Affords, Form.rank, Form.least] at *
    exact alternate_some taken word_eq (inside_ih taken_closed (by omega))
  | conditional taken word_eq opens inside closes first second inside_ih first_ih second_ih =>
    exact conditional_completes taken word_eq opens inside closes first second inside_ih first_ih
      second_ih closed enough
  | loop taken word_eq opens inside closes repeated inside_ih repeated_ih =>
    exact loop_completes taken word_eq opens inside closes repeated inside_ih repeated_ih closed
      enough
  | expressionStatement inside ends inside_ih =>
    obtain ⟨inside_closed, inside_taken⟩ := inside.shortens closed
    obtain ⟨_, ends_taken⟩ := endsExpression_shortens ends inside_closed
    simp only [Form.Affords, Form.rank, Form.least, made_tokens] at *
    obtain ⟨steps, rfl⟩ := Nat.exists_eq_add_of_le' (show 1 ≤ steps by omega)
    exact expressionStatement_step (inside_ih closed (by omega)) ends

/-- A program is read if and only if its statements are derived from its tokens. -/
theorem read_eq_ok_iff {stream : TokenStream} (closed : (State.ofStream stream).Closed)
    {program : Program} :
    (read stream).1 = .ok program ↔
      ∃ listed later, Derives (.statements false) (.ofStream stream) listed later ∧
        (later.made (·.program listed)).1 = program := by
  have outcome : (read stream).1 = .ok program ↔
      ∃ later, Grammar.program (stepsFor stream.tokens.length) (.ofStream stream) =
        .ok program later := by
    unfold read
    split
    · rename_i found later program_eq
      rw [program_eq, Except.ok.injEq]
      constructor
      · rintro rfl
        exact ⟨later, rfl⟩
      · rintro ⟨_, same⟩
        cases same
        rfl
    · rename_i failure later program_eq
      rw [program_eq]
      constructor
      · nofun
      · rintro ⟨_, same⟩
        cases same
  simp only [outcome, Grammar.program, bind_ok, make_ok]
  constructor
  · rintro ⟨later, listed, before, read_eq, made_eq⟩
    exact ⟨listed, before, sound (stepsFor stream.tokens.length) (.statements false) read_eq,
      congrArg Prod.fst made_eq⟩
  · rintro ⟨listed, before, derived, rfl⟩
    have enough : (Form.statements false).Affords (.ofStream stream) before
        (stepsFor stream.tokens.length) := by
      show 16 * stream.tokens.length + 8 ≤
        16 * before.tokens.length + stepsFor stream.tokens.length
      unfold stepsFor
      omega
    have read_eq : statements (stepsFor stream.tokens.length) false (.ofStream stream) =
        .ok listed before :=
      complete derived closed enough
    exact ⟨_, listed, before, read_eq, rfl⟩

end Scriptlet.Grammar
