import Scriptlet.Proofs.Grammar.Derives

set_option autoImplicit false

/-!
When the small rules succeed, and what they do then. A rule with an optional part is put together
from that part and the rest (`functionRest_eq` and the like).
-/
namespace Scriptlet

theorem Token.punctuator?_eq_some_iff {token : Token} {sign : Punctuator} :
    token.punctuator? = some sign ↔ token.lexeme = .punctuator sign := by
  unfold punctuator?
  split <;> simp_all

theorem Token.keyword?_eq_some_iff {token : Token} {word : Keyword} :
    token.keyword? = some word ↔ token.lexeme = .keyword word := by
  unfold keyword?
  split <;> simp_all

theorem Token.identifier?_eq_some_iff {token : Token} {name : String} :
    token.identifier? = some name ↔ token.lexeme = .identifier name := by
  unfold identifier?
  split <;> simp_all

namespace Grammar

/-- Looking up the operator of the next sign. -/
theorem bind_operator? {Operator : Type} {lookUp : Punctuator → Option Operator}
    {spelling : Operator → Punctuator} {token : Token} {operator : Operator}
    (lookUp_iff : ∀ {sign : Punctuator} {operator : Operator},
      lookUp sign = some operator ↔ spelling operator = sign) :
    token.punctuator?.bind lookUp = some operator ↔
      token.punctuator? = some (spelling operator) := by
  rw [Option.bind_eq_some_iff]
  constructor
  · rintro ⟨sign, sign_eq, operator_eq⟩
    rw [sign_eq, lookUp_iff.mp operator_eq]
  · intro sign_eq
    exact ⟨spelling operator, sign_eq, lookUp_iff.mpr rfl⟩

theorem bind_assignmentOperator? {token : Token} {operator : AssignmentOperator} :
    token.punctuator?.bind Punctuator.assignmentOperator? = some operator ↔
      token.punctuator? = some operator.sign :=
  bind_operator? Punctuator.assignmentOperator?_eq_some_iff

theorem bind_infixOperator? {token : Token} {operator : InfixOperator} :
    token.punctuator?.bind Punctuator.infixOperator? = some operator ↔
      token.punctuator? = some operator.sign :=
  bind_operator? Punctuator.infixOperator?_eq_some_iff

theorem bind_unaryOperator? {token : Token} {operator : UnaryOperator} :
    token.punctuator?.bind Punctuator.unaryOperator? = some operator ↔
      token.punctuator? = some operator.sign :=
  bind_operator? Punctuator.unaryOperator?_eq_some_iff

section Outcomes

variable {α β : Type} {state later : State}

theorem bind_ok {rule : Rule α} {next : α → Rule β} {value : β} :
    (rule >>= next) state = .ok value later ↔
      ∃ first between, rule state = .ok first between ∧ next first between = .ok value later := by
  show EStateM.bind rule next state = .ok value later ↔ _
  unfold EStateM.bind
  cases rule state with
  | ok first between => grind
  | error failure between => simp

theorem pure_ok {given value : α} :
    (pure given : Rule α) state = .ok value later ↔ given = value ∧ state = later := by
  show EStateM.pure given state = .ok value later ↔ _
  simp [EStateM.pure]

theorem map_ok {rule : Rule α} {transform : α → β} {value : β} :
    (transform <$> rule) state = .ok value later ↔
      ∃ given, rule state = .ok given later ∧ transform given = value := by
  show EStateM.map transform rule state = .ok value later ↔ _
  unfold EStateM.map
  cases rule state with
  | ok given between => grind
  | error failure between => simp

theorem discard_ok {rule : Rule α} {value : Unit} :
    (discard rule) state = .ok value later ↔ ∃ given, rule state = .ok given later := by
  rw [discard, Functor.mapConst]
  show (EStateM.map (Function.const α ()) rule) state = .ok value later ↔ _
  unfold EStateM.map
  cases rule state with
  | ok given between => simp
  | error failure between => simp

theorem throw_ok {failure : Failure} {value : α} :
    ¬ (throw failure : Rule α) state = .ok value later := by
  show ¬ EStateM.Result.error failure state = .ok value later
  simp

theorem reject_ok {error : SourceError} {value : α} :
    ¬ (reject error : Rule α) state = .ok value later :=
  throw_ok

theorem unexpected_ok {expected : Expectation} {found : Token} {value : α} :
    ¬ (unexpected expected found : Rule α) state = .ok value later :=
  throw_ok

theorem peek_ok {token : Token} :
    peek state = .ok token later ↔ state.next = .ok token ∧ state = later := by
  unfold peek
  cases state.next with
  | ok found => simp
  | error error => simp

theorem take_ok {token : Token} : take state = .ok token later ↔ Takes state token later := by
  unfold take Takes State.after
  cases state.next with
  | ok found => grind
  | error error => simp

theorem make_ok {node : Builder → α × Builder} {value : α} :
    make node state = .ok value later ↔ state.made node = (value, later) := by
  simp [make, State.made]

theorem spanFrom_ok {start : Nat} {span : Span} :
    spanFrom start state = .ok span later ↔ state.spanSince start = span ∧ state = later := by
  show (bind get fun found => pure ⟨start, max found.lastEnd start⟩ : Rule Span) state = _ ↔ _
  simp only [bind_ok, pure_ok]
  show (∃ first between, EStateM.Result.ok state state = .ok first between ∧ _) ↔ _
  simp only [EStateM.Result.ok.injEq, State.spanSince]
  grind

theorem isAt_ok {sign : Punctuator} {found : Bool} :
    isAt sign state = .ok found later ↔
      (∃ token, state.next = .ok token ∧ (token.punctuator? == some sign) = found) ∧
        state = later := by
  simp only [isAt, bind_ok, peek_ok, pure_ok]
  grind

theorem accept_ok {sign : Punctuator} {found : Bool} :
    accept sign state = .ok found later ↔
      found = true ∧ TakesSign state sign later ∨
        found = false ∧ state.Sees (·.punctuator? ≠ some sign) ∧ later = state := by
  simp only [accept, bind_ok, isAt_ok]
  constructor
  · rintro ⟨_, _, ⟨⟨token, next_eq, rfl⟩, rfl⟩, rest⟩
    by_cases sign_eq : token.punctuator? = some sign
    · simp only [sign_eq, BEq.rfl, ↓reduceIte, bind_ok, discard_ok, take_ok, pure_ok] at rest
      obtain ⟨_, _, ⟨taken, takes⟩, rfl, rfl⟩ := rest
      have same : taken = token := by
        have := takes.1
        rw [next_eq] at this
        cases this
        rfl
      exact .inl ⟨rfl, taken, takes, same ▸ sign_eq⟩
    · have other : (token.punctuator? == some sign) = false := by simpa using sign_eq
      simp only [other, Bool.false_eq_true, ↓reduceIte, pure_ok] at rest
      exact .inr ⟨rest.1.symm, ⟨token, next_eq, sign_eq⟩, rest.2.symm⟩
  · rintro (⟨rfl, token, takes, sign_eq⟩ | ⟨rfl, ⟨token, next_eq, other⟩, rfl⟩)
    · refine ⟨true, state, ⟨⟨token, takes.1, by simp [sign_eq]⟩, rfl⟩, ?_⟩
      simp only [↓reduceIte, bind_ok, discard_ok, take_ok, pure_ok]
      exact ⟨(), later, ⟨token, takes⟩, trivial, rfl⟩
    · refine ⟨false, later, ⟨⟨token, next_eq, by simp [other]⟩, rfl⟩, ?_⟩
      simp only [Bool.false_eq_true, ↓reduceIte, pure_ok, and_self]

theorem expect_ok {sign : Punctuator} {token : Token} :
    expect sign state = .ok token later ↔
      Takes state token later ∧ token.punctuator? = some sign := by
  simp only [expect, bind_ok, take_ok]
  constructor
  · rintro ⟨taken, _, takes, rest⟩
    split at rest
    · rename_i sign_eq
      rw [pure_ok] at rest
      obtain ⟨rfl, rfl⟩ := rest
      exact ⟨takes, by simpa using sign_eq⟩
    · exact absurd rest unexpected_ok
  · rintro ⟨takes, sign_eq⟩
    refine ⟨token, later, takes, ?_⟩
    simp [sign_eq, pure_ok]

theorem discard_expect_ok {sign : Punctuator} {value : Unit} :
    (discard (expect sign)) state = .ok value later ↔ TakesSign state sign later := by
  simp only [discard_ok, expect_ok]
  rfl

theorem expectKeyword_ok {word : Keyword} {token : Token} :
    expectKeyword word state = .ok token later ↔
      Takes state token later ∧ token.keyword? = some word := by
  simp only [expectKeyword, bind_ok, take_ok]
  constructor
  · rintro ⟨taken, _, takes, rest⟩
    split at rest
    · rename_i word_eq
      rw [pure_ok] at rest
      obtain ⟨rfl, rfl⟩ := rest
      exact ⟨takes, by simpa using word_eq⟩
    · exact absurd rest unexpected_ok
  · rintro ⟨takes, word_eq⟩
    refine ⟨token, later, takes, ?_⟩
    simp [word_eq, pure_ok]

theorem expectIdentifier_ok {found : String × Span} :
    expectIdentifier state = .ok found later ↔
      ∃ token, Takes state token later ∧ token.identifier? = some found.1 ∧
        token.span = found.2 := by
  simp only [expectIdentifier, bind_ok, take_ok]
  constructor
  · rintro ⟨token, _, takes, rest⟩
    cases name_eq : token.identifier? with
    | none =>
      simp only [name_eq] at rest
      exact absurd rest unexpected_ok
    | some name =>
      simp only [name_eq, pure_ok] at rest
      obtain ⟨rfl, rfl⟩ := rest
      exact ⟨token, takes, name_eq, rfl⟩
  · rintro ⟨token, takes, name_eq, span_eq⟩
    refine ⟨token, later, takes, ?_⟩
    simp [name_eq, span_eq, pure_ok]

theorem expectPropertyName_ok {name : String} :
    expectPropertyName state = .ok name later ↔
      ∃ token, Takes state token later ∧ token.word? = some name := by
  simp only [expectPropertyName, bind_ok, take_ok]
  constructor
  · rintro ⟨token, _, takes, rest⟩
    cases word_eq : token.word? with
    | none =>
      simp only [word_eq] at rest
      exact absurd rest unexpected_ok
    | some word =>
      simp only [word_eq, pure_ok] at rest
      obtain ⟨rfl, rfl⟩ := rest
      exact ⟨token, takes, word_eq⟩
  · rintro ⟨token, takes, word_eq⟩
    refine ⟨token, later, takes, ?_⟩
    simp [word_eq, pure_ok]

theorem get_ok {value : State} :
    (get : Rule State) state = .ok value later ↔ state = value ∧ state = later := by
  show EStateM.Result.ok state state = .ok value later ↔ _
  simp

theorem endStatement_ok {value : Unit} :
    endStatement state = .ok value later ↔ EndsStatement state later := by
  simp only [endStatement, bind_ok, accept_ok]
  constructor
  · rintro ⟨_, _, (⟨rfl, taken⟩ | ⟨rfl, ⟨token, next_eq, other⟩, rfl⟩), rest⟩
    · simp only [↓reduceIte, pure_ok] at rest
      exact .inl (rest.2 ▸ taken)
    · simp only [Bool.false_eq_true, ↓reduceIte, bind_ok, get_ok, peek_ok] at rest
      obtain ⟨_, _, ⟨rfl, rfl⟩, token', _, ⟨next_eq', rfl⟩, rest⟩ := rest
      rw [next_eq, Except.ok.injEq] at next_eq'
      subst next_eq'
      split at rest
      · rename_i ends
        rw [pure_ok] at rest
        refine .inr ⟨⟨token, next_eq, other, ?_⟩, rest.2.symm⟩
        simpa [or_assoc] using ends
      · exact absurd rest reject_ok
  · rintro (taken | ⟨⟨token, next_eq, other, ends⟩, rfl⟩)
    · exact ⟨true, later, .inl ⟨rfl, taken⟩, by simp [pure_ok]⟩
    · refine ⟨false, later, .inr ⟨rfl, ⟨token, next_eq, other⟩, rfl⟩, ?_⟩
      have closed : (token.newlineBefore || token.isEnd ||
          token.punctuator? == some .rightBrace) = true := by simpa [or_assoc] using ends
      simp only [Bool.false_eq_true, ↓reduceIte, bind_ok, get_ok, peek_ok]
      exact ⟨later, later, ⟨rfl, rfl⟩, token, later, ⟨next_eq, rfl⟩, by simp [closed, pure_ok]⟩

end Outcomes

def functionName : Rule (Option String) := do
  if (← peek).identifier?.isSome then
    (fun named => some named.1) <$> expectIdentifier
  else
    pure none

theorem functionName_ok {name : Option String} {state later : State} :
    functionName state = .ok name later ↔ TakesName state name later := by
  simp only [functionName, bind_ok, peek_ok]
  constructor
  · rintro ⟨token, _, ⟨next_eq, rfl⟩, rest⟩
    split at rest
    · simp only [map_ok, expectIdentifier_ok] at rest
      obtain ⟨⟨word, span⟩, ⟨taken, takes, word_eq, _⟩, rfl⟩ := rest
      exact .inl ⟨taken, word, takes, word_eq, rfl⟩
    · rename_i unnamed
      rw [pure_ok] at rest
      obtain ⟨rfl, rfl⟩ := rest
      exact .inr ⟨⟨token, next_eq, by simpa using unnamed⟩, rfl, rfl⟩
  · rintro (⟨token, word, takes, word_eq, rfl⟩ | ⟨⟨token, next_eq, unnamed⟩, rfl, rfl⟩)
    · refine ⟨token, state, ⟨takes.1, rfl⟩, ?_⟩
      simp only [word_eq, Option.isSome_some, ↓reduceIte, map_ok, expectIdentifier_ok]
      exact ⟨(word, token.span), ⟨token, takes, word_eq, rfl⟩, rfl⟩
    · refine ⟨token, later, ⟨next_eq, rfl⟩, ?_⟩
      simp only [unnamed, Option.isSome_none, Bool.false_eq_true, ↓reduceIte, pure_ok, and_self]

/-- The parameters of a function after the opening parenthesis, with the closing one. -/
def parameterList (steps : Nat) : Rule (List String) := do
  if ← accept .rightParen then
    pure []
  else
    let params ← parameters steps
    discard (expect .rightParen)
    pure params

/-- The initial value of a declared name, if it has one. -/
def initializer (steps : Nat) : Rule (Option Expression) := do
  if ← accept .assign then
    some <$> assignment steps
  else
    pure none

/-- The second statement of a choice, if it has one. -/
def alternate (steps : Nat) : Rule (Option Statement) := do
  if (← peek).keyword? == some .elseWord then
    discard take
    some <$> statement steps
  else
    pure none

def endExpression (inner : Expression) : Rule Unit := do
  if inner.isFunction then
    discard (accept .semicolon)
  else
    endStatement

theorem endExpression_ok {inner : Expression} {state later : State} {value : Unit} :
    endExpression inner state = .ok value later ↔
      if inner.isFunction then Accepts state .semicolon later else EndsStatement state later := by
  unfold endExpression
  split
  · simp only [discard_ok, accept_ok, Accepts]
    constructor
    · rintro ⟨found, ⟨_, taken⟩ | ⟨_, other⟩⟩
      · exact .inl taken
      · exact .inr other
    · rintro (taken | other)
      · exact ⟨true, .inl ⟨rfl, taken⟩⟩
      · exact ⟨false, .inr ⟨rfl, other⟩⟩
  · exact endStatement_ok

theorem functionRest_eq (steps start : Nat) : functionRest (steps + 1) start = (do
    let name ← functionName
    discard (expect .leftParen)
    let params ← parameterList steps
    let body ← block steps
    let span ← spanFrom start
    make fun builder => builder.function name params body span) := by
  simp only [functionRest, functionName, parameterList, bind_assoc]
  refine bind_congr fun token => ?_
  split
  all_goals
    refine bind_congr fun name => bind_congr fun _ => bind_congr fun closed => ?_
    split <;> simp only [bind_assoc]

theorem declarators_eq (steps : Nat) : declarators (steps + 1) = (do
    let (name, place) ← expectIdentifier
    let init ← initializer steps
    let span ← spanFrom place.start
    let declarator ← make fun builder => builder.declarator name init span
    if ← accept .comma then
      return declarator :: (← declarators steps)
    else
      return [declarator]) := by
  simp only [declarators, initializer, bind_assoc]
  refine bind_congr fun named => bind_congr fun found => ?_
  split <;> rfl

theorem conditional_eq (steps : Nat) : conditional (steps + 1) = (do
    let start := (← expectKeyword .ifWord).span.start
    discard (expect .leftParen)
    let condition ← expression steps
    discard (expect .rightParen)
    let consequent ← statement steps
    let alternate ← alternate steps
    let span ← spanFrom start
    make fun builder => builder.conditional condition consequent alternate span) := by
  simp only [conditional, alternate, bind_assoc]
  refine bind_congr fun token => bind_congr fun _ => bind_congr fun condition =>
    bind_congr fun _ => bind_congr fun consequent => bind_congr fun next => ?_
  split <;> simp only [bind_assoc]

theorem expressionStatement_eq (steps : Nat) : expressionStatement (steps + 1) = (do
    let inner ← expression steps
    endExpression inner
    let span ← spanFrom inner.span.start
    make fun builder => builder.expression inner span) := by
  simp only [expressionStatement, endExpression]
  refine bind_congr fun inner => ?_
  split <;> rfl

end Grammar
end Scriptlet
