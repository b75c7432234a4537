import Scriptlet.Proofs.Grammar.Sound
import Scriptlet.Proofs.Tree.Unplaced

set_option autoImplicit false

/-!
Reading a program does not look at places. What the rules read from tokens without places is what
they read from the tokens as they are, with the places forgotten afterwards, and they fail alike.
-/
namespace Scriptlet

namespace Token

/-- A token with its range forgotten. -/
def unplaced (token : Token) : Token :=
  { token with span := ⟨0, 0⟩ }

variable (token : Token)

theorem punctuator?_unplaced : token.unplaced.punctuator? = token.punctuator? :=
  rfl

theorem identifier?_unplaced : token.unplaced.identifier? = token.identifier? :=
  rfl

theorem word?_unplaced : token.unplaced.word? = token.word? :=
  rfl

theorem propertyKey?_unplaced : Grammar.propertyKey? token.unplaced = Grammar.propertyKey? token :=
  rfl

end Token

def LexicalError.unplaced (error : LexicalError) : LexicalError :=
  { error with span := ⟨0, 0⟩ }

/-- An error with its place forgotten. -/
def SourceError.unplaced : SourceError → SourceError
  | .lexical error => .lexical error.unplaced
  | .unexpectedToken expected found _ => .unexpectedToken expected found ⟨0, 0⟩
  | .missingSemicolon found _ => .missingSemicolon found 0
  | .invalidTarget kind _ => .invalidTarget kind ⟨0, 0⟩
  | .unsupportedKeyword word _ => .unsupportedKeyword word ⟨0, 0⟩

/-- Without a place an error is reported alike, but for the place. -/
theorem SourceError.toDiagnostic_unplaced (error : SourceError) :
    error.unplaced.toDiagnostic = { error.toDiagnostic with span := some ⟨0, 0⟩ } := by
  cases error with
  | lexical error =>
    obtain ⟨cause, span⟩ := error
    cases cause <;> rfl
  | _ => rfl

namespace Grammar

/-- A failure with its place forgotten. -/
def Failure.unplaced : Failure → Failure
  | .rejected error => .rejected error.unplaced
  | .exhausted => .exhausted

/-- What comes after the tokens, with its place forgotten. -/
def unplacedEnding : Except LexicalError Token → Except LexicalError Token
  | .ok last => .ok last.unplaced
  | .error error => .error error.unplaced

/-- A state with all places forgotten. -/
def State.unplaced (state : State) : State :=
  ⟨state.tokens.map Token.unplaced, unplacedEnding state.ending, 0, state.builder⟩

/-- What a rule gives, with all places forgotten. -/
def unplacedResult {α : Type} (forget : α → α) :
    EStateM.Result Failure State α → EStateM.Result Failure State α
  | .ok value state => .ok (forget value) state.unplaced
  | .error failure state => .error failure.unplaced state.unplaced

/-- A rule does not look at places: on a state without them, another rule, which differs at most in
the places that it was given, does the same with all places forgotten. -/
def Blind {α : Type} (forget : α → α) (rule other : Rule α) : Prop :=
  ∀ state, other state.unplaced = unplacedResult forget (rule state)

section Combinators

variable {α β : Type} {forget : α → α} {change : β → β} {rule other : Rule α}

theorem blind_pure (value : α) : Blind forget (pure value) (pure (forget value)) :=
  fun _ => rfl

theorem blind_exhausted : Blind forget (throw .exhausted) (throw .exhausted) :=
  fun _ => rfl

theorem blind_reject (error : SourceError) : Blind forget (reject error) (reject error.unplaced) :=
  fun _ => rfl

theorem blind_unexpected (expected : Expectation) (found : Token) :
    Blind forget (unexpected expected found) (unexpected expected found.unplaced) :=
  fun _ => rfl

theorem Blind.bind {next rest : α → Rule β} (first : Blind forget rule other)
    (later : ∀ value, Blind change (next value) (rest (forget value))) :
    Blind change (rule >>= next) (other >>= rest) := by
  intro state
  show EStateM.bind other rest state.unplaced = unplacedResult change (EStateM.bind rule next state)
  rw [EStateM.bind, EStateM.bind, first state]
  cases rule state with
  | ok value after => exact later value after
  | error failure after => rfl

theorem Blind.map {transform : α → β} (first : Blind forget rule other)
    (same : ∀ value, transform (forget value) = change (transform value)) :
    Blind change (transform <$> rule) (transform <$> other) := by
  intro state
  show EStateM.map transform other state.unplaced =
    unplacedResult change (EStateM.map transform rule state)
  rw [EStateM.map, EStateM.map, first state]
  cases rule state with
  | ok value after => exact congrArg (EStateM.Result.ok · after.unplaced) (same value)
  | error failure after => rfl

theorem Blind.discard (first : Blind forget rule other) :
    Blind id (discard rule) (discard other) :=
  first.map fun _ => rfl

theorem Blind.ite {condition : Prop} [Decidable condition] {rule' other' : Rule α}
    (first : Blind forget rule other) (second : Blind forget rule' other') :
    Blind forget (if condition then rule else rule') (if condition then other else other') := by
  split
  · exact first
  · exact second

theorem blind_make {node same : Builder → α × Builder}
    (same_eq : ∀ builder, same builder = (forget (node builder).1, (node builder).2)) :
    Blind forget (make node) (make same) := by
  intro state
  show EStateM.Result.ok (same state.builder).1 _ = _
  simp only [State.unplaced, make, same_eq, unplacedResult]

end Combinators

section Elementary

theorem blind_peek : Blind Token.unplaced peek peek := by
  rintro ⟨tokens, ending, lastEnd, builder⟩
  cases tokens with
  | nil => cases ending <;> rfl
  | cons token tokens => rfl

theorem blind_take : Blind Token.unplaced take take := by
  rintro ⟨tokens, ending, lastEnd, builder⟩
  cases tokens with
  | nil => cases ending <;> rfl
  | cons token tokens => rfl

theorem blind_spanFrom (start : Nat) : Blind (fun _ => ⟨0, 0⟩) (spanFrom start) (spanFrom 0) :=
  fun _ => rfl

theorem blind_spanSince (first : Expression) :
    Blind (fun _ => ⟨0, 0⟩) (spanFrom first.span.start) (spanFrom first.unplaced.span.start) := by
  rw [first.span_unplaced]
  exact blind_spanFrom _

theorem blind_isAt (sign : Punctuator) : Blind id (isAt sign) (isAt sign) :=
  blind_peek.bind fun _ => blind_pure _

theorem blind_accept (sign : Punctuator) : Blind id (accept sign) (accept sign) :=
  (blind_isAt sign).bind fun _ =>
    .ite (blind_take.discard.bind fun _ => blind_pure true) (blind_pure false)

theorem blind_expect (sign : Punctuator) : Blind Token.unplaced (expect sign) (expect sign) :=
  blind_take.bind fun token => .ite (blind_pure token) (blind_unexpected _ token)

theorem blind_expectKeyword (word : Keyword) :
    Blind Token.unplaced (expectKeyword word) (expectKeyword word) :=
  blind_take.bind fun token => .ite (blind_pure token) (blind_unexpected _ token)

theorem blind_expectIdentifier :
    Blind (fun named => (named.1, ⟨0, 0⟩)) expectIdentifier expectIdentifier := by
  refine blind_take.bind fun token => ?_
  rw [Token.identifier?_unplaced]
  cases token.identifier? with
  | none => exact blind_unexpected .identifier token
  | some name => exact blind_pure (name, token.span)

theorem blind_expectPropertyName : Blind id expectPropertyName expectPropertyName := by
  refine blind_take.bind fun token => ?_
  rw [Token.word?_unplaced]
  cases token.word? with
  | none => exact blind_unexpected .propertyName token
  | some name => exact blind_pure name

theorem blind_get : Blind State.unplaced (get : Rule State) get :=
  fun _ => rfl

theorem blind_endStatement : Blind id endStatement endStatement :=
  (blind_accept .semicolon).bind fun _ => .ite (blind_pure ()) <|
    blind_get.bind fun state => blind_peek.bind fun token => .ite (blind_pure ()) <|
      blind_reject (.missingSemicolon token.lexeme state.lastEnd)

end Elementary

def Form.forget {α : Type} : Form α → α → α
  | .expression => Expression.unplaced
  | .sequenceRest => unplacedExpressions
  | .assignment => Expression.unplaced
  | .operation _ => Expression.unplaced
  | .operationRest _ _ => Expression.unplaced
  | .operand => Expression.unplaced
  | .selections _ => Expression.unplaced
  | .arguments => unplacedExpressions
  | .primary => Expression.unplaced
  | .elements => unplacedExpressions
  | .properties => unplacedProperties
  | .functionRest _ => Expression.unplaced
  | .block => Block.unplaced
  | .statements _ => unplacedStatements
  | .statement => Statement.unplaced
  | .declaration _ => Statement.unplaced
  | .initializer => unplacedInit
  | .declarators => unplacedDeclarators
  | .alternate => unplacedAlternate
  | .conditional => Statement.unplaced
  | .loop => Statement.unplaced
  | .expressionStatement => Statement.unplaced

/-- Forgets the places in what a form goes on from. -/
def Form.unplaced {α : Type} : Form α → Form α
  | .operationRest least left => .operationRest least left.unplaced
  | .selections inner => .selections inner.unplaced
  | .functionRest _ => .functionRest 0
  | form => form

/-- No rule looks at places with a number of steps. -/
structure AllBlind (steps : Nat) : Prop where
  form {α : Type} (form : Form α) :
    Blind form.forget (form.rule steps) (form.unplaced.rule steps)
  parameters : Blind id (parameters steps) (parameters steps)

section Rules

variable {steps : Nat} (inner : AllBlind steps)

include inner

theorem expression_blind :
    Blind Expression.unplaced (expression (steps + 1)) (expression (steps + 1)) := by
  refine (inner.form .assignment).bind fun first => (blind_isAt .comma).bind fun _ => .ite ?_ ?_
  · refine (inner.form .sequenceRest).bind fun rest => (blind_spanSince first).bind fun span => ?_
    exact blind_make fun _ => rfl
  · exact blind_pure first

theorem sequenceRest_blind :
    Blind unplacedExpressions (sequenceRest (steps + 1)) (sequenceRest (steps + 1)) := by
  refine (blind_accept .comma).bind fun _ => .ite ?_ (blind_pure [])
  refine (inner.form .assignment).bind fun first => (inner.form .sequenceRest).bind fun rest => ?_
  exact blind_pure (first :: rest)

theorem assignment_blind :
    Blind Expression.unplaced (assignment (steps + 1)) (assignment (steps + 1)) := by
  refine (inner.form (.operation .logicalOr)).bind fun target => blind_peek.bind fun token => ?_
  rw [Token.punctuator?_unplaced]
  cases token.punctuator?.bind Punctuator.assignmentOperator? with
  | none => exact blind_pure target
  | some operator =>
    simp only [Form.forget, Expression.isAssignable_unplaced, Expression.nodeKind_unplaced,
      Expression.span_unplaced]
    refine .ite ?_ (blind_reject (.invalidTarget target.nodeKind target.span))
    refine blind_take.discard.bind fun _ => (inner.form .assignment).bind fun value => ?_
    exact blind_make fun builder => builder.assignment_unplaced operator target value

theorem operation_blind (least : Precedence) :
    Blind Expression.unplaced (operation (steps + 1) least) (operation (steps + 1) least) :=
  (inner.form .operand).bind fun left => inner.form (.operationRest least left)

theorem operationRest_blind (least : Precedence) (left : Expression) :
    Blind Expression.unplaced (operationRest (steps + 1) least left)
      (operationRest (steps + 1) least left.unplaced) := by
  refine blind_peek.bind fun token => ?_
  rw [Token.punctuator?_unplaced]
  cases token.punctuator?.bind Punctuator.infixOperator? with
  | none => exact blind_pure left
  | some operator =>
    refine .ite (blind_pure left) (blind_take.discard.bind fun _ => ?_)
    refine (inner.form (.operation operator.rightPrecedence)).bind fun right => ?_
    exact (blind_make fun builder => builder.infixed_unplaced operator left right).bind
      fun whole => inner.form (.operationRest least whole)

theorem operand_blind : Blind Expression.unplaced (operand (steps + 1)) (operand (steps + 1)) := by
  refine blind_peek.bind fun token => ?_
  rw [Token.punctuator?_unplaced]
  cases token.punctuator?.bind Punctuator.unaryOperator? with
  | none => exact (inner.form .primary).bind fun whole => inner.form (.selections whole)
  | some operator =>
    refine blind_take.bind fun first => (inner.form .operand).bind fun argument => ?_
    simp only [Form.forget, Expression.span_unplaced]
    exact blind_make fun _ => rfl

theorem selections_blind (object : Expression) :
    Blind Expression.unplaced (selections (steps + 1) object)
      (selections (steps + 1) object.unplaced) := by
  refine blind_peek.bind fun token => ?_
  rw [Token.punctuator?_unplaced]
  rcases token.punctuator? with _ | sign
  · exact blind_pure object
  cases sign with
  | dot =>
    refine blind_take.discard.bind fun _ => blind_expectPropertyName.bind fun name => ?_
    refine (blind_spanSince object).bind fun span => ?_
    exact (blind_make fun _ => rfl).bind fun whole => inner.form (.selections whole)
  | leftBracket =>
    refine blind_take.discard.bind fun _ => (inner.form .expression).bind fun index => ?_
    refine (blind_expect .rightBracket).discard.bind fun _ => ?_
    refine (blind_spanSince object).bind fun span => ?_
    exact (blind_make fun _ => rfl).bind fun whole => inner.form (.selections whole)
  | leftParen =>
    refine blind_take.discard.bind fun _ => (inner.form .arguments).bind fun listed => ?_
    refine (blind_spanSince object).bind fun span => ?_
    exact (blind_make fun _ => rfl).bind fun whole => inner.form (.selections whole)
  | _ => exact blind_pure object

theorem arguments_blind :
    Blind unplacedExpressions (arguments (steps + 1)) (arguments (steps + 1)) := by
  refine (blind_accept .rightParen).bind fun _ => .ite (blind_pure []) ?_
  refine (inner.form .assignment).bind fun first => (inner.form .sequenceRest).bind fun rest => ?_
  exact (blind_expect .rightParen).discard.bind fun _ => blind_pure (first :: rest)

theorem primary_blind : Blind Expression.unplaced (primary (steps + 1)) (primary (steps + 1)) := by
  refine blind_take.bind fun token => ?_
  rcases token with ⟨lexeme, span, newline⟩
  have stops : Blind Expression.unplaced (unexpected .expression ⟨lexeme, span, newline⟩)
      (unexpected .expression ⟨lexeme, ⟨0, 0⟩, newline⟩) := blind_unexpected _ _
  cases lexeme with
  | endOfSource => exact stops
  | keyword word =>
    cases word with
    | functionWord => exact inner.form (.functionRest span.start)
    | thisWord => exact blind_make fun _ => rfl
    | _ => exact stops
  | punctuator sign =>
    cases sign with
    | leftParen =>
      refine (inner.form .expression).bind fun whole => ?_
      exact (blind_expect .rightParen).discard.bind fun _ => blind_pure whole
    | leftBracket =>
      refine (inner.form .elements).bind fun listed => ?_
      exact (blind_spanFrom span.start).bind fun _ => blind_make fun _ => rfl
    | leftBrace =>
      refine (inner.form .properties).bind fun listed => ?_
      exact (blind_spanFrom span.start).bind fun _ => blind_make fun _ => rfl
    | _ => exact stops
  | _ => exact blind_make fun _ => rfl

theorem elements_blind :
    Blind unplacedExpressions (elements (steps + 1)) (elements (steps + 1)) := by
  refine (blind_accept .rightBracket).bind fun _ => .ite (blind_pure []) ?_
  refine (inner.form .assignment).bind fun first => (blind_accept .comma).bind fun _ => .ite ?_ ?_
  · exact (inner.form .elements).bind fun rest => blind_pure (first :: rest)
  · exact (blind_expect .rightBracket).discard.bind fun _ => blind_pure [first]

theorem properties_blind :
    Blind unplacedProperties (properties (steps + 1)) (properties (steps + 1)) := by
  refine (blind_accept .rightBrace).bind fun _ => .ite (blind_pure []) ?_
  refine blind_take.bind fun token => ?_
  rw [Token.propertyKey?_unplaced]
  cases propertyKey? token with
  | none => exact blind_unexpected .propertyKey token
  | some key =>
    refine (blind_expect .colon).discard.bind fun _ => (inner.form .assignment).bind fun value => ?_
    refine (blind_spanFrom token.span.start).bind fun span => ?_
    refine (blind_accept .comma).bind fun _ => .ite ?_ ?_
    · exact (inner.form .properties).bind fun rest =>
        blind_pure (ObjectProperty.mk key value span :: rest)
    · exact (blind_expect .rightBrace).discard.bind fun _ =>
        blind_pure [ObjectProperty.mk key value span]

theorem parameters_blind : Blind id (parameters (steps + 1)) (parameters (steps + 1)) := by
  refine blind_expectIdentifier.bind fun named => (blind_accept .comma).bind fun _ => .ite ?_ ?_
  · exact inner.parameters.bind fun rest => blind_pure (named.1 :: rest)
  · exact blind_pure [named.1]

theorem functionRest_blind (start : Nat) :
    Blind Expression.unplaced (functionRest (steps + 1) start) (functionRest (steps + 1) 0) := by
  have name : Blind id functionName functionName := by
    refine blind_peek.bind fun token => .ite ?_ (blind_pure none)
    exact blind_expectIdentifier.map fun _ => rfl
  have list : Blind id (parameterList steps) (parameterList steps) := by
    refine (blind_accept .rightParen).bind fun _ => .ite (blind_pure []) ?_
    exact inner.parameters.bind fun params =>
      (blind_expect .rightParen).discard.bind fun _ => blind_pure params
  rw [functionRest_eq, functionRest_eq]
  refine name.bind fun name => (blind_expect .leftParen).discard.bind fun _ => ?_
  refine list.bind fun params => (inner.form .block).bind fun body => ?_
  exact (blind_spanFrom start).bind fun _ => blind_make fun _ => rfl

theorem block_blind : Blind Block.unplaced (block (steps + 1)) (block (steps + 1)) := by
  refine (blind_expect .leftBrace).bind fun token => ?_
  refine (inner.form (.statements true)).bind fun listed => ?_
  refine (blind_expect .rightBrace).discard.bind fun _ => ?_
  exact (blind_spanFrom token.span.start).bind fun _ => blind_make fun _ => rfl

theorem statements_blind (inBlock : Bool) :
    Blind unplacedStatements (statements (steps + 1) inBlock) (statements (steps + 1) inBlock) := by
  refine (blind_accept .semicolon).bind fun _ => .ite (inner.form (.statements inBlock)) ?_
  refine blind_peek.bind fun token => .ite (blind_pure []) (.ite (.ite ?_ (blind_pure [])) ?_)
  · exact blind_take.bind fun last => blind_unexpected _ last
  · exact (inner.form .statement).bind fun first =>
      (inner.form (.statements inBlock)).bind fun rest => blind_pure (first :: rest)

theorem statement_blind :
    Blind Statement.unplaced (statement (steps + 1)) (statement (steps + 1)) := by
  refine blind_peek.bind fun token => ?_
  rcases token with ⟨lexeme, span, newline⟩
  have plain := inner.form .expressionStatement
  cases lexeme with
  | keyword word =>
    cases word with
    | varWord => exact inner.form (.declaration .var)
    | letWord => exact inner.form (.declaration .let)
    | constWord => exact inner.form (.declaration .const)
    | ifWord => exact inner.form .conditional
    | whileWord => exact inner.form .loop
    | functionWord | thisWord => exact plain
    | elseWord => exact blind_take.bind fun token => blind_unexpected .statement token
    | _ => exact blind_take.bind fun token => blind_reject (.unsupportedKeyword _ token.span)
  | punctuator sign =>
    cases sign with
    | leftBrace => exact (inner.form .block).map fun _ => rfl
    | _ => exact plain
  | _ => exact plain

theorem declaration_blind (kind : VariableKind) :
    Blind Statement.unplaced (declaration (steps + 1) kind) (declaration (steps + 1) kind) := by
  refine blind_take.bind fun token => (inner.form .declarators).bind fun declared => ?_
  refine blind_endStatement.bind fun _ => (blind_spanFrom token.span.start).bind fun _ => ?_
  exact blind_make fun _ => rfl

theorem declarators_blind :
    Blind unplacedDeclarators (declarators (steps + 1)) (declarators (steps + 1)) := by
  rw [declarators_eq]
  refine blind_expectIdentifier.bind fun named => (inner.form .initializer).bind fun init => ?_
  refine (blind_spanFrom named.2.start).bind fun span => ?_
  have make : Blind Declarator.unplaced (make fun builder => builder.declarator named.1 init span)
      (make fun builder => builder.declarator named.1 (unplacedInit init) ⟨0, 0⟩) :=
    blind_make fun _ => rfl
  refine make.bind fun declarator => (blind_accept .comma).bind fun _ => .ite ?_ ?_
  · exact (inner.form .declarators).bind fun rest => blind_pure (declarator :: rest)
  · exact blind_pure [declarator]

theorem conditional_blind :
    Blind Statement.unplaced (conditional (steps + 1)) (conditional (steps + 1)) := by
  rw [conditional_eq]
  refine (blind_expectKeyword .ifWord).bind fun token => ?_
  refine (blind_expect .leftParen).discard.bind fun _ => ?_
  refine (inner.form .expression).bind fun condition => ?_
  refine (blind_expect .rightParen).discard.bind fun _ => ?_
  refine (inner.form .statement).bind fun consequent => (inner.form .alternate).bind fun other => ?_
  exact (blind_spanFrom token.span.start).bind fun _ => blind_make fun _ => rfl

theorem loop_blind : Blind Statement.unplaced (loop (steps + 1)) (loop (steps + 1)) := by
  refine (blind_expectKeyword .whileWord).bind fun token => ?_
  refine (blind_expect .leftParen).discard.bind fun _ => ?_
  refine (inner.form .expression).bind fun test => ?_
  refine (blind_expect .rightParen).discard.bind fun _ =>
    (inner.form .statement).bind fun body => ?_
  exact (blind_spanFrom token.span.start).bind fun _ => blind_make fun _ => rfl

theorem expressionStatement_blind :
    Blind Statement.unplaced (expressionStatement (steps + 1))
      (expressionStatement (steps + 1)) := by
  rw [expressionStatement_eq]
  refine (inner.form .expression).bind fun whole => ?_
  have ends : Blind id (endExpression whole) (endExpression whole.unplaced) := by
    unfold endExpression
    rw [whole.isFunction_unplaced]
    exact .ite (blind_accept .semicolon).discard blind_endStatement
  refine ends.bind fun _ => (blind_spanSince whole).bind fun _ => ?_
  exact blind_make fun _ => rfl

end Rules

theorem initializer_blind {steps : Nat}
    (value : Blind Expression.unplaced (assignment steps) (assignment steps)) :
    Blind unplacedInit (initializer steps) (initializer steps) :=
  (blind_accept .assign).bind fun _ => .ite (value.map fun _ => rfl) (blind_pure none)

theorem alternate_blind {steps : Nat}
    (second : Blind Statement.unplaced (statement steps) (statement steps)) :
    Blind unplacedAlternate (alternate steps) (alternate steps) :=
  blind_peek.bind fun _ => .ite
    (blind_take.discard.bind fun _ => second.map fun _ => rfl) (blind_pure none)

/-- No rule looks at places. -/
theorem allBlind (steps : Nat) : AllBlind steps := by
  induction steps with
  | zero =>
    refine ⟨fun form => ?_, blind_exhausted⟩
    cases form with
    | initializer => exact initializer_blind blind_exhausted
    | alternate => exact alternate_blind blind_exhausted
    | _ => exact blind_exhausted
  | succ steps inner =>
    refine ⟨fun form => ?_, parameters_blind inner⟩
    cases form with
    | expression => exact expression_blind inner
    | sequenceRest => exact sequenceRest_blind inner
    | assignment => exact assignment_blind inner
    | operation least => exact operation_blind inner least
    | operationRest least left => exact operationRest_blind inner least left
    | operand => exact operand_blind inner
    | selections object => exact selections_blind inner object
    | arguments => exact arguments_blind inner
    | primary => exact primary_blind inner
    | elements => exact elements_blind inner
    | properties => exact properties_blind inner
    | functionRest start => exact functionRest_blind inner start
    | block => exact block_blind inner
    | statements inBlock => exact statements_blind inner inBlock
    | statement => exact statement_blind inner
    | declaration kind => exact declaration_blind inner kind
    | initializer => exact initializer_blind (assignment_blind inner)
    | declarators => exact declarators_blind inner
    | alternate => exact alternate_blind (statement_blind inner)
    | conditional => exact conditional_blind inner
    | loop => exact loop_blind inner
    | expressionStatement => exact expressionStatement_blind inner

theorem program_blind (steps : Nat) : Blind Program.unplaced (program steps) (program steps) :=
  ((allBlind steps).form (.statements false)).bind fun _ => blind_make fun _ => rfl

/-- Tokens that differ in their places only are read alike: to trees that differ in their ranges
only, or to failures that do. -/
theorem read_alike {stream other : TokenStream}
    (same : (State.ofStream other).unplaced = (State.ofStream stream).unplaced) :
    (∃ tree copy, (read stream).1 = .ok tree ∧ (read other).1 = .ok copy ∧
      copy.unplaced = tree.unplaced) ∨
    ∃ failure copy, (read stream).1 = .error failure ∧ (read other).1 = .error copy ∧
      copy.unplaced = failure.unplaced := by
  have steps_eq : stepsFor other.tokens.length = stepsFor stream.tokens.length := by
    have lengths := congrArg (fun state => state.tokens.length) same
    simp only [State.unplaced, State.ofStream, List.length_map] at lengths
    rw [lengths]
  have one := program_blind (stepsFor stream.tokens.length) (.ofStream stream)
  have two := program_blind (stepsFor stream.tokens.length) (.ofStream other)
  rw [same, one] at two
  simp only [read, steps_eq]
  cases tree_eq : program (stepsFor stream.tokens.length) (.ofStream stream) with
  | ok tree after =>
    rw [tree_eq] at two
    cases copy_eq : program (stepsFor stream.tokens.length) (.ofStream other) with
    | error failure later =>
      rw [copy_eq] at two
      cases two
    | ok copy later =>
      rw [copy_eq] at two
      rw [unplacedResult, unplacedResult, EStateM.Result.ok.injEq] at two
      exact .inl ⟨tree, copy, rfl, rfl, two.1.symm⟩
  | error failure after =>
    rw [tree_eq] at two
    cases copy_eq : program (stepsFor stream.tokens.length) (.ofStream other) with
    | ok copy later =>
      rw [copy_eq] at two
      cases two
    | error copy later =>
      rw [copy_eq] at two
      rw [unplacedResult, unplacedResult, EStateM.Result.error.injEq] at two
      exact .inr ⟨failure, copy, rfl, rfl, two.1.symm⟩

end Grammar
end Scriptlet
