import Scriptlet.Proofs.Printing.Expression

set_option autoImplicit false

/-!
Reading printed functions, blocks and statements, again one kind after the other.
-/
namespace Scriptlet

open Grammar
open Text (commaSeparated commaRest toList_commaSeparated_cons)

attribute [local simp] Expression.text Statement.text Block.text statementTexts alternateText
  initText

/-- Whether a statement may start with a token, and whether what stands in front of it is then no
choice that goes on. -/
def Token.OpensStatement (token : Token) : Prop :=
  token.punctuator? ≠ some .semicolon ∧ token.punctuator? ≠ some .rightBrace ∧
    token.isEnd = false ∧ token.keyword? ≠ some .elseWord

/-- What reading gives where a statement is printed: one that is the same up to numbers and ranges,
as long as a choice without a second statement is not read on. -/
def Statement.Restores (statement : Statement) : Prop :=
  ∀ (state : State) (rest : List Char), state.IsAt (statement.text.toList ++ rest) →
    ∃ again later, again.erase = statement.erase ∧ later.IsAt rest ∧
      state.Sees (·.OpensStatement) ∧
        ((statement.isOpen = true → later.Sees (·.keyword? ≠ some .elseWord)) →
          Derives .statement state again later)

theorem Token.opensStatement_of_keyword {token : Token} {word : Keyword}
    (lexeme_eq : token.lexeme = .keyword word) (other : word ≠ .elseWord) :
    token.OpensStatement := by
  simp [OpensStatement, punctuator?, isEnd, keyword?, lexeme_eq, other]

theorem Token.opensStatement_of_brace {token : Token}
    (sign_eq : token.punctuator? = some .leftBrace) : token.OpensStatement := by
  have lexeme_eq := Token.punctuator?_eq_some_iff.mp sign_eq
  simp [OpensStatement, sign_eq, isEnd, keyword?, lexeme_eq]

theorem Token.opensStatement_of_opens {token : Token} {text : String}
    (opens : token.lexeme.Opens text) : token.OpensStatement := by
  refine ⟨opens.not_closer .semicolon rfl, opens.not_closer .rightBrace rfl, ?_, ?_⟩
  · generalize lexeme_eq : token.lexeme = lexeme at opens
    cases lexeme <;> first | exact opens.elim | simp [isEnd, lexeme_eq]
  · intro word_eq
    rw [Token.keyword?_eq_some_iff.mp word_eq] at opens
    rcases opens with isThis | isFunction
    · cases isThis
    · cases isFunction

/-- Statements with white space between them are read one after the other. -/
theorem reads_statements {separator : String} {c : Char} (separator_eq : separator.toList = [c])
    (blank : Text.isBlank c = true) {inBlock : Bool} {statements : List Statement}
    (each : ∀ statement ∈ statements, statement.Restores) {rest : List Char}
    (ends : ∀ state : State, state.IsAt rest →
      Derives (.statements inBlock) state [] state ∧
        state.Sees (·.keyword? ≠ some .elseWord)) {state : State}
    (isAt : state.IsAt ((separator.intercalate (statementTexts statements)).toList ++ rest)) :
    ∃ again later, eraseStatements again = eraseStatements statements ∧ later.IsAt rest ∧
      state.Sees (·.keyword? ≠ some .elseWord) ∧
        Derives (.statements inBlock) state again later := by
  induction statements generalizing state with
  | nil =>
    rw [statementTexts, String.intercalate_nil, String.toList_empty, List.nil_append] at isAt
    obtain ⟨derived, closes⟩ := ends state isAt
    exact ⟨[], state, rfl, isAt, closes, derived⟩
  | cons statement statements inductive_hypothesis =>
    obtain ⟨first, others⟩ := List.forall_mem_cons.mp each
    have behind : ∃ after, (separator.intercalate (statementTexts (statement :: statements))).toList
          ++ rest = statement.text.toList ++ after ∧
        ∀ between : State, between.IsAt after →
          between.IsAt ((separator.intercalate (statementTexts statements)).toList ++ rest) := by
      cases statements with
      | nil => exact ⟨rest, by simp, fun between isAt => by simpa⟩
      | cons second statements =>
        refine ⟨c :: ((separator.intercalate (statementTexts (second :: statements))).toList ++
          rest), ?_, fun between isAt => isAt.skip blank⟩
        simp [separator_eq]
    obtain ⟨after, text_eq, onward⟩ := behind
    rw [text_eq] at isAt
    obtain ⟨head, between, head_eq, between_isAt, opens, derived⟩ := first state after isAt
    obtain ⟨tail, later, tail_eq, later_isAt, sees, tail_derived⟩ :=
      inductive_hypothesis others (onward between between_isAt)
    refine ⟨head :: tail, later, ?_, later_isAt, opens.imp fun token opens => opens.2.2.2,
      .statements_cons ?_ (derived fun _ => sees) tail_derived⟩
    · rw [eraseStatements, eraseStatements, head_eq, tail_eq]
    · exact opens.imp fun token opens => ⟨opens.1, opens.2.2.1, fun _ => opens.2.1⟩

/-- Printed blocks are read back. -/
theorem reads_block {block : Block}
    (each : ∀ statement ∈ block.statements, statement.Restores) {state : State} {rest : List Char}
    (isAt : state.IsAt (block.text.toList ++ rest)) :
    ∃ again later, again.erase = block.erase ∧ later.IsAt rest ∧
      state.Sees (·.punctuator? = some .leftBrace) ∧ Derives .block state again later := by
  obtain ⟨info, statements⟩ := block
  have inside : ∃ opened, TakesSign state .leftBrace opened ∧ ∃ again before,
      eraseStatements again = eraseStatements statements ∧ before.IsAt ('\x7d' :: rest) ∧
        Derives (.statements true) opened again before := by
    cases statements with
    | nil =>
      have text_eq : (Block.mk info []).text.toList ++ rest = '\x7b' :: '\x7d' :: rest := by
        simp
      rw [text_eq] at isAt
      obtain ⟨_, opened, brace, opened_isAt⟩ := State.IsAt.solitary .leftBrace isAt rfl
      obtain ⟨sees, _⟩ := State.IsAt.solitary .rightBrace opened_isAt rfl
      exact ⟨opened, brace, [], opened, rfl, opened_isAt, .statements_close sees⟩
    | cons statement statements =>
      have text_eq : (Block.mk info (statement :: statements)).text.toList ++ rest =
          '\x7b' :: ' ' :: ((" ".intercalate (statementTexts (statement :: statements))).toList ++
            (' ' :: '\x7d' :: rest)) := by
        simp [Text.inBraces]
      rw [text_eq] at isAt
      obtain ⟨_, opened, brace, opened_isAt⟩ := State.IsAt.solitary .leftBrace isAt rfl
      have ends (state : State) (isAt : state.IsAt (' ' :: '\x7d' :: rest)) :
          Derives (.statements true) state [] state ∧
            state.Sees (·.keyword? ≠ some .elseWord) := by
        obtain ⟨sees, _⟩ := State.IsAt.solitary .rightBrace isAt.blank rfl
        refine ⟨.statements_close sees, sees.imp fun token sign_eq => ?_⟩
        simp [Token.keyword?, Token.punctuator?_eq_some_iff.mp sign_eq]
      obtain ⟨again, before, again_eq, before_isAt, _, derived⟩ :=
        reads_statements (by rfl) (by decide) each ends opened_isAt.blank
      exact ⟨opened, brace, again, before, again_eq, before_isAt.blank, derived⟩
  obtain ⟨opened, ⟨token, taken, sign_eq⟩, again, before, again_eq, before_isAt, derived⟩ := inside
  obtain ⟨_, later, closes, later_isAt⟩ := State.IsAt.solitary .rightBrace before_isAt rfl
  refine ⟨_, _, ?_, later_isAt.made, taken.sees sign_eq, .block taken sign_eq derived closes⟩
  show Block.mk default (eraseStatements again) = _
  rw [again_eq]
  rfl

/-- Parameters are read up to the closing parenthesis. -/
theorem takes_parameters {name : String} {names : List String}
    (each : ∀ param ∈ name :: names, IsName param) {state : State} {rest : List Char}
    (isAt : state.IsAt ((commaSeparated (name :: names)).toList ++ (')' :: rest))) :
    ∃ later, TakesParameters state (name :: names) later ∧ later.IsAt (')' :: rest) := by
  induction names generalizing name state with
  | nil =>
    obtain ⟨first, _⟩ := List.forall_mem_cons.mp each
    rw [toList_commaSeparated_cons, List.append_assoc] at isAt
    obtain ⟨token, taken, lexeme_eq, later_isAt⟩ :=
      isAt.word first.1 (apart_sign .rightParen rfl rest)
    obtain ⟨sees, _⟩ := State.IsAt.solitary .rightParen later_isAt rfl
    have name_eq := Token.identifier?_eq_some_iff.mpr (lexeme_eq.trans first.2)
    exact ⟨_, .last taken name_eq (sees.imp fun token sign_eq => by simp [sign_eq]), later_isAt⟩
  | cons second names inductive_hypothesis =>
    obtain ⟨first, others⟩ := List.forall_mem_cons.mp each
    rw [toList_commaSeparated_cons, List.append_assoc] at isAt
    obtain ⟨token, taken, lexeme_eq, between_isAt⟩ :=
      isAt.word first.1 (apart_sign .comma rfl _)
    have name_eq := Token.identifier?_eq_some_iff.mpr (lexeme_eq.trans first.2)
    obtain ⟨_, behind, comma, behind_isAt⟩ := State.IsAt.solitary .comma between_isAt rfl
    obtain ⟨later, taken_rest, later_isAt⟩ := inductive_hypothesis others behind_isAt.blank
    exact ⟨later, .more taken name_eq comma taken_rest, later_isAt⟩

theorem takes_parameterList {names : List String} (each : ∀ param ∈ names, IsName param)
    {state : State} {rest : List Char}
    (isAt : state.IsAt ((commaSeparated names).toList ++ (')' :: rest))) :
    ∃ later, TakesParameterList state names later ∧ later.IsAt rest := by
  cases names with
  | nil =>
    obtain ⟨_, later, closes, later_isAt⟩ := State.IsAt.solitary .rightParen isAt rfl
    exact ⟨later, .inl ⟨closes, rfl⟩, later_isAt⟩
  | cons name names =>
    obtain ⟨named, taken, named_isAt⟩ := takes_parameters each isAt
    obtain ⟨_, later, closes, later_isAt⟩ := State.IsAt.solitary .rightParen named_isAt rfl
    refine ⟨later, .inr ⟨?_, named, taken, closes⟩, later_isAt⟩
    cases taken with
    | last taken name_eq | more taken name_eq =>
      refine taken.sees ?_
      simp [Token.punctuator?, Token.identifier?_eq_some_iff.mp name_eq]

/-- The name of a function, or none in front of a parenthesis, is taken. -/
theorem takes_name {name : Option String} (isName : ∀ word, name = some word → IsName word)
    {state : State} {rest : List Char}
    (isAt : state.IsAt (name.elim [] (fun word => ' ' :: word.toList) ++ ('(' :: rest))) :
    ∃ later, TakesName state name later ∧ later.IsAt ('(' :: rest) := by
  cases name with
  | none =>
    obtain ⟨sees, _⟩ := State.IsAt.solitary .leftParen isAt rfl
    refine ⟨state, .inr ⟨sees.imp fun token sign_eq => ?_, rfl, rfl⟩, isAt⟩
    simp [Token.identifier?, Token.punctuator?_eq_some_iff.mp sign_eq]
  | some word =>
    have named := isName word rfl
    obtain ⟨token, taken, lexeme_eq, later_isAt⟩ :=
      State.IsAt.word (State.IsAt.blank isAt) named.1 (apart_sign .leftParen rfl rest)
    have name_eq := Token.identifier?_eq_some_iff.mpr (lexeme_eq.trans named.2)
    exact ⟨_, .inl ⟨token, word, taken, name_eq, rfl⟩, later_isAt⟩

theorem Expression.restores_function {info : NodeInfo} {name : Option String}
    {params : List String} {body : Block} (isName : ∀ word, name = some word → IsName word)
    (are_names : ∀ param ∈ params, IsName param)
    (each : ∀ statement ∈ body.statements, statement.Restores) :
    (function info name params body).Restores := by
  intro state rest apart isAt
  have text_eq : (function info name params body).text.toList ++ rest =
      (Keyword.spelling .functionWord).toList ++ (name.elim [] (fun word => ' ' :: word.toList) ++
        ('(' :: ((commaSeparated params).toList ++
          (')' :: ' ' :: (body.text.toList ++ rest))))) := by
    cases name <;> simp [Keyword.spelling]
  rw [text_eq] at isAt
  obtain ⟨token, taken, lexeme_eq, token_isAt⟩ := isAt.keyword .functionWord (by
    cases name with
    | none => exact apart_sign .leftParen rfl _
    | some word => exact apart_space _)
  obtain ⟨named, name_taken, named_isAt⟩ := takes_name isName token_isAt
  obtain ⟨_, opened, paren, opened_isAt⟩ := State.IsAt.solitary .leftParen named_isAt rfl
  obtain ⟨listed, list_taken, listed_isAt⟩ := takes_parameterList are_names opened_isAt
  obtain ⟨again, later, again_eq, later_isAt, _, inside⟩ := reads_block each listed_isAt.blank
  have opens : state.Sees (·.lexeme.Opens (function info name params body).text) := by
    refine taken.sees ?_
    rw [lexeme_eq]
    exact .inr rfl
  have primary := Derives.primary_function taken lexeme_eq
    (.functionRest name_taken paren list_taken inside)
  refine ⟨_, _, ?_, later_isAt.made, opens, readsOperand_primary opens primary⟩
  show Expression.function default name params again.erase = _
  rw [again_eq]
  rfl

/-- The initial value of a name, if it has one, is read up to a closing sign. -/
theorem reads_initializer {init : Option Expression}
    (each : ∀ value, init = some value → value.Restores) {state : State} {rest : List Char}
    {sign : Punctuator} (closes : Closes rest sign)
    (isAt : state.IsAt ((initText init).toList ++ rest)) :
    ∃ again later, eraseInit again = eraseInit init ∧ later.IsAt rest ∧
      Derives .initializer state again later := by
  cases init with
  | none =>
    rw [initText, String.toList_empty, List.nil_append] at isAt
    refine ⟨none, state, rfl, isAt, .initializer_none ((closes.sees state isAt).imp ?_)⟩
    intro token sign_eq assign_eq
    rw [sign_eq, Option.some.injEq] at assign_eq
    have closer := closes.closer
    rw [assign_eq] at closer
    cases closer
  | some value =>
    have text_eq : (initText (some value)).toList ++ rest =
        ' ' :: '=' :: ' ' :: (value.text.toList ++ rest) := by
      simp
    rw [text_eq] at isAt
    obtain ⟨between, assign, between_isAt⟩ := State.IsAt.takesSign .assign isAt.blank (by
      intro c first
      cases first
      exact Punctuator.not_goesOn_blank .assign)
    obtain ⟨again, later, again_eq, later_isAt, _, derived⟩ :=
      (each value rfl).assignment closes between_isAt.blank
    refine ⟨some again, later, ?_, later_isAt, .initializer_some assign derived⟩
    rw [eraseInit, eraseInit, again_eq]

theorem apart_initText (init : Option Expression) {rest : List Char} (apart : Apart rest) :
    Apart ((initText init).toList ++ rest) := by
  cases init with
  | none =>
    rw [initText, String.toList_empty, List.nil_append]
    exact apart
  | some value =>
    have text_eq : (initText (some value)).toList ++ rest =
        ' ' :: '=' :: ' ' :: (value.text.toList ++ rest) := by
      simp
    rw [text_eq]
    exact apart_space _

/-- Declared names are read up to the semicolon. -/
theorem reads_declarators {declarators : List Declarator} (nonempty : declarators ≠ [])
    (are_names : ∀ declarator ∈ declarators, IsName declarator.name)
    (each : ∀ declarator ∈ declarators, ∀ value, declarator.init = some value → value.Restores)
    {state : State} {rest : List Char}
    (isAt : state.IsAt ((commaSeparated (declaratorTexts declarators)).toList ++ (';' :: rest))) :
    ∃ again later, eraseDeclarators again = eraseDeclarators declarators ∧
      later.IsAt (';' :: rest) ∧ Derives .declarators state again later := by
  induction declarators generalizing state with
  | nil => exact absurd rfl nonempty
  | cons declarator declarators inductive_hypothesis =>
    obtain ⟨isName, other_names⟩ := List.forall_mem_cons.mp are_names
    obtain ⟨first, others⟩ := List.forall_mem_cons.mp each
    obtain ⟨info, name, init⟩ := declarator
    obtain ⟨sign, closes⟩ := (closes_sign .semicolon rfl rest).commaRest
      (declaratorTexts declarators)
    rw [declaratorTexts, toList_commaSeparated_cons, Declarator.text, String.toList_append,
      List.append_assoc, List.append_assoc] at isAt
    obtain ⟨token, taken, lexeme_eq, named_isAt⟩ :=
      isAt.word isName.1 (apart_initText init closes.apart)
    have name_eq := Token.identifier?_eq_some_iff.mpr (lexeme_eq.trans isName.2)
    obtain ⟨value, behind, value_eq, behind_isAt, derived⟩ :=
      reads_initializer first closes named_isAt
    cases declarators with
    | nil =>
      obtain ⟨sees, _⟩ := State.IsAt.solitary .semicolon behind_isAt rfl
      refine ⟨_, _, ?_, behind_isAt.made, .declarators_last taken name_eq derived
        (sees.imp fun token sign_eq => by simp [sign_eq])⟩
      show [Declarator.mk default name (eraseInit value)] = _
      rw [value_eq]
      rfl
    | cons second declarators =>
      obtain ⟨_, after, comma, after_isAt⟩ :=
        State.IsAt.solitary .comma (State.IsAt.made behind_isAt) rfl
      obtain ⟨tail, later, tail_eq, later_isAt, tail_derived⟩ :=
        inductive_hypothesis nofun other_names others after_isAt.blank
      refine ⟨_, later, ?_, later_isAt, .declarators_cons taken name_eq derived comma tail_derived⟩
      show Declarator.mk default name (eraseInit value) :: eraseDeclarators tail = _
      rw [value_eq, tail_eq]
      rfl

namespace Statement

variable {info : NodeInfo}

theorem restores_declaration {kind : VariableKind} {declarations : List Declarator}
    (nonempty : declarations ≠ [])
    (are_names : ∀ declarator ∈ declarations, IsName declarator.name)
    (each : ∀ declarator ∈ declarations, ∀ value, declarator.init = some value →
      value.Restores) : (declaration info kind declarations).Restores := by
  intro state rest isAt
  have text_eq : (declaration info kind declarations).text.toList ++ rest =
      kind.keyword.spelling.toList ++
        (' ' :: ((commaSeparated (declaratorTexts declarations)).toList ++ (';' :: rest))) := by
    simp
  rw [text_eq] at isAt
  obtain ⟨token, taken, lexeme_eq, token_isAt⟩ := isAt.keyword kind.keyword (apart_space _)
  obtain ⟨again, before, again_eq, before_isAt, inside⟩ :=
    reads_declarators nonempty are_names each token_isAt.blank
  obtain ⟨_, later, semicolon, later_isAt⟩ := State.IsAt.solitary .semicolon before_isAt rfl
  have other : kind.keyword ≠ .elseWord := by cases kind <;> decide
  refine ⟨_, _, ?_, later_isAt.made,
    taken.sees (Token.opensStatement_of_keyword lexeme_eq other), fun _ =>
      .statement_declaration (taken.sees lexeme_eq) (.declaration taken inside (.inl semicolon))⟩
  show Statement.declaration default kind (eraseDeclarators again) = _
  rw [again_eq]
  rfl

theorem restores_expression {inner : Expression}
    (braceless : inner.text.toList.head? ≠ some '\x7b') (restores : inner.Restores) :
    (expression info inner).Restores := by
  intro state rest isAt
  have text_eq : (expression info inner).text.toList ++ rest =
      inner.text.toList ++ (';' :: rest) := by
    simp
  rw [text_eq] at isAt
  obtain ⟨again, before, again_eq, before_isAt, opens, derived⟩ :=
    restores.expression (closes_sign .semicolon rfl rest) nofun isAt
  obtain ⟨_, later, semicolon, later_isAt⟩ := State.IsAt.solitary .semicolon before_isAt rfl
  have starts : state.Sees (startsExpressionStatement ·.lexeme = true) := by
    refine opens.imp fun token opens => ?_
    unfold startsExpressionStatement
    split
    · rename_i lexeme_eq
      rw [lexeme_eq] at opens
      rcases opens with isParen | isBracket | ⟨_, first⟩
      · cases isParen
      · cases isBracket
      · exact absurd first braceless
    · rename_i lexeme_eq
      rw [lexeme_eq] at opens
      rcases opens with rfl | rfl <;> rfl
    · rfl
  have ends : if again.isFunction then Accepts before .semicolon later
      else EndsStatement before later := by
    split
    · exact .inl semicolon
    · exact .inl semicolon
  refine ⟨_, _, ?_, later_isAt.made, opens.imp fun token => Token.opensStatement_of_opens, fun _ =>
    .statement_expression starts (.expressionStatement derived ends)⟩
  show Statement.expression default again.erase = _
  rw [again_eq]
  rfl

theorem restores_block {statements : List Statement}
    (each : ∀ statement ∈ statements, statement.Restores) :
    (block (.mk info statements)).Restores := by
  intro state rest isAt
  have inside : ∀ statement ∈ (Block.mk info statements).statements, statement.Restores := each
  rw [Statement.text] at isAt
  obtain ⟨again, later, again_eq, later_isAt, sees, derived⟩ := reads_block inside isAt
  refine ⟨.block again, later, ?_, later_isAt,
    sees.imp fun token => Token.opensStatement_of_brace, fun _ => .statement_block sees derived⟩
  rw [erase, erase, again_eq]

/-- Conditions stand in parentheses behind a reserved word. -/
theorem takes_condition {word : Keyword} {condition : Expression} (test : condition.Restores)
    {state : State} {rest : List Char}
    (isAt : state.IsAt (word.spelling.toList ++
      (' ' :: '(' :: (condition.text.toList ++ (')' :: ' ' :: rest))))) :
    ∃ token taken opened again before later, Takes state token taken ∧
      token.lexeme = .keyword word ∧ TakesSign taken .leftParen opened ∧
        Derives .expression opened again before ∧ TakesSign before .rightParen later ∧
        again.erase = condition.erase ∧ later.IsAt rest := by
  obtain ⟨token, taken, lexeme_eq, token_isAt⟩ := isAt.keyword word (apart_space _)
  obtain ⟨_, opened, paren, opened_isAt⟩ := State.IsAt.solitary .leftParen token_isAt.blank rfl
  obtain ⟨again, before, again_eq, before_isAt, _, derived⟩ :=
    test.expression (closes_sign .rightParen rfl (' ' :: rest)) nofun opened_isAt
  obtain ⟨_, later, closes, later_isAt⟩ := State.IsAt.solitary .rightParen before_isAt rfl
  exact ⟨token, _, opened, again, before, later, taken, lexeme_eq, paren, derived, closes, again_eq,
    later_isAt.blank⟩

theorem restores_loop {test : Expression} {body : Statement} (condition : test.Restores)
    (inner : body.Restores) : («while» info test body).Restores := by
  intro state rest isAt
  have text_eq : («while» info test body).text.toList ++ rest =
      (Keyword.spelling .whileWord).toList ++
        (' ' :: '(' :: (test.text.toList ++ (')' :: ' ' :: (body.text.toList ++ rest)))) := by
    simp [Keyword.spelling]
  rw [text_eq] at isAt
  obtain ⟨token, opening, opened, again, before, closed, taken, lexeme_eq, paren, inside, closes,
    again_eq, closed_isAt⟩ := takes_condition condition isAt
  obtain ⟨repeated, later, repeated_eq, later_isAt, _, derived⟩ := inner closed rest closed_isAt
  refine ⟨_, _, ?_, later_isAt.made,
    taken.sees (Token.opensStatement_of_keyword lexeme_eq nofun), fun stops =>
      .statement_loop (taken.sees lexeme_eq) (.loop taken (Token.keyword?_eq_some_iff.mpr lexeme_eq)
        paren inside closes (derived stops))⟩
  show Statement.while default again.erase repeated.erase = _
  rw [again_eq, repeated_eq]
  rfl

theorem restores_choice {condition : Expression} {consequent : Statement}
    (test : condition.Restores) (first : consequent.Restores) :
    (conditional info condition consequent none).Restores := by
  intro state rest isAt
  have text_eq : (conditional info condition consequent none).text.toList ++ rest =
      (Keyword.spelling .ifWord).toList ++ (' ' :: '(' :: (condition.text.toList ++
        (')' :: ' ' :: (consequent.text.toList ++ rest)))) := by
    simp [Keyword.spelling]
  rw [text_eq] at isAt
  obtain ⟨token, opening, opened, again, before, closed, taken, lexeme_eq, paren, inside, closes,
    again_eq, closed_isAt⟩ := takes_condition test isAt
  obtain ⟨chosen, later, chosen_eq, later_isAt, _, derived⟩ := first closed rest closed_isAt
  refine ⟨_, _, ?_, later_isAt.made,
    taken.sees (Token.opensStatement_of_keyword lexeme_eq nofun), fun stops =>
      .statement_conditional (taken.sees lexeme_eq)
        (.conditional taken (Token.keyword?_eq_some_iff.mpr lexeme_eq) paren inside closes
          (derived fun _ => stops rfl) (.alternate_none (stops rfl)))⟩
  show Statement.conditional default again.erase chosen.erase none = _
  rw [again_eq, chosen_eq]
  rfl

theorem restores_alternative {condition : Expression} {consequent alternate : Statement}
    (closed : consequent.isOpen = false) (test : condition.Restores)
    (first : consequent.Restores) (second : alternate.Restores) :
    (conditional info condition consequent (some alternate)).Restores := by
  intro state rest isAt
  have text_eq : (conditional info condition consequent (some alternate)).text.toList ++ rest =
      (Keyword.spelling .ifWord).toList ++ (' ' :: '(' :: (condition.text.toList ++
        (')' :: ' ' :: (consequent.text.toList ++ (' ' ::
          ((Keyword.spelling .elseWord).toList ++
            (' ' :: (alternate.text.toList ++ rest)))))))) := by
    simp [Keyword.spelling]
  rw [text_eq] at isAt
  obtain ⟨token, opening, opened, again, before, behind, taken, lexeme_eq, paren, inside, closes,
    again_eq, behind_isAt⟩ := takes_condition test isAt
  obtain ⟨chosen, between, chosen_eq, between_isAt, _, derived⟩ := first behind _ behind_isAt
  obtain ⟨word, word_taken, word_eq, word_isAt⟩ :=
    between_isAt.blank.keyword .elseWord (apart_space _)
  obtain ⟨other, later, other_eq, later_isAt, _, other_derived⟩ := second _ rest word_isAt.blank
  refine ⟨_, _, ?_, later_isAt.made,
    taken.sees (Token.opensStatement_of_keyword lexeme_eq nofun), fun stops =>
      .statement_conditional (taken.sees lexeme_eq)
        (.conditional taken (Token.keyword?_eq_some_iff.mpr lexeme_eq) paren inside closes
          (derived fun isOpen => by rw [closed] at isOpen; cases isOpen)
          (.alternate_some word_taken (Token.keyword?_eq_some_iff.mpr word_eq)
            (other_derived stops)))⟩
  show Statement.conditional default again.erase chosen.erase (some other.erase) = _
  rw [again_eq, chosen_eq, other_eq]
  rfl

end Statement
end Scriptlet
