import Scriptlet.Proofs.Printing.Operand

set_option autoImplicit false

/-!
Reading printed expressions, one kind of expression after the other. What is printed for the
expressions inside is assumed to be read back.
-/
namespace Scriptlet

open Grammar
open Text (commaSeparated)

namespace Text

/-- What stands behind the first of some texts that commas separate. -/
def commaRest : List String → List Char
  | [] => []
  | text :: texts => ',' :: ' ' :: (commaSeparated (text :: texts)).toList

theorem toList_commaSeparated_cons (text : String) (texts : List String) :
    (commaSeparated (text :: texts)).toList = text.toList ++ commaRest texts := by
  cases texts <;> simp [commaSeparated, commaRest]

end Text

open Text (commaRest toList_commaSeparated_cons)

attribute [local simp] Expression.text MemberProperty.text ObjectProperty.text expressionTexts
  propertyTexts

theorem Closes.commaRest {rest : List Char} {sign : Punctuator} (closes : Closes rest sign)
    (texts : List String) : ∃ other, Closes (Text.commaRest texts ++ rest) other := by
  cases texts with
  | nil => exact ⟨sign, closes⟩
  | cons text texts => exact ⟨.comma, closes_sign .comma rfl _⟩

namespace Expression

theorem restores_literal {info : NodeInfo} {value : Literal} {lexeme : Lexeme}
    (spelled : Lexeme.Spelled value.text.toList lexeme)
    (literal_eq : literal? lexeme = some value) : (literal info value).Restores := by
  intro state rest apart isAt
  have other : lexeme ≠ .endOfSource := by
    rintro rfl
    cases literal_eq
  have signless : ∀ sign, lexeme ≠ .punctuator sign := by
    rintro sign rfl
    cases literal_eq
  obtain ⟨token, taken, rfl, later⟩ := isAt.spelled spelled
    (Lexeme.settled_spelled spelled other signless rest)
    (Lexeme.ends_of_apart apart other signless) other
  have opens : state.Sees (·.lexeme.Opens (literal info value).text) := by
    refine taken.sees ?_
    generalize token.lexeme = lexeme at literal_eq
    cases lexeme <;> trivial
  have primary := Derives.primary_literal taken literal_eq
  exact ⟨_, _, by rfl, later.made, opens, readsOperand_primary opens primary⟩

theorem restores_identifier {info : NodeInfo} {name : String} (isName : IsName name) :
    (identifier info name).Restores := by
  intro state rest apart isAt
  obtain ⟨token, taken, lexeme_eq, later⟩ := State.IsAt.word isAt isName.1 apart
  have named : token.lexeme = .identifier name := lexeme_eq.trans isName.2
  have opens : state.Sees (·.lexeme.Opens (identifier info name).text) := by
    refine taken.sees ?_
    rw [named]
    trivial
  have primary := Derives.primary_identifier taken named
  exact ⟨_, _, by rfl, later.made, opens, readsOperand_primary opens primary⟩

theorem restores_this {info : NodeInfo} : (this info).Restores := by
  intro state rest apart isAt
  obtain ⟨token, taken, lexeme_eq, later⟩ := State.IsAt.keyword .thisWord isAt apart
  have opens : state.Sees (·.lexeme.Opens (this info).text) := by
    refine taken.sees ?_
    rw [lexeme_eq]
    exact .inl rfl
  have primary := Derives.primary_this taken lexeme_eq
  exact ⟨_, _, by rfl, later.made, opens, readsOperand_primary opens primary⟩

theorem restores_named {info : NodeInfo} {object : Expression} {name : String}
    (inner : object.Restores) (isWord : IsWord name) :
    (member info object (.named name)).Restores := by
  intro state rest apart isAt
  have text_eq : (member info object (.named name)).text.toList ++ rest =
      object.text.toList ++ ('.' :: (name.toList ++ rest)) := by
    simp
  have ⟨c, tail, name_eq, head, _⟩ := isWord
  have undigit := not_isDigit_of_isWordHead head
  rw [text_eq] at isAt
  obtain ⟨again, between, erase_eq, between_isAt, opens, reads⟩ :=
    inner state _ (by rw [name_eq]; exact apart_dot undigit _) isAt
  obtain ⟨dotted, dot, dotted_isAt⟩ := State.IsAt.takesSign .dot between_isAt (by
    intro d first
    rw [name_eq] at first
    cases first
    exact Punctuator.not_goesOn_dot undigit)
  obtain ⟨token, taken, lexeme_eq, later⟩ := dotted_isAt.word isWord apart
  refine ⟨_, _, ?_, later.made, opens.imp fun _ opens => opens.append _, fun whole last derived =>
    reads whole last (.selections_named dot taken (Token.word?_of_ofWord lexeme_eq) derived)⟩
  show Expression.member default again.erase (.named name) = _
  rw [erase_eq]
  rfl

theorem restores_computed {info : NodeInfo} {object index : Expression} (inner : object.Restores)
    (selector : index.Restores) : (member info object (.computed index)).Restores := by
  intro state rest apart isAt
  have text_eq : (member info object (.computed index)).text.toList ++ rest =
      object.text.toList ++ ('[' :: (index.text.toList ++ (']' :: rest))) := by
    simp
  rw [text_eq] at isAt
  obtain ⟨again, between, erase_eq, between_isAt, opens, reads⟩ :=
    inner state _ (apart_sign .leftBracket rfl _) isAt
  obtain ⟨_, opened, bracket, opened_isAt⟩ := between_isAt.solitary .leftBracket rfl
  obtain ⟨selected, before, selected_eq, before_isAt, _, inside⟩ :=
    selector.expression (closes_sign .rightBracket rfl rest) nofun opened_isAt
  obtain ⟨_, closed, closes, closed_isAt⟩ := before_isAt.solitary .rightBracket rfl
  refine ⟨_, _, ?_, closed_isAt.made, opens.imp fun _ opens => opens.append _,
    fun whole last derived => reads whole last (.selections_computed bracket inside closes derived)⟩
  show Expression.member default again.erase (.computed selected.erase) = _
  rw [erase_eq, selected_eq]
  rfl

end Expression

/-- Expressions behind commas are read up to the closing parenthesis. -/
theorem reads_sequenceRest {expressions : List Expression}
    (each : ∀ expression ∈ expressions, expression.Restores) {state : State} {rest : List Char}
    (isAt : state.IsAt (commaRest (expressionTexts expressions) ++ (')' :: rest))) :
    ∃ again later, eraseExpressions again = eraseExpressions expressions ∧
      later.IsAt (')' :: rest) ∧ Derives .sequenceRest state again later := by
  induction expressions generalizing state with
  | nil =>
    obtain ⟨sees, _⟩ := State.IsAt.solitary .rightParen isAt rfl
    have other := sees.imp fun token sign_eq => show token.punctuator? ≠ some .comma by
      simp [sign_eq]
    exact ⟨[], state, rfl, isAt, .sequenceRest_nil other⟩
  | cons expression expressions inductive_hypothesis =>
    obtain ⟨first, others⟩ := List.forall_mem_cons.mp each
    have text_eq : commaRest (expressionTexts (expression :: expressions)) ++ (')' :: rest) =
        ',' :: ' ' :: (expression.text.toList ++
          (commaRest (expressionTexts expressions) ++ (')' :: rest))) := by
      rw [expressionTexts, commaRest, toList_commaSeparated_cons]
      simp
    rw [text_eq] at isAt
    obtain ⟨_, between, comma, between_isAt⟩ := State.IsAt.solitary .comma isAt rfl
    obtain ⟨sign, closes⟩ := (closes_sign .rightParen rfl rest).commaRest
      (expressionTexts expressions)
    obtain ⟨head, behind, head_eq, behind_isAt, _, derived⟩ :=
      first.assignment closes between_isAt.blank
    obtain ⟨tail, later, tail_eq, later_isAt, tail_derived⟩ :=
      inductive_hypothesis others behind_isAt
    refine ⟨head :: tail, later, ?_, later_isAt, .sequenceRest_cons comma derived tail_derived⟩
    simp only [eraseExpressions, head_eq, tail_eq]

/-- Arguments are read with the closing parenthesis. -/
theorem reads_arguments {arguments : List Expression}
    (each : ∀ argument ∈ arguments, argument.Restores) {state : State} {rest : List Char}
    (isAt : state.IsAt ((commaSeparated (expressionTexts arguments)).toList ++ (')' :: rest))) :
    ∃ again later, eraseExpressions again = eraseExpressions arguments ∧ later.IsAt rest ∧
      Derives .arguments state again later := by
  cases arguments with
  | nil =>
    obtain ⟨_, later, closes, later_isAt⟩ := State.IsAt.solitary .rightParen isAt rfl
    exact ⟨[], later, rfl, later_isAt, .arguments_nil closes⟩
  | cons argument arguments =>
    obtain ⟨first, others⟩ := List.forall_mem_cons.mp each
    rw [expressionTexts, toList_commaSeparated_cons, List.append_assoc] at isAt
    obtain ⟨sign, closes⟩ := (closes_sign .rightParen rfl rest).commaRest
      (expressionTexts arguments)
    obtain ⟨head, behind, head_eq, behind_isAt, opens, derived⟩ := first.assignment closes isAt
    obtain ⟨tail, before, tail_eq, before_isAt, tail_derived⟩ :=
      reads_sequenceRest others behind_isAt
    obtain ⟨_, later, closed, later_isAt⟩ := before_isAt.solitary .rightParen rfl
    refine ⟨head :: tail, later, ?_, later_isAt, .arguments_cons ?_ derived tail_derived closed⟩
    · simp only [eraseExpressions, head_eq, tail_eq]
    · exact opens.imp fun token opens => opens.not_closer .rightParen rfl

/-- Elements are read with the closing bracket. -/
theorem reads_elements {elements : List Expression}
    (each : ∀ element ∈ elements, element.Restores) {state : State} {rest : List Char}
    (isAt : state.IsAt ((commaSeparated (expressionTexts elements)).toList ++ (']' :: rest))) :
    ∃ again later, eraseExpressions again = eraseExpressions elements ∧ later.IsAt rest ∧
      Derives .elements state again later := by
  induction elements generalizing state with
  | nil =>
    obtain ⟨_, later, closes, later_isAt⟩ := State.IsAt.solitary .rightBracket isAt rfl
    exact ⟨[], later, rfl, later_isAt, .elements_nil closes⟩
  | cons element elements inductive_hypothesis =>
    obtain ⟨first, others⟩ := List.forall_mem_cons.mp each
    rw [expressionTexts, toList_commaSeparated_cons, List.append_assoc] at isAt
    obtain ⟨sign, closes⟩ := (closes_sign .rightBracket rfl rest).commaRest
      (expressionTexts elements)
    obtain ⟨head, behind, head_eq, behind_isAt, opens, derived⟩ := first.assignment closes isAt
    have other := opens.imp fun token opens => opens.not_closer .rightBracket rfl
    cases elements with
    | nil =>
      obtain ⟨_, later, closed, later_isAt⟩ := State.IsAt.solitary .rightBracket behind_isAt rfl
      refine ⟨[head], later, ?_, later_isAt, .elements_last other derived closed⟩
      simp only [eraseExpressions, head_eq]
    | cons second elements =>
      obtain ⟨_, between, comma, between_isAt⟩ := State.IsAt.solitary .comma behind_isAt rfl
      obtain ⟨tail, later, tail_eq, later_isAt, tail_derived⟩ :=
        inductive_hypothesis others between_isAt.blank
      refine ⟨head :: tail, later, ?_, later_isAt, .elements_cons other derived comma tail_derived⟩
      rw [eraseExpressions, eraseExpressions, head_eq, tail_eq]

/-- Properties are read with the closing brace. -/
theorem reads_properties {properties : List ObjectProperty}
    (words : ∀ property ∈ properties, IsWord property.key)
    (each : ∀ property ∈ properties, property.value.Restores) {state : State} {rest : List Char}
    (isAt : state.IsAt
      ((commaSeparated (propertyTexts properties)).toList ++ (' ' :: '\x7d' :: rest))) :
    ∃ again later, eraseProperties again = eraseProperties properties ∧ later.IsAt rest ∧
      Derives .properties state again later := by
  induction properties generalizing state with
  | nil =>
    obtain ⟨_, later, closes, later_isAt⟩ := State.IsAt.solitary .rightBrace isAt.blank rfl
    exact ⟨[], later, rfl, later_isAt, .properties_nil closes⟩
  | cons property properties inductive_hypothesis =>
    obtain ⟨isWord, other_words⟩ := List.forall_mem_cons.mp words
    obtain ⟨first, others⟩ := List.forall_mem_cons.mp each
    cases property with
    | mk key value span =>
      have text_eq : (commaSeparated (propertyTexts (.mk key value span :: properties))).toList ++
            (' ' :: '\x7d' :: rest) =
          key.toList ++ (':' :: ' ' :: (value.text.toList ++
            (commaRest (propertyTexts properties) ++ (' ' :: '\x7d' :: rest)))) := by
        simp [toList_commaSeparated_cons]
      rw [text_eq] at isAt
      obtain ⟨token, taken, lexeme_eq, named_isAt⟩ :=
        isAt.word isWord (apart_sign .colon rfl _)
      have key_eq := propertyKey?_of_ofWord lexeme_eq
      have other : state.Sees (·.punctuator? ≠ some .rightBrace) := by
        refine taken.sees fun sign_eq => ?_
        rw [Token.punctuator?_eq_some_iff.mp sign_eq] at lexeme_eq
        exact Lexeme.ofWord_ne_punctuator key _ lexeme_eq.symm
      obtain ⟨_, between, colon, between_isAt⟩ := State.IsAt.solitary .colon named_isAt rfl
      obtain ⟨sign, closes⟩ := (closes_sign .rightBrace rfl rest).space.commaRest
        (propertyTexts properties)
      obtain ⟨head, behind, head_eq, behind_isAt, _, derived⟩ :=
        first.assignment closes between_isAt.blank
      cases properties with
      | nil =>
        obtain ⟨_, later, closed, later_isAt⟩ :=
          State.IsAt.solitary .rightBrace (State.IsAt.blank behind_isAt) rfl
        refine ⟨_, later, ?_, later_isAt, .properties_last other taken key_eq colon derived closed⟩
        simp only [eraseProperties, head_eq, ObjectProperty.value]
      | cons second properties =>
        obtain ⟨_, after, comma, after_isAt⟩ := State.IsAt.solitary .comma behind_isAt rfl
        obtain ⟨tail, later, tail_eq, later_isAt, tail_derived⟩ :=
          inductive_hypothesis other_words others after_isAt.blank
        refine ⟨_, later, ?_, later_isAt,
          .properties_cons other taken key_eq colon derived comma tail_derived⟩
        rw [eraseProperties, eraseProperties, head_eq, tail_eq]
        rfl

namespace Expression

theorem restores_call {info : NodeInfo} {callee : Expression} {arguments : List Expression}
    (inner : callee.Restores) (each : ∀ argument ∈ arguments, argument.Restores) :
    (call info callee arguments).Restores := by
  intro state rest apart isAt
  have text_eq : (call info callee arguments).text.toList ++ rest = callee.text.toList ++
      ('(' :: ((commaSeparated (expressionTexts arguments)).toList ++ (')' :: rest))) := by
    simp
  rw [text_eq] at isAt
  obtain ⟨again, between, erase_eq, between_isAt, opens, reads⟩ :=
    inner state _ (apart_sign .leftParen rfl _) isAt
  obtain ⟨_, opened, paren, opened_isAt⟩ := between_isAt.solitary .leftParen rfl
  obtain ⟨given, later, given_eq, later_isAt, inside⟩ := reads_arguments each opened_isAt
  have opens : state.Sees (·.lexeme.Opens (call info callee arguments).text) := by
    refine opens.imp fun _ opens => ?_
    rw [Expression.text, String.append_assoc, String.append_assoc]
    exact opens.append _
  refine ⟨_, _, ?_, later_isAt.made, opens, fun whole last derived =>
    reads whole last (.selections_call paren inside derived)⟩
  show Expression.call default again.erase (eraseExpressions given) = _
  rw [erase_eq, given_eq]
  rfl

theorem restores_array {info : NodeInfo} {elements : List Expression}
    (each : ∀ element ∈ elements, element.Restores) : (array info elements).Restores := by
  intro state rest apart isAt
  have text_eq : (array info elements).text.toList ++ rest =
      '[' :: ((commaSeparated (expressionTexts elements)).toList ++ (']' :: rest)) := by
    simp
  rw [text_eq] at isAt
  obtain ⟨_, opened, ⟨token, taken, sign_eq⟩, opened_isAt⟩ :=
    State.IsAt.solitary .leftBracket isAt rfl
  obtain ⟨again, later, again_eq, later_isAt, inside⟩ := reads_elements each opened_isAt
  have opens : state.Sees (·.lexeme.Opens (array info elements).text) := by
    refine taken.sees ?_
    rw [Token.punctuator?_eq_some_iff.mp sign_eq]
    exact .inr (.inl rfl)
  have primary := Derives.primary_array taken sign_eq inside
  refine ⟨_, _, ?_, later_isAt.made, opens, readsOperand_primary opens primary⟩
  show Expression.array default (eraseExpressions again) = _
  rw [again_eq]
  rfl

theorem restores_object {info : NodeInfo} {properties : List ObjectProperty}
    (words : ∀ property ∈ properties, IsWord property.key)
    (each : ∀ property ∈ properties, property.value.Restores) :
    (object info properties).Restores := by
  intro state rest apart isAt
  have first : (object info properties).text.toList.head? = some '\x7b' := by
    rw [Expression.text]
    split <;> simp [Text.inBraces]
  have brace : ∃ opened, TakesSign state .leftBrace opened ∧ ∃ again later,
      eraseProperties again = eraseProperties properties ∧ later.IsAt rest ∧
        Derives .properties opened again later := by
    cases properties with
    | nil =>
      have text_eq : (object info []).text.toList ++ rest = '\x7b' :: '\x7d' :: rest := by
        simp
      rw [text_eq] at isAt
      obtain ⟨_, opened, brace, opened_isAt⟩ := State.IsAt.solitary .leftBrace isAt rfl
      obtain ⟨_, later, closes, later_isAt⟩ := State.IsAt.solitary .rightBrace opened_isAt rfl
      exact ⟨opened, brace, [], later, rfl, later_isAt, .properties_nil closes⟩
    | cons property properties =>
      have text_eq : (object info (property :: properties)).text.toList ++ rest = '\x7b' :: ' ' ::
          ((commaSeparated (propertyTexts (property :: properties))).toList ++
            (' ' :: '\x7d' :: rest)) := by
        simp [Text.inBraces]
      rw [text_eq] at isAt
      obtain ⟨_, opened, brace, opened_isAt⟩ := State.IsAt.solitary .leftBrace isAt rfl
      exact ⟨opened, brace, reads_properties words each opened_isAt.blank⟩
  obtain ⟨opened, ⟨token, taken, sign_eq⟩, again, later, again_eq, later_isAt, inside⟩ := brace
  have opens : state.Sees (·.lexeme.Opens (object info properties).text) := by
    refine taken.sees ?_
    rw [Token.punctuator?_eq_some_iff.mp sign_eq]
    exact .inr (.inr ⟨rfl, first⟩)
  have primary := Derives.primary_object taken sign_eq inside
  refine ⟨_, _, ?_, later_isAt.made, opens, readsOperand_primary opens primary⟩
  show Expression.object default (eraseProperties again) = _
  rw [again_eq]
  rfl

/-- An expression that is printed in parentheses is read back if what stands between them is. -/
theorem restores_parens {whole : Expression} (inside : List Char)
    (text_eq : whole.text.toList = '(' :: (inside ++ [')']))
    (each : ∀ (state : State) (rest : List Char), state.IsAt (inside ++ (')' :: rest)) →
      ∃ again later, again.erase = whole.erase ∧ later.IsAt (')' :: rest) ∧
        Derives .expression state again later) : whole.Restores := by
  intro state rest apart isAt
  rw [text_eq, List.cons_append, List.append_assoc] at isAt
  obtain ⟨_, opened, paren, opened_isAt⟩ := State.IsAt.solitary .leftParen isAt rfl
  obtain ⟨again, before, erase_eq, before_isAt, derived⟩ := each opened rest opened_isAt
  obtain ⟨_, later, closes, later_isAt⟩ := State.IsAt.solitary .rightParen before_isAt rfl
  have opens : state.Sees (·.lexeme.Opens whole.text) := by
    obtain ⟨token, taken, sign_eq⟩ := paren
    refine taken.sees ?_
    rw [Token.punctuator?_eq_some_iff.mp sign_eq]
    exact .inl rfl
  exact ⟨again, later, erase_eq, later_isAt, opens,
    readsOperand_primary opens (.primary_parens paren derived closes)⟩

theorem restores_sequence {info : NodeInfo} {expressions : List Expression}
    (several : 2 ≤ expressions.length)
    (each : ∀ expression ∈ expressions, expression.Restores) :
    (sequence info expressions).Restores := by
  refine restores_parens ((commaSeparated (expressionTexts expressions)).toList)
    (by simp) fun state rest isAt => ?_
  match expressions, several with
  | first :: second :: others, _ =>
    obtain ⟨first_restores, rest_restores⟩ := List.forall_mem_cons.mp each
    rw [expressionTexts, toList_commaSeparated_cons, List.append_assoc] at isAt
    have closes := closes_sign .comma rfl
      (' ' :: ((commaSeparated (expressionTexts (second :: others))).toList ++ (')' :: rest)))
    obtain ⟨head, behind, head_eq, behind_isAt, _, derived⟩ :=
      first_restores.assignment closes isAt
    obtain ⟨tail, later, tail_eq, later_isAt, tail_derived⟩ :=
      reads_sequenceRest rest_restores behind_isAt
    refine ⟨_, _, ?_, later_isAt.made,
      .expression_several derived (closes.sees behind behind_isAt) tail_derived⟩
    show Expression.sequence default (head.erase :: eraseExpressions tail) = _
    rw [head_eq, tail_eq]
    rfl

theorem restores_unary {info : NodeInfo} {operator : UnaryOperator} {argument : Expression}
    (starts : ∃ c, argument.text.toList.head? = some c ∧ c ≠ '=')
    (inner : argument.Restores) : (unary info operator argument).Restores := by
  refine restores_parens (operator.sign.characters ++ argument.text.toList)
    (by simp [Punctuator.spelling]) fun state rest isAt => ?_
  rw [List.append_assoc] at isAt
  obtain ⟨c, starts_eq, other⟩ := starts
  obtain ⟨token, taken, lexeme_eq, between_isAt⟩ := isAt.sign (by
    intro d first
    rw [List.head?_append, starts_eq] at first
    cases first
    exact Punctuator.not_goesOn_unary operator other)
  have closes := closes_sign .rightParen rfl rest
  obtain ⟨again, later, erase_eq, later_isAt, _, reads⟩ :=
    inner _ _ closes.apart between_isAt
  have sees := closes.sees later later_isAt
  have derived := Derives.operand_unary taken (Token.punctuator?_eq_some_iff.mpr lexeme_eq)
    (reads.operand sees rfl)
  refine ⟨_, _, ?_, later_isAt.made,
    (derived.assignment_of_operand sees rfl).expression_of_assignment sees nofun⟩
  show Expression.unary default operator again.erase = _
  rw [erase_eq]
  rfl

theorem restores_assignment {info : NodeInfo} {operator : AssignmentOperator}
    {target value : Expression} (assignable : target.isAssignable = true)
    (left : target.Restores) (right : value.Restores) :
    (assignment info operator target value).Restores := by
  refine restores_parens (target.text.toList ++ (' ' :: (operator.sign.characters ++
    (' ' :: value.text.toList)))) (by simp [infixText, Punctuator.spelling])
    fun state rest isAt => ?_
  rw [List.append_assoc, List.cons_append, List.append_assoc, List.cons_append] at isAt
  obtain ⟨first, between, first_eq, between_isAt, _, reads⟩ :=
    left state _ (apart_space _) isAt
  have stops : ∀ c, (' ' :: (value.text.toList ++ (')' :: rest))).head? = some c →
      operator.sign.goesOn c = false := by
    intro c first
    cases first
    exact operator.sign.not_goesOn_blank
  have sees := between_isAt.blank.seesSign _ stops
  obtain ⟨token, taken, lexeme_eq, after_isAt⟩ := between_isAt.blank.sign stops
  have closes := closes_sign .rightParen rfl rest
  obtain ⟨second, later, second_eq, later_isAt, _, derived⟩ :=
    right.assignment closes after_isAt.blank
  have target_derived : Derives (.operation .logicalOr) state first between := by
    refine .operation (reads.operand sees ?_) (operationRest_of_sees sees ?_ _)
    · cases operator <;> rfl
    · cases operator <;> rfl
  have again_assignable : first.isAssignable = true := by
    rw [← isAssignable_erase, first_eq, isAssignable_erase, assignable]
  have whole := Derives.assignment_some target_derived taken
    (Token.punctuator?_eq_some_iff.mpr lexeme_eq) again_assignable derived
  refine ⟨_, _, ?_, later_isAt.made,
    whole.expression_of_assignment (closes.sees _ later_isAt.made) nofun⟩
  show Expression.assignment default operator first.erase second.erase = _
  rw [first_eq, second_eq]
  rfl

/-- Operators between two operands are read back whether they are binary or logical. -/
theorem restores_infixed {whole left right : Expression} (operator : InfixOperator)
    (text_eq : whole.text = infixText operator.sign left.text right.text)
    (erase_eq : ∀ (builder : Builder) (first second : Expression), first.erase = left.erase →
      second.erase = right.erase →
        (builder.infixed operator first second).1.erase = whole.erase)
    (first : left.Restores) (second : right.Restores) : whole.Restores := by
  refine restores_parens (left.text.toList ++ (' ' :: (operator.sign.characters ++
    (' ' :: right.text.toList)))) (by simp [text_eq, infixText, Punctuator.spelling])
    fun state rest isAt => ?_
  rw [List.append_assoc, List.cons_append, List.append_assoc, List.cons_append] at isAt
  obtain ⟨before, between, before_eq, between_isAt, _, reads⟩ :=
    first state _ (apart_space _) isAt
  have stops : ∀ c, (' ' :: (right.text.toList ++ (')' :: rest))).head? = some c →
      operator.sign.goesOn c = false := by
    intro c first
    cases first
    exact operator.sign.not_goesOn_blank
  have sees := between_isAt.blank.seesSign _ stops
  obtain ⟨token, taken, lexeme_eq, after_isAt⟩ := between_isAt.blank.sign stops
  have closes := closes_sign .rightParen rfl rest
  obtain ⟨after, later, after_eq, later_isAt, _, behind⟩ :=
    second _ _ closes.apart after_isAt.blank
  have later_sees := closes.sees later later_isAt
  have strong : ¬ operator.precedence < Precedence.logicalOr := by
    rcases operator with operator | operator <;> cases operator <;> decide
  have argument : Derives (.operation operator.rightPrecedence) _ after later :=
    .operation (behind.operand later_sees rfl) (operationRest_of_sees later_sees rfl _)
  have tail : Derives (.operationRest .logicalOr before) between
      (later.made (·.infixed operator before after)).1
      (later.made (·.infixed operator before after)).2 :=
    .operationRest_more taken (Token.punctuator?_eq_some_iff.mpr lexeme_eq) strong argument
      (operationRest_of_sees (closes.sees _ later_isAt.made) rfl _)
  have operation := Derives.operation
    (reads.operand sees (Punctuator.not_isSelector_infix operator)) tail
  have derived := operation.assignment_of_operation (closes.sees _ later_isAt.made) rfl
  exact ⟨_, _, erase_eq later.builder before after before_eq after_eq, later_isAt.made,
    derived.expression_of_assignment (closes.sees _ later_isAt.made) nofun⟩

end Expression
end Scriptlet
