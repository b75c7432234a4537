import Mathlib
import Scriptlet.Proofs.Printing.Statement

set_option autoImplicit false

/-!
Printing and reading again. The text of a program that was read from some text is read as the same
program, up to the numbers and ranges of its nodes.
-/
namespace Scriptlet

/-- What a node must be for its text to be read back: strings hold ASCII characters with a picture
only, numbers are finite, keys are words, and no expression statement starts with a brace. -/
def Node.Printable : Node → Prop
  | .expression (.literal _ (.string value)) => ∀ c ∈ value.toList, Text.IsPrintableAscii c
  | .expression (.literal _ (.number value)) => value.isFinite = true
  | .property (.mk key _ _) => IsWord key
  | .statement (.expression _ inner) => inner.text.toList.head? ≠ some '\x7b'
  | _ => True

/-- Whether a finite number that a node holds is written with digits that read back as it. -/
def Node.WritesFinite : Node → Prop
  | .expression (.literal _ (.number value)) => value.isFinite = true → Numeral.ReadsBack value
  | _ => True

/-- What makes a node that is printed readable. -/
def Node.Restorable (node : Node) : Prop :=
  node.WellFormed ∧ node.Printable ∧ node.WritesFinite

theorem Literal.spelled {info : NodeInfo} {value : Literal}
    (good : Node.Restorable (.expression (.literal info value))) :
    ∃ lexeme, Lexeme.Spelled value.text.toList lexeme ∧ Grammar.literal? lexeme = some value := by
  cases value with
  | null =>
    have parts : ∀ c ∈ ['u', 'l', 'l'], isWordPart c = true := List.all_eq_true.mp (by decide)
    exact ⟨.null, .word 'n' ['u', 'l', 'l'] (by decide) parts, rfl⟩
  | boolean value =>
    cases value with
    | true =>
      have parts : ∀ c ∈ ['r', 'u', 'e'], isWordPart c = true := List.all_eq_true.mp (by decide)
      exact ⟨.boolean true, .word 't' ['r', 'u', 'e'] (by decide) parts, rfl⟩
    | false =>
      have parts : ∀ c ∈ ['a', 'l', 's', 'e'], isWordPart c = true :=
        List.all_eq_true.mp (by decide)
      exact ⟨.boolean false, .word 'f' ['a', 'l', 's', 'e'] (by decide) parts, rfl⟩
  | string value => exact ⟨.string value, Lexeme.spelled_quoted good.2.1, rfl⟩
  | number value => exact ⟨.number value, Lexeme.spelled_number (good.2.2 good.2.1), rfl⟩

theorem IsWord.starts {name : String} (isWord : IsWord name) :
    ∃ c, name.toList.head? = some c ∧ c ≠ '=' := by
  obtain ⟨c, tail, name_eq, head, _⟩ := isWord
  refine ⟨c, by rw [name_eq, List.head?_cons], ?_⟩
  rintro rfl
  cases head

theorem Lexeme.Spelled.starts {text : List Char} {lexeme : Lexeme} {value : Literal}
    (spelled : Spelled text lexeme) (literal_eq : Grammar.literal? lexeme = some value) :
    ∃ c, text.head? = some c ∧ c ≠ '=' := by
  cases spelled with
  | endOfSource => cases literal_eq
  | punctuator sign => cases literal_eq
  | string quote isQuote closed =>
    refine ⟨quote, rfl, ?_⟩
    rcases isQuote with rfl | rfl <;> decide
  | word c tail head parts =>
    refine ⟨c, rfl, ?_⟩
    rintro rfl
    cases head
  | number spelled =>
    have starts := startsNumber_append spelled []
    rw [List.append_nil] at starts
    cases text with
    | nil => cases starts
    | cons c tail =>
      refine ⟨c, rfl, ?_⟩
      rintro rfl
      cases tail <;> cases starts

/-- The text of an expression does not start with an equality sign. -/
theorem Expression.text_starts : (expression : Expression) → expression.Every Node.Restorable →
    ∃ c, expression.text.toList.head? = some c ∧ c ≠ '='
  | .literal _ _, good => by
    obtain ⟨_, spelled, literal_eq⟩ := Literal.spelled good
    exact spelled.starts literal_eq
  | .identifier _ _, good => good.1.1.starts
  | .this _, _ => (Keyword.isWord_spelling .thisWord).starts
  | .member _ inner _, good => by
    obtain ⟨c, starts_eq, other⟩ := inner.text_starts good.1
    exact ⟨c, by simp [Expression.text, starts_eq], other⟩
  | .call _ callee _, good => by
    obtain ⟨c, starts_eq, other⟩ := callee.text_starts good.1
    exact ⟨c, by simp [Expression.text, starts_eq], other⟩
  | .assignment .., _ => ⟨'(', by simp [Expression.text, infixText], by decide⟩
  | .object _ properties, _ => by
    cases properties with
    | nil => exact ⟨'\x7b', by simp [Expression.text], by decide⟩
    | cons => exact ⟨'\x7b', by simp [Expression.text, Text.inBraces], by decide⟩
  | .array .., _ => ⟨'[', by simp [Expression.text], by decide⟩
  | .sequence .., _ => ⟨'(', by simp [Expression.text], by decide⟩
  | .unary .., _ => ⟨'(', by simp [Expression.text], by decide⟩
  | .binary .., _ => ⟨'(', by simp [Expression.text, infixText], by decide⟩
  | .logical .., _ => ⟨'(', by simp [Expression.text, infixText], by decide⟩
  | .function .., _ => ⟨'f', by simp [Expression.text], by decide⟩

/-- Every printed tree is read back. -/
theorem restoringCases :
    TreeCases (fun expression => expression.Every Node.Restorable → expression.Restores)
      (fun statement => statement.Every Node.Restorable → statement.Restores) where
  literal info value good := by
    obtain ⟨lexeme, spelled, literal_eq⟩ := Literal.spelled good
    exact Expression.restores_literal spelled literal_eq
  identifier info name good := Expression.restores_identifier good.1
  this info _ := Expression.restores_this
  named info object name inner good := Expression.restores_named (inner good.1) good.2.2.1
  computed info object index inner selector good :=
    Expression.restores_computed (inner good.1) (selector good.2.1)
  call info callee arguments inner each good := by
    have arguments_good := everyExpression_iff.mp good.2.1
    exact Expression.restores_call (inner good.1) fun argument member =>
      each argument member (arguments_good argument member)
  assignment info operator target value left right good :=
    Expression.restores_assignment good.2.2.1 (left good.1) (right good.2.1)
  object info properties each good := by
    have properties_good := everyProperty_iff.mp good.1
    refine Expression.restores_object (fun property member => ?_) fun property member =>
      each property member (properties_good property member).1
    have printable := (properties_good property member).2.2.1
    cases property
    exact printable
  array info elements each good := by
    have elements_good := everyExpression_iff.mp good.1
    exact Expression.restores_array fun element member =>
      each element member (elements_good element member)
  sequence info expressions each good := by
    have expressions_good := everyExpression_iff.mp good.1
    exact Expression.restores_sequence good.2.1 fun expression member =>
      each expression member (expressions_good expression member)
  unary info operator argument inner good :=
    Expression.restores_unary (argument.text_starts good.1) (inner good.1)
  binary info operator left right first second good := by
    refine Expression.restores_infixed (.binary operator) (by rw [Expression.text]; rfl)
      (fun builder before after before_eq after_eq => ?_) (first good.1) (second good.2.1)
    show Expression.binary default operator before.erase after.erase = _
    rw [before_eq, after_eq]
    rfl
  logical info operator left right first second good := by
    refine Expression.restores_infixed (.logical operator) (by rw [Expression.text]; rfl)
      (fun builder before after before_eq after_eq => ?_) (first good.1) (second good.2.1)
    show Expression.logical default operator before.erase after.erase = _
    rw [before_eq, after_eq]
    rfl
  function info name params body each good := by
    obtain ⟨block, statements⟩ := body
    have statements_good := everyStatement_iff.mp good.1
    exact Expression.restores_function good.2.2.1.1 good.2.2.1.2 fun statement member =>
      each statement member (statements_good statement member)
  declaration info kind declarations each good := by
    have declarators_good := everyDeclarator_iff.mp good.1
    refine Statement.restores_declaration good.2.1 (fun declarator member => ?_)
      fun declarator member value init_eq => each declarator member value init_eq
        (everyInit_iff.mp (declarators_good declarator member).1 value init_eq)
    have isName := (declarators_good declarator member).2.1
    cases declarator
    exact isName
  choice info condition consequent test first good :=
    Statement.restores_choice (test good.1) (first good.2.1)
  alternative info condition consequent alternate test first second good :=
    Statement.restores_alternative good.2.2.2.1 (test good.1) (first good.2.1) (second good.2.2.1)
  loop info test body condition inner good :=
    Statement.restores_loop (condition good.1) (inner good.2.1)
  expression info value inner good :=
    Statement.restores_expression good.2.2.1 (inner good.1)
  block info statements each good := by
    have statements_good := everyStatement_iff.mp good.1
    exact Statement.restores_block fun statement member =>
      each statement member (statements_good statement member)

/-- What was read from some text is read again from its own text, up to the numbers and ranges of
nodes, if its nodes are printable and its finite numbers are written with digits that read back. -/
theorem Program.ofText_text {text : String} {program : Program}
    (read_eq : ofText text = .ok program) (printable : program.Every Node.Printable)
    (given : program.Every Node.WritesFinite) :
    ∃ again, ofText program.text = .ok again ∧ again.erase = program.erase := by
  have every := (Grammar.wellFormed_of_ofText read_eq).and (printable.and given)
  have statements_good := everyStatement_iff.mp every
  have restores : ∀ statement ∈ program.body.statements, statement.Restores :=
    fun statement member => restoringCases.forStatement statement (statements_good statement member)
  have isAt := Grammar.State.IsAt.ofText program.text
  have ends (state : Grammar.State) (isAt : state.IsAt []) :
      Grammar.Derives (.statements false) state [] state ∧
        state.Sees (·.keyword? ≠ some .elseWord) := by
    have sees := isAt.nil
    refine ⟨.statements_end (sees.imp fun token lexeme_eq => ?_),
      sees.imp fun token lexeme_eq => ?_⟩
    · simp [Token.isEnd, lexeme_eq]
    · simp [Token.keyword?, lexeme_eq]
  rw [← List.append_nil (String.toList program.text), Program.text] at isAt
  obtain ⟨listed, later, listed_eq, _, _, derived⟩ :=
    reads_statements (by rfl) (by decide) restores ends isAt
  have closed := (Grammar.State.lawful_ofText program.text).closed
  refine ⟨(later.made (·.program listed)).1,
    (Grammar.read_eq_ok_iff closed).mpr ⟨listed, later, derived, rfl⟩, ?_⟩
  show Program.mk default ⟨default, eraseStatements listed⟩ = _
  rw [listed_eq]
  rfl

/-- A number and a call that is given an object, with a reserved word for a key, and a string. -/
def sampleText : String :=
  "1.5+f(\x7bif:-a\x7d,'x')"

/-- The program of `sampleText`, with a value for its number. -/
def sampleProgram (value : Float) : Program :=
  let info (id start stop : Nat) : NodeInfo := ⟨⟨id⟩, ⟨start, stop⟩⟩
  let negated : Expression := .unary (info 3 10 12) .negate (.identifier (info 2 11 12) "a")
  let given : Expression := .object (info 4 6 13) [.mk "if" negated ⟨7, 12⟩]
  let call : Expression := .call (info 6 4 18) (.identifier (info 1 4 5) "f")
    [given, .literal (info 5 14 17) (.string "x")]
  let sum : Expression := .binary (info 7 0 18) .add (.literal (info 0 0 3) (.number value)) call
  ⟨⟨10⟩, ⟨⟨9⟩, [.expression (info 8 0 18) sum]⟩⟩

theorem Numeral.toFloat_sample : Decimal.toFloat ⟨['1'], ['5'], 0⟩ = 1.5 := by rfl

theorem Numeral.readsBack_sample : ReadsBack 1.5 := by
  have text_eq : (plainText 1.5).toList = ['1'] ++ fractionText ['5'] := by rfl
  have digits (c : Char) (isDigit : c.isDigit = true) : ∀ d ∈ [c], d.isDigit = true :=
    List.forall_mem_singleton.mpr isDigit
  exact ⟨['1'], ['5'], List.cons_ne_nil _ _, digits _ rfl, digits _ rfl, text_eq, toFloat_sample⟩

theorem Program.ofText_sample : ofText sampleText = .ok (sampleProgram 1.5) := by
  -- Evaluation stops at a float, so the number is a variable where the other tokens are read.
  have parsed (value : Float) :
      (Grammar.read (.push ⟨.number value, ⟨0, 3⟩, false⟩
        (.ofCursor ⟨"+f(\x7bif:-a\x7d,'x')".toList, 3⟩))).1 = .ok (sampleProgram value) := by
    cbv
  have scanned : (Cursor.ofText sampleText).scan =
      (.ok ⟨.number (Numeral.Decimal.toFloat ⟨['1'], ['5'], 0⟩), ⟨0, 3⟩, false⟩,
        ⟨"+f(\x7bif:-a\x7d,'x')".toList, 3⟩) := by rfl
  show (Grammar.read (.ofCursor (.ofText sampleText))).1 = .ok (sampleProgram 1.5)
  rw [TokenStream.ofCursor_of_ok (congrArg Prod.fst scanned), scanned, Numeral.toFloat_sample]
  exact parsed 1.5

theorem Program.ofText_text_sample :
    ofText sampleText = .ok (sampleProgram 1.5) ∧ (sampleProgram 1.5).Every Node.Printable ∧
      (sampleProgram 1.5).Every Node.WritesFinite ∧
      ∃ again, ofText (sampleProgram 1.5).text = .ok again ∧
        again.erase = (sampleProgram 1.5).erase := by
  have isWord : IsWord "if" := Keyword.isWord_spelling .ifWord
  have finite : (1.5 : Float).isFinite = true := by decide
  have ascii : ∀ c ∈ String.toList "x", Text.IsPrintableAscii c := by
    simp [Text.IsPrintableAscii]
  have braceless (info : NodeInfo) (left right : Expression) :
      (Expression.binary info .add left right).text.toList.head? ≠ some '\x7b' := by
    simp [Expression.text, infixText]
  have printable : (sampleProgram 1.5).Every Node.Printable :=
    ⟨⟨⟨finite, ⟨trivial, ⟨⟨⟨⟨trivial, trivial⟩, isWord, trivial⟩, trivial⟩, ascii, trivial⟩,
      trivial⟩, trivial⟩, braceless _ _ _⟩, trivial⟩
  have given : (sampleProgram 1.5).Every Node.WritesFinite :=
    ⟨⟨⟨fun _ => Numeral.readsBack_sample, ⟨trivial, ⟨⟨⟨⟨trivial, trivial⟩, trivial, trivial⟩,
      trivial⟩, trivial, trivial⟩, trivial⟩, trivial⟩, trivial⟩, trivial⟩
  exact ⟨ofText_sample, printable, given, ofText_text ofText_sample printable given⟩

end Scriptlet
