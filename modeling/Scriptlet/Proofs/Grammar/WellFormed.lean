import Scriptlet.Proofs.Grammar.Complete
import Scriptlet.Proofs.Token.Tiling
import Scriptlet.Proofs.Tree.Every

set_option autoImplicit false

/-!
What is true of every tree that is read from a text: its names are words, its assignments have a
target that can be assigned to, and a second statement of a choice belongs to the nearest choice.
-/
namespace Scriptlet

def IsWord (name : String) : Prop :=
  ∃ c text, name.toList = c :: text ∧ isWordHead c = true ∧ ∀ d ∈ text, isWordPart d = true

/-- Whether a text is a word that is neither reserved nor a constant. -/
def IsName (name : String) : Prop :=
  IsWord name ∧ Lexeme.ofWord name = .identifier name

namespace Lexeme

theorem spelled_word {name : String} (isWord : IsWord name) :
    Spelled name.toList (ofWord name) := by
  obtain ⟨c, text, name_eq, head, parts⟩ := isWord
  have spelled := Spelled.word c text head parts
  rwa [← name_eq, String.ofList_toList] at spelled

/-- A lexeme that comes from a word tells the word. -/
theorem word?_ofWord {token : Token} {word name : String} (lexeme_eq : token.lexeme = ofWord word)
    (name_eq : token.word? = some name) : name = word := by
  unfold ofWord at lexeme_eq
  split at lexeme_eq
  · rename_i isTrue
    simp only [Token.word?, lexeme_eq, Option.some.injEq] at name_eq
    rw [← name_eq, eq_of_beq isTrue]
    rfl
  · split at lexeme_eq
    · rename_i isFalse
      simp only [Token.word?, lexeme_eq, Option.some.injEq] at name_eq
      rw [← name_eq, eq_of_beq isFalse]
      rfl
    · split at lexeme_eq
      · rename_i isNull
        simp only [Token.word?, lexeme_eq, Option.some.injEq] at name_eq
        rw [← name_eq, eq_of_beq isNull]
      · split at lexeme_eq
        · rename_i reserved reserved_eq
          simp only [Token.word?, lexeme_eq, Option.some.injEq] at name_eq
          rw [← name_eq]
          rw [Keyword.ofSpelling?] at reserved_eq
          have found := List.find?_some reserved_eq
          exact eq_of_beq found
        · simp only [Token.word?, lexeme_eq, Option.some.injEq] at name_eq
          exact name_eq.symm

theorem isWord_of_spelled {token : Token} {text : List Char} {name : String}
    (spelled : Spelled text token.lexeme) (name_eq : token.word? = some name) : IsWord name := by
  generalize lexeme_eq : token.lexeme = lexeme at spelled
  cases spelled with
  | word c text head parts =>
    refine ⟨c, text, ?_, head, parts⟩
    rw [word?_ofWord lexeme_eq name_eq, String.toList_ofList]
  | _ => simp [Token.word?, lexeme_eq] at name_eq

theorem isName_of_spelled {token : Token} {text : List Char} {name : String}
    (spelled : Spelled text token.lexeme) (name_eq : token.identifier? = some name) :
    IsName name := by
  have lexeme_eq := Token.identifier?_eq_some_iff.mp name_eq
  have word_eq : token.word? = some name := by simp [Token.word?, lexeme_eq]
  refine ⟨isWord_of_spelled spelled word_eq, ?_⟩
  generalize found_eq : token.lexeme = lexeme at spelled
  cases spelled with
  | word c text head parts =>
    rw [word?_ofWord found_eq word_eq, ← found_eq, lexeme_eq, word?_ofWord found_eq word_eq]
  | _ => simp [lexeme_eq] at found_eq

end Lexeme

/-- Whether a statement ends with a choice that lacks a second statement. -/
def Statement.isOpen : Statement → Bool
  | .conditional _ _ _ none => true
  | .conditional _ _ _ (some alternate) => alternate.isOpen
  | .while _ _ body => body.isOpen
  | _ => false

/-- What is true of each node of a tree that is read from a text. -/
def Node.WellFormed : Node → Prop
  | .expression (.identifier _ name) => IsName name
  | .expression (.member _ _ (.named name)) => IsWord name
  | .expression (.assignment _ _ target _) => target.isAssignable = true
  | .expression (.sequence _ expressions) => 2 ≤ expressions.length
  | .expression (.function _ name params _) =>
    (∀ word, name = some word → IsName word) ∧ ∀ param ∈ params, IsName param
  | .declarator (.mk _ name _) => IsName name
  | .statement (.declaration _ _ declarations) => declarations ≠ []
  | .statement (.conditional _ _ consequent (some _)) => consequent.isOpen = false
  | _ => True

theorem Cursor.scan_spelled {cursor : Cursor} {token : Token}
    (scan_eq : cursor.scan.1 = .ok token) :
    ∃ text, Lexeme.Spelled text token.lexeme := by
  unfold scan at scan_eq
  split at scan_eq
  · cases scan_eq
  · split at scan_eq
    · rename_i lexeme length read_eq
      cases scan_eq
      obtain ⟨text, _, _, spelled, _⟩ := Lexeme.read_split read_eq
      exact ⟨text, spelled⟩
    · cases scan_eq

/-- Every token that is read is spelled somehow. -/
theorem TokenStream.ofCursor_spelled (cursor : Cursor) :
    ∀ token ∈ (ofCursor cursor).tokens, ∃ text, Lexeme.Spelled text token.lexeme := by
  induction measure_eq : cursor.rest.length using Nat.strongRecOn generalizing cursor with
  | ind length inductive_hypothesis =>
    cases scan_eq : cursor.scan.1 with
    | error error =>
      rw [ofCursor_of_error scan_eq]
      nofun
    | ok token =>
      rw [ofCursor_of_ok scan_eq]
      cases last : token.isEnd with
      | true => nofun
      | false =>
        have shorter := Cursor.scan_rest_lt scan_eq last
        intro token' member
        rcases List.mem_cons.mp member with rfl | member
        · exact Cursor.scan_spelled scan_eq
        · exact inductive_hypothesis _ (by omega) cursor.scan.2 rfl token' member

namespace Grammar

def Form.Every {α : Type} (good : Node → Prop) : Form α → α → Prop
  | .expression, value => value.Every good
  | .sequenceRest, value => EveryExpression good value
  | .assignment, value => value.Every good
  | .operation _, value => value.Every good
  | .operationRest _ _, value => value.Every good
  | .operand, value => value.Every good
  | .selections _, value => value.Every good
  | .arguments, value => EveryExpression good value
  | .primary, value => value.Every good
  | .elements, value => EveryExpression good value
  | .properties, value => EveryProperty good value
  | .functionRest _, value => value.Every good
  | .block, value => value.Every good
  | .statements _, value => EveryStatement good value
  | .statement, value => value.Every good
  | .declaration _, value => value.Every good
  | .initializer, value => EveryInit good value
  | .declarators, value => EveryDeclarator good value
  | .alternate, value => EveryAlternate good value
  | .conditional, value => value.Every good
  | .loop, value => value.Every good
  | .expressionStatement, value => value.Every good

def Form.EveryGiven {α : Type} (good : Node → Prop) : Form α → Prop
  | .operationRest _ left => left.Every good
  | .selections inner => inner.Every good
  | _ => True

/-- What else is known of what a form reads: what comes after a statement that ends with a choice
without a second statement, and where a list is not empty. -/
def Form.Knows {α : Type} : Form α → State → α → State → Prop
  | .sequenceRest, state, value, _ => state.Sees (·.punctuator? = some .comma) → value ≠ []
  | .statement, _, value, later =>
    value.isOpen = true → later.Sees (·.keyword? ≠ some .elseWord)
  | .conditional, _, value, later =>
    value.isOpen = true → later.Sees (·.keyword? ≠ some .elseWord)
  | .loop, _, value, later => value.isOpen = true → later.Sees (·.keyword? ≠ some .elseWord)
  | .alternate, state, value, later =>
    (value ≠ none → state.Sees (·.keyword? = some .elseWord)) ∧
      ((∀ statement, value = some statement → statement.isOpen = true) →
        later.Sees (·.keyword? ≠ some .elseWord))
  | .declaration _, _, value, _ => value.isOpen = false
  | .expressionStatement, _, value, _ => value.isOpen = false
  | .declarators, _, value, _ => value ≠ []
  | _, _, _, _ => True

/-- Every token that is left is spelled somehow, and nothing but the end comes after them. -/
structure State.Lawful (state : State) : Prop where
  closed : state.Closed
  spelled : ∀ token ∈ state.tokens, ∃ text, Lexeme.Spelled text token.lexeme

section Small

variable {state later : State}

theorem Takes.lawful {token : Token} (taken : Takes state token later) (lawful : state.Lawful) :
    later.Lawful ∧ (token.isEnd = false → ∃ text, Lexeme.Spelled text token.lexeme) := by
  obtain ⟨next_eq, rfl⟩ := taken
  refine ⟨⟨lawful.closed, fun other member => lawful.spelled other (List.mem_of_mem_tail member)⟩,
    fun going => ?_⟩
  unfold State.next at next_eq
  split at next_eq
  · rename_i first rest tokens_eq
    cases next_eq
    exact lawful.spelled token (by rw [tokens_eq]; exact List.mem_cons_self)
  · rw [lawful.closed token next_eq] at going
    cases going

theorem TakesSign.lawful {sign : Punctuator} (taken : TakesSign state sign later)
    (lawful : state.Lawful) : later.Lawful := by
  obtain ⟨token, taken, _⟩ := taken
  exact (taken.lawful lawful).1

theorem EndsStatement.lawful (ends : EndsStatement state later) (lawful : state.Lawful) :
    later.Lawful := by
  rcases ends with taken | ⟨_, rfl⟩
  · exact taken.lawful lawful
  · exact lawful

theorem endsExpression_lawful {inner : Expression}
    (ends : if inner.isFunction then Accepts state .semicolon later else EndsStatement state later)
    (lawful : state.Lawful) : later.Lawful := by
  split at ends
  · rcases ends with taken | ⟨_, rfl⟩
    · exact taken.lawful lawful
    · exact lawful
  · exact ends.lawful lawful

theorem Takes.isName {token : Token} {name : String} (taken : Takes state token later)
    (name_eq : token.identifier? = some name) (lawful : state.Lawful) : IsName name := by
  obtain ⟨text, spelled⟩ := (taken.lawful lawful).2 (isEnd_of_identifier? name_eq)
  exact Lexeme.isName_of_spelled spelled name_eq

theorem Takes.isWord {token : Token} {name : String} (taken : Takes state token later)
    (name_eq : token.word? = some name) (lawful : state.Lawful) : IsWord name := by
  have going : token.isEnd = false := by
    unfold Token.word? at name_eq
    unfold Token.isEnd
    split at name_eq <;> simp_all
  obtain ⟨text, spelled⟩ := (taken.lawful lawful).2 going
  exact Lexeme.isWord_of_spelled spelled name_eq

theorem TakesName.lawful {name : Option String} (named : TakesName state name later)
    (lawful : state.Lawful) : later.Lawful ∧ ∀ word, name = some word → IsName word := by
  rcases named with ⟨token, word, taken, word_eq, rfl⟩ | ⟨_, rfl, rfl⟩
  · refine ⟨(taken.lawful lawful).1, fun other other_eq => ?_⟩
    cases other_eq
    exact taken.isName word_eq lawful
  · exact ⟨lawful, nofun⟩

theorem TakesParameters.lawful {names : List String} (listed : TakesParameters state names later)
    (lawful : state.Lawful) : later.Lawful ∧ ∀ name ∈ names, IsName name := by
  induction listed with
  | last taken name_eq other =>
    refine ⟨(taken.lawful lawful).1, fun name member => ?_⟩
    rw [List.mem_singleton.mp member]
    exact taken.isName name_eq lawful
  | more taken name_eq comma _ inductive_hypothesis =>
    obtain ⟨later_lawful, rest⟩ :=
      inductive_hypothesis (comma.lawful (taken.lawful lawful).1)
    exact ⟨later_lawful, List.forall_mem_cons.mpr ⟨taken.isName name_eq lawful, rest⟩⟩

theorem TakesParameterList.lawful {names : List String}
    (listed : TakesParameterList state names later) (lawful : state.Lawful) :
    later.Lawful ∧ ∀ name ∈ names, IsName name := by
  rcases listed with ⟨closes, rfl⟩ | ⟨_, named, taken, closes⟩
  · exact ⟨closes.lawful lawful, nofun⟩
  · obtain ⟨named_lawful, names⟩ := taken.lawful lawful
    exact ⟨closes.lawful named_lawful, names⟩

theorem made_lawful_iff {α : Type} {node : Builder → α × Builder} :
    (state.made node).2.Lawful ↔ state.Lawful :=
  ⟨fun ⟨closed, spelled⟩ => ⟨closed, spelled⟩, fun ⟨closed, spelled⟩ => ⟨closed, spelled⟩⟩

theorem made_sees_iff {α : Type} {node : Builder → α × Builder} {property : Token → Prop} :
    (state.made node).2.Sees property ↔ state.Sees property :=
  .rfl

end Small

/-- The next token does not have a property and lack it. -/
theorem State.Sees.absurd {state : State} {property : Token → Prop} (sees : state.Sees property)
    (other : state.Sees fun token => ¬ property token) : False := by
  obtain ⟨token, next_eq, holds⟩ := sees
  obtain ⟨seen, seen_eq, lacks⟩ := other
  rw [next_eq, Except.ok.injEq] at seen_eq
  exact lacks (seen_eq ▸ holds)

theorem every_infixed {good : Node → Prop} {builder : Builder} {operator : InfixOperator}
    {left right : Expression} (left_every : left.Every good) (right_every : right.Every good)
    (whole : ∀ info operator, good (.expression (.binary info operator left right)) ∧
      ∀ operator, good (.expression (.logical info operator left right))) :
    (builder.infixed operator left right).1.Every good := by
  cases operator with
  | binary operator => exact ⟨left_every, right_every, (whole _ operator).1⟩
  | logical operator => exact ⟨left_every, right_every, (whole _ .add).2 operator⟩

/-- What is derived is well-formed. -/
theorem Derives.wellFormed {α : Type} {form : Form α} {state later : State} {value : α}
    (derived : Derives form state value later) (lawful : state.Lawful)
    (given : form.EveryGiven Node.WellFormed) :
    later.Lawful ∧ form.Every Node.WellFormed value ∧ form.Knows state value later := by
  induction derived
  all_goals simp only [Form.Every, Form.EveryGiven, Form.Knows, made_lawful_iff, made_sees_iff] at *
  case expression_several head comma tail head_ih tail_ih =>
    obtain ⟨head_lawful, head_every, _⟩ := head_ih lawful trivial
    obtain ⟨tail_lawful, tail_every, nonempty⟩ := tail_ih head_lawful trivial
    have := List.length_pos_iff.mpr (nonempty comma)
    exact ⟨tail_lawful, ⟨⟨head_every, tail_every⟩, Nat.succ_le_succ this⟩, trivial⟩
  case sequenceRest_nil other => exact ⟨lawful, trivial, fun comma => (comma.absurd other).elim⟩
  case operationRest_more taken sign_eq strong argument tail argument_ih tail_ih =>
    obtain ⟨right_lawful, right_every, _⟩ := argument_ih (taken.lawful lawful).1 trivial
    exact tail_ih right_lawful
      (every_infixed given right_every fun _ _ => ⟨trivial, fun _ => trivial⟩)
  case primary_identifier taken lexeme_eq =>
    exact ⟨(taken.lawful lawful).1,
      taken.isName (Token.identifier?_eq_some_iff.mpr lexeme_eq) lawful, trivial⟩
  case declarators_cons taken name_eq value comma tail value_ih tail_ih =>
    obtain ⟨value_lawful, value_every, _⟩ := value_ih (taken.lawful lawful).1 trivial
    obtain ⟨tail_lawful, tail_every, _⟩ :=
      tail_ih (comma.lawful (made_lawful_iff.mpr value_lawful)) trivial
    exact ⟨tail_lawful, ⟨value_every, taken.isName name_eq lawful, tail_every⟩, nofun⟩
  case conditional condition consequent alternate taken word_eq opens inside closes first second
      inside_ih first_ih second_ih =>
    obtain ⟨inside_lawful, inside_every, _⟩ :=
      inside_ih (opens.lawful (taken.lawful lawful).1) trivial
    obtain ⟨first_lawful, first_every, first_open⟩ :=
      first_ih (closes.lawful inside_lawful) trivial
    obtain ⟨second_lawful, second_every, second_seen, second_open⟩ := second_ih first_lawful trivial
    refine ⟨second_lawful, ⟨inside_every, first_every, second_every, ?_⟩, fun isOpen => ?_⟩
    · cases alternate with
      | none => trivial
      | some inner =>
        cases consequent_eq : consequent.isOpen with
        | false => exact consequent_eq
        | true => exact ((second_seen nofun).absurd (first_open consequent_eq)).elim
    · cases alternate with
      | none => exact second_open nofun
      | some inner =>
        refine second_open fun statement statement_eq => ?_
        cases statement_eq
        exact isOpen
  case alternate_some taken word_eq inner inner_ih =>
    obtain ⟨inner_lawful, inner_every, inner_open⟩ := inner_ih (taken.lawful lawful).1 trivial
    exact ⟨inner_lawful, inner_every, fun _ => ⟨_, taken.1, word_eq⟩,
      fun isOpen => inner_open (isOpen _ rfl)⟩
  all_goals
    try simp only [State.made, Builder.member, Builder.call, Builder.assignment,
      Builder.create, Builder.literal, Builder.this, Builder.object,
      Builder.array, Builder.unary, Builder.function, Builder.declarator, Builder.declaration,
      Builder.loop, Builder.expression, Builder.block, Expression.Every,
      MemberProperty.Every, EveryExpression, EveryProperty, Statement.Every, EveryAlternate,
      EveryInit, EveryDeclarator, Block.Every, EveryStatement, Node.WellFormed,
      Statement.isOpen] at *
    grind -ring -linarith [→ Takes.lawful, → TakesSign.lawful, → EndsStatement.lawful,
      → endsExpression_lawful, → TakesName.lawful, → TakesParameterList.lawful, → Takes.isName,
      → Takes.isWord]

theorem State.lawful_ofText (text : String) : (State.ofStream (.ofText text)).Lawful := by
  obtain ⟨_, ending⟩ := TokenStream.ofCursor_ends (.ofText text)
  exact ⟨ending, TokenStream.ofCursor_spelled (.ofText text)⟩

/-- Every node of a program that is read is well-formed. -/
theorem wellFormed_of_ofText {text : String} {program : Program}
    (read_eq : Program.ofText text = .ok program) : program.Every Node.WellFormed := by
  have lawful := State.lawful_ofText text
  obtain ⟨listed, later, derived, rfl⟩ := (read_eq_ok_iff lawful.closed).mp read_eq
  exact (derived.wellFormed lawful trivial).2.1

end Grammar
end Scriptlet
