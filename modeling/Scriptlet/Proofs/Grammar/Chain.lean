import Mathlib
import Scriptlet.Proofs.Printing.Expression
import Scriptlet.Proofs.Tree.Grouping

set_option autoImplicit false

/-!
Reading a chain of names with operators between them. However strongly the operators bind, the chain
is one expression, and its operators are grouped by their strengths, those of one strength to the
left.
-/
namespace Scriptlet

open Grammar

/-- The text of a chain: a name, then operators with the names behind them, a space between two. -/
def chainText (first : String) (links : List (InfixOperator × String)) : String :=
  " ".intercalate (first :: links.flatMap fun link => [link.1.sign.spelling, link.2])

/-- What stands behind the first name of a chain. -/
def linksText : List (InfixOperator × String) → List Char
  | [] => []
  | (operator, name) :: links =>
    ' ' :: (operator.sign.characters ++ (' ' :: (name.toList ++ linksText links)))

theorem toList_chainText (first : String) (links : List (InfixOperator × String)) :
    (chainText first links).toList = first.toList ++ linksText links := by
  induction links generalizing first with
  | nil => simp [chainText, linksText]
  | cons link links inductive_hypothesis =>
    have behind := inductive_hypothesis link.2
    rw [chainText] at behind ⊢
    simp only [List.flatMap_cons, List.cons_append, List.nil_append, String.intercalate_cons_cons,
      String.toList_append, behind]
    simp [linksText, Punctuator.spelling]

theorem apart_linksText (links : List (InfixOperator × String)) : Apart (linksText links) := by
  cases links with
  | nil => exact ⟨rfl, nofun⟩
  | cons link links => exact apart_space _

theorem InfixOperator.sign_injective {one other : InfixOperator} (same : one.sign = other.sign) :
    one = other := by
  have one_eq := Punctuator.infixOperator?_eq_some_iff.mpr same
  have other_eq := Punctuator.infixOperator?_eq_some_iff.mpr (Eq.refl other.sign)
  exact Option.some.inj (one_eq.symm.trans other_eq)

/-- The space behind an operator ends its sign. -/
theorem not_goesOn_space (sign : Punctuator) (rest : List Char) :
    ∀ c, (' ' :: rest).head? = some c → sign.goesOn c = false := by
  intro c first
  cases first
  exact sign.not_goesOn_blank

section Places

variable {links : List (InfixOperator × String)} {state : State}

/-- The only sign that can come next in front of operators with names is the first operator. -/
theorem sees_linksText (isAt : state.IsAt (linksText links)) :
    state.Sees fun token => ∀ sign, token.punctuator? = some sign →
      ∃ link ∈ links.head?, link.1.sign = sign := by
  cases links with
  | nil =>
    refine isAt.nil.imp fun token lexeme_eq sign sign_eq => ?_
    rw [Token.punctuator?_eq_some_iff, lexeme_eq] at sign_eq
    cases sign_eq
  | cons link links =>
    have sees := isAt.blank.seesSign link.1.sign (not_goesOn_space _ _)
    refine sees.imp fun token first_eq sign sign_eq => ⟨link, rfl, ?_⟩
    exact Option.some.inj (first_eq.symm.trans sign_eq)

theorem selections_of_linksText (isAt : state.IsAt (linksText links)) (inner : Expression) :
    Derives (.selections inner) state inner state := by
  refine .selections_done ((sees_linksText isAt).imp fun token only => ⟨?_, ?_, ?_⟩)
  all_goals
    intro sign_eq
    obtain ⟨⟨operator, name⟩, _, same⟩ := only _ sign_eq
    have selects := Punctuator.not_isSelector_infix operator
    rw [same] at selects
    cases selects

theorem operationRest_of_linksText (isAt : state.IsAt (linksText links)) {least : Precedence}
    (weak : ∀ link ∈ links.head?, link.1.precedence < least) (left : Expression) :
    Derives (.operationRest least left) state left state := by
  refine .operationRest_done ((sees_linksText isAt).imp fun token only operator sign_eq => ?_)
  obtain ⟨link, head_eq, same⟩ := only _ sign_eq
  rw [← InfixOperator.sign_injective same]
  exact weak link head_eq

/-- A name of a chain is read as an operand. -/
theorem reads_name {name : String} (isName : IsName name)
    (isAt : state.IsAt (name.toList ++ linksText links)) :
    ∃ named later, named.erase = .identifier default name ∧ later.IsAt (linksText links) ∧
      state.Sees (·.lexeme = .identifier name) ∧ Derives .operand state named later := by
  have apart := apart_linksText links
  obtain ⟨token, taken, lexeme_eq, _⟩ := isAt.word isName.1 apart
  have restores : (Expression.identifier default name).Restores :=
    Expression.restores_identifier isName
  obtain ⟨named, later, erase_eq, later_isAt, _, reads⟩ := restores state _ apart isAt
  exact ⟨named, later, erase_eq, later_isAt, taken.sees (lexeme_eq.trans isName.2),
    reads named later (selections_of_linksText later_isAt named)⟩

end Places

/-- An expression that was read in front of the rest of a chain, as a tree that is grouped and whose
outermost operator binds at least as strongly as `least`. -/
structure OperatorTree.Fits (tree : OperatorTree) (least : Precedence) (read : Expression) :
    Prop where
  erase_eq : read.erase = tree.expression
  grouped : tree.Grouped
  strong : ∀ inner ∈ tree.precedence?, least ≤ inner

theorem OperatorTree.fits_operand {name : String} {read : Expression} (least : Precedence)
    (erase_eq : read.erase = .identifier default name) : (operand name).Fits least read :=
  ⟨erase_eq, trivial, nofun⟩

/-- A new operator fits if what stands to its left binds as strongly, and what stands to its right
more strongly. -/
theorem OperatorTree.fits_infixed {operator : InfixOperator} {left right : OperatorTree}
    {least : Precedence} {first second : Expression} (builder : Builder)
    (left_fits : left.Fits least first) (right_fits : right.Fits operator.rightPrecedence second)
    (strong : ¬ operator.precedence < least)
    (weak : ∀ inner ∈ left.precedence?, operator.precedence ≤ inner) :
    (infixed operator left right).Fits least (builder.infixed operator first second).1 where
  erase_eq := by
    cases operator with
    | binary operator =>
      show Expression.binary default operator first.erase second.erase = _
      rw [left_fits.erase_eq, right_fits.erase_eq]
      rfl
    | logical operator =>
      show Expression.logical default operator first.erase second.erase = _
      rw [left_fits.erase_eq, right_fits.erase_eq]
      rfl
  grouped := by
    refine ⟨left_fits.grouped, right_fits.grouped, weak, fun inner inner_eq => ?_⟩
    have above : operator.rightPrecedence.rank ≤ inner.rank := right_fits.strong inner inner_eq
    rw [operator.rank_rightPrecedence] at above
    exact above
  strong := by
    intro inner inner_eq
    cases inner_eq
    exact Nat.le_of_not_lt strong

/-- The operators behind an operand that bind at least as strongly as `least` are read with it, and
no other operators. -/
theorem reads_links {links : List (InfixOperator × String)} (names : ∀ link ∈ links, IsName link.2)
    {least : Precedence} {tree : OperatorTree} {left : Expression} {state : State}
    (isAt : state.IsAt (linksText links)) (fits : tree.Fits least left)
    (weak : ∀ link ∈ links.head?, ∀ inner ∈ tree.precedence?, link.1.precedence ≤ inner) :
    ∃ (grouping : OperatorTree) (taken rest : List (InfixOperator × String)) (whole : Expression)
      (later : State), grouping.first = tree.first ∧ grouping.links = tree.links ++ taken ∧
      links = taken ++ rest ∧ (∀ link ∈ rest.head?, link.1.precedence < least) ∧
      grouping.Fits least whole ∧ later.IsAt (linksText rest) ∧
      Derives (.operationRest least left) state whole later := by
  -- Both the right operand of an operator and what follows it are shorter chains.
  induction measure_eq : links.length using Nat.strongRecOn
    generalizing links least tree left state with
  | ind length inductive_hypothesis =>
    by_cases stops : ∀ link ∈ links.head?, link.1.precedence < least
    · exact ⟨tree, [], links, left, state, rfl, (List.append_nil _).symm, rfl, stops, fits, isAt,
        operationRest_of_linksText isAt stops left⟩
    · cases links with
      | nil => exact absurd nofun stops
      | cons link links =>
        obtain ⟨operator, name⟩ := link
        have strong : ¬ operator.precedence < least := by
          intro isWeak
          apply stops
          intro link link_eq
          cases link_eq
          exact isWeak
        obtain ⟨isName, names⟩ := List.forall_mem_cons.mp names
        obtain ⟨token, taken, lexeme_eq, at_name⟩ := isAt.blank.sign (not_goesOn_space _ _)
        have sign_eq := Token.punctuator?_eq_some_iff.mpr lexeme_eq
        obtain ⟨named, behind, named_eq, behind_isAt, _, operand⟩ :=
          reads_name isName at_name.blank
        have named_fits := OperatorTree.fits_operand operator.rightPrecedence named_eq
        -- The right operand takes the operators that bind more strongly.
        obtain ⟨right, inside, others, second, between, right_first, right_links, rfl, others_weak,
          right_fits, between_isAt, right_derived⟩ :=
          inductive_hypothesis _ (by rw [← measure_eq]; simp) names behind_isAt named_fits nofun rfl
        have whole_fits := OperatorTree.fits_infixed between.builder fits right_fits strong
          (weak _ rfl)
        have whole_isAt :
            (between.made (·.infixed operator left second)).2.IsAt (linksText others) :=
          between_isAt.made
        have others_names : ∀ link ∈ others, IsName link.2 :=
          fun link member => names link (List.mem_append_right _ member)
        have others_length : others.length < length := by
          rw [← measure_eq]
          simp only [List.length_cons, List.length_append]
          omega
        have whole_weak : ∀ link ∈ others.head?,
            ∀ inner ∈ (OperatorTree.infixed operator tree right).precedence?,
              link.1.precedence ≤ inner := by
          intro link link_eq inner inner_eq
          cases inner_eq
          have below : link.1.precedence.rank < operator.rightPrecedence.rank :=
            others_weak link link_eq
          rw [operator.rank_rightPrecedence] at below
          exact Nat.le_of_lt_succ below
        obtain ⟨grouping, more, rest, whole, later, first_eq, links_eq, rfl, rest_weak,
          grouping_fits, later_isAt, derived⟩ :=
          inductive_hypothesis _ others_length others_names whole_isAt whole_fits whole_weak rfl
        refine ⟨grouping, (operator, name) :: (inside ++ more), rest, whole, later, first_eq, ?_,
          ?_, rest_weak, grouping_fits, later_isAt,
          .operationRest_more taken sign_eq strong (.operation operand right_derived) derived⟩
        · rw [links_eq, OperatorTree.links, right_first, right_links]
          simp [OperatorTree.first, OperatorTree.links]
        · simp

/-- What stands alone in front of the end of the source is read as an expression statement, and is
the only statement. -/
theorem statements_of_operation {state later : State} {name : String} {whole : Expression}
    (opens : state.Sees (·.lexeme = .identifier name))
    (derived : Derives (.operation .logicalOr) state whole later) (isAt : later.IsAt []) :
    ∃ info last, Derives (.statements false) state [.expression info whole] last := by
  have ended := isAt.nil
  have signless (sign : Punctuator) : later.Sees (·.punctuator? ≠ some sign) := by
    refine ended.imp fun token lexeme_eq sign_eq => ?_
    rw [Token.punctuator?_eq_some_iff, lexeme_eq] at sign_eq
    cases sign_eq
  have isEnd : later.Sees (·.isEnd = true) :=
    ended.imp fun token lexeme_eq => by rw [Token.isEnd, lexeme_eq]
  have assignment : Derives .assignment state whole later := by
    refine .assignment_plain derived (ended.imp fun token lexeme_eq operator sign_eq => ?_)
    rw [Token.punctuator?_eq_some_iff, lexeme_eq] at sign_eq
    cases sign_eq
  have ends : if whole.isFunction then Accepts later .semicolon later
      else EndsStatement later later := by
    split
    · exact .inr ⟨signless .semicolon, rfl⟩
    · refine .inr ⟨ended.imp fun token lexeme_eq => ⟨?_, .inr (.inl ?_)⟩, rfl⟩
      · simp [Token.punctuator?, lexeme_eq]
      · simp [Token.isEnd, lexeme_eq]
  have statement := Derives.statement_expression
    (opens.imp fun token lexeme_eq => by rw [lexeme_eq]; rfl)
    (.expressionStatement (.expression_single assignment (signless .comma)) ends)
  refine ⟨_, _, .statements_cons (opens.imp fun token lexeme_eq => ?_) statement
    (.statements_end isEnd)⟩
  simp [Token.punctuator?, Token.isEnd, lexeme_eq]

/-- A chain of names and operators is read as one expression statement. Its operators are grouped by
their strengths, and in no other grouping of the chain are they. -/
theorem Program.ofText_chainText {first : String} {links : List (InfixOperator × String)}
    (isName : IsName first) (names : ∀ link ∈ links, IsName link.2) :
    ∃ program tree, ofText (chainText first links) = .ok program ∧
      program.erase = ⟨default, default, [.expression default tree.expression]⟩ ∧
      tree.first = first ∧ tree.links = links ∧ tree.Grouped ∧
      ∀ other : OperatorTree, other.first = first → other.links = links → other.Grouped →
        other = tree := by
  have isAt := State.IsAt.ofText (chainText first links)
  rw [toList_chainText] at isAt
  obtain ⟨named, behind, named_eq, behind_isAt, opens, operand⟩ := reads_name isName isAt
  obtain ⟨tree, taken, rest, whole, later, first_eq, links_eq, rfl, rest_weak, fits, later_isAt,
    derived⟩ :=
    reads_links names behind_isAt (OperatorTree.fits_operand .logicalOr named_eq) nofun
  -- No operator binds less strongly than the least one between two operands.
  cases rest with
  | cons link rest => exact absurd (rest_weak link rfl) (Nat.not_lt_of_le link.1.logicalOr_le)
  | nil =>
    obtain ⟨info, last, statements⟩ :=
      statements_of_operation opens (.operation operand derived) later_isAt
    have closed := (State.lawful_ofText (chainText first (taken ++ []))).closed
    have tree_links : tree.links = taken ++ [] := by
      rw [links_eq, List.append_nil]
      rfl
    refine ⟨_, tree, (read_eq_ok_iff closed).mpr ⟨_, _, statements, rfl⟩, ?_, first_eq, tree_links,
      fits.grouped, fun other other_first other_links grouped => ?_⟩
    · show Program.mk default ⟨default, [.expression default whole.erase]⟩ = _
      rw [fits.erase_eq]
    · exact grouped.unique fits.grouped (other_first.trans first_eq.symm)
        (other_links.trans tree_links.symm)

/-- The grouping of `a || b + c * d - e`. -/
def mixedTree : OperatorTree :=
  .infixed (.logical .or) (.operand "a")
    (.infixed (.binary .subtract)
      (.infixed (.binary .add) (.operand "b")
        (.infixed (.binary .multiply) (.operand "c") (.operand "d")))
      (.operand "e"))

theorem Program.ofText_chainText_mixedTree :
    IsName "a" ∧ (∀ link ∈ mixedTree.links, IsName link.2) ∧
      chainText "a" mixedTree.links = "a || b + c * d - e" ∧
      ∃ program, ofText (chainText "a" mixedTree.links) = .ok program ∧
        program.erase = ⟨default, default, [.expression default mixedTree.expression]⟩ := by
  have letter (c : Char) (head : isWordHead c = true)
      (free : Lexeme.ofWord (String.ofList [c]) = .identifier (String.ofList [c])) :
      IsName (String.ofList [c]) :=
    ⟨⟨c, [], String.toList_ofList, head, nofun⟩, free⟩
  have isName : IsName "a" := letter 'a' (by decide) (by rfl)
  have names : ∀ link ∈ mixedTree.links, IsName link.2 := by
    show ∀ link ∈ [(_, "b"), (_, "c"), (_, "d"), (_, "e")], IsName link.2
    simp only [List.forall_mem_cons]
    exact ⟨letter 'b' (by decide) (by rfl), letter 'c' (by decide) (by rfl),
      letter 'd' (by decide) (by rfl), letter 'e' (by decide) (by rfl), nofun⟩
  have grouped : mixedTree.Grouped := by decide
  obtain ⟨program, tree, read_eq, erase_eq, _, _, _, unique⟩ := ofText_chainText isName names
  rw [← unique mixedTree rfl rfl grouped] at erase_eq
  exact ⟨isName, names, by cbv, program, read_eq, erase_eq⟩

end Scriptlet
