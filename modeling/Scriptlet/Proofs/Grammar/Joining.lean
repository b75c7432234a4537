import Mathlib
import Scriptlet.Proofs.Grammar.Resuming

set_option autoImplicit false

/-!
Programs joined by a semicolon. What the first text is read as is read again in front of the
semicolon, and what the second one is read as follows behind it.
-/
namespace Scriptlet

namespace Grammar

/-- No statement starts with the word for the second statement of a choice. -/
def Form.Opens {α : Type} (state : State) : Form α → Prop
  | .statements _ | .statement => state.Sees (·.keyword? ≠ some .elseWord)
  | _ => True

theorem Derives.opens {α : Type} {form : Form α} {state later : State} {value : α}
    (derived : Derives form state value later) : form.Opens state := by
  have of_sign {state : State} {sign : Punctuator}
      (sees : state.Sees (·.punctuator? = some sign)) :
      state.Sees (·.keyword? ≠ some .elseWord) := by
    obtain ⟨token, next_eq, sign_eq⟩ := sees
    exact ⟨token, next_eq, by simp [Token.keyword?, Token.punctuator?_eq_some_iff.mp sign_eq]⟩
  have of_keyword {state : State} {word : Keyword} (other : word ≠ .elseWord)
      (sees : state.Sees (·.lexeme = .keyword word)) :
      state.Sees (·.keyword? ≠ some .elseWord) := by
    obtain ⟨token, next_eq, lexeme_eq⟩ := sees
    exact ⟨token, next_eq, by simp [Token.keyword?, lexeme_eq, other]⟩
  induction derived with
  | statements_skip semicolon =>
    obtain ⟨token, taken, sign_eq⟩ := semicolon
    exact of_sign ⟨token, taken.1, sign_eq⟩
  | statements_close closes => exact of_sign closes
  | statements_end ends =>
    obtain ⟨token, next_eq, last⟩ := ends
    exact ⟨token, next_eq, by simp [Token.keyword?, Token.isEnd_iff.mp last]⟩
  | statements_cons _ _ _ head_ih => exact head_ih
  | statement_block opens => exact of_sign opens
  | @statement_declaration _ _ kind _ opens => exact of_keyword (by cases kind <;> decide) opens
  | statement_conditional opens | statement_loop opens => exact of_keyword (by decide) opens
  | statement_expression opens =>
    obtain ⟨token, next_eq, starts⟩ := opens
    refine ⟨token, next_eq, fun word_eq => ?_⟩
    rw [Token.keyword?_eq_some_iff.mp word_eq] at starts
    cases starts
  | _ => trivial

/-- Where a text has ended, a semicolon behind it leads to what follows. -/
theorem Arrives.separated {behind state after next : State} (arrives : Arrives behind state after)
    (done : state.tokens = []) (semicolon : TakesSign behind .semicolon next) :
    ∃ start, start.tokens = next.tokens ∧ start.ending = next.ending ∧
      ∀ listed last, Derives (.statements false) start listed last →
        Derives (.statements false) after listed last := by
  obtain ⟨token, ⟨next_eq, rfl⟩, sign_eq⟩ := semicolon
  rcases arrives with longer | crosses
  · have semicolon : TakesSign after .semicolon (after.after token) :=
      ⟨token, ⟨(longer.next_eq_behind done).trans next_eq, rfl⟩, sign_eq⟩
    exact ⟨after.after token, congrArg List.tail (longer.tokens_eq_behind done), longer.ending,
      fun listed last derived => .statements_skip semicolon derived⟩
  · obtain ⟨between, ⟨other, ⟨other_eq, rfl⟩, _⟩, tokens_eq, ending_eq⟩ := crosses.taken
    exact ⟨after, tokens_eq, ending_eq, fun listed last derived => derived⟩

end Grammar

theorem eraseStatements_append (front back : List Statement) :
    eraseStatements (front ++ back) = eraseStatements front ++ eraseStatements back := by
  induction front with
  | nil => rfl
  | cons statement front ih =>
    rw [List.cons_append, eraseStatements, eraseStatements, ih, List.cons_append]

namespace Grammar

/-- Statements of two texts are statements of a third one that has the tokens of the first, a
semicolon, and tokens like those of the second. -/
theorem derives_joined {one two joined oneEnd twoEnd : State} {front back : List Statement}
    {semicolon last : Token} {later : List Token}
    (one_derived : Derives (.statements false) one front oneEnd) (one_closed : one.Closed)
    (one_going : ∀ token ∈ one.tokens, token.isEnd = false)
    (two_derived : Derives (.statements false) two back twoEnd) (two_closed : two.Closed)
    (two_going : ∀ token ∈ two.tokens, token.isEnd = false)
    (sign_eq : semicolon.punctuator? = some .semicolon) (isEnd : last.isEnd = true)
    (similar : List.Forall₂ Token.Like two.tokens later)
    (tokens_eq : joined.tokens = one.tokens ++ semicolon :: later)
    (ending_eq : joined.ending = .ok last) :
    ∃ listed stop, Derives (.statements false) joined listed stop ∧
      eraseStatements listed = eraseStatements front ++ eraseStatements back := by
  let nothing : State := ⟨[], .ok last, 0, {}⟩
  let behind : State := ⟨semicolon :: later, .ok last, 0, {}⟩
  have nothing_closed : nothing.Closed := fun token token_eq => by cases token_eq; exact isEnd
  have stops_nothing : Stops nothing := ⟨⟨last, rfl, .inl isEnd⟩, fun next taken =>
    absurd taken (not_takesSign_of_done nothing_closed rfl)⟩
  have longer_two {start : State} (start_tokens : start.tokens = later)
      (start_ending : start.ending = .ok last) : Extends nothing two start :=
    ⟨two_closed, two_going, ⟨later, similar, by rw [start_tokens, List.append_nil]⟩, start_ending⟩
  have stops : Stops behind := by
    refine ⟨⟨semicolon, rfl, .inr sign_eq⟩, ?_⟩
    rintro next ⟨token, ⟨next_eq, rfl⟩, _⟩
    exact (longer_two rfl rfl).sees stops_nothing two_derived.opens fun stands apart => by
      rwa [stands.keyword?_eq]
  have longer_one : Extends behind one joined := ⟨one_closed, one_going,
    ⟨one.tokens, List.forall₂_same.mpr fun token _ => token.like_refl, tokens_eq⟩, ending_eq⟩
  obtain ⟨done, again, after, again_eq, arrives, goes⟩ := rereads_whole stops one_derived longer_one
  obtain ⟨start, start_tokens, start_ending, skips⟩ :=
    arrives.separated done ⟨semicolon, ⟨rfl, rfl⟩, sign_eq⟩
  obtain ⟨two_done, rest, stop, rest_eq, arrives, reaches⟩ :=
    rereads_whole stops_nothing two_derived (longer_two start_tokens start_ending)
  have ends : stop.Sees (·.isEnd = true) := by
    rcases arrives with longer | crosses
    · exact ⟨last, longer.next_eq_behind two_done, isEnd⟩
    · obtain ⟨next, taken, _⟩ := crosses.taken
      exact absurd taken (not_takesSign_of_done nothing_closed rfl)
  have rest_derived := reaches [] stop (.statements_end ends)
  refine ⟨again ++ (rest ++ []), stop, goes _ _ (skips _ _ rest_derived), ?_⟩
  rw [List.append_nil, eraseStatements_append, again_eq, rest_eq]

end Grammar

/-- Two programs with a semicolon on a line of its own between their texts are one program. Its
statements are those of the first one and then those of the second one, but for the numbers and
ranges of their nodes. -/
theorem Program.ofText_joined {first second : String} {front back : Program}
    (front_eq : ofText first = .ok front) (back_eq : ofText second = .ok back) :
    ∃ whole, ofText (first ++ "\n;\n" ++ second) = .ok whole ∧
      whole.erase.body.statements = front.erase.body.statements ++ back.erase.body.statements := by
  have one_placed := Grammar.State.placed_ofText first
  have two_placed := Grammar.State.placed_ofText second
  have whole_placed := Grammar.State.placed_ofText (first ++ "\n;\n" ++ second)
  obtain ⟨oneEnd, one_ending⟩ := Grammar.ending_of_read one_placed front_eq
  obtain ⟨twoEnd, two_ending⟩ := Grammar.ending_of_read two_placed back_eq
  obtain ⟨semicolon, later, last, lexeme_eq, similar, tokens_eq, ending_eq⟩ :=
    TokenStream.ofText_semicolon one_ending two_ending
  obtain ⟨one, oneStop, one_derived, rfl⟩ :=
    (Grammar.read_eq_ok_iff one_placed.closed).mp front_eq
  obtain ⟨two, twoStop, two_derived, rfl⟩ :=
    (Grammar.read_eq_ok_iff two_placed.closed).mp back_eq
  have joined : (Grammar.State.ofStream (.ofText (first ++ "\n;\n" ++ second))).tokens = _ :=
    tokens_eq
  obtain ⟨listed, stop, derived, listed_eq⟩ := Grammar.derives_joined one_derived one_placed.closed
    one_placed.going two_derived two_placed.closed two_placed.going
    (Token.punctuator?_eq_some_iff.mpr lexeme_eq) (whole_placed.last last ending_eq).2 similar
    joined ending_eq
  exact ⟨_, (Grammar.read_eq_ok_iff whole_placed.closed).mpr ⟨listed, stop, derived, rfl⟩,
    listed_eq⟩

/-- A choice without a semicolon, and a text that would go on with it as a call. -/
theorem Program.ofText_joined_parens :
    ∃ front back whole, ofText "if (a) b // end" = .ok front ∧ ofText "(c)" = .ok back ∧
      ofText ("if (a) b // end" ++ "\n;\n" ++ "(c)") = .ok whole ∧
      whole.erase.body.statements = front.erase.body.statements ++ back.erase.body.statements := by
  let info (id start stop : Nat) : NodeInfo := ⟨⟨id⟩, ⟨start, stop⟩⟩
  have front_eq : ofText "if (a) b // end" = .ok ⟨⟨5⟩, ⟨⟨4⟩, [.conditional (info 3 0 8)
      (.identifier (info 0 4 5) "a")
      (.expression (info 2 7 8) (.identifier (info 1 7 8) "b")) none]⟩⟩ := by
    cbv
  have back_eq : ofText "(c)" = .ok ⟨⟨3⟩, ⟨⟨2⟩, [.expression (info 1 1 3)
      (.identifier (info 0 1 2) "c")]⟩⟩ := by
    cbv
  obtain ⟨whole, whole_eq, statements_eq⟩ := ofText_joined front_eq back_eq
  exact ⟨_, _, whole, front_eq, back_eq, whole_eq, statements_eq⟩

end Scriptlet
