import Scriptlet.Proofs.Grammar.Complete
import Scriptlet.Proofs.Token.Joining

set_option autoImplicit false

/-!
More tokens behind those of a state. What follows is nothing or a semicolon, and the small rules
decide alike on the semicolon and on the end of the source that they would see without it.
-/
namespace Scriptlet

namespace Token

theorem punctuator?_ne_of_isEnd {token : Token} (last : token.isEnd = true) (sign : Punctuator) :
    token.punctuator? ≠ some sign := by
  intro sign_eq
  rw [Grammar.isEnd_of_punctuator? sign_eq] at last
  cases last

section Like

variable {token other : Token} (like : token.Like other)

include like

theorem Like.isEnd_eq : other.isEnd = token.isEnd := by
  rw [isEnd, like.lexeme, isEnd]

theorem Like.punctuator?_eq : other.punctuator? = token.punctuator? := by
  rw [punctuator?, like.lexeme, punctuator?]

theorem Like.keyword?_eq : other.keyword? = token.keyword? := by
  rw [keyword?, like.lexeme, keyword?]

theorem Like.identifier?_eq : other.identifier? = token.identifier? := by
  rw [identifier?, like.lexeme, identifier?]

theorem Like.word?_eq : other.word? = token.word? := by
  rw [word?, like.lexeme, word?]

theorem Like.propertyKey?_eq : Grammar.propertyKey? other = Grammar.propertyKey? token := by
  simp only [Grammar.propertyKey?, like.lexeme, like.word?_eq]

end Like

/-- What may stand in the place of a token when there are more tokens behind: a token like it, and
in the place of the end of the source also a semicolon. -/
inductive StandsFor (token : Token) : Token → Prop where
  | like {other : Token} (like : token.Like other) : StandsFor token other
  | bothEnd {other : Token} (last : token.isEnd = true) (otherLast : other.isEnd = true) :
    StandsFor token other
  | semicolon {other : Token} (last : token.isEnd = true)
    (sign_eq : other.punctuator? = some .semicolon) : StandsFor token other

section StandsFor

variable {token other : Token} (stands : token.StandsFor other)

include stands

theorem StandsFor.lexeme : other.lexeme = token.lexeme ∨
    token.lexeme = .endOfSource ∧ other.lexeme = .punctuator .semicolon := by
  cases stands with
  | like like => exact .inl like.lexeme
  | bothEnd last otherLast =>
    exact .inl ((isEnd_iff.mp otherLast).trans (isEnd_iff.mp last).symm)
  | semicolon last sign_eq => exact .inr ⟨isEnd_iff.mp last, punctuator?_eq_some_iff.mp sign_eq⟩

theorem StandsFor.punctuator?_iff {sign : Punctuator} (apart : sign ≠ .semicolon) :
    other.punctuator? = some sign ↔ token.punctuator? = some sign := by
  rw [punctuator?_eq_some_iff, punctuator?_eq_some_iff]
  rcases stands.lexeme with same | ⟨last, separated⟩
  · rw [same]
  · simp [last, separated, apart.symm]

theorem StandsFor.keyword?_eq : other.keyword? = token.keyword? := by
  rcases stands.lexeme with same | ⟨last, separated⟩
  · rw [keyword?, same, keyword?]
  · simp only [keyword?, last, separated]

theorem StandsFor.identifier?_eq : other.identifier? = token.identifier? := by
  rcases stands.lexeme with same | ⟨last, separated⟩
  · rw [identifier?, same, identifier?]
  · simp only [identifier?, last, separated]

theorem StandsFor.startsExpressionStatement_eq :
    Grammar.startsExpressionStatement other.lexeme =
      Grammar.startsExpressionStatement token.lexeme := by
  rcases stands.lexeme with same | ⟨last, separated⟩
  · rw [same]
  · rw [last, separated]
    rfl

end StandsFor
end Token

namespace Grammar

/-- What may follow: the end of the source, or a semicolon that no second statement of a choice
follows. -/
structure Stops (behind : State) : Prop where
  sign : behind.Sees fun token => token.isEnd = true ∨ token.punctuator? = some .semicolon
  alternate : ∀ later, TakesSign behind .semicolon later →
    later.Sees (·.keyword? ≠ some .elseWord)

/-- A state with tokens like those of another one, and behind them those of a third one. -/
structure Extends (behind state other : State) : Prop where
  closed : state.Closed
  going : ∀ token ∈ state.tokens, token.isEnd = false
  tokens : ∃ front, List.Forall₂ Token.Like state.tokens front ∧
    other.tokens = front ++ behind.tokens
  ending : other.ending = behind.ending

/-- A state without tokens, and another one that has taken the semicolon behind them. -/
structure Crosses (behind state other : State) : Prop where
  closed : state.Closed
  done : state.tokens = []
  taken : ∃ later, TakesSign behind .semicolon later ∧ other.tokens = later.tokens ∧
    other.ending = later.ending

/-- Where a statement stops. At the end of the tokens it takes the semicolon that is behind them. -/
def Arrives (behind state other : State) : Prop :=
  Extends behind state other ∨ Crosses behind state other

theorem next_congr {state other : State} (tokens_eq : other.tokens = state.tokens)
    (ending_eq : other.ending = state.ending) : other.next = state.next := by
  rw [State.next, tokens_eq, ending_eq, State.next]

section Extends

variable {behind state other later : State} (longer : Extends behind state other)

include longer

theorem Extends.made {α β : Type} {node : Builder → α × Builder} {same : Builder → β × Builder} :
    Extends behind (state.made node).2 (other.made same).2 :=
  ⟨longer.closed, longer.going, longer.tokens, longer.ending⟩

theorem Extends.tokens_eq_nil {token : Token} (next_eq : state.next = .ok token)
    (last : token.isEnd = true) : state.tokens = [] := by
  unfold State.next at next_eq
  split at next_eq
  · rename_i tokens_eq
    cases next_eq
    have going := longer.going token (by rw [tokens_eq]; exact List.mem_cons_self)
    rw [last] at going
    cases going
  · assumption

/-- The end of the source is not taken before other tokens. -/
theorem Extends.going_of_takes {token : Token} (taken : Takes state token later)
    (present : later.tokens ≠ []) : token.isEnd = false := by
  obtain ⟨next_eq, rfl⟩ := taken
  rw [Bool.eq_false_iff]
  intro last
  apply present
  show state.tokens.tail = []
  rw [longer.tokens_eq_nil next_eq last, List.tail_nil]

/-- Where the tokens have ended, those behind them are left. -/
theorem Extends.tokens_eq_behind (done : state.tokens = []) : other.tokens = behind.tokens := by
  obtain ⟨front, similar, tokens_eq⟩ := longer.tokens
  rw [done] at similar
  cases similar
  exact tokens_eq

theorem Extends.next_eq_behind (done : state.tokens = []) : other.next = behind.next :=
  next_congr (longer.tokens_eq_behind done) longer.ending

/-- The next token stands for that of the shorter text. -/
theorem Extends.next (stops : Stops behind) {token : Token} (next_eq : state.next = .ok token) :
    ∃ same, other.next = .ok same ∧ token.StandsFor same := by
  obtain ⟨front, similar, tokens_eq⟩ := longer.tokens
  cases present : state.tokens with
  | nil =>
    have last : token.isEnd = true := by
      rw [State.next, present] at next_eq
      exact longer.closed token next_eq
    obtain ⟨same, behind_eq, stop⟩ := stops.sign
    rw [longer.next_eq_behind present]
    exact ⟨same, behind_eq, stop.elim (.bothEnd last) (.semicolon last)⟩
  | cons first rest =>
    rw [State.next, present] at next_eq
    cases next_eq
    rw [present] at similar
    obtain _ | ⟨like, _⟩ := similar
    exact ⟨_, by rw [State.next, tokens_eq]; rfl, .like like⟩

theorem Extends.sees (stops : Stops behind) {property : Token → Prop}
    (sees : state.Sees property)
    (kept : ∀ {token same : Token}, token.StandsFor same → property token → property same) :
    other.Sees property := by
  obtain ⟨token, next_eq, holds⟩ := sees
  obtain ⟨same, same_eq, stands⟩ := longer.next stops next_eq
  exact ⟨same, same_eq, kept stands holds⟩

/-- A token that is not the end is taken in both. -/
theorem Extends.takes {token : Token} (taken : Takes state token later)
    (going : token.isEnd = false) :
    ∃ same after, Takes other same after ∧ token.Like same ∧ Extends behind later after := by
  obtain ⟨next_eq, rfl⟩ := taken
  obtain ⟨front, similar, tokens_eq⟩ := longer.tokens
  cases present : state.tokens with
  | nil =>
    rw [State.next, present] at next_eq
    rw [longer.closed token next_eq] at going
    cases going
  | cons first rest =>
    rw [State.next, present] at next_eq
    cases next_eq
    rw [present] at similar
    obtain _ | @⟨_, same, _, front, like, similar⟩ := similar
    have same_eq : other.next = .ok same := by rw [State.next, tokens_eq]; rfl
    refine ⟨same, _, ⟨same_eq, rfl⟩, like, longer.closed, fun token' member => ?_, ?_,
      longer.ending⟩
    · exact longer.going token' (List.mem_of_mem_tail member)
    · refine ⟨front, ?_, ?_⟩
      · show List.Forall₂ Token.Like state.tokens.tail front
        rw [present]
        exact similar
      · show other.tokens.tail = _
        rw [tokens_eq]
        rfl

theorem Extends.takesPunctuator {token : Token} {sign : Punctuator}
    (taken : Takes state token later) (sign_eq : token.punctuator? = some sign) :
    ∃ same after, Takes other same after ∧ same.punctuator? = some sign ∧
      Extends behind later after := by
  obtain ⟨same, after, same_taken, like, still⟩ :=
    longer.takes taken (isEnd_of_punctuator? sign_eq)
  exact ⟨same, after, same_taken, by rw [like.punctuator?_eq, sign_eq], still⟩

theorem Extends.takesKeyword {token : Token} {word : Keyword} (taken : Takes state token later)
    (word_eq : token.keyword? = some word) :
    ∃ same after, Takes other same after ∧ same.keyword? = some word ∧
      Extends behind later after := by
  obtain ⟨same, after, same_taken, like, still⟩ := longer.takes taken (isEnd_of_keyword? word_eq)
  exact ⟨same, after, same_taken, by rw [like.keyword?_eq, word_eq], still⟩

theorem Extends.takesIdentifier {token : Token} {name : String} (taken : Takes state token later)
    (name_eq : token.identifier? = some name) :
    ∃ same after, Takes other same after ∧ same.identifier? = some name ∧
      Extends behind later after := by
  obtain ⟨same, after, same_taken, like, still⟩ :=
    longer.takes taken (isEnd_of_identifier? name_eq)
  exact ⟨same, after, same_taken, by rw [like.identifier?_eq, name_eq], still⟩

theorem Extends.takesSign {sign : Punctuator} (taken : TakesSign state sign later) :
    ∃ after, TakesSign other sign after ∧ Extends behind later after := by
  obtain ⟨token, taken, sign_eq⟩ := taken
  obtain ⟨same, after, same_taken, same_eq, still⟩ := longer.takesPunctuator taken sign_eq
  exact ⟨after, ⟨same, same_taken, same_eq⟩, still⟩

/-- A semicolon that is there is taken, or else the one behind the tokens; what may be seen in place
of a semicolon includes the end of the source. -/
theorem Extends.takesSemicolon (stops : Stops behind) {property : Token → Prop}
    (like : ∀ {token same : Token}, token.Like same → property token → property same)
    (atEnd : ∀ {token : Token}, token.isEnd = true → property token)
    (ends : TakesSign state .semicolon later ∨ state.Sees property ∧ later = state) :
    ∃ after, (TakesSign other .semicolon after ∨ other.Sees property ∧ after = other) ∧
      Arrives behind later after := by
  rcases ends with taken | ⟨⟨token, next_eq, holds⟩, rfl⟩
  · obtain ⟨after, same_taken, still⟩ := longer.takesSign taken
    exact ⟨after, .inl same_taken, .inl still⟩
  · obtain ⟨same, same_eq, stands⟩ := longer.next stops next_eq
    cases stands with
    | like similar => exact ⟨other, .inr ⟨⟨same, same_eq, like similar holds⟩, rfl⟩, .inl longer⟩
    | bothEnd last otherLast =>
      exact ⟨other, .inr ⟨⟨same, same_eq, atEnd otherLast⟩, rfl⟩, .inl longer⟩
    | semicolon last sign_eq =>
      have done := longer.tokens_eq_nil next_eq last
      have behind_eq := (longer.next_eq_behind done).symm.trans same_eq
      have tokens_eq := congrArg List.tail (longer.tokens_eq_behind done)
      exact ⟨other.after same, .inl ⟨same, ⟨same_eq, rfl⟩, sign_eq⟩, .inr ⟨longer.closed, done,
        behind.after same, ⟨same, ⟨behind_eq, rfl⟩, sign_eq⟩, tokens_eq, longer.ending⟩⟩

theorem Extends.endsStatement (stops : Stops behind) (ends : EndsStatement state later) :
    ∃ after, EndsStatement other after ∧ Arrives behind later after := by
  refine longer.takesSemicolon stops (fun like holds => ?_) (fun last => ?_) ends
  · rw [like.punctuator?_eq, like.isEnd_eq]
    exact ⟨holds.1, holds.2.imp like.newline id⟩
  · exact ⟨Token.punctuator?_ne_of_isEnd last _, .inr (.inl last)⟩

theorem Extends.accepts (stops : Stops behind) (accepts : Accepts state .semicolon later) :
    ∃ after, Accepts other .semicolon after ∧ Arrives behind later after := by
  refine longer.takesSemicolon stops (fun like holds => ?_) (fun last => ?_) accepts
  · rwa [like.punctuator?_eq]
  · exact Token.punctuator?_ne_of_isEnd last _

theorem Extends.sees_ne (stops : Stops behind) {sign : Punctuator} (apart : sign ≠ .semicolon)
    (sees : state.Sees (·.punctuator? ≠ some sign)) :
    other.Sees (·.punctuator? ≠ some sign) :=
  longer.sees stops sees fun stands holds sign_eq =>
    holds ((stands.punctuator?_iff apart).mp sign_eq)

theorem Extends.sees_sign (stops : Stops behind) {sign : Punctuator} (apart : sign ≠ .semicolon)
    (sees : state.Sees (·.punctuator? = some sign)) : other.Sees (·.punctuator? = some sign) :=
  longer.sees stops sees fun stands => (stands.punctuator?_iff apart).mpr

theorem Extends.sees_keyword (stops : Stops behind) {word : Keyword}
    (sees : state.Sees (·.lexeme = .keyword word)) : other.Sees (·.lexeme = .keyword word) :=
  longer.sees stops sees fun stands holds => by
    rw [← Token.keyword?_eq_some_iff] at holds ⊢
    rw [stands.keyword?_eq, holds]

theorem Extends.takesName (stops : Stops behind) {name : Option String}
    (named : TakesName state name later) :
    ∃ after, TakesName other name after ∧ Extends behind later after := by
  rcases named with ⟨token, word, taken, name_eq, rfl⟩ | ⟨unnamed, rfl, rfl⟩
  · obtain ⟨same, after, same_taken, same_eq, still⟩ := longer.takesIdentifier taken name_eq
    exact ⟨after, .inl ⟨same, word, same_taken, same_eq, rfl⟩, still⟩
  · refine ⟨other, .inr ⟨longer.sees stops unnamed fun stands holds => ?_, rfl, rfl⟩, longer⟩
    rw [stands.identifier?_eq, holds]

theorem Extends.takesParameters (stops : Stops behind) {names : List String}
    (listed : TakesParameters state names later) :
    ∃ after, TakesParameters other names after ∧ Extends behind later after := by
  induction listed generalizing other with
  | last taken name_eq other_eq =>
    obtain ⟨same, after, same_taken, same_eq, still⟩ := longer.takesIdentifier taken name_eq
    exact ⟨after, .last same_taken same_eq (still.sees_ne stops (by decide) other_eq), still⟩
  | more taken name_eq comma _ ih =>
    obtain ⟨same, named, same_taken, same_eq, still⟩ := longer.takesIdentifier taken name_eq
    obtain ⟨between, same_comma, still⟩ := still.takesSign comma
    obtain ⟨after, rest, still⟩ := ih still
    exact ⟨after, .more same_taken same_eq same_comma rest, still⟩

theorem Extends.takesParameterList (stops : Stops behind) {names : List String}
    (listed : TakesParameterList state names later) :
    ∃ after, TakesParameterList other names after ∧ Extends behind later after := by
  rcases listed with ⟨closes, rfl⟩ | ⟨some, named, names_taken, closes⟩
  · obtain ⟨after, same_closes, still⟩ := longer.takesSign closes
    exact ⟨after, .inl ⟨same_closes, rfl⟩, still⟩
  · obtain ⟨between, same_names, still⟩ := longer.takesParameters stops names_taken
    obtain ⟨after, same_closes, still⟩ := still.takesSign closes
    exact ⟨after, .inr ⟨longer.sees_ne stops (by decide) some, between, same_names, same_closes⟩,
      still⟩

end Extends

section Crosses

variable {behind state other : State}

theorem Arrives.made {α β : Type} {node : Builder → α × Builder} {same : Builder → β × Builder}
    (arrives : Arrives behind state other) :
    Arrives behind (state.made node).2 (other.made same).2 :=
  arrives.imp (fun longer => longer.made) fun ⟨closed, done, taken⟩ => ⟨closed, done, taken⟩

end Crosses
end Grammar
end Scriptlet
