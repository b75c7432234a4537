import Scriptlet.Proofs.Grammar.Calls
import Scriptlet.Proofs.Token.LookAhead

set_option autoImplicit false

/-!
Where rules get their tokens. Rules run over the tokens of a text that has been read to its end. A
lexer that is asked for one token after the other gives them the same: wherever reading comes to a
rule, its state follows a lexer, and what the rule looks at or takes is what that lexer answers.
-/
namespace Scriptlet

namespace Lexer

/-- What a lexer has still to give. -/
def stream (lexer : Lexer) : TokenStream :=
  match lexer.lookAhead with
  | none => .ofCursor lexer.cursor
  | some token =>
    if token.isEnd then ⟨[], .ok token, lexer.cursor⟩ else .push token (.ofCursor lexer.cursor)

/-- A lexer after a number of tokens have been taken. -/
def skip (lexer : Lexer) : Nat → Lexer
  | 0 => lexer
  | count + 1 => lexer.next.2.skip count

variable {lexer : Lexer}

theorem stream_of_error {error : LexicalError} (error_eq : lexer.next.1 = .error error) :
    lexer.stream.tokens = [] ∧ lexer.stream.ending = .error error := by
  obtain ⟨cursor, lookAhead⟩ := lexer
  cases lookAhead with
  | some token => cases error_eq
  | none =>
    rw [stream, TokenStream.ofCursor_of_error error_eq]
    exact ⟨rfl, rfl⟩

theorem stream_of_ok {token : Token} (next_eq : lexer.next.1 = .ok token) :
    lexer.stream = if token.isEnd then ⟨[], .ok token, lexer.next.2.cursor⟩
      else .push token lexer.next.2.stream := by
  obtain ⟨cursor, lookAhead⟩ := lexer
  cases lookAhead with
  | some other =>
    cases next_eq
    rfl
  | none => exact TokenStream.ofCursor_of_ok next_eq

/-- Looking at the next token leaves a lexer with as much to give as before. -/
theorem stream_peek {token : Token} (peek_eq : lexer.peek.1 = .ok token) :
    lexer.peek.2.stream = lexer.stream := by
  have next_eq : lexer.next.1 = .ok token := lexer.peek_fst.symm.trans peek_eq
  have same := next_peek peek_eq
  rw [stream_of_ok next_eq, stream_of_ok (same ▸ next_eq), same]

end Lexer

namespace Grammar

/-- The tokens before a state are those that a lexer has still to give. -/
structure State.Follows (state : State) (lexer : Lexer) : Prop where
  tokens : state.tokens = lexer.stream.tokens
  ending : state.ending = lexer.stream.ending

/-- What a rule for one token makes of an answer: it goes on, or fails where it stands. -/
def State.given (state : State) (later : Token → State) :
    Except LexicalError Token → EStateM.Result Failure State Token
  | .ok token => .ok token (later token)
  | .error error => .error (.rejected (.lexical error)) state

section Follows

variable {state : State} {lexer : Lexer} (follows : state.Follows lexer)

theorem State.follows_ofText (text : String) :
    (State.ofStream (.ofText text)).Follows (.ofText text) :=
  ⟨rfl, rfl⟩

include follows

theorem State.Follows.next : state.next = lexer.next.1 := by
  unfold State.next
  rw [follows.tokens, follows.ending]
  cases next_eq : lexer.next.1 with
  | error error =>
    obtain ⟨tokens_eq, ending_eq⟩ := Lexer.stream_of_error next_eq
    rw [tokens_eq, ending_eq]
  | ok token =>
    rw [Lexer.stream_of_ok next_eq]
    cases token.isEnd <;> rfl

/-- A rule that looks ahead is given what the lexer shows. -/
theorem State.Follows.peek_eq : peek state = state.given (fun _ => state) lexer.peek.1 := by
  rw [lexer.peek_fst, ← follows.next, peek]
  cases state.next <;> rfl

theorem State.Follows.peek {token : Token} (peek_eq : lexer.peek.1 = .ok token) :
    state.Follows lexer.peek.2 := by
  have same := Lexer.stream_peek peek_eq
  exact ⟨same ▸ follows.tokens, same ▸ follows.ending⟩

/-- A rule that takes a token is given what the lexer gives. -/
theorem State.Follows.take_eq : take state = state.given state.after lexer.next.1 := by
  rw [← follows.next, take]
  cases state.next <;> rfl

theorem State.Follows.after {token : Token} (next_eq : lexer.next.1 = .ok token)
    (going : token.isEnd = false) : (state.after token).Follows lexer.next.2 := by
  have stream_eq := Lexer.stream_of_ok next_eq
  rw [going, if_neg Bool.false_ne_true] at stream_eq
  constructor
  · show state.tokens.tail = _
    rw [follows.tokens, stream_eq]
    rfl
  · show state.ending = _
    rw [follows.ending, stream_eq]
    rfl

end Follows

/-- Some tokens of a state are gone, and nothing else has come. -/
structure Remains (state later : State) : Prop where
  tokens : later.tokens <:+ state.tokens
  ending : later.ending = state.ending

section Remains

variable {state later : State}

theorem Remains.refl (state : State) : Remains state state :=
  ⟨List.suffix_refl _, rfl⟩

theorem Remains.trans {between : State} (front : Remains state between)
    (back : Remains between later) : Remains state later :=
  ⟨back.tokens.trans front.tokens, back.ending.trans front.ending⟩

theorem remains_made_iff {α : Type} {node : Builder → α × Builder} :
    Remains state (later.made node).2 ↔ Remains state later :=
  ⟨fun ⟨tokens, ending⟩ => ⟨tokens, ending⟩, fun ⟨tokens, ending⟩ => ⟨tokens, ending⟩⟩

theorem made_remains_iff {α : Type} {node : Builder → α × Builder} :
    Remains (state.made node).2 later ↔ Remains state later :=
  ⟨fun ⟨tokens, ending⟩ => ⟨tokens, ending⟩, fun ⟨tokens, ending⟩ => ⟨tokens, ending⟩⟩

theorem Takes.remains {token : Token} (taken : Takes state token later) : Remains state later := by
  obtain ⟨_, rfl⟩ := taken
  exact ⟨List.tail_suffix _, rfl⟩

theorem TakesSign.remains {sign : Punctuator} (taken : TakesSign state sign later) :
    Remains state later := by
  obtain ⟨token, taken, _⟩ := taken
  exact taken.remains

theorem EndsStatement.remains (ends : EndsStatement state later) : Remains state later := by
  rcases ends with taken | ⟨_, rfl⟩
  · exact taken.remains
  · exact .refl _

theorem Accepts.remains {sign : Punctuator} (accepts : Accepts state sign later) :
    Remains state later := by
  rcases accepts with taken | ⟨_, rfl⟩
  · exact taken.remains
  · exact .refl _

theorem TakesName.remains {name : Option String} (named : TakesName state name later) :
    Remains state later := by
  rcases named with ⟨_, _, taken, _⟩ | ⟨_, _, rfl⟩
  · exact taken.remains
  · exact .refl _

theorem TakesParameters.remains {names : List String} (listed : TakesParameters state names later) :
    Remains state later := by
  induction listed with
  | last taken name_eq other => exact taken.remains
  | more taken name_eq comma _ ih => exact taken.remains.trans (comma.remains.trans ih)

theorem TakesParameterList.remains {names : List String}
    (listed : TakesParameterList state names later) : Remains state later := by
  rcases listed with ⟨taken, _⟩ | ⟨_, named, names_taken, closes⟩
  · exact taken.remains
  · exact names_taken.remains.trans closes.remains

end Remains

theorem Derives.remains {α : Type} {form : Form α} {state later : State} {value : α}
    (derived : Derives form state value later) : Remains state later := by
  induction derived
  all_goals
    -- What each part takes, one part after the other.
    grind -ring -linarith [remains_made_iff, made_remains_iff, Remains.refl, → Remains.trans,
      → Takes.remains, → TakesSign.remains, → EndsStatement.remains, → Accepts.remains,
      → TakesName.remains, → TakesParameterList.remains]

theorem GoesTo.remains {call later : Call} (goesTo : GoesTo call later) :
    Remains call.state later.state := by
  cases goesTo
  all_goals
    -- Here too, and then the rule that is gone to.
    grind -ring -linarith [Call.state, remains_made_iff, made_remains_iff, Remains.refl,
      → Remains.trans, → Takes.remains, → TakesSign.remains, → Derives.remains,
      → TakesName.remains, → TakesParameterList.remains]

/-- A state with fewer tokens follows the lexer when these have been taken from it too. -/
theorem State.Follows.of_remains {state later : State} {lexer : Lexer}
    (follows : state.Follows lexer) (remains : Remains state later) :
    ∃ taken, later.Follows (lexer.skip taken) := by
  obtain ⟨gone, tokens_eq⟩ := remains.tokens
  induction gone generalizing state lexer with
  | nil => exact ⟨0, tokens_eq.trans follows.tokens, remains.ending.trans follows.ending⟩
  | cons token gone ih =>
    have next_eq : lexer.next.1 = .ok token := by
      rw [← follows.next, State.next, ← tokens_eq]
      rfl
    have stream_eq := Lexer.stream_of_ok next_eq
    have going : token.isEnd = false := by
      apply Bool.eq_false_iff.mpr
      -- No tokens are left where the end of the source is next.
      intro last
      rw [follows.tokens, stream_eq, if_pos last] at tokens_eq
      cases tokens_eq
    have rest_eq : gone ++ later.tokens = (state.after token).tokens := by
      show _ = state.tokens.tail
      rw [← tokens_eq]
      rfl
    obtain ⟨taken, following⟩ :=
      ih (follows.after next_eq going) ⟨rest_eq ▸ List.suffix_append _ _, remains.ending⟩ rest_eq
    exact ⟨taken + 1, following⟩

/-- Reading asks a lexer for its tokens. Every rule that the reading of a text comes to starts at a
state that follows the lexer of the text after some tokens have been taken from it, and a rule that
has been read leaves such a state again. In these states, looking at the next token gives what the
lexer shows, and taking it gives what the lexer gives. Then the state follows the lexer again,
unless it took the end of the source. -/
theorem reading_asks (text : String) :
    let start := Call.form (.statements false) (.ofStream (.ofText text))
    (∀ call, Relation.ReflTransGen GoesTo start call →
      ∃ taken, call.state.Follows ((Lexer.ofText text).skip taken)) ∧
    (∀ {α : Type} (form : Form α) value state later lexer, Derives form state value later →
      state.Follows lexer → ∃ taken, later.Follows (lexer.skip taken)) ∧
    ∀ state lexer, state.Follows lexer →
      peek state = state.given (fun _ => state) lexer.peek.1 ∧
      take state = state.given state.after lexer.next.1 ∧
      (∀ token, lexer.peek.1 = .ok token → state.Follows lexer.peek.2) ∧
      ∀ token, lexer.next.1 = .ok token → token.isEnd = false →
        (state.after token).Follows lexer.next.2 := by
  intro start
  refine ⟨fun call reached => ?_, fun form value state later lexer derived follows => ?_,
    fun state lexer follows => ?_⟩
  · have remains : Remains start.state call.state := by
      induction reached with
      | refl => exact .refl _
      | tail _ goesTo ih => exact ih.trans goesTo.remains
    exact (State.follows_ofText text).of_remains remains
  · exact follows.of_remains derived.remains
  · exact ⟨follows.peek_eq, follows.take_eq, fun _ => follows.peek, fun _ => follows.after⟩

end Grammar
end Scriptlet
