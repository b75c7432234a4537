import Scriptlet.Proofs.Token.Tiling

set_option autoImplicit false

/-!
Looking ahead. However a lexer is asked to look at the next token and to take it, it gives the
tokens of its text one after the other, then the end of the source again and again, or else the one
lexical error.
-/
namespace Scriptlet

/-- The token that is taken after a number of others. Behind the end of the source there is only the
end of the source, without a line break before it. -/
def TokenStream.nth (stream : TokenStream) (place : Nat) : Except LexicalError Token :=
  match stream.tokens[place]? with
  | some token => .ok token
  | none =>
    if place = stream.tokens.length then stream.ending
    else stream.ending.map fun last => { last with newlineBefore := false }

namespace Lexer

/-- What a lexer can be asked for. -/
inductive Call where
  | peek
  | next
  deriving DecidableEq, Repr

def answer (lexer : Lexer) : Call → Except LexicalError Token × Lexer
  | .peek => lexer.peek
  | .next => lexer.next

def answers (lexer : Lexer) : List Call → List (Except LexicalError Token)
  | [] => []
  | call :: calls =>
    match lexer.answer call with
    | (.ok token, later) => .ok token :: later.answers calls
    | (.error error, _) => [.error error]

/-- What a lexer gives when tokens are only taken, after a number of them. -/
def future (lexer : Lexer) : Nat → Except LexicalError Token
  | 0 => lexer.next.1
  | place + 1 => lexer.next.2.future place

section

variable {lexer : Lexer}

theorem peek_fst (lexer : Lexer) : lexer.peek.1 = lexer.next.1 := by
  obtain ⟨cursor, lookAhead⟩ := lexer
  cases lookAhead with
  | some token => rfl
  | none =>
    simp only [peek, next]
    split
    · rename_i scan_eq
      rw [scan_eq]
    · rename_i scan_eq
      rw [scan_eq]

/-- A token that was looked at is taken as if it had not been. -/
theorem next_peek {token : Token} (peek_eq : lexer.peek.1 = .ok token) :
    lexer.peek.2.next = lexer.next := by
  obtain ⟨cursor, lookAhead⟩ := lexer
  cases lookAhead with
  | some token => rfl
  | none =>
    simp only [peek, next] at peek_eq ⊢
    split at peek_eq
    · rename_i scan_eq
      rw [scan_eq]
    · cases peek_eq

theorem answer_fst (lexer : Lexer) (call : Call) : (lexer.answer call).1 = lexer.future 0 := by
  cases call with
  | peek => exact lexer.peek_fst
  | next => rfl

/-- Taking a token moves on by one, and looking at it does not. -/
theorem future_answer {call : Call} {token : Token} (answer_eq : (lexer.answer call).1 = .ok token)
    (place : Nat) :
    (lexer.answer call).2.future place = lexer.future (place + [call].count .next) := by
  cases call with
  | next => rfl
  | peek =>
    have same := next_peek answer_eq
    cases place with
    | zero => exact congrArg Prod.fst same
    | succ place => exact congrArg (fun result => result.2.future place) same

/-- Every answer is what would be given after the tokens that were taken so far, all of which were
given without an error. -/
theorem getElem?_answers {calls : List Call} {place : Nat} {given : Except LexicalError Token}
    (given_eq : (lexer.answers calls)[place]? = some given) :
    given = lexer.future ((calls.take place).count .next) ∧
      ∀ earlier < (calls.take place).count .next, ∃ token, lexer.future earlier = .ok token := by
  induction calls generalizing lexer place with
  | nil => cases given_eq
  | cons call calls ih =>
    have first := lexer.answer_fst call
    rw [answers] at given_eq
    split at given_eq
    · rename_i token later answer_eq
      rw [answer_eq] at first
      cases place with
      | zero =>
        cases given_eq
        exact ⟨first, nofun⟩
      | succ place =>
        have moved := future_answer (congrArg Prod.fst answer_eq)
        rw [answer_eq] at moved
        obtain ⟨given_later, going⟩ := ih given_eq
        have count_eq : ((call :: calls).take (place + 1)).count .next =
            (calls.take place).count .next + [call].count .next := by
          rw [List.take_succ_cons, List.count_cons, List.count_cons, List.count_nil, Nat.zero_add]
        rw [count_eq]
        refine ⟨given_later.trans (moved _), fun earlier before => ?_⟩
        rcases Nat.lt_or_ge earlier ([call].count .next) with here | passed
        · have few : [call].count .next ≤ 1 := List.count_le_length
          obtain rfl : earlier = 0 := by omega
          exact ⟨token, first.symm⟩
        · obtain ⟨rest, rfl⟩ := Nat.exists_eq_add_of_le' passed
          obtain ⟨other, other_eq⟩ := going rest (by omega)
          exact ⟨other, (moved rest).symm.trans other_eq⟩
    · rename_i error later answer_eq
      rw [answer_eq] at first
      cases place with
      | zero =>
        cases given_eq
        exact ⟨first, nofun⟩
      | succ place => cases given_eq

/-- Calls are answered up to the first error. -/
theorem length_answers (lexer : Lexer) (calls : List Call) :
    (lexer.answers calls).length = calls.length ∨
      ∃ error, (lexer.answers calls).getLast? = some (.error error) := by
  induction calls generalizing lexer with
  | nil => exact .inl rfl
  | cons call calls ih =>
    rw [answers]
    split
    · rename_i token later _
      rcases ih later with same | ⟨error, last⟩
      · exact .inl (congrArg Nat.succ same)
      · exact .inr ⟨error, by rw [List.getLast?_cons, last]; rfl⟩
    · rename_i error later _
      exact .inr ⟨error, rfl⟩

/-- When the calls before have been answered, a lexer is left that answers those that follow. -/
theorem exists_answers_append {before calls : List Call} {given : Except LexicalError Token}
    (given_eq : (lexer.answers (before ++ calls))[before.length]? = some given) :
    ∃ later : Lexer, ∀ place,
      (lexer.answers (before ++ calls))[before.length + place]? =
        (later.answers calls)[place]? := by
  induction before generalizing lexer with
  | nil => exact ⟨lexer, fun place => by rw [List.length_nil, Nat.zero_add, List.nil_append]⟩
  | cons call before ih =>
    rw [List.cons_append, answers] at given_eq ⊢
    split at given_eq
    · obtain ⟨later, same⟩ := ih given_eq
      refine ⟨later, fun place => ?_⟩
      rw [List.length_cons, Nat.succ_add, List.getElem?_cons_succ, same]
    · cases given_eq

/-- A token that has been looked at stays until it is taken. -/
theorem answers_held {token : Token} (held : lexer.lookAhead = some token) (count : Nat)
    (calls : List Call) :
    (lexer.answers (List.replicate count .peek ++ .next :: calls))[count]? = some (.ok token) := by
  obtain ⟨cursor, lookAhead⟩ := lexer
  cases held
  induction count with
  | zero => rfl
  | succ count ih => exact ih

/-- A token that is answered to a look ahead is the next one that is taken. -/
theorem answers_peek {count : Nat} {calls : List Call} {token : Token}
    (given_eq : (lexer.answers (.peek :: (List.replicate count .peek ++ .next :: calls)))[0]? =
      some (.ok token)) :
    (lexer.answers (.peek :: (List.replicate count .peek ++ .next :: calls)))[count + 1]? =
      some (.ok token) := by
  have held {later : Lexer} (peek_eq : lexer.answer .peek = (.ok token, later)) :
      later.lookAhead = some token := by
    obtain ⟨cursor, lookAhead⟩ := lexer
    cases lookAhead with
    | some token =>
      cases peek_eq
      rfl
    | none =>
      simp only [answer, peek] at peek_eq
      split at peek_eq
      · cases peek_eq
        rfl
      · cases peek_eq
  rw [answers] at given_eq ⊢
  split at given_eq
  · rename_i same later answer_eq
    cases given_eq
    exact answers_held (held answer_eq) count calls
  · cases given_eq

end

end Lexer

theorem TokenStream.nth_push (token : Token) (stream : TokenStream) (place : Nat) :
    (push token stream).nth (place + 1) = stream.nth place := by
  simp only [nth, push, List.getElem?_cons_succ, List.length_cons, Nat.add_right_cancel_iff]

namespace Lexer

theorem future_at_end (offset place : Nat) :
    future ⟨⟨[], offset⟩, none⟩ place = .ok ⟨.endOfSource, .point offset, false⟩ := by
  induction place with
  | zero => rfl
  | succ place ih => exact ih

/-- As long as there is no error, taking tokens gives those of the stream, and then its end. -/
theorem future_eq_nth {cursor : Cursor} {place : Nat}
    (going : ∀ earlier < place, ∃ token, future ⟨cursor, none⟩ earlier = .ok token) :
    future ⟨cursor, none⟩ place = (TokenStream.ofCursor cursor).nth place := by
  induction place generalizing cursor with
  | zero =>
    show cursor.scan.1 = _
    cases scan_eq : cursor.scan.1 with
    | error error =>
      rw [TokenStream.ofCursor_of_error scan_eq]
      rfl
    | ok token =>
      rw [TokenStream.ofCursor_of_ok scan_eq]
      split <;> rfl
  | succ place ih =>
    obtain ⟨token, first⟩ := going 0 (Nat.succ_pos place)
    have scan_eq : cursor.scan.1 = .ok token := first
    rw [TokenStream.ofCursor_of_ok scan_eq]
    show future ⟨cursor.scan.2, none⟩ place = _
    cases last : token.isEnd with
    | true =>
      obtain ⟨offset, newline, rfl, stop_eq⟩ := Cursor.scan_end scan_eq last
      rw [stop_eq, future_at_end]
      rfl
    | false =>
      rw [if_neg Bool.false_ne_true, TokenStream.nth_push]
      exact ih fun earlier before => going (earlier + 1) (Nat.succ_lt_succ before)

/-- What is taken from a text that has been read to its end. -/
theorem nth_of_toExcept {stream : TokenStream} {tokens : List Token}
    (read_eq : stream.toExcept = .ok tokens) (place : Nat) :
    ∃ token, stream.nth place = .ok token ∧
      (tokens[place]? = some token ∨ tokens.length ≤ place ∧
        ∃ last, stream.ending = .ok last ∧ tokens.getLast? = some last ∧
          token = { last with newlineBefore := false }) := by
  obtain ⟨before, ending, stop⟩ := stream
  cases ending with
  | error error => cases read_eq
  | ok last =>
    cases read_eq
    simp only [TokenStream.nth]
    cases token_eq : before[place]? with
    | some token =>
      have inside := (List.getElem?_eq_some_iff.mp token_eq).1
      exact ⟨token, rfl, .inl (by rw [List.getElem?_append_left inside, token_eq])⟩
    | none =>
      have beyond := List.getElem?_eq_none_iff.mp token_eq
      by_cases next : place = before.length
      · subst next
        exact ⟨last, if_pos rfl, .inl List.getElem?_concat_length⟩
      · refine ⟨_, if_neg next, .inr ⟨?_, last, rfl, List.getLast?_concat, rfl⟩⟩
        rw [List.length_append, List.length_singleton]
        omega

/-- What is taken from a text with a lexical error. -/
theorem nth_of_error {stream : TokenStream} {error : LexicalError}
    (read_eq : stream.toExcept = .error error) (place : Nat) :
    stream.nth place = stream.tokens[place]?.elim (.error error) .ok := by
  obtain ⟨tokens, ending, stop⟩ := stream
  cases ending with
  | ok last => cases read_eq
  | error other =>
    cases read_eq
    simp only [TokenStream.nth]
    cases tokens[place]? with
    | some token => rfl
    | none => exact ite_self _

/-- However looks ahead and takings of tokens follow one another: they are answered up to the first
error. If all tokens of the text can be read, then every answer is the token whose number is that of
the tokens taken before, and behind the last one the end of the source at the place of the last one.
If there is a lexical error, then the tokens before it are given, and in the place of the next one
that error. A token that a look ahead shows is the one that is taken next. -/
theorem answers_ofText (text : String) (calls : List Call) :
    let given := (ofText text).answers calls
    let taken (place : Nat) := (calls.take place).count .next
    (given.length = calls.length ∨ ∃ error, given.getLast? = some (.error error)) ∧
    (∀ tokens, (ofText text).drain.1 = .ok tokens → ∀ place result, given[place]? = some result →
      ∃ token, result = .ok token ∧ (tokens[taken place]? = some token ∨
        tokens.length ≤ taken place ∧ token.isEnd = true ∧
          ∃ last, tokens.getLast? = some last ∧ token.span = last.span)) ∧
    (∀ error, (ofText text).drain.1 = .error error →
      ∀ place result, given[place]? = some result →
        result = (TokenStream.ofText text).tokens[taken place]?.elim (.error error) .ok) ∧
    ∀ before count after token,
      calls = before ++ .peek :: (List.replicate count .peek ++ .next :: after) →
      given[before.length]? = some (.ok token) →
        given[before.length + (count + 1)]? = some (.ok token) := by
  intro given taken
  have drain_eq := TokenStream.drain_eq text
  obtain ⟨_, ending⟩ := TokenStream.ofCursor_ends (.ofText text)
  have given_eq {place : Nat} {result : Except LexicalError Token}
      (result_eq : given[place]? = some result) :
      result = (TokenStream.ofText text).nth (taken place) := by
    obtain ⟨future_eq, going⟩ := getElem?_answers result_eq
    exact future_eq.trans (future_eq_nth going)
  refine ⟨length_answers _ calls, fun tokens read_eq place result result_eq => ?_,
    fun error read_eq place result result_eq => ?_, ?_⟩
  · rw [drain_eq] at read_eq
    obtain ⟨token, nth_eq, here | ⟨behind, last, ending_eq, last_eq, rfl⟩⟩ :=
      nth_of_toExcept read_eq (taken place)
    · exact ⟨token, (given_eq result_eq).trans nth_eq, .inl here⟩
    · have isEnd := ending last ending_eq
      exact ⟨_, (given_eq result_eq).trans nth_eq, .inr ⟨behind, isEnd, last, last_eq, rfl⟩⟩
  · rw [drain_eq] at read_eq
    exact (given_eq result_eq).trans (nth_of_error read_eq (taken place))
  · rintro before count after token rfl first
    obtain ⟨later, same⟩ := exists_answers_append first
    have shown := same 0
    rw [Nat.add_zero, show ((ofText text).answers _)[before.length]? = _ from first] at shown
    exact (same (count + 1)).trans (answers_peek shown.symm)

end Lexer
end Scriptlet
