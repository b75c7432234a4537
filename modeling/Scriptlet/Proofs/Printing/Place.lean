import Scriptlet.Proofs.Printing.Spelling

set_option autoImplicit false

/-!
Rules in front of characters. `State.IsAt` says that the tokens that are left are those of some
characters, up to where they stand, so that each printed lexeme gives a token that is taken.
-/
namespace Scriptlet

namespace Cursor

theorem skipGap_newline (gap : Gap) (newline : Bool) (offset : Nat) (cs : List Char) :
    (skipGap gap newline offset cs).map Prod.snd = (skipGap gap false offset cs).map Prod.snd := by
  induction cs generalizing gap newline offset with
  | nil => cases gap <;> rfl
  | cons c rest inductive_hypothesis =>
    cases gap with
    | blank =>
      simp only [skipGap]
      repeat' split
      all_goals first | rfl | exact inductive_hypothesis _ _ _
    | lineComment =>
      simp only [skipGap]
      split
      · rfl
      · exact inductive_hypothesis _ _ _
    | opening start => exact inductive_hypothesis _ _ _
    | closing => exact inductive_hypothesis _ _ _
    | blockComment start =>
      simp only [skipGap]
      split
      · exact inductive_hypothesis _ _ _
      · rw [inductive_hypothesis _ (newline || _), inductive_hypothesis _ (false || _)]

/-- White space in front changes the places only. -/
theorem scan_blank {c : Char} (blank : Text.isBlank c = true) (rest : List Char) (offset : Nat) :
    (scan ⟨c :: rest, offset⟩).1.map (·.lexeme) = (scan ⟨rest, offset + 1⟩).1.map (·.lexeme) ∧
      (scan ⟨c :: rest, offset⟩).2 = (scan ⟨rest, offset + 1⟩).2 := by
  have skipped : (skipGap .blank false offset (c :: rest)).map Prod.snd =
      (skipGap .blank false (offset + 1) rest).map Prod.snd := by
    simp only [skipGap, blank, ↓reduceIte]
    split
    · exact skipGap_newline ..
    · rfl
  unfold scan
  simp only
  generalize skipGap .blank false offset (c :: rest) = before at skipped ⊢
  generalize skipGap .blank false (offset + 1) rest = after at skipped ⊢
  cases before with
  | error start =>
    cases after with
    | ok result => cases skipped
    | error start =>
      cases skipped
      refine ⟨rfl, ?_⟩
      simp only [advance, List.length_cons, List.drop_succ_cons, mk.injEq, true_and]
      omega
  | ok result =>
    cases after with
    | error start => cases skipped
    | ok other =>
      have place_eq : result.2 = other.2 := Except.ok.inj skipped
      simp only [place_eq]
      split <;> exact ⟨rfl, rfl⟩

/-- A spelling in front is read as its lexeme. -/
theorem scan_spelled_append {text rest : List Char} {lexeme : Lexeme}
    (spelled : Lexeme.Spelled text lexeme) (settled : Settled (text ++ rest))
    (ends : Lexeme.Ends lexeme rest) (offset : Nat) :
    scan ⟨text ++ rest, offset⟩ =
      (.ok ⟨lexeme, ⟨offset, offset + text.length⟩, false⟩, ⟨rest, offset + text.length⟩) := by
  simp only [scan, skipGap_settled settled, Lexeme.read_append spelled ends, advance,
    List.drop_left]

end Cursor

def TokenStream.lexemes (stream : TokenStream) : List Lexeme × Option Lexeme :=
  (stream.tokens.map (·.lexeme), stream.ending.toOption.map (·.lexeme))

theorem TokenStream.lexemes_ofCursor_blank {c : Char} (blank : Text.isBlank c = true)
    (rest : List Char) (offset : Nat) :
    (ofCursor ⟨c :: rest, offset⟩).lexemes = (ofCursor ⟨rest, offset + 1⟩).lexemes := by
  obtain ⟨lexeme_eq, place_eq⟩ := Cursor.scan_blank blank rest offset
  cases before : (Cursor.scan ⟨c :: rest, offset⟩).1 with
  | error error =>
    cases after : (Cursor.scan ⟨rest, offset + 1⟩).1 with
    | ok token =>
      rw [before, after] at lexeme_eq
      cases lexeme_eq
    | error other =>
      rw [ofCursor_of_error before, ofCursor_of_error after]
      rfl
  | ok token =>
    cases after : (Cursor.scan ⟨rest, offset + 1⟩).1 with
    | error error =>
      rw [before, after] at lexeme_eq
      cases lexeme_eq
    | ok other =>
      rw [before, after] at lexeme_eq
      have same : token.lexeme = other.lexeme := Except.ok.inj lexeme_eq
      have end_eq : token.isEnd = other.isEnd := by simp only [Token.isEnd, same]
      rw [ofCursor_of_ok before, ofCursor_of_ok after, place_eq, end_eq]
      split
      · simp only [lexemes, List.map_nil, Except.toOption, Option.map_some, same]
      · simp only [lexemes, push, List.map_cons, same]

namespace Grammar

/-- The tokens that are left are those of some characters, up to where they stand. -/
def State.IsAt (state : State) (cs : List Char) : Prop :=
  ∃ offset, (state.tokens.map (·.lexeme), state.ending.toOption.map (·.lexeme)) =
    (TokenStream.ofCursor ⟨cs, offset⟩).lexemes

namespace State.IsAt

variable {state : State} {rest : List Char}

theorem ofText (text : String) : (State.ofStream (.ofText text)).IsAt text.toList :=
  ⟨0, rfl⟩

theorem made {α : Type} {node : Builder → α × Builder} (isAt : state.IsAt rest) :
    (state.made node).2.IsAt rest :=
  isAt

/-- White space is skipped. -/
theorem skip {c : Char} (isAt : state.IsAt (c :: rest)) (blank : Text.isBlank c = true) :
    state.IsAt rest := by
  obtain ⟨offset, lexemes_eq⟩ := isAt
  exact ⟨offset + 1, by rw [lexemes_eq, TokenStream.lexemes_ofCursor_blank blank]⟩

theorem blank (isAt : state.IsAt (' ' :: rest)) : state.IsAt rest :=
  isAt.skip (by decide)

/-- A spelling in front is taken as a token. -/
theorem spelled {text : List Char} {lexeme : Lexeme} (isAt : state.IsAt (text ++ rest))
    (spelled : Lexeme.Spelled text lexeme) (settled : Cursor.Settled (text ++ rest))
    (ends : Lexeme.Ends lexeme rest) (other : lexeme ≠ .endOfSource) :
    ∃ token, Takes state token (state.after token) ∧ token.lexeme = lexeme ∧
      (state.after token).IsAt rest := by
  obtain ⟨offset, lexemes_eq⟩ := isAt
  have scan_eq := Cursor.scan_spelled_append spelled settled ends offset
  have going : Token.isEnd ⟨lexeme, ⟨offset, offset + text.length⟩, false⟩ = false := by
    cases lexeme <;> first | rfl | exact absurd rfl other
  rw [TokenStream.ofCursor_of_ok (congrArg Prod.fst scan_eq), going, scan_eq] at lexemes_eq
  simp only [Bool.false_eq_true, ↓reduceIte, TokenStream.lexemes, TokenStream.push, List.map_cons,
    Prod.mk.injEq] at lexemes_eq
  obtain ⟨tokens_eq, ending_eq⟩ := lexemes_eq
  cases left_eq : state.tokens with
  | nil =>
    rw [left_eq] at tokens_eq
    cases tokens_eq
  | cons token later =>
    rw [left_eq, List.map_cons, List.cons.injEq] at tokens_eq
    refine ⟨token, ⟨by simp only [State.next, left_eq], rfl⟩, tokens_eq.1,
      offset + text.length, ?_⟩
    simp only [State.after, left_eq, List.tail_cons, TokenStream.lexemes, tokens_eq.2, ending_eq]

/-- A sign in front is taken. -/
theorem sign {sign : Punctuator} (isAt : state.IsAt (sign.characters ++ rest))
    (stops : ∀ c, rest.head? = some c → sign.goesOn c = false) :
    ∃ token, Takes state token (state.after token) ∧ token.lexeme = .punctuator sign ∧
      (state.after token).IsAt rest :=
  isAt.spelled (.punctuator sign) (Lexeme.settled_sign stops) (Lexeme.ends_sign stops) nofun

/-- A word in front is taken. -/
theorem word {name : String} (isAt : state.IsAt (name.toList ++ rest)) (isWord : IsWord name)
    (apart : Apart rest) :
    ∃ token, Takes state token (state.after token) ∧ token.lexeme = .ofWord name ∧
      (state.after token).IsAt rest := by
  have signless := Lexeme.ofWord_ne_punctuator name
  have other := Lexeme.ofWord_ne_endOfSource name
  have spelled := Lexeme.spelled_word isWord
  exact isAt.spelled spelled (Lexeme.settled_spelled spelled other signless rest)
    (Lexeme.ends_of_apart apart other signless) other

/-- A reserved word in front is taken. -/
theorem keyword (word : Keyword) (isAt : state.IsAt (word.spelling.toList ++ rest))
    (apart : Apart rest) :
    ∃ token, Takes state token (state.after token) ∧ token.lexeme = .keyword word ∧
      (state.after token).IsAt rest := by
  obtain ⟨token, taken, lexeme_eq, later⟩ := isAt.word word.isWord_spelling apart
  exact ⟨token, taken, lexeme_eq.trans word.ofWord_spelling, later⟩

/-- Nothing is left. -/
theorem nil (isAt : state.IsAt []) : state.Sees (·.lexeme = .endOfSource) := by
  obtain ⟨offset, lexemes_eq⟩ := isAt
  have scan_eq : Cursor.scan ⟨[], offset⟩ =
      (.ok ⟨.endOfSource, .point offset, false⟩, ⟨[], offset⟩) := rfl
  rw [TokenStream.ofCursor_of_ok (congrArg Prod.fst scan_eq)] at lexemes_eq
  simp only [Token.isEnd, ↓reduceIte, TokenStream.lexemes, List.map_nil, Prod.mk.injEq,
    List.map_eq_nil_iff, Except.toOption, Option.map_some] at lexemes_eq
  obtain ⟨tokens_eq, ending_eq⟩ := lexemes_eq
  cases last_eq : state.ending with
  | error error =>
    rw [last_eq] at ending_eq
    cases ending_eq
  | ok last =>
    rw [last_eq] at ending_eq
    exact ⟨last, by simp only [State.next, tokens_eq, last_eq], Option.some.inj ending_eq⟩

end State.IsAt

end Grammar
end Scriptlet
