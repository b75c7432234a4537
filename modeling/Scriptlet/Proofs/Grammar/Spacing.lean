import Mathlib
import Scriptlet.Proofs.Grammar.Blind
import Scriptlet.Proofs.Grammar.Report
import Scriptlet.Proofs.Token.Spacing

set_option autoImplicit false

/-!
White space between the tokens of a program makes no difference but to the ranges of its nodes, or
to where the program is at fault.
-/
namespace Scriptlet

theorem Token.unplaced_spaced (offset : Nat) (token : Token) :
    (token.spaced offset).unplaced = token.unplaced := by
  unfold spaced
  split <;> rfl

namespace TokenStream

/-- A stream that is read to its end has its last token as its ending. -/
theorem toExcept_eq_ok_iff {stream : TokenStream} {tokens : List Token} :
    stream.toExcept = .ok tokens ↔
      ∃ last, stream.ending = .ok last ∧ tokens = stream.tokens ++ [last] := by
  obtain ⟨before, ending, stop⟩ := stream
  cases ending with
  | error error => simp [toExcept]
  | ok last => simp [toExcept, eq_comm]

/-- Streams with the same tokens but for the places start a reader alike but for the places. -/
theorem unplaced_ofStream {stream other : TokenStream} {tokens copies : List Token}
    (stream_eq : stream.toExcept = .ok tokens) (other_eq : other.toExcept = .ok copies)
    (same : copies.map Token.unplaced = tokens.map Token.unplaced) :
    (Grammar.State.ofStream other).unplaced = (Grammar.State.ofStream stream).unplaced := by
  obtain ⟨last, ending_eq, rfl⟩ := toExcept_eq_ok_iff.mp stream_eq
  obtain ⟨copy, copy_eq, rfl⟩ := toExcept_eq_ok_iff.mp other_eq
  rw [List.map_append, List.map_append] at same
  obtain ⟨before_eq, last_eq⟩ := List.append_inj' same rfl
  rw [Grammar.State.ofStream, Grammar.State.unplaced, copy_eq, before_eq]
  rw [Grammar.State.ofStream, Grammar.State.unplaced, ending_eq]
  simp only [Grammar.unplacedEnding, (List.cons.inj last_eq).1]

end TokenStream

/-- A text that is not read is at fault. -/
theorem Grammar.exists_rejected {text : String} {failure : Failure}
    (read_eq : Program.ofText text = .error failure) : ∃ error, failure = .rejected error := by
  cases failure with
  | rejected error => exact ⟨error, rfl⟩
  | exhausted => exact (read_foundIn (State.placed_ofText text) read_eq).elim

/-- Errors that differ in their places only are reported alike but for the place. -/
theorem SourceError.toDiagnostic_alike {error other : SourceError}
    (alike : other.unplaced = error.unplaced) :
    other.toDiagnostic = { error.toDiagnostic with span := other.toDiagnostic.span } := by
  have error_eq := error.toDiagnostic_unplaced
  rw [← alike, other.toDiagnostic_unplaced] at error_eq
  calc other.toDiagnostic
      = { { other.toDiagnostic with span := some ⟨0, 0⟩ } with
          span := other.toDiagnostic.span } := rfl
    _ = { error.toDiagnostic with span := other.toDiagnostic.span } := by rw [error_eq]

/-- White space that breaks no line, put in at an edge of a token, changes no token but for its
place: those from there on move by one character. So the text is read to the same program, with the
same numbers of nodes and other ranges at most, or it is at fault with the same report, at another
place at most. -/
theorem Program.ofText_spaced {text : String} {tokens : List Token} {token : Token} {offset : Nat}
    {c : Char} (tokens_eq : (Lexer.ofText text).drain.1 = .ok tokens) (member : token ∈ tokens)
    (edge : offset = token.span.start ∨ offset = token.span.stop)
    (blank : Text.isBlank c = true) (inLine : Text.isLineBreak c = false) :
    (Lexer.ofText (Text.insert text offset c)).drain.1 =
        .ok (tokens.map (Token.spaced offset)) ∧
      ((∃ program other, ofText text = .ok program ∧
          ofText (Text.insert text offset c) = .ok other ∧ other.unplaced = program.unplaced) ∨
        ∃ error other, ofText text = .error (.rejected error) ∧
          ofText (Text.insert text offset c) = .error (.rejected other) ∧
          other.toDiagnostic = { error.toDiagnostic with span := other.toDiagnostic.span }) := by
  rw [TokenStream.drain_eq] at tokens_eq ⊢
  have spaced_eq := TokenStream.toExcept_insert tokens_eq member edge blank inLine
  refine ⟨spaced_eq, ?_⟩
  have same : (tokens.map (Token.spaced offset)).map Token.unplaced =
      tokens.map Token.unplaced := by
    rw [List.map_map]
    exact List.map_congr_left fun token _ => token.unplaced_spaced offset
  rcases Grammar.read_alike (TokenStream.unplaced_ofStream tokens_eq spaced_eq same) with
    ⟨program, other, program_eq, other_eq, alike⟩ | ⟨failure, other, failure_eq, other_eq, alike⟩
  · exact .inl ⟨program, other, program_eq, other_eq, alike⟩
  · obtain ⟨error, rfl⟩ := Grammar.exists_rejected failure_eq
    obtain ⟨copy, rfl⟩ := Grammar.exists_rejected other_eq
    have alike : copy.unplaced = error.unplaced := Grammar.Failure.rejected.inj alike
    exact .inr ⟨error, copy, failure_eq, other_eq, SourceError.toDiagnostic_alike alike⟩

/-- A no-break space behind the name of a function that is called. -/
theorem Program.ofText_spaced_call :
    (Lexer.ofText (Text.insert "f(x) // y" 1 '\u00a0')).drain.1 =
        .ok [⟨.identifier "f", ⟨0, 1⟩, false⟩, ⟨.punctuator .leftParen, ⟨2, 3⟩, false⟩,
          ⟨.identifier "x", ⟨3, 4⟩, false⟩, ⟨.punctuator .rightParen, ⟨4, 5⟩, false⟩,
          ⟨.endOfSource, ⟨10, 10⟩, false⟩] ∧
      ∃ program other, ofText "f(x) // y" = .ok program ∧
        ofText (Text.insert "f(x) // y" 1 '\u00a0') = .ok other ∧
          other.unplaced = program.unplaced := by
  have tokens_eq : (Lexer.ofText "f(x) // y").drain.1 =
      .ok [⟨.identifier "f", ⟨0, 1⟩, false⟩, ⟨.punctuator .leftParen, ⟨1, 2⟩, false⟩,
        ⟨.identifier "x", ⟨2, 3⟩, false⟩, ⟨.punctuator .rightParen, ⟨3, 4⟩, false⟩,
        ⟨.endOfSource, ⟨9, 9⟩, false⟩] := by
    cbv
  have isProgram : (ofText "f(x) // y").isOk = true := by
    cbv
  obtain ⟨spaced_eq, alike | ⟨error, _, failed, _⟩⟩ :=
    ofText_spaced (c := '\u00a0') tokens_eq List.mem_cons_self (.inr rfl) (by decide) (by decide)
  · exact ⟨spaced_eq, alike⟩
  · rw [failed] at isProgram
    cases isProgram

end Scriptlet
