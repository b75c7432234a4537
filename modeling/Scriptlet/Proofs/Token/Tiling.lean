import Scriptlet.Proofs.Token.Gap
import Scriptlet.Proofs.Token.Reading

set_option autoImplicit false

/-!
Tokens tile their text. Each token is read from its own characters alone, and only white space and
comments stand between two tokens.
-/
namespace Scriptlet

namespace Span

def slice (span : Span) (cs : List Char) : List Char :=
  (cs.drop span.start).take span.length

theorem slice_append (front text rest : List Char) :
    slice ⟨front.length, front.length + text.length⟩ (front ++ (text ++ rest)) = text := by
  rw [slice, List.drop_left, length, Nat.add_sub_cancel_left, List.take_left]

end Span

namespace TokenStream

/-- The tokens with the end of the source, if it was reached. -/
def all (stream : TokenStream) : List Token :=
  match stream.ending with
  | .ok last => stream.tokens ++ [last]
  | .error _ => stream.tokens

theorem ofCursor_of_error {cursor : Cursor} {error : LexicalError}
    (scan_eq : cursor.scan.1 = .error error) :
    ofCursor cursor = ⟨[], .error error, cursor.scan.2⟩ := by
  have whole : cursor.scan = (.error error, cursor.scan.2) := by rw [← scan_eq]
  rw [ofCursor]
  split
  · rename_i error' stop scan_eq'
    rw [scan_eq'] at whole scan_eq ⊢
    cases scan_eq
    rfl
  · rename_i scan_eq'
    rw [scan_eq'] at scan_eq
    cases scan_eq

theorem ofCursor_of_ok {cursor : Cursor} {token : Token} (scan_eq : cursor.scan.1 = .ok token) :
    ofCursor cursor =
      if token.isEnd then ⟨[], .ok token, cursor.scan.2⟩
      else push token (ofCursor cursor.scan.2) := by
  rw [ofCursor]
  split
  · rename_i scan_eq'
    rw [scan_eq'] at scan_eq
    cases scan_eq
  · rename_i token' stop scan_eq'
    rw [scan_eq'] at scan_eq ⊢
    cases scan_eq
    rfl

theorem all_push (token : Token) (stream : TokenStream) :
    (push token stream).all = token :: stream.all := by
  cases stream with
  | mk tokens ending stop => cases ending <;> rfl

end TokenStream

theorem Token.isEnd_iff {token : Token} : token.isEnd = true ↔ token.lexeme = .endOfSource := by
  unfold isEnd
  split <;> simp_all

/-- What a token is at its place in a text, when the token before it stops at the offset `start`.
Only the end of the source is empty. Its own characters alone are read as the same lexeme, and a
sign is the longest that is spelled where it begins. -/
structure Token.Fits (cs : List Char) (start : Nat) (token : Token) : Prop where
  after : start ≤ token.span.start
  inside : token.span.stop ≤ cs.length
  nonempty : token.isEnd = false → token.span.start < token.span.stop
  atEnd : token.isEnd = true → token.span = .point cs.length
  gap : IsGap (Span.slice ⟨start, token.span.start⟩ cs) (cs.drop token.span.start)
  newline : token.newlineBefore = (Span.slice ⟨start, token.span.start⟩ cs).any Text.isLineBreak
  alone : token.isEnd = false →
    (TokenStream.ofText (String.ofList (token.span.slice cs))).toExcept =
      .ok [⟨token.lexeme, ⟨0, token.span.length⟩, false⟩,
        ⟨.endOfSource, .point token.span.length, false⟩]
  longest : ∀ sign, token.lexeme = .punctuator sign → token.span.length = sign.size ∧
    ∀ other, Punctuator.startsAt (cs.drop token.span.start) other = true → other.size ≤ sign.size

/-- Tokens that fit one after the other into a text. -/
def Tiles (cs : List Char) : Nat → List Token → Prop
  | _, [] => True
  | start, token :: tokens => token.Fits cs start ∧ Tiles cs token.span.stop tokens

namespace Cursor

/-- A place in a text. -/
def IsAt (cursor : Cursor) (cs : List Char) : Prop :=
  ∃ front, cs = front ++ cursor.rest ∧ front.length = cursor.offset

theorem isAt_ofText (text : String) : (ofText text).IsAt text.toList :=
  ⟨[], rfl, rfl⟩

/-- A spelling alone is read as its lexeme, and then the source ends. -/
theorem ofText_spelled {text : List Char} {lexeme : Lexeme} (spelled : Lexeme.Spelled text lexeme)
    (settled : Settled text) (other : lexeme ≠ .endOfSource) :
    (TokenStream.ofText (String.ofList text)).toExcept =
      .ok [⟨lexeme, ⟨0, text.length⟩, false⟩, ⟨.endOfSource, .point text.length, false⟩] := by
  have read_eq := Lexeme.read_append spelled (Lexeme.ends_nil lexeme)
  rw [List.append_nil] at read_eq
  have scan_eq : scan ⟨text, 0⟩ =
      (.ok ⟨lexeme, ⟨0, text.length⟩, false⟩, ⟨[], text.length⟩) := by
    simp only [scan, skipGap_settled settled, read_eq, advance, Nat.zero_add, List.drop_length]
  have last_eq : scan ⟨[], text.length⟩ =
      (.ok ⟨.endOfSource, .point text.length, false⟩, ⟨[], text.length⟩) := rfl
  have going : Token.isEnd ⟨lexeme, ⟨0, text.length⟩, false⟩ = false := by
    cases lexeme <;> first | rfl | exact absurd rfl other
  rw [TokenStream.ofText, ofText, String.toList_ofList,
    TokenStream.ofCursor_of_ok (congrArg Prod.fst scan_eq), going, scan_eq]
  simp only [Bool.false_eq_true, ↓reduceIte]
  rw [TokenStream.ofCursor_of_ok (congrArg Prod.fst last_eq)]
  rfl

/-- One step of reading: the token fits where reading stood, and reading goes on behind it. -/
theorem scan_fits {cursor : Cursor} {cs : List Char} {token : Token} (isAt : cursor.IsAt cs)
    (scan_eq : cursor.scan.1 = .ok token) :
    token.Fits cs cursor.offset ∧ cursor.scan.2.IsAt cs ∧
      cursor.scan.2.offset = token.span.stop := by
  obtain ⟨front, rfl, offset_eq⟩ := isAt
  revert scan_eq
  unfold scan
  split
  · intro missing
    cases missing
  · rename_i newline start skip_eq
    obtain ⟨gap, rest_eq, start_eq, newline_eq, isGap, settled⟩ :=
      skipGap_ok .blank trivial skip_eq
    simp only [Bool.false_or] at rest_eq start_eq newline_eq isGap settled
    split
    · rename_i lexeme length read_eq
      intro token_eq
      cases token_eq
      obtain ⟨text, rest, split, spelled, rfl⟩ := Lexeme.read_split read_eq
      rw [split] at rest_eq settled isGap
      rw [rest_eq]
      have gap_start : start.offset = (front ++ gap).length := by
        rw [start_eq, ← offset_eq, List.length_append]
      have token_slice : Span.slice ⟨start.offset, start.offset + text.length⟩
          (front ++ (gap ++ (text ++ rest))) = text := by
        rw [gap_start, ← List.append_assoc, Span.slice_append]
      have gap_slice : Span.slice ⟨cursor.offset, start.offset⟩
          (front ++ (gap ++ (text ++ rest))) = gap := by
        rw [start_eq, ← offset_eq, Span.slice_append]
      have token_length : Span.length ⟨start.offset, start.offset + text.length⟩ = text.length :=
        Nat.add_sub_cancel_left ..
      have dropped : (front ++ (gap ++ (text ++ rest))).drop start.offset = text ++ rest := by
        rw [gap_start, ← List.append_assoc, List.drop_left]
      refine ⟨⟨?_, ?_, ?_, ?_, ?_, ?_, ?_, ?_⟩, ⟨front ++ (gap ++ text), ?_, ?_⟩, rfl⟩
      · show cursor.offset ≤ start.offset
        omega
      · simp only [List.length_append] at gap_start ⊢
        omega
      · intro going
        have := Lexeme.length_read_pos read_eq (by rintro rfl; cases going)
        show start.offset < start.offset + text.length
        omega
      · intro last
        have lexeme_eq : lexeme = .endOfSource := Token.isEnd_iff.mp last
        rw [lexeme_eq] at read_eq
        have empty := Lexeme.eq_nil_of_read_endOfSource read_eq
        rw [split, List.append_eq_nil_iff] at empty
        obtain ⟨rfl, rfl⟩ := empty
        simp [Span.point, gap_start]
      · simp only [gap_slice, dropped]
        exact isGap
      · simp only [gap_slice]
        exact newline_eq
      · intro going
        simp only [token_slice, token_length]
        exact ofText_spelled spelled settled.of_append (by rintro rfl; cases going)
      · rintro sign lexeme_eq
        simp only at lexeme_eq
        rw [lexeme_eq] at read_eq
        obtain ⟨longest, length_eq⟩ := Lexeme.longestAt?_of_read read_eq
        rw [split] at longest
        simp only [token_length, dropped]
        exact ⟨length_eq, (Punctuator.longestAt?_eq_some_iff.mp longest).2⟩
      · simp only [advance, split, List.drop_left, List.append_assoc]
      · simp only [advance, List.length_append] at gap_start ⊢
        omega
    · intro failed
      cases failed

/-- The end of the source is read where no characters are left. -/
theorem scan_end {cursor : Cursor} {token : Token} (scan_eq : cursor.scan.1 = .ok token)
    (last : token.isEnd = true) :
    ∃ offset newline, token = ⟨.endOfSource, .point offset, newline⟩ ∧
      cursor.scan.2 = ⟨[], offset⟩ := by
  revert scan_eq
  unfold scan
  split
  · intro missing
    cases missing
  · rename_i newline start _
    split
    · rename_i lexeme length read_eq
      intro token_eq
      cases token_eq
      have lexeme_eq : lexeme = .endOfSource := Token.isEnd_iff.mp last
      subst lexeme_eq
      have empty := Lexeme.eq_nil_of_read_endOfSource read_eq
      rw [empty] at read_eq
      cases read_eq
      exact ⟨start.offset, newline, rfl, by rw [advance, empty]; rfl⟩
    · intro failed
      cases failed

end Cursor

namespace TokenStream

theorem tiles_ofCursor {cursor : Cursor} {cs : List Char} (isAt : cursor.IsAt cs) :
    Tiles cs cursor.offset (ofCursor cursor).all := by
  induction measure_eq : cursor.rest.length using Nat.strongRecOn generalizing cursor with
  | ind length inductive_hypothesis =>
    cases scan_eq : cursor.scan.1 with
    | error error =>
      rw [ofCursor_of_error scan_eq]
      trivial
    | ok token =>
      obtain ⟨fits, after_isAt, after_offset⟩ := Cursor.scan_fits isAt scan_eq
      rw [ofCursor_of_ok scan_eq]
      cases last : token.isEnd with
      | true => exact ⟨fits, trivial⟩
      | false =>
        have shorter := Cursor.scan_rest_lt scan_eq last
        have later := inductive_hypothesis _ (by omega) after_isAt rfl
        rw [after_offset] at later
        simp only [Bool.false_eq_true, ↓reduceIte, all_push]
        exact ⟨fits, later⟩

/-- What was read before the end, and what the end is. -/
theorem ofCursor_ends (cursor : Cursor) :
    (∀ token ∈ (ofCursor cursor).tokens, token.isEnd = false) ∧
      ∀ last, (ofCursor cursor).ending = .ok last → last.isEnd = true := by
  induction measure_eq : cursor.rest.length using Nat.strongRecOn generalizing cursor with
  | ind length inductive_hypothesis =>
    cases scan_eq : cursor.scan.1 with
    | error error =>
      rw [ofCursor_of_error scan_eq]
      exact ⟨nofun, nofun⟩
    | ok token =>
      rw [ofCursor_of_ok scan_eq]
      cases last : token.isEnd with
      | true =>
        refine ⟨nofun, fun token' token_eq => ?_⟩
        cases token_eq
        exact last
      | false =>
        have shorter := Cursor.scan_rest_lt scan_eq last
        obtain ⟨going, ending⟩ := inductive_hypothesis _ (by omega) cursor.scan.2 rfl
        refine ⟨fun token' member => ?_, ending⟩
        rcases List.mem_cons.mp member with rfl | member
        · exact last
        · exact going token' member

/-- A lexer that takes all its tokens takes those of the stream. -/
theorem drain_eq (text : String) : (Lexer.ofText text).drain.1 = (ofText text).toExcept := by
  rw [ofText, Lexer.drain, Lexer.next, Lexer.ofText]
  cases scan_eq : (Cursor.ofText text).scan.1 with
  | error error =>
    simp only [scan_eq, ofCursor_of_error scan_eq]
    rfl
  | ok token =>
    rw [ofCursor_of_ok scan_eq]
    cases last : token.isEnd with
    | true =>
      simp only [scan_eq, last]
      rfl
    | false =>
      simp only [scan_eq, last, Bool.false_eq_true, ↓reduceIte]
      generalize ofCursor (Cursor.ofText text).scan.2 = later
      cases later with
      | mk tokens ending stop => cases ending <;> rfl

/-- The tokens of a text, or those before its first lexical error, tile it. They are what a lexer
gives that takes them all; only the last can be the end of the source, and it is unless there is an
error. -/
theorem ofText_tiles (text : String) :
    Tiles text.toList 0 (ofText text).all ∧
      (∀ token ∈ (ofText text).tokens, token.isEnd = false) ∧
      (Lexer.ofText text).drain.1 = (ofText text).toExcept ∧
      ∀ tokens, (ofText text).toExcept = .ok tokens → tokens = (ofText text).all ∧
        ∃ last, tokens.getLast? = some last ∧ last.isEnd = true := by
  obtain ⟨going, ending⟩ := ofCursor_ends (.ofText text)
  refine ⟨tiles_ofCursor (Cursor.isAt_ofText text), going, drain_eq text, fun tokens read_eq => ?_⟩
  change ∀ last, (ofText text).ending = .ok last → last.isEnd = true at ending
  generalize ofText text = stream at read_eq ending ⊢
  cases stream with
  | mk before result stop =>
    cases result with
    | error error => cases read_eq
    | ok last =>
      cases read_eq
      exact ⟨rfl, last, List.getLast?_concat, ending last rfl⟩

end TokenStream
end Scriptlet
