import Scriptlet.Proofs.Token.Tiling

set_option autoImplicit false

/-!
Where tokens end and lexical errors begin. A lexical error lies in the text, behind the tokens that
were read before it.
-/
namespace Scriptlet

namespace Lexeme

theorem length_readString_le (quote : Char) (cs : List Char) :
    (readString quote cs).2 ≤ cs.length := by
  fun_induction readString quote cs <;> grind

theorem length_leadingDigits_le (cs : List Char) :
    (Numeral.leadingDigits cs).length ≤ cs.length :=
  (List.takeWhile_sublist _).length_le

/-- The digits of a fraction stand behind its point. -/
theorem length_fractionAt_lt {cs : List Char} (nonempty : (fractionAt cs).isEmpty = false) :
    (fractionAt cs).length + 1 ≤ cs.length := by
  unfold fractionAt at *
  split
  · have digits := length_leadingDigits_le ‹List Char›
    simpa using digits
  · simp at nonempty

theorem length_exponentAt_le (cs : List Char) : (Numeral.exponentAt cs).2 ≤ cs.length := by
  cases cs with
  | nil => exact Nat.le_refl _
  | cons mark rest =>
    have signed : (if Numeral.startsWithSign rest then 1 else 0) ≤ rest.length := by
      cases rest with
      | nil => exact Nat.le_refl _
      | cons sign digits =>
        have := @List.length_cons _ sign digits
        split <;> omega
    simp only [Numeral.exponentAt, List.length_cons]
    generalize (if Numeral.startsWithSign rest then 1 else 0) = count at *
    have digits := length_leadingDigits_le (rest.drop count)
    rw [List.length_drop] at digits
    split
    · split <;> simp only <;> omega
    · exact Nat.zero_le _

theorem length_readNumber_le (cs : List Char) : (readNumber cs).2 ≤ cs.length := by
  have whole := length_leadingDigits_le cs
  have rest_length : (cs.drop (Numeral.leadingDigits cs).length).length =
      cs.length - (Numeral.leadingDigits cs).length := List.length_drop
  unfold readNumber
  simp only
  generalize cs.drop (Numeral.leadingDigits cs).length = rest at *
  have fraction : (if (fractionAt rest).isEmpty then 0 else (fractionAt rest).length + 1) ≤
      rest.length := by
    split
    · exact Nat.zero_le _
    · rename_i nonempty
      exact length_fractionAt_lt (by simpa using nonempty)
  generalize (if (fractionAt rest).isEmpty then 0 else (fractionAt rest).length + 1) = count at *
  have exponent := length_exponentAt_le (rest.drop count)
  rw [List.length_drop] at exponent
  split
  · simp only
    omega
  · split <;> simp only <;> omega

end Lexeme

namespace Cursor

/-- Where a block comment that is never closed began, seen from a state inside it. -/
def Gap.Opened (low offset : Nat) (cs : List Char) : Gap → Prop
  | .opening start => low ≤ start ∧ start + 1 ≤ offset ∧ cs ≠ []
  | .blockComment start => low ≤ start ∧ start + 2 ≤ offset
  | _ => low ≤ offset

/-- A block comment that is never closed begins with two characters of the text. -/
theorem skipGap_error {gap : Gap} {newline : Bool} {low offset start : Nat} {cs : List Char}
    (opened : gap.Opened low offset cs) (skip_eq : skipGap gap newline offset cs = .error start) :
    low ≤ start ∧ start + 2 ≤ offset + cs.length := by
  fun_induction skipGap gap newline offset cs <;> grind [Gap.Opened]

/-- What is reported of characters that are not a lexeme are some of these characters. -/
theorem errorSpan_read {cs : List Char} {cause : LexicalCause} {length : Nat}
    (read_eq : Lexeme.read cs = (.error cause, length)) (start : Nat) :
    (errorSpan cause start length).start = start ∧ start ≤ (errorSpan cause start length).stop ∧
      (errorSpan cause start length).stop ≤ start + cs.length := by
  unfold Lexeme.read at read_eq
  split at read_eq
  · cases read_eq
  · rename_i c rest
    have tail_length := @List.length_cons _ c rest
    split at read_eq
    · split at read_eq
      · cases read_eq
      · rename_i count string_eq
        have inside := Lexeme.length_readString_le c rest
        rw [string_eq] at inside
        cases read_eq
        exact ⟨rfl, Nat.le_add_right .., Nat.add_le_add_left (by omega) start⟩
    · split at read_eq
      · split at read_eq
        · cases read_eq
        · rename_i fault count number_eq
          have inside := Lexeme.length_readNumber_le (c :: rest)
          rw [number_eq] at inside
          cases read_eq
          exact ⟨rfl, Nat.le_add_right .., Nat.add_le_add_left (by omega) start⟩
      · split at read_eq
        · cases read_eq
        · split at read_eq
          · cases read_eq
          · cases read_eq
            exact ⟨rfl, Nat.le_add_right .., Nat.add_le_add_left (by omega) start⟩

/-- A lexical error lies in the text, behind the place where reading stood. -/
theorem scan_error {cursor : Cursor} {cs : List Char} {error : LexicalError}
    (isAt : cursor.IsAt cs) (scan_eq : cursor.scan.1 = .error error) :
    cursor.offset ≤ error.span.start ∧ error.span.start ≤ error.span.stop ∧
      error.span.stop ≤ cs.length := by
  obtain ⟨front, rfl, offset_eq⟩ := isAt
  rw [List.length_append]
  revert scan_eq
  unfold scan
  split
  · rename_i start skip_eq
    intro error_eq
    cases error_eq
    have blank : Gap.Opened cursor.offset cursor.offset cursor.rest .blank := Nat.le_refl _
    obtain ⟨after, inside⟩ := skipGap_error blank skip_eq
    show cursor.offset ≤ start ∧ start ≤ start + 2 ∧ start + 2 ≤ front.length + cursor.rest.length
    omega
  · rename_i newline start skip_eq
    obtain ⟨gap, rest_eq, start_eq, _⟩ := skipGap_ok .blank trivial skip_eq
    split
    · intro found
      cases found
    · rename_i cause length read_eq
      intro error_eq
      cases error_eq
      obtain ⟨first, forward, inside⟩ := errorSpan_read read_eq start.offset
      have total := congrArg List.length rest_eq
      simp only [List.length_append] at total start_eq
      show cursor.offset ≤ (errorSpan cause start.offset length).start ∧
        (errorSpan cause start.offset length).start ≤ (errorSpan cause start.offset length).stop ∧
          (errorSpan cause start.offset length).stop ≤ front.length + cursor.rest.length
      omega

end Cursor

/-- Tokens in the order of their ranges, after one offset and before another. -/
def InOrder (limit : Nat) : Nat → List Token → Prop
  | low, [] => low ≤ limit
  | low, token :: rest => low ≤ token.span.start ∧ token.span.start ≤ token.span.stop ∧
    InOrder limit token.span.stop rest

theorem InOrder.le {limit low : Nat} {tokens : List Token} (ordered : InOrder limit low tokens) :
    low ≤ limit := by
  induction tokens generalizing low with
  | nil => exact ordered
  | cons token rest ih =>
    obtain ⟨after, forward, later⟩ := ordered
    have := ih later
    omega

namespace TokenStream

/-- Where the tokens of a stream stop: at the end of the source, or where the error begins. -/
def limit (stream : TokenStream) : Nat :=
  match stream.ending with
  | .ok last => last.span.start
  | .error error => error.span.start

/-- What is read from an offset on is in the order of the text, and lies in it. -/
structure Ordered (length offset : Nat) (stream : TokenStream) : Prop where
  tokens : InOrder stream.limit offset stream.tokens
  inside : stream.limit ≤ length
  ending : ∀ last, stream.ending = .ok last → last.span = .point stream.limit
  fault : ∀ error, stream.ending = .error error →
    error.span.start ≤ error.span.stop ∧ error.span.stop ≤ length

theorem ordered_ofCursor {cursor : Cursor} {cs : List Char} (isAt : cursor.IsAt cs) :
    (ofCursor cursor).Ordered cs.length cursor.offset := by
  induction measure_eq : cursor.rest.length using Nat.strongRecOn generalizing cursor with
  | ind length inductive_hypothesis =>
    cases scan_eq : cursor.scan.1 with
    | error error =>
      obtain ⟨after, forward, inside⟩ := Cursor.scan_error isAt scan_eq
      rw [ofCursor_of_error scan_eq]
      refine ⟨after, Nat.le_trans forward inside, fun last last_eq => ?_,
        fun other other_eq => ?_⟩
      · cases last_eq
      · cases other_eq
        exact ⟨forward, inside⟩
    | ok token =>
      obtain ⟨fits, after_isAt, after_offset⟩ := Cursor.scan_fits isAt scan_eq
      rw [ofCursor_of_ok scan_eq]
      cases last : token.isEnd with
      | true =>
        have span_eq := fits.atEnd last
        have start_eq : token.span.start = cs.length := by rw [span_eq, Span.point]
        refine ⟨fits.after, Nat.le_of_eq start_eq, fun other other_eq => ?_,
          fun fault fault_eq => ?_⟩
        · cases other_eq
          rw [span_eq, limit]
          exact congrArg Span.point start_eq.symm
        · cases fault_eq
      | false =>
        have shorter := Cursor.scan_rest_lt scan_eq last
        obtain ⟨tokens, inside, ending, fault⟩ := inductive_hypothesis _ (by omega) after_isAt rfl
        rw [after_offset] at tokens
        exact ⟨⟨fits.after, Nat.le_of_lt (fits.nonempty last), tokens⟩, inside, ending, fault⟩

theorem ordered_ofText (text : String) : (ofText text).Ordered text.length 0 := by
  have ordered := ordered_ofCursor (Cursor.isAt_ofText text)
  rwa [String.length_toList] at ordered

end TokenStream
end Scriptlet
