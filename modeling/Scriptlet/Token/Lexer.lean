import Scriptlet.Token.Scan

set_option autoImplicit false
set_option linter.unusedVariables false

/-!
Sequences of tokens. `TokenStream.ofCursor` reads everything up to the end of the source or the
first error; a `Lexer` hands out one token at a time and can look one ahead. Every token but the
last takes at least one character (`Cursor.scan_rest_lt`), so reading ends.
-/
namespace Scriptlet

namespace Lexeme

theorem ofWord_ne_endOfSource (word : String) : ofWord word ≠ .endOfSource := by
  unfold ofWord
  repeat' split
  all_goals nofun

theorem length_word_pos {c : Char} (rest : List Char) (head : isWordHead c = true) :
    0 < ((c :: rest).takeWhile isWordPart).length := by
  have part : isWordPart c = true := by simp [isWordPart, head]
  simp [part]

theorem length_number_pos {cs : List Char} (starts : startsNumber cs = true) :
    0 < (readNumber cs).2 := by
  have count : 0 < (Numeral.leadingDigits cs).length ∨
      (Numeral.leadingDigits cs = [] ∧ fractionAt cs ≠ []) := by
    match cs with
    | [] => simp [startsNumber] at starts
    | [c] =>
      simp only [startsNumber] at starts
      simp [Numeral.leadingDigits, starts]
    | c :: next :: rest =>
      simp only [startsNumber, Bool.or_eq_true, Bool.and_eq_true, beq_iff_eq] at starts
      by_cases digit : c.isDigit = true
      · simp [Numeral.leadingDigits, List.takeWhile_cons, digit]
      · obtain ⟨rfl, next_digit⟩ := starts.resolve_left digit
        right
        constructor
        · rfl
        · simp [fractionAt, Numeral.leadingDigits, next_digit]
  have total : (Numeral.leadingDigits cs).length +
      (if (fractionAt (cs.drop (Numeral.leadingDigits cs).length)).isEmpty then 0
        else (fractionAt (cs.drop (Numeral.leadingDigits cs).length)).length + 1) ≤
      (readNumber cs).2 := by
    unfold readNumber
    simp only
    repeat' split
    all_goals exact Nat.le_add_right _ _
  rcases count with count | ⟨none, count⟩
  · exact Nat.lt_of_lt_of_le count (Nat.le_trans (Nat.le_add_right _ _) total)
  · have : (fractionAt cs).isEmpty = false := by simpa using count
    simp only [none, List.length_nil, List.drop_zero, this] at total
    exact Nat.lt_of_lt_of_le (Nat.succ_pos _) (Nat.le_trans (Nat.le_add_left _ _) total)

theorem length_read_pos {cs : List Char} {lexeme : Lexeme} {length : Nat}
    (read_eq : read cs = (.ok lexeme, length)) (other : lexeme ≠ .endOfSource) :
    0 < length ∧ cs ≠ [] := by
  unfold read at read_eq
  split at read_eq
  · simp_all
  · rename_i c rest
    refine ⟨?_, by simp⟩
    split at read_eq
    · split at read_eq <;> simp_all
      omega
    · split at read_eq
      · rename_i starts
        have pos := length_number_pos starts
        split at read_eq <;> simp_all
      · split at read_eq
        · rename_i head
          have pos := length_word_pos rest head
          simp only [Prod.mk.injEq, Except.ok.injEq] at read_eq
          omega
        · split at read_eq
          · rename_i sign _
            have pos := sign.size_pos
            simp only [Prod.mk.injEq, Except.ok.injEq] at read_eq
            omega
          · simp at read_eq

end Lexeme

namespace Cursor

theorem length_skipGap_le {gap : Gap} {newline : Bool} {offset : Nat} {cs : List Char}
    {result : Bool × Cursor} (skip_eq : skipGap gap newline offset cs = .ok result) :
    result.2.rest.length ≤ cs.length := by
  fun_induction skipGap gap newline offset cs <;> grind

theorem scan_rest_lt {cursor : Cursor} {token : Token} (scan_eq : cursor.scan.1 = .ok token)
    (other : token.isEnd = false) : cursor.scan.2.rest.length < cursor.rest.length := by
  revert scan_eq
  unfold scan
  split
  · simp
  · rename_i newline start skip_eq
    have shorter := length_skipGap_le skip_eq
    split
    · rename_i lexeme length read_eq
      simp only [Except.ok.injEq]
      rintro rfl
      have ⟨pos, nonempty⟩ :=
        Lexeme.length_read_pos read_eq (by rintro rfl; simp [Token.isEnd] at other)
      have := List.length_pos_iff.mpr nonempty
      simp only [advance, List.length_drop]
      simp only at shorter
      omega
    · simp

end Cursor

/-- Everything that is read from a place on: the tokens before the end of the source or before the
first error, which of the two comes then, and where reading stopped. -/
structure TokenStream where
  tokens : List Token
  ending : Except LexicalError Token
  stop : Cursor

namespace TokenStream

def push (token : Token) (stream : TokenStream) : TokenStream :=
  { stream with tokens := token :: stream.tokens }

def ofCursor (cursor : Cursor) : TokenStream :=
  match scan_eq : cursor.scan with
  | (.error error, stop) => ⟨[], .error error, stop⟩
  | (.ok token, stop) =>
    if last : token.isEnd then ⟨[], .ok token, stop⟩ else push token (ofCursor stop)
termination_by cursor.rest.length
decreasing_by
  have shorter := cursor.scan_rest_lt (congrArg Prod.fst scan_eq) (by simpa using last)
  simpa [scan_eq] using shorter

def ofText (text : String) : TokenStream :=
  ofCursor (.ofText text)

def toExcept (stream : TokenStream) : Except LexicalError (List Token) :=
  match stream.ending with
  | .ok last => .ok (stream.tokens ++ [last])
  | .error error => .error error

end TokenStream

/-- A place in a text, and the token that was looked at but not taken. -/
structure Lexer where
  cursor : Cursor
  lookAhead : Option Token

namespace Lexer

def ofText (text : String) : Lexer :=
  ⟨.ofText text, none⟩

def next (lexer : Lexer) : Except LexicalError Token × Lexer :=
  match lexer.lookAhead with
  | some token => (.ok token, { lexer with lookAhead := none })
  | none =>
    let (result, cursor) := lexer.cursor.scan
    (result, ⟨cursor, none⟩)

/-- Looks at the next token without taking it. -/
def peek (lexer : Lexer) : Except LexicalError Token × Lexer :=
  match lexer.lookAhead with
  | some token => (.ok token, lexer)
  | none =>
    match lexer.cursor.scan with
    | (.ok token, cursor) => (.ok token, ⟨cursor, some token⟩)
    | (.error error, cursor) => (.error error, ⟨cursor, none⟩)

/-- Takes all tokens up to and with the end of the source. -/
def drain (lexer : Lexer) : Except LexicalError (List Token) × Lexer :=
  match lexer.next with
  | (.error error, lexer) => (.error error, lexer)
  | (.ok token, lexer) =>
    if token.isEnd then (.ok [token], lexer)
    else
      let stream := TokenStream.ofCursor lexer.cursor
      (stream.toExcept.map (token :: ·), ⟨stream.stop, none⟩)

end Lexer
end Scriptlet
