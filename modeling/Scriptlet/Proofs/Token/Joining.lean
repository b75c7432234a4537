import Mathlib.Data.List.Forall2
import Scriptlet.Proofs.Printing.Spelling
import Scriptlet.Proofs.Token.Fault

set_option autoImplicit false

/-!
Texts joined at a line break. The tokens of the first text come first, and then the second text is
read as on its own, but for the places of its tokens and the line break before the first of them.
-/
namespace Scriptlet

theorem takeWhile_append_stop {property : Char → Bool} {c : Char} (stops : property c = false)
    (cs more : List Char) : (cs ++ c :: more).takeWhile property = cs.takeWhile property := by
  induction cs with
  | nil => simp [stops]
  | cons d cs ih => simp only [List.cons_append, List.takeWhile_cons, ih]

theorem isPrefixOf_append_stop {text : List Char} {c : Char} (other : c ∉ text)
    (cs more : List Char) : text.isPrefixOf (cs ++ c :: more) = text.isPrefixOf cs := by
  induction text generalizing cs with
  | nil => cases cs <;> rfl
  | cons d text ih =>
    rw [List.mem_cons, not_or] at other
    cases cs with
    | nil => simp [List.isPrefixOf, Ne.symm other.1]
    | cons e cs => simp only [List.cons_append, List.isPrefixOf, ih other.2]

theorem ne_of_isBlank {c d : Char} (blank : Text.isBlank c = true)
    (visible : Text.isBlank d = false) : c ≠ d := by
  rintro rfl
  rw [blank] at visible
  cases visible

theorem not_mem_characters_of_isBlank {c : Char} (blank : Text.isBlank c = true)
    (sign : Punctuator) : c ∉ sign.characters := by
  have visible : sign.characters.any Text.isBlank = false := by cases sign <;> rfl
  intro member
  rw [List.any_eq_false] at visible
  exact visible c member blank

theorem not_isDigit_of_isBlank {c : Char} (blank : Text.isBlank c = true) : c.isDigit = false := by
  rw [Bool.eq_false_iff]
  intro digit
  have part := isWordPart_of_isDigit digit
  rw [not_isWordPart_of_isBlank blank] at part
  cases part

theorem not_isWordHead_of_isBlank {c : Char} (blank : Text.isBlank c = true) :
    isWordHead c = false := by
  have wordless := not_isWordPart_of_isBlank blank
  rw [isWordPart, Bool.or_eq_false_iff] at wordless
  exact wordless.1

namespace Lexeme

open Numeral

section Blank

variable {c : Char} (blank : Text.isBlank c = true) (cs more : List Char)

include blank

theorem leadingDigits_append_blank : leadingDigits (cs ++ c :: more) = leadingDigits cs :=
  takeWhile_append_stop (not_isDigit_of_isBlank blank) cs more

theorem fractionAt_append_blank : fractionAt (cs ++ c :: more) = fractionAt cs := by
  cases cs with
  | nil =>
    have pointless : c ≠ '.' := ne_of_isBlank blank rfl
    simp [fractionAt, pointless]
  | cons d cs =>
    by_cases point : d = '.'
    · subst point
      exact leadingDigits_append_blank blank cs more
    · simp [fractionAt, point]

theorem startsWithSign_append_blank :
    startsWithSign (cs ++ c :: more) = startsWithSign cs := by
  cases cs with
  | nil =>
    have unsigned : c ≠ '-' ∧ c ≠ '+' := ⟨ne_of_isBlank blank rfl, ne_of_isBlank blank rfl⟩
    simp [startsWithSign, unsigned]
  | cons d cs =>
    by_cases minus : d = '-'
    · simp [startsWithSign, minus]
    · by_cases plus : d = '+' <;> simp [startsWithSign, minus, plus]

theorem exponentAt_append_blank : exponentAt (cs ++ c :: more) = exponentAt cs := by
  cases cs with
  | nil =>
    have unmarked : c ≠ 'e' ∧ c ≠ 'E' := ⟨ne_of_isBlank blank rfl, ne_of_isBlank blank rfl⟩
    simp [exponentAt, unmarked]
  | cons mark cs =>
    have signed : (if startsWithSign cs then 1 else 0) ≤ cs.length := by
      cases cs with
      | nil => exact Nat.le_refl _
      | cons d cs => split <;> simp
    have same_sign : ((cs ++ c :: more).head? == some '-') = (cs.head? == some '-') := by
      cases cs with
      | nil =>
        have other : c ≠ '-' := ne_of_isBlank blank rfl
        simp [other]
      | cons d cs => rfl
    simp only [exponentAt, List.cons_append, startsWithSign_append_blank blank, same_sign,
      List.drop_append_of_le_length signed, leadingDigits_append_blank blank]

theorem readNumber_append_blank : readNumber (cs ++ c :: more) = readNumber cs := by
  have whole := length_leadingDigits_le cs
  simp only [readNumber, leadingDigits_append_blank blank, List.drop_append_of_le_length whole,
    fractionAt_append_blank blank]
  generalize cs.drop (leadingDigits cs).length = rest
  have fraction : (if (fractionAt rest).isEmpty then 0 else (fractionAt rest).length + 1) ≤
      rest.length := by
    split
    · exact Nat.zero_le _
    · rename_i nonempty
      exact length_fractionAt_lt (by simpa using nonempty)
  simp only [List.drop_append_of_le_length fraction, exponentAt_append_blank blank]
  generalize rest.drop (if (fractionAt rest).isEmpty then 0 else (fractionAt rest).length + 1) =
    marked
  have exponent := length_exponentAt_le marked
  have head : ((marked.drop (exponentAt marked).2 ++ c :: more).head?.any isWordHead) =
      (marked.drop (exponentAt marked).2).head?.any isWordHead := by
    cases marked.drop (exponentAt marked).2 with
    | nil => simp [not_isWordHead_of_isBlank blank]
    | cons d rest => rfl
  simp only [List.drop_append_of_le_length exponent, head]

theorem startsNumber_append_blank {cs : List Char} (nonempty : cs ≠ []) :
    startsNumber (cs ++ c :: more) = startsNumber cs := by
  match cs with
  | [] => exact absurd rfl nonempty
  | [d] => simp [startsNumber, not_isDigit_of_isBlank blank]
  | _ :: _ :: _ => rfl

theorem longestAt?_append_blank :
    Punctuator.longestAt? (cs ++ c :: more) = Punctuator.longestAt? cs := by
  have same : Punctuator.startsAt (cs ++ c :: more) = Punctuator.startsAt cs :=
    funext fun sign =>
      isPrefixOf_append_stop (not_mem_characters_of_isBlank blank sign) cs more
  rw [Punctuator.longestAt?, same, Punctuator.longestAt?]

/-- White space behind a text does not change the lexeme at its front. -/
theorem read_append_blank {cs : List Char} {lexeme : Lexeme} {length : Nat} (nonempty : cs ≠ [])
    (read_eq : read cs = (.ok lexeme, length)) : read (cs ++ c :: more) = (.ok lexeme, length) := by
  have same_number := startsNumber_append_blank blank more nonempty
  have same_value := readNumber_append_blank blank cs more
  have same_word := takeWhile_append_stop (not_isWordPart_of_isBlank blank) cs more
  have same_sign := longestAt?_append_blank blank cs more
  obtain ⟨d, tail, rfl⟩ := List.exists_cons_of_ne_nil nonempty
  rw [List.cons_append] at *
  by_cases isQuote : d = '"' ∨ d = '\''
  · have unescaped : d ≠ '\\' := by rcases isQuote with rfl | rfl <;> decide
    simp only [read, isQuote, ↓reduceIte] at read_eq ⊢
    cases string_eq : readString d tail with
    | mk value count =>
      rw [string_eq] at read_eq
      cases value with
      | none => cases read_eq
      | some value =>
        obtain ⟨text, rest, rfl, closed, rfl⟩ := readString_split string_eq
        rw [List.append_assoc, readString_append unescaped closed]
        exact read_eq
  · simp only [read, isQuote, ↓reduceIte, same_number, same_value, same_word, same_sign]
      at read_eq ⊢
    exact read_eq

end Blank
end Lexeme

namespace IsGap

/-- More text does not change what stands between two tokens, if it starts with a line break. -/
theorem extend {gap rest : List Char} (isGap : IsGap gap rest) {c : Char}
    (lineBreak : Text.isLineBreak c = true) (more : List Char) : IsGap gap (rest ++ c :: more) := by
  induction isGap with
  | none rest => exact .none _
  | blank isBlank _ ih => exact .blank isBlank ih
  | @lineComment body gap rest inLine stops _ ih =>
    refine .lineComment inLine (fun d first => ?_) ih
    rw [← List.append_assoc] at first
    cases whole : gap ++ rest with
    | nil =>
      rw [whole] at first
      cases first
      exact lineBreak
    | cons e tail =>
      rw [whole] at first stops
      exact stops d first
  | blockComment isOpen _ ih => exact .blockComment isOpen ih

theorem append {front whole back rest : List Char} (isGap : IsGap front whole)
    (whole_eq : whole = back ++ rest) (more : IsGap back rest) : IsGap (front ++ back) rest := by
  induction isGap with
  | none => exact more
  | blank isBlank _ ih => exact .blank isBlank (ih whole_eq)
  | @lineComment body gap whole inLine stops _ ih =>
    have later := IsGap.lineComment inLine (fun c first => ?_) (ih whole_eq)
    · rwa [← List.append_assoc] at later
    · subst whole_eq
      rw [List.append_assoc] at first
      exact stops c first
  | @blockComment body gap whole isOpen _ ih =>
    have later := IsGap.blockComment isOpen (ih whole_eq)
    simpa using later

end IsGap

namespace Cursor

/-- A comment to the end of the line is skipped. -/
theorem skipGap_lineComment {body rest : List Char}
    (inLine : ∀ c ∈ body, Text.isLineBreak c = false)
    (stops : ∀ c, rest.head? = some c → Text.isLineBreak c = true) (newline : Bool)
    (offset : Nat) :
    skipGap .lineComment newline offset (body ++ rest) =
      skipGap .blank newline (offset + body.length) rest := by
  induction body generalizing offset with
  | nil =>
    cases rest with
    | nil => rfl
    | cons c rest => simp [skipGap, stops c rfl]
  | cons c body ih =>
    have later := ih (fun d member => inLine d (List.mem_cons_of_mem _ member)) (offset + 1)
    rw [List.cons_append, skipGap, inLine c List.mem_cons_self, if_neg Bool.false_ne_true, later,
      List.length_cons, Nat.add_assoc, Nat.add_comm 1]

/-- The rest of a block comment is skipped. -/
theorem skipGap_blockComment {body : List Char} (isOpen : ¬ ['*', '/'] <:+: body) (start : Nat)
    (newline : Bool) (offset : Nat) (rest : List Char) :
    skipGap (.blockComment start) newline offset (body ++ '*' :: '/' :: rest) =
      skipGap .blank (newline || body.any Text.isLineBreak) (offset + body.length + 2) rest := by
  induction body generalizing newline offset with
  | nil => simp [skipGap]
  | cons c body ih =>
    have inside : ¬(c = '*' ∧ (body ++ '*' :: '/' :: rest).head? = some '/') := by
      rintro ⟨rfl, slash⟩
      cases body with
      | nil => cases slash
      | cons d body =>
        cases slash
        exact isOpen ⟨[], body, rfl⟩
    have later := ih (fun found => isOpen (found.trans (List.suffix_cons c body).isInfix))
      (newline || Text.isLineBreak c) (offset + 1)
    rw [List.cons_append, skipGap, if_neg inside, later, List.any_cons, List.length_cons,
      Bool.or_assoc, Nat.add_assoc offset 1, Nat.add_comm 1]

/-- White space and comments are skipped, and it is noticed whether a line break is among them. -/
theorem skipGap_gap {gap rest : List Char} (isGap : IsGap gap rest) (newline : Bool)
    (offset : Nat) :
    skipGap .blank newline offset (gap ++ rest) =
      skipGap .blank (newline || gap.any Text.isLineBreak) (offset + gap.length) rest := by
  induction isGap generalizing newline offset with
  | none rest => simp
  | @blank c gap rest isBlank _ ih =>
    have place : offset + 1 + gap.length = offset + (c :: gap).length := by
      rw [List.length_cons]
      omega
    rw [List.cons_append, skipGap, List.any_cons]
    split
    · rename_i lineBreak
      rw [ih, lineBreak, Bool.true_or, Bool.or_true, place]
    · rename_i inLine
      rw [ih, Bool.eq_false_iff.mpr inLine, Bool.false_or, place]
  | @lineComment body gap rest inLine stops _ ih =>
    have unbroken : body.any Text.isLineBreak = false := by
      rw [List.any_eq_false]
      exact fun c member => by simp [inLine c member]
    have place : offset + 1 + 1 + body.length + gap.length =
        offset + ('/' :: '/' :: (body ++ gap)).length := by
      simp only [List.length_cons, List.length_append]
      omega
    have skipped := skipGap_lineComment inLine stops newline (offset + 1 + 1)
    rw [ih, place] at skipped
    have visible : Text.isLineBreak '/' = false ∧ Text.isBlank '/' = false := by decide
    simpa [skipGap, visible, unbroken] using skipped
  | @blockComment body gap rest isOpen _ ih =>
    have place : offset + 1 + 1 + body.length + 2 + gap.length =
        offset + ('/' :: '*' :: (body ++ '*' :: '/' :: gap)).length := by
      simp only [List.length_cons, List.length_append]
      omega
    have skipped := skipGap_blockComment isOpen offset newline (offset + 1 + 1) (gap ++ rest)
    rw [ih, place] at skipped
    have visible : Text.isLineBreak '/' = false ∧ Text.isBlank '/' = false ∧
        Text.isLineBreak '*' = false := by decide
    simpa [skipGap, visible, Bool.or_assoc] using skipped

theorem Settled.extend {cs : List Char} (settled : Settled cs) (nonempty : cs ≠ []) {c : Char}
    (blank : Text.isBlank c = true) (more : List Char) : Settled (cs ++ c :: more) := by
  obtain ⟨d, tail, rfl⟩ := List.exists_cons_of_ne_nil nonempty
  obtain ⟨visible, uncommented⟩ := settled d tail rfl
  rintro d' tail' front
  cases front
  refine ⟨visible, fun slash => ?_⟩
  cases tail with
  | cons e tail => exact uncommented slash
  | nil =>
    constructor
    all_goals
      intro second
      cases second
      cases blank

/-- A token that is read stands behind white space and comments. -/
theorem scan_ok_iff {cs : List Char} {offset : Nat} {token : Token} {stop : Cursor} :
    scan ⟨cs, offset⟩ = (.ok token, stop) ↔ ∃ gap rest lexeme length, cs = gap ++ rest ∧
      IsGap gap rest ∧ Settled rest ∧ Lexeme.read rest = (.ok lexeme, length) ∧
      token = ⟨lexeme, ⟨offset + gap.length, offset + gap.length + length⟩,
        gap.any Text.isLineBreak⟩ ∧
      stop = ⟨rest.drop length, offset + gap.length + length⟩ := by
  constructor
  · intro scan_eq
    unfold scan at scan_eq
    split at scan_eq
    · cases scan_eq
    · rename_i newline start skip_eq
      obtain ⟨gap, split, offset_eq, newline_eq, isGap, settled⟩ :=
        skipGap_ok .blank trivial skip_eq
      obtain ⟨rest, place⟩ := start
      simp only [Bool.false_or] at split offset_eq newline_eq isGap settled scan_eq
      subst offset_eq newline_eq
      split at scan_eq
      · rename_i lexeme length read_eq
        cases scan_eq
        exact ⟨gap, rest, lexeme, length, split, isGap, settled, read_eq, rfl, rfl⟩
      · cases scan_eq
  · rintro ⟨gap, rest, lexeme, length, rfl, isGap, settled, read_eq, rfl, rfl⟩
    simp only [scan, skipGap_gap isGap, skipGap_settled settled, read_eq, Bool.false_or, advance]

/-- A token is read alike with a line break and more text behind what it is read from. -/
theorem scan_append {cs rest : List Char} {c : Char} {offset stop : Nat} {token : Token}
    (scan_eq : scan ⟨cs, offset⟩ = (.ok token, ⟨rest, stop⟩)) (going : token.isEnd = false)
    (lineBreak : Text.isLineBreak c = true) (more : List Char) :
    scan ⟨cs ++ c :: more, offset⟩ = (.ok token, ⟨rest ++ c :: more, stop⟩) := by
  rw [scan_ok_iff] at scan_eq ⊢
  obtain ⟨gap, front, lexeme, length, rfl, isGap, settled, read_eq, rfl, stop_eq⟩ := scan_eq
  cases stop_eq
  have blank := Text.isBlank_of_isLineBreak lineBreak
  have nonempty := (Lexeme.length_read_pos read_eq (by rintro rfl; cases going)).2
  obtain ⟨text, rest, rfl, _, rfl⟩ := Lexeme.read_split read_eq
  refine ⟨gap, text ++ rest ++ c :: more, lexeme, text.length, List.append_assoc .., ?_, ?_, ?_,
    rfl, ?_⟩
  · exact isGap.extend lineBreak more
  · exact settled.extend nonempty blank more
  · exact Lexeme.read_append_blank blank more nonempty read_eq
  · rw [List.append_assoc, List.drop_left, List.drop_left]

/-- Where a text has ended, the text that a line break joins to it begins. -/
theorem scan_gap_append {gap more : List Char} {c : Char} (isGap : IsGap gap [])
    (lineBreak : Text.isLineBreak c = true) (offset : Nat) :
    scan ⟨gap ++ c :: more, offset⟩ = scan ⟨c :: more, offset + gap.length⟩ := by
  have skip_eq : skipGap .blank false offset (gap ++ c :: more) =
      skipGap .blank false (offset + gap.length) (c :: more) := by
    have whole : IsGap gap (c :: more) := isGap.extend lineBreak more
    rw [skipGap_gap whole, skipGap, if_pos lineBreak, skipGap, if_pos lineBreak]
  have advance_all (cs : List Char) (offset : Nat) :
      advance ⟨cs, offset⟩ cs.length = ⟨[], offset + cs.length⟩ := by
    rw [advance, List.drop_length]
  simp only [scan, skip_eq, advance_all]
  rw [List.length_append, Nat.add_assoc]

end Cursor

/-- A token is like another one at another place, which may have one more line break before it. -/
structure Token.Like (token other : Token) : Prop where
  lexeme : other.lexeme = token.lexeme
  newline : token.newlineBefore = true → other.newlineBefore = true

theorem Token.like_refl (token : Token) : token.Like token :=
  ⟨rfl, id⟩

namespace TokenStream

theorem ofCursor_congr {cursor other : Cursor} (same : cursor.scan = other.scan) :
    ofCursor cursor = ofCursor other := by
  cases scan_eq : other.scan.1 with
  | error error => rw [ofCursor_of_error scan_eq, ofCursor_of_error (same ▸ scan_eq), same]
  | ok token => rw [ofCursor_of_ok scan_eq, ofCursor_of_ok (same ▸ scan_eq), same]

theorem foldr_push (tokens : List Token) (stream : TokenStream) :
    tokens.foldr push stream = { stream with tokens := tokens ++ stream.tokens } := by
  induction tokens with
  | nil => rfl
  | cons token tokens ih => rw [List.foldr_cons, ih, push, List.cons_append]

/-- The tokens of two texts with a line break between them are those of the first one and then those
of the second one with the line break. -/
theorem ofCursor_append {cs : List Char} {offset : Nat} {last : Token}
    (ending_eq : (ofCursor ⟨cs, offset⟩).ending = .ok last) {c : Char}
    (lineBreak : Text.isLineBreak c = true) (more : List Char) :
    ofCursor ⟨cs ++ c :: more, offset⟩ =
      (ofCursor ⟨cs, offset⟩).tokens.foldr push (ofCursor ⟨c :: more, offset + cs.length⟩) := by
  induction measure_eq : cs.length using Nat.strongRecOn generalizing cs offset with
  | ind count ih =>
    subst measure_eq
    cases scan_eq : Cursor.scan ⟨cs, offset⟩ with
    | mk result stop =>
      cases result with
      | error error =>
        rw [ofCursor_of_error (congrArg Prod.fst scan_eq)] at ending_eq
        cases ending_eq
      | ok token =>
        have whole := ofCursor_of_ok (congrArg Prod.fst scan_eq)
        rw [scan_eq] at whole
        cases last_eq : token.isEnd with
        | true =>
          rw [whole, last_eq]
          obtain ⟨gap, rest, lexeme, length, rfl, isGap, _, read_eq, rfl, _⟩ :=
            Cursor.scan_ok_iff.mp scan_eq
          have lexeme_eq : lexeme = .endOfSource := Token.isEnd_iff.mp last_eq
          rw [lexeme_eq] at read_eq
          cases Lexeme.eq_nil_of_read_endOfSource read_eq
          rw [List.append_nil]
          exact ofCursor_congr (Cursor.scan_gap_append isGap lineBreak offset)
        | false =>
          have shorter := Cursor.scan_rest_lt (congrArg Prod.fst scan_eq) last_eq
          rw [scan_eq] at shorter
          obtain ⟨rest, place⟩ := stop
          have place_eq : place + rest.length = offset + cs.length := by
            obtain ⟨gap, front, lexeme, length, rfl, _, _, read_eq, _, stop_eq⟩ :=
              Cursor.scan_ok_iff.mp scan_eq
            obtain ⟨text, rest, rfl, _, rfl⟩ := Lexeme.read_split read_eq
            cases stop_eq
            simp only [List.drop_left, List.length_append]
            omega
          have joined_eq := Cursor.scan_append scan_eq last_eq lineBreak more
          have joined := ofCursor_of_ok (congrArg Prod.fst joined_eq)
          rw [joined_eq] at joined
          rw [last_eq, if_neg Bool.false_ne_true] at whole joined
          rw [whole] at ending_eq ⊢
          rw [joined, ih _ shorter ending_eq rfl, place_eq]
          rfl

/-- What is read of a text behind white space and comments is like what is read of it at another
place. -/
theorem like_ofCursor {gap cs : List Char} (isGap : IsGap gap cs) {offset : Nat} (place : Nat)
    {last : Token} (ending_eq : (ofCursor ⟨cs, offset⟩).ending = .ok last) :
    List.Forall₂ Token.Like (ofCursor ⟨cs, offset⟩).tokens (ofCursor ⟨gap ++ cs, place⟩).tokens ∧
      ∃ other, (ofCursor ⟨gap ++ cs, place⟩).ending = .ok other := by
  induction measure_eq : cs.length using Nat.strongRecOn generalizing gap cs offset place with
  | ind count ih =>
    subst measure_eq
    cases scan_eq : Cursor.scan ⟨cs, offset⟩ with
    | mk result stop =>
      have whole := congrArg Prod.fst scan_eq
      cases result with
      | error error =>
        rw [ofCursor_of_error whole] at ending_eq
        cases ending_eq
      | ok token =>
        have shorter := Cursor.scan_rest_lt whole
        obtain ⟨inner, rest, lexeme, length, rfl, innerGap, settled, read_eq, token_eq, rfl⟩ :=
          Cursor.scan_ok_iff.mp scan_eq
        have other_eq : Cursor.scan ⟨gap ++ (inner ++ rest), place⟩ = _ :=
          Cursor.scan_ok_iff.mpr ⟨gap ++ inner, rest, lexeme, length,
            (List.append_assoc ..).symm, isGap.append rfl innerGap, settled, read_eq, rfl, rfl⟩
        have same_end : token.isEnd = Token.isEnd ⟨lexeme,
            ⟨place + (gap ++ inner).length, place + (gap ++ inner).length + length⟩,
            (gap ++ inner).any Text.isLineBreak⟩ := by
          rw [token_eq]
          rfl
        rw [ofCursor_of_ok whole] at ending_eq ⊢
        rw [ofCursor_of_ok (congrArg Prod.fst other_eq), ← same_end]
        rw [scan_eq] at ending_eq shorter ⊢
        rw [other_eq]
        cases last_eq : token.isEnd with
        | true => exact ⟨.nil, _, rfl⟩
        | false =>
          rw [last_eq] at ending_eq
          obtain ⟨later, other, other_ending⟩ :=
            ih _ (shorter last_eq) (.none _) (place + (gap ++ inner).length + length) ending_eq rfl
          refine ⟨.cons ?_ later, other, other_ending⟩
          rw [token_eq]
          refine ⟨rfl, fun noticed => ?_⟩
          have noticed : inner.any Text.isLineBreak = true := noticed
          show (gap ++ inner).any Text.isLineBreak = true
          rw [List.any_append, noticed, Bool.or_true]

/-- Two texts with a semicolon on a line of its own between them: the tokens of the first one, the
semicolon, and tokens like those of the second one. -/
theorem ofText_semicolon {first second : String} {firstEnd secondEnd : Token}
    (first_eq : (ofText first).ending = .ok firstEnd)
    (second_eq : (ofText second).ending = .ok secondEnd) :
    ∃ semicolon later last, semicolon.lexeme = .punctuator .semicolon ∧
      List.Forall₂ Token.Like (ofText second).tokens later ∧
      (ofText (first ++ "\n;\n" ++ second)).tokens =
        (ofText first).tokens ++ semicolon :: later ∧
      (ofText (first ++ "\n;\n" ++ second)).ending = .ok last := by
  have lineBreak : Text.isLineBreak '\n' = true := rfl
  obtain ⟨later, last, last_eq⟩ := like_ofCursor
    (.blank (Text.isBlank_of_isLineBreak lineBreak) (.none _)) (0 + first.toList.length + 2)
    second_eq
  let semicolon : Token := ⟨.punctuator .semicolon,
    ⟨0 + first.toList.length + 1, 0 + first.toList.length + 2⟩, true⟩
  have between : ofCursor ⟨['\n', ';'], 0 + first.toList.length⟩ =
      ⟨[semicolon], .ok ⟨.endOfSource, .point (0 + first.toList.length + 2), false⟩,
        ⟨[], 0 + first.toList.length + 2⟩⟩ := by
    have scan_eq : Cursor.scan ⟨['\n', ';'], 0 + first.toList.length⟩ =
        (.ok semicolon, ⟨[], 0 + first.toList.length + 2⟩) := rfl
    have last_eq : Cursor.scan ⟨[], 0 + first.toList.length + 2⟩ =
        (.ok ⟨.endOfSource, .point (0 + first.toList.length + 2), false⟩,
          ⟨[], 0 + first.toList.length + 2⟩) := rfl
    rw [ofCursor_of_ok (congrArg Prod.fst scan_eq), scan_eq,
      ofCursor_of_ok (congrArg Prod.fst last_eq), last_eq]
    rfl
  have tail := ofCursor_append (congrArg ending between) lineBreak second.toList
  have whole := ofCursor_append first_eq lineBreak (';' :: '\n' :: second.toList)
  have text_eq : (first ++ "\n;\n" ++ second).toList =
      first.toList ++ '\n' :: ';' :: '\n' :: second.toList := by simp
  rw [between, foldr_push] at tail
  change ofCursor ⟨'\n' :: ';' :: '\n' :: second.toList, 0 + first.toList.length⟩ = _ at tail
  rw [tail, foldr_push, ← text_eq] at whole
  have joined_eq : ofText (first ++ "\n;\n" ++ second) = _ := whole
  rw [joined_eq]
  exact ⟨semicolon, _, last, rfl, later, rfl, last_eq⟩

end TokenStream
end Scriptlet
