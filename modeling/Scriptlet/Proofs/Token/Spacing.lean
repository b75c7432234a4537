import Scriptlet.Proofs.Token.Front

set_option autoImplicit false

/-!
White space put in at the edge of a token. The lexemes stay as they are, and so does what is known
of line breaks; the tokens from there on stand one character further on.
-/
namespace Scriptlet

namespace IsGap

/-- Of the text behind it, only the first character matters to white space and comments. -/
theorem congr_head {gap rest other : List Char} (isGap : IsGap gap rest)
    (same : other.head? = rest.head?) : IsGap gap other := by
  induction isGap with
  | none => exact .none _
  | blank isBlank _ ih => exact .blank isBlank (ih same)
  | @lineComment body gap rest inLine stops _ ih =>
    refine .lineComment inLine (fun c first => stops c ?_) (ih same)
    cases gap with
    | nil => exact same ▸ first
    | cons d gap => exact first
  | blockComment isOpen _ ih => exact .blockComment isOpen (ih same)

/-- White space may be put in behind white space and comments. A comment to the end of the line goes
on with it where nothing else follows. -/
theorem concat_blank {gap rest : List Char} (isGap : IsGap gap rest) {c : Char}
    (blank : Text.isBlank c = true) (inLine : Text.isLineBreak c = false) :
    IsGap (gap ++ [c]) rest := by
  induction isGap with
  | none => exact .blank blank (.none _)
  | blank isBlank _ ih => exact .blank isBlank ih
  | @lineComment body gap rest body_inLine stops _ ih =>
    cases gap with
    | nil =>
      have whole_inLine : ∀ d ∈ body ++ [c], Text.isLineBreak d = false := by
        intro d member
        rcases List.mem_append.mp member with member | member
        · exact body_inLine d member
        · rw [List.mem_singleton.mp member]
          exact inLine
      have later : IsGap ('/' :: '/' :: (body ++ [c] ++ [])) rest :=
        .lineComment whole_inLine stops (.none rest)
      simpa using later
    | cons e gap =>
      have later : IsGap ('/' :: '/' :: (body ++ (e :: gap ++ [c]))) rest :=
        .lineComment body_inLine stops ih
      rwa [← List.append_assoc] at later
  | @blockComment body gap rest isOpen _ ih =>
    have later := IsGap.blockComment isOpen ih
    simpa using later

end IsGap

namespace Token

/-- A token one character further on. -/
def later (token : Token) : Token :=
  { token with span := ⟨token.span.start + 1, token.span.stop + 1⟩ }

/-- A token of a text that has got one character more at an offset, which is not inside the
token. -/
def spaced (offset : Nat) (token : Token) : Token :=
  if offset ≤ token.span.start then token.later else token

end Token

theorem TokenStream.toExcept_push (token : Token) (stream : TokenStream) :
    (push token stream).toExcept = stream.toExcept.map (token :: ·) := by
  obtain ⟨tokens, ending, stop⟩ := stream
  cases ending <;> rfl

namespace Cursor

section Scan

variable {cs front rest : List Char} {offset : Nat} {token : Token} {stop : Cursor}

theorem scan_later (scan_eq : scan ⟨cs, offset⟩ = (.ok token, stop)) :
    scan ⟨cs, offset + 1⟩ = (.ok token.later, ⟨stop.rest, stop.offset + 1⟩) := by
  rw [scan_ok_iff] at scan_eq ⊢
  obtain ⟨gap, body, lexeme, length, rfl, isGap, settled, read_eq, rfl, rfl⟩ := scan_eq
  refine ⟨gap, body, lexeme, length, rfl, isGap, settled, read_eq, ?_, ?_⟩
  · simp only [Token.later, Nat.add_right_comm]
  · simp only [Nat.add_right_comm]

/-- A token lies between the place where reading stood and the one where it goes on. -/
theorem scan_bounds (scan_eq : scan ⟨cs, offset⟩ = (.ok token, stop)) :
    offset ≤ token.span.start ∧ token.span.start ≤ token.span.stop ∧
      stop.offset = token.span.stop ∧ stop.offset + stop.rest.length = offset + cs.length := by
  obtain ⟨gap, body, lexeme, length, rfl, _, _, read_eq, rfl, rfl⟩ := scan_ok_iff.mp scan_eq
  obtain ⟨text, tail, rfl, _, rfl⟩ := Lexeme.read_split read_eq
  refine ⟨Nat.le_add_right .., Nat.le_add_right .., rfl, ?_⟩
  simp only [List.drop_left, List.length_append]
  omega

variable {c : Char} (blank : Text.isBlank c = true)

include blank

/-- White space where reading stands is skipped without a trace. -/
theorem scan_cons_blank (inLine : Text.isLineBreak c = false) (rest : List Char) (offset : Nat) :
    scan ⟨c :: rest, offset⟩ = scan ⟨rest, offset + 1⟩ := by
  have skip_eq : skipGap .blank false offset (c :: rest) =
      skipGap .blank false (offset + 1) rest := by
    simp only [skipGap, inLine, blank, Bool.false_eq_true, ↓reduceIte]
  have stop_eq : advance ⟨c :: rest, offset⟩ (c :: rest).length =
      advance ⟨rest, offset + 1⟩ rest.length := by
    rw [advance, advance, List.drop_length, List.drop_length, List.length_cons]
    simp only [Nat.add_assoc, Nat.add_comm 1]
  simp only [scan, skip_eq, stop_eq]

/-- White space right before a token moves the token. -/
theorem scan_insert_start (inLine : Text.isLineBreak c = false)
    (scan_eq : scan ⟨front ++ rest, offset⟩ = (.ok token, stop))
    (start_eq : offset + front.length = token.span.start) :
    scan ⟨front ++ c :: rest, offset⟩ = (.ok token.later, ⟨stop.rest, stop.offset + 1⟩) := by
  obtain ⟨gap, body, lexeme, length, split, isGap, settled, read_eq, rfl, rfl⟩ :=
    scan_ok_iff.mp scan_eq
  obtain ⟨rfl, rfl⟩ := List.append_inj split (Nat.add_left_cancel start_eq)
  have unnoticed : (front ++ [c]).any Text.isLineBreak = front.any Text.isLineBreak := by
    simp [inLine]
  refine scan_ok_iff.mpr ⟨front ++ [c], rest, lexeme, length, by simp,
    isGap.concat_blank blank inLine, settled, read_eq, ?_, ?_⟩
  · rw [unnoticed, List.length_append, List.length_singleton]
    simp only [Token.later, ← Nat.add_assoc, Nat.add_right_comm]
  · rw [List.length_append, List.length_singleton]
    simp only [← Nat.add_assoc, Nat.add_right_comm]

/-- White space behind a token leaves it alone. -/
theorem scan_insert_behind (scan_eq : scan ⟨front ++ rest, offset⟩ = (.ok token, stop))
    (going : token.isEnd = false) (behind : token.span.stop ≤ offset + front.length) :
    ∃ back, stop = ⟨back ++ rest, token.span.stop⟩ ∧
      token.span.stop + back.length = offset + front.length ∧
        scan ⟨front ++ c :: rest, offset⟩ = (.ok token, ⟨back ++ c :: rest, token.span.stop⟩) := by
  obtain ⟨gap, body, lexeme, length, split, isGap, settled, read_eq, rfl, rfl⟩ :=
    scan_ok_iff.mp scan_eq
  obtain ⟨text, tail, rfl, _, rfl⟩ := Lexeme.read_split read_eq
  have positive := (Lexeme.length_read_pos read_eq (by rintro rfl; cases going)).1
  have inFront : gap ++ text <+: front := by
    have whole : gap ++ text <+: front ++ rest := ⟨tail, by rw [split, List.append_assoc]⟩
    refine List.prefix_of_prefix_length_le whole (List.prefix_append front rest) ?_
    rw [List.length_append]
    simp only at behind
    omega
  obtain ⟨back, rfl⟩ := inFront
  simp only [List.append_assoc, List.append_cancel_left_eq] at split
  subst split
  have nonempty : text ++ back ≠ [] := by
    intro empty
    rw [(List.append_eq_nil_iff.mp empty).1] at positive
    exact Nat.lt_irrefl 0 positive
  rw [← List.append_assoc] at isGap settled read_eq
  refine ⟨back, by rw [List.drop_left], by simp only [List.length_append]; omega,
    scan_ok_iff.mpr ⟨gap, text ++ back ++ c :: rest, lexeme, text.length, by simp, ?_, ?_, ?_, rfl,
      by rw [List.append_assoc, List.drop_left]⟩⟩
  · refine isGap.congr_head ?_
    rw [List.head?_append_of_ne_nil _ nonempty, List.head?_append_of_ne_nil _ nonempty]
  · exact settled.of_append.extend nonempty blank rest
  · refine Lexeme.read_insert_blank blank read_eq ?_ nonempty
    rw [List.length_append]
    exact Nat.le_add_right ..

end Scan

/-- The tokens that are read from a place on, with the end of the source. -/
inductive Reads : Cursor → List Token → Prop where
  | last {cursor stop : Cursor} {token : Token} (scan_eq : cursor.scan = (.ok token, stop))
    (isEnd : token.isEnd = true) : Reads cursor [token]
  | more {cursor stop : Cursor} {token : Token} {tokens : List Token}
    (scan_eq : cursor.scan = (.ok token, stop)) (going : token.isEnd = false)
    (rest : Reads stop tokens) : Reads cursor (token :: tokens)

/-- What is read step by step is what a stream holds that is read to its end. -/
theorem reads_iff {cursor : Cursor} {tokens : List Token} :
    cursor.Reads tokens ↔ (TokenStream.ofCursor cursor).toExcept = .ok tokens := by
  constructor
  · intro reads
    induction reads with
    | last scan_eq isEnd =>
      rw [TokenStream.ofCursor_of_ok (congrArg Prod.fst scan_eq), if_pos isEnd]
      rfl
    | @more cursor stop token tokens scan_eq going _ ih =>
      rw [TokenStream.ofCursor_of_ok (congrArg Prod.fst scan_eq), going, scan_eq,
        if_neg Bool.false_ne_true, TokenStream.toExcept_push, ih]
      rfl
  · intro read_eq
    induction measure_eq : cursor.rest.length using Nat.strongRecOn generalizing cursor tokens with
    | ind count ih =>
      subst measure_eq
      cases scan_eq : cursor.scan with
      | mk result stop =>
        have scanned := congrArg Prod.fst scan_eq
        cases result with
        | error error =>
          rw [TokenStream.ofCursor_of_error scanned] at read_eq
          cases read_eq
        | ok token =>
          rw [TokenStream.ofCursor_of_ok scanned, scan_eq] at read_eq
          cases last : token.isEnd with
          | true =>
            rw [last] at read_eq
            cases read_eq
            exact .last scan_eq last
          | false =>
            have shorter := scan_rest_lt scanned last
            rw [scan_eq] at shorter
            rw [last, if_neg Bool.false_ne_true, TokenStream.toExcept_push] at read_eq
            cases later_eq : (TokenStream.ofCursor stop).toExcept with
            | error error =>
              rw [later_eq] at read_eq
              cases read_eq
            | ok later =>
              rw [later_eq] at read_eq
              cases read_eq
              exact .more scan_eq last (ih _ shorter later_eq rfl)

/-- Tokens lie between the place where reading begins and the end. -/
theorem Reads.bounds {cs : List Char} {offset : Nat} {tokens : List Token}
    (reads : Reads ⟨cs, offset⟩ tokens) :
    ∀ token ∈ tokens, offset ≤ token.span.start ∧ token.span.start ≤ token.span.stop ∧
      token.span.stop ≤ offset + cs.length := by
  generalize cursor_eq : Cursor.mk cs offset = cursor at reads
  induction reads generalizing cs offset with
  | last scan_eq =>
    subst cursor_eq
    obtain ⟨after, forward, stop_eq, whole⟩ := scan_bounds scan_eq
    rw [List.forall_mem_singleton]
    omega
  | more scan_eq _ _ ih =>
    subst cursor_eq
    obtain ⟨after, forward, stop_eq, whole⟩ := scan_bounds scan_eq
    refine List.forall_mem_cons.mpr ⟨by omega, fun token member => ?_⟩
    have := ih rfl token member
    omega

theorem Reads.later {cs : List Char} {offset : Nat} {tokens : List Token}
    (reads : Reads ⟨cs, offset⟩ tokens) : Reads ⟨cs, offset + 1⟩ (tokens.map Token.later) := by
  generalize cursor_eq : Cursor.mk cs offset = cursor at reads
  induction reads generalizing cs offset with
  | last scan_eq isEnd =>
    subst cursor_eq
    exact .last (scan_later scan_eq) isEnd
  | more scan_eq going _ ih =>
    subst cursor_eq
    exact .more (scan_later scan_eq) going (ih rfl)

section Insert

variable {c : Char} (blank : Text.isBlank c = true) (inLine : Text.isLineBreak c = false)

/-- Tokens behind an offset all move. -/
theorem Reads.map_spaced {cursor : Cursor} {tokens : List Token} (reads : cursor.Reads tokens)
    {offset : Nat} (before : offset ≤ cursor.offset) :
    tokens.map (Token.spaced offset) = tokens.map Token.later := by
  refine List.map_congr_left fun token member => ?_
  have after := (reads.bounds token member).1
  rw [Token.spaced, if_pos (Nat.le_trans before after)]

include blank inLine

theorem Reads.cons_blank {rest : List Char} {offset : Nat} {tokens : List Token}
    (reads : Reads ⟨rest, offset⟩ tokens) :
    Reads ⟨c :: rest, offset⟩ (tokens.map (Token.spaced offset)) := by
  rw [reads.map_spaced (Nat.le_refl _)]
  have same := scan_cons_blank blank inLine rest offset
  have later := reads.later
  generalize tokens.map Token.later = moved at later
  cases later with
  | last scan_eq isEnd => exact .last (same.trans scan_eq) isEnd
  | more scan_eq going rest => exact .more (same.trans scan_eq) going rest

/-- White space at the edge of a token moves the tokens from there on. -/
theorem Reads.insert {front rest : List Char} {offset place : Nat} {tokens : List Token}
    (reads : Reads ⟨front ++ rest, offset⟩ tokens) (place_eq : offset + front.length = place)
    (edge : ∃ token ∈ tokens, place = token.span.start ∨ place = token.span.stop) :
    Reads ⟨front ++ c :: rest, offset⟩ (tokens.map (Token.spaced place)) := by
  generalize cursor_eq : Cursor.mk (front ++ rest) offset = cursor at reads
  -- Reading goes on behind each token in front of the place, with the rest of the front.
  induction reads generalizing front offset with
  | @last cursor stop token scan_eq isEnd =>
    subst cursor_eq
    obtain ⟨same, member, edge⟩ := edge
    rw [List.mem_singleton.mp member] at edge
    have start_eq : place = token.span.start := by
      obtain ⟨limit, newline, rfl, _⟩ := scan_end (congrArg Prod.fst scan_eq) isEnd
      exact edge.elim id id
    rw [List.map_singleton, Token.spaced, if_pos (Nat.le_of_eq start_eq)]
    exact .last (scan_insert_start blank inLine scan_eq (place_eq.trans start_eq)) isEnd
  | @more cursor stop token tokens scan_eq going rest ih =>
    subst cursor_eq
    obtain ⟨after, forward, stop_eq, _⟩ := scan_bounds scan_eq
    obtain ⟨same, member, edge⟩ := edge
    have reached : place = token.span.start ∨ token.span.stop ≤ place := by
      rcases List.mem_cons.mp member with rfl | member
      · omega
      · have := rest.bounds same member
        omega
    by_cases before : place ≤ token.span.start
    · have start_eq : place = token.span.start := by omega
      have moved : tokens.map (Token.spaced place) = tokens.map Token.later :=
        rest.map_spaced (by omega)
      rw [List.map_cons, Token.spaced, if_pos before, moved]
      exact .more (scan_insert_start blank inLine scan_eq (place_eq.trans start_eq)) going
        rest.later
    · have behind : token.span.stop ≤ offset + front.length := by omega
      obtain ⟨back, rfl, back_eq, later_eq⟩ :=
        scan_insert_behind blank scan_eq going behind
      rw [List.map_cons, Token.spaced, if_neg before]
      refine .more later_eq going ?_
      by_cases empty : back = []
      · subst empty
        obtain rfl : token.span.stop = place := back_eq.trans place_eq
        exact rest.cons_blank blank inLine
      · have distinct : place ≠ token.span.stop := by
          have := List.length_pos_iff.mpr empty
          omega
        refine ih (back_eq.trans place_eq) ⟨same, ?_, edge⟩ rfl
        rcases List.mem_cons.mp member with rfl | member
        · omega
        · exact member

end Insert
end Cursor

def Text.insert (text : String) (offset : Nat) (c : Char) : String :=
  String.ofList (text.toList.take offset ++ c :: text.toList.drop offset)

/-- White space that breaks no line, put in at an edge of a token, changes no lexeme and no
knowledge of a line break, and moves the tokens from there on by one character. -/
theorem TokenStream.toExcept_insert {text : String} {tokens : List Token} {token : Token}
    {offset : Nat} {c : Char} (read_eq : (ofText text).toExcept = .ok tokens)
    (member : token ∈ tokens) (edge : offset = token.span.start ∨ offset = token.span.stop)
    (blank : Text.isBlank c = true) (inLine : Text.isLineBreak c = false) :
    (ofText (Text.insert text offset c)).toExcept = .ok (tokens.map (Token.spaced offset)) := by
  have reads := Cursor.reads_iff.mpr read_eq
  have inside : offset ≤ text.toList.length := by
    have := reads.bounds token member
    omega
  have place_eq : 0 + (text.toList.take offset).length = offset := by
    rw [Nat.zero_add, List.length_take, Nat.min_eq_left inside]
  rw [Cursor.ofText, ← List.take_append_drop offset text.toList] at reads
  rw [ofText, ← Cursor.reads_iff, Cursor.ofText, Text.insert, String.toList_ofList]
  exact reads.insert blank inLine place_eq ⟨token, member, edge⟩

end Scriptlet
