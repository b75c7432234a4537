import Scriptlet.Proofs.Token.Joining

set_option autoImplicit false

/-!
Lexemes read from a front of a text. Nothing behind the characters of a lexeme but what comes right
after them has a part in reading it, so a front that holds them is enough.
-/
namespace Scriptlet

namespace Lexeme

open Numeral

section Take

variable {cs : List Char} {count : Nat}

theorem leadingDigits_take (within : (leadingDigits cs).length ≤ count) :
    leadingDigits (cs.take count) = leadingDigits cs := by
  unfold leadingDigits at *
  rw [← List.take_takeWhile, List.take_of_length_le within]

theorem fractionAt_take
    (within : (if (fractionAt cs).isEmpty then 0 else (fractionAt cs).length + 1) ≤ count) :
    fractionAt (cs.take count) = fractionAt cs := by
  have cut : fractionAt (cs.take count) = (fractionAt cs).take (count - 1) := by
    cases count with
    | zero => rfl
    | succ count =>
      cases cs with
      | nil => simp [fractionAt]
      | cons c rest =>
        by_cases point : c = '.'
        · subst point
          exact List.take_takeWhile.symm
        · simp [fractionAt, point]
  rw [cut, List.take_of_length_le]
  split at within
  · rename_i empty
    simp [List.isEmpty_iff.mp empty]
  · omega

theorem startsWithSign_take (cs : List Char) (count : Nat) :
    startsWithSign (cs.take (count + 1)) = startsWithSign cs := by
  cases cs with
  | nil => rfl
  | cons c rest =>
    by_cases minus : c = '-'
    · simp [startsWithSign, minus]
    · by_cases plus : c = '+' <;> simp [startsWithSign, minus, plus]

theorem exponentAt_take {exponent : Int} {length : Nat}
    (exponent_eq : exponentAt cs = (some exponent, length)) (within : length ≤ count) :
    exponentAt (cs.take count) = (some exponent, length) := by
  cases cs with
  | nil => rwa [List.take_nil]
  | cons mark rest =>
    by_cases marked : (mark == 'e' || mark == 'E') = true
    · simp only [exponentAt, marked, ↓reduceIte] at exponent_eq
      generalize sign_eq : (if startsWithSign rest = true then 1 else 0) = sign at exponent_eq
      split at exponent_eq
      · cases exponent_eq
      · rename_i nonempty
        rw [Prod.mk.injEq] at exponent_eq
        have digits : 0 < (leadingDigits (rest.drop sign)).length :=
          List.length_pos_iff.mpr (by simpa using nonempty)
        obtain ⟨count, rfl⟩ : ∃ more, count = more + 2 := ⟨count - 2, by omega⟩
        -- The sign and the first digit are in the front.
        have same_sign := startsWithSign_take rest count
        have same_head : (rest.take (count + 1)).head? = rest.head? := by
          cases rest <;> rfl
        have same_digits : leadingDigits ((rest.drop sign).take (count + 1 - sign)) =
            leadingDigits (rest.drop sign) := leadingDigits_take (by omega)
        simp only [List.take_succ_cons, exponentAt, marked, ↓reduceIte, same_sign, sign_eq,
          List.drop_take, same_digits, same_head, nonempty, Bool.false_eq_true]
        rw [exponent_eq.1, exponent_eq.2]
    · have unmarked (tail : List Char) : exponentAt (mark :: tail) = (some 0, 0) := by
        simp only [exponentAt, marked, Bool.false_eq_true, ↓reduceIte]
      rw [← exponent_eq, unmarked]
      cases count with
      | zero => rfl
      | succ count => rw [List.take_succ_cons, unmarked]

/-- A number is read alike from a front that holds it. -/
theorem readNumber_take {value : Float} {length : Nat}
    (read_eq : readNumber cs = (.ok value, length)) (within : length ≤ count) :
    readNumber (cs.take count) = (.ok value, length) := by
  simp only [readNumber] at read_eq ⊢
  generalize whole_eq : leadingDigits cs = whole at read_eq
  generalize rest_eq : cs.drop whole.length = rest at read_eq
  generalize fraction_eq : (if (fractionAt rest).isEmpty then 0
    else (fractionAt rest).length + 1) = fraction at read_eq
  generalize marked_eq : rest.drop fraction = marked at read_eq
  cases exponent_eq : exponentAt marked with
  | mk exponent exponentLength =>
    rw [exponent_eq] at read_eq
    cases exponent with
    | none => cases read_eq
    | some exponent =>
      dsimp only at read_eq
      split at read_eq
      · cases read_eq
      · rename_i wordless
        rw [Prod.mk.injEq] at read_eq
        have length_eq := read_eq.2
        have same_whole : leadingDigits (cs.take count) = whole := by
          rw [leadingDigits_take (by rw [whole_eq]; omega), whole_eq]
        have same_fraction : fractionAt (rest.take (count - whole.length)) = fractionAt rest :=
          fractionAt_take (by omega)
        have same_exponent : exponentAt (marked.take (count - whole.length - fraction)) =
            (some exponent, exponentLength) := exponentAt_take exponent_eq (by omega)
        have stops : (((marked.drop exponentLength).take
            (count - whole.length - fraction - exponentLength)).head?.any isWordHead) = false := by
          rw [List.head?_take]
          split
          · rfl
          · exact Bool.eq_false_iff.mpr wordless
        simp only [same_whole, List.drop_take, rest_eq, same_fraction, fraction_eq, marked_eq,
          same_exponent, stops, Bool.false_eq_true, ↓reduceIte]
        rw [read_eq.1, length_eq]

/-- A number starts in a front that holds it. -/
theorem startsNumber_take_of_readNumber {value : Float} {length : Nat}
    (starts : startsNumber cs = true) (read_eq : readNumber cs = (.ok value, length))
    (within : length ≤ count) : startsNumber (cs.take count) = true := by
  obtain ⟨text, tail, split, spelled, rfl⟩ := readNumber_split starts read_eq
  rw [split, List.take_append, List.take_of_length_le within]
  exact startsNumber_append spelled _

theorem startsNumber_take (other : startsNumber cs = false) :
    startsNumber (cs.take count) = false := by
  match cs, count with
  | _, 0 => rfl
  | [], _ + 1 => rfl
  | [_], _ + 1 => simpa using other
  | _ :: _ :: _, 1 => exact (Bool.or_eq_false_iff.mp other).1
  | _ :: _ :: _, _ + 2 => exact other

theorem readString_take {quote : Char} {value : List Char} {length : Nat}
    (isQuote : quote ≠ '\\') (read_eq : readString quote cs = (some value, length))
    (within : length ≤ count) : readString quote (cs.take count) = (some value, length) := by
  obtain ⟨text, tail, rfl, closed, rfl⟩ := readString_split read_eq
  rw [List.take_append, List.take_of_length_le within]
  exact readString_append isQuote closed _

theorem longestAt?_take {sign : Punctuator} (longest : Punctuator.longestAt? cs = some sign)
    (within : sign.size ≤ count) : Punctuator.longestAt? (cs.take count) = some sign := by
  simp only [Punctuator.longestAt?_eq_some_iff, Punctuator.startsAt, List.isPrefixOf_iff_prefix,
    List.prefix_take_iff] at longest ⊢
  exact ⟨⟨longest.1, within⟩, fun other starts => longest.2 other starts.1⟩

/-- A lexeme is read alike from a front that holds it. -/
theorem read_take {lexeme : Lexeme} {length : Nat} (read_eq : read cs = (.ok lexeme, length))
    (within : length ≤ count) : read (cs.take count) = (.ok lexeme, length) := by
  by_cases last : lexeme = .endOfSource
  · rw [last] at read_eq
    have empty := eq_nil_of_read_endOfSource read_eq
    rw [empty] at read_eq
    rw [empty, List.take_nil, last, read_eq]
  obtain ⟨positive, nonempty⟩ := length_read_pos read_eq last
  obtain ⟨c, rest, rfl⟩ := List.exists_cons_of_ne_nil nonempty
  obtain ⟨more, rfl⟩ : ∃ more, count = more + 1 := ⟨count - 1, by omega⟩
  simp only [read] at read_eq
  rw [List.take_succ_cons, read]
  split at read_eq
  · rename_i isQuote
    rw [if_pos isQuote]
    split at read_eq
    · rename_i value inner string_eq
      cases read_eq
      have unescaped : c ≠ '\\' := by rcases isQuote with rfl | rfl <;> decide
      rw [readString_take unescaped string_eq (Nat.le_of_succ_le_succ within)]
    · cases read_eq
  · rename_i unquoted
    rw [if_neg unquoted, ← List.take_succ_cons]
    split at read_eq
    · rename_i starts
      split at read_eq
      · rename_i value inner number_eq
        cases read_eq
        rw [if_pos (startsNumber_take_of_readNumber starts number_eq within),
          readNumber_take number_eq within]
      · cases read_eq
    · rename_i other
      rw [startsNumber_take (Bool.eq_false_iff.mpr other), if_neg Bool.false_ne_true]
      split at read_eq
      · rename_i head
        cases read_eq
        rw [if_pos head, ← List.take_takeWhile, List.take_of_length_le within]
      · rename_i wordless
        rw [if_neg wordless]
        split at read_eq
        · rename_i sign longest
          cases read_eq
          rw [longestAt?_take longest within]
        · cases read_eq

end Take

/-- White space behind a front that holds a lexeme does not change the lexeme. -/
theorem read_insert_blank {c : Char} (blank : Text.isBlank c = true) {front rest : List Char}
    {lexeme : Lexeme} {length : Nat} (read_eq : read (front ++ rest) = (.ok lexeme, length))
    (within : length ≤ front.length) (nonempty : front ≠ []) :
    read (front ++ c :: rest) = (.ok lexeme, length) := by
  have front_eq := read_take read_eq within
  rw [List.take_left] at front_eq
  exact read_append_blank blank rest nonempty front_eq

end Lexeme

end Scriptlet
