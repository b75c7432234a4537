import Mathlib.Algebra.GroupWithZero.Nat
import Mathlib.Data.List.Basic
import Mathlib.Data.List.Induction
import Mathlib.Data.List.TakeWhile
import Scriptlet.Numeral.Style
import Scriptlet.Proofs.Token.Reading

set_option autoImplicit false

/-!
Decimal digits of naturals, written and read. The digits of a number denote it, and digits without
a leading zero are those of the number that they denote. A double that is an index is shown by the
digits of the index.
-/
namespace Scriptlet.Numeral

theorem digitsValue_toDigits (number : Nat) : digitsValue (Nat.toDigits 10 number) = number :=
  Nat.ofDigitChars_ten_toDigits

theorem digitsValue_concat (digits : List Char) (c : Char) :
    digitsValue (digits ++ [c]) = 10 * digitsValue digits + (c.toNat - '0'.toNat) := by
  rw [digitsValue, List.foldl_append]
  rfl

theorem digitChar_toNat {c : Char} (digit : c.isDigit = true) :
    (c.toNat - '0'.toNat).digitChar = c ∧ c.toNat - '0'.toNat < 10 := by
  have bounds := isDigit_bounds digit
  have small : c.toNat - '0'.toNat < 10 := by
    show c.toNat - 48 < 10
    omega
  refine ⟨Char.toNat_inj.mp ?_, small⟩
  rw [Nat.toNat_digitChar_of_lt_ten small]
  show 48 + (c.toNat - 48) = c.toNat
  omega

/-- Digits as a number is written with: at least one, and no zero in front of others. -/
structure Canonical (digits : List Char) : Prop where
  ne_nil : digits ≠ []
  isDigit : ∀ c ∈ digits, c.isDigit = true
  noLeadingZero : 1 < digits.length → digits.head? ≠ some '0'

theorem head?_toDigits {number : Nat} (positive : 0 < number) :
    (Nat.toDigits 10 number).head? ≠ some '0' := by
  induction number using Nat.strongRecOn with
  | ind number ih =>
    rw [Nat.toDigits_eq_if (by decide)]
    by_cases single : number < 10
    · rw [if_pos single, List.head?_singleton]
      intro zero
      have := Nat.digitChar_eq_zero.mp (Option.some.inj zero)
      omega
    · rw [if_neg single, List.head?_append_of_ne_nil _ Nat.toDigits_ne_nil]
      exact ih (number / 10) (by omega) (by omega)

theorem canonical_toDigits (number : Nat) : Canonical (Nat.toDigits 10 number) where
  ne_nil := Nat.toDigits_ne_nil
  isDigit _ member := Nat.isDigit_of_mem_toDigits (by decide) (by decide) member
  noLeadingZero several := by
    apply head?_toDigits
    apply Nat.pos_of_ne_zero
    rintro rfl
    exact absurd several (by decide)

/-- Digits without a leading zero are those of the number that they denote. -/
theorem Canonical.toDigits_digitsValue {digits : List Char} (canonical : Canonical digits) :
    Nat.toDigits 10 (digitsValue digits) = digits := by
  induction digits using List.reverseRecOn with
  | nil => exact absurd rfl canonical.ne_nil
  | append_singleton front c ih =>
    obtain ⟨rebuilt, small⟩ := digitChar_toNat (canonical.isDigit c (by simp))
    rw [digitsValue_concat]
    by_cases empty : front = []
    · subst empty
      rw [List.nil_append, show digitsValue [] = 0 from rfl, Nat.mul_zero, Nat.zero_add,
        Nat.toDigits_of_lt_base small, rebuilt]
    · have longer : 1 < (front ++ [c]).length := by
        rw [List.length_append]
        exact Nat.lt_add_of_pos_left (List.length_pos_iff.mpr empty)
      have leading := canonical.noLeadingZero longer
      rw [List.head?_append_of_ne_nil _ empty] at leading
      have inner : Nat.toDigits 10 (digitsValue front) = front := by
        refine ih ⟨empty, fun d member => ?_, fun _ => leading⟩
        exact canonical.isDigit d (List.mem_append_left _ member)
      have positive : 0 < digitsValue front := by
        apply Nat.pos_of_ne_zero
        intro zero
        rw [zero, Nat.toDigits_zero] at inner
        exact leading (by rw [← inner]; rfl)
      rw [← Nat.toDigits_append_toDigits (by decide) positive small, inner,
        Nat.toDigits_of_lt_base small, rebuilt]

theorem canonical_iff (cs : List Char) :
    Canonical cs ↔
      (cs.isEmpty || !cs.all Char.isDigit || (1 < cs.length && cs.head? == some '0')) = false := by
  simp only [Bool.or_eq_false_iff, Bool.not_eq_false', List.all_eq_true, Bool.and_eq_false_iff,
    decide_eq_false_iff_not, beq_eq_false_iff_ne]
  constructor
  · intro canonical
    refine ⟨⟨?_, canonical.isDigit⟩, ?_⟩
    · simpa using canonical.ne_nil
    · exact Decidable.not_or_of_imp canonical.noLeadingZero
  · rintro ⟨⟨nonempty, digits⟩, leading⟩
    exact ⟨by simpa using nonempty, digits,
      fun several => leading.resolve_left (not_not_intro several)⟩

/-- The texts of indices are the digits of the numbers up to the largest index. -/
theorem indexText?_eq_some_iff (text : String) (number : Nat) :
    indexText? text = some number ↔ text = toString number ∧ number ≤ largestIndex := by
  have written : text = toString number ↔ text.toList = Nat.toDigits 10 number := by
    rw [← String.toList_inj, Nat.toString_eq_repr, Nat.toList_repr]
  rw [written, indexText?]
  by_cases canonical : Canonical text.toList
  · have spelled : text.toList = Nat.toDigits 10 number ↔ digitsValue text.toList = number := by
      constructor
      · intro same
        rw [same, digitsValue_toDigits]
      · rintro rfl
        exact canonical.toDigits_digitsValue.symm
    rw [spelled, (canonical_iff text.toList).mp canonical]
    by_cases small : digitsValue text.toList ≤ largestIndex
    · simp only [small, Bool.false_eq_true, ↓reduceIte, Option.some.injEq]
      exact ⟨fun same => ⟨same, same ▸ small⟩, fun both => both.1⟩
    · simp only [small, Bool.false_eq_true, ↓reduceIte, reduceCtorEq, false_iff, not_and]
      rintro rfl
      exact small
  · have refused := mt (canonical_iff text.toList).mpr canonical
    rw [Bool.not_eq_false] at refused
    rw [if_pos refused]
    simp only [reduceCtorEq, false_iff, not_and]
    intro same
    exact absurd (same ▸ canonical_toDigits number) canonical

/-! ### Shown digits -/

theorem roundFraction_mul (tie : Tie) (quotient : Nat) {denominator : Nat}
    (positive : 0 < denominator) :
    roundFraction tie (quotient * denominator) denominator = quotient := by
  have exact_div : quotient * denominator / denominator = quotient :=
    Nat.mul_div_cancel quotient positive
  have below : compare (2 * (quotient * denominator % denominator)) denominator = .lt := by
    rw [Nat.mul_mod_left, Nat.mul_zero, Nat.compare_eq_lt]
    exact positive
  simp only [roundFraction, below, exact_div]

/-- A factor of ten is a zero at the end. -/
theorem toDigits_mul_pow {number : Nat} (positive : 0 < number) (count : Nat) :
    Nat.toDigits 10 (number * 10 ^ count) =
      Nat.toDigits 10 number ++ List.replicate count '0' := by
  induction count with
  | zero => simp
  | succ count ih =>
    have bigger : 0 < number * 10 ^ count := Nat.mul_pos positive (Nat.pow_pos (by decide))
    have tenfold : number * 10 ^ (count + 1) = 10 * (number * 10 ^ count) + 0 := by
      rw [Nat.pow_succ, ← Nat.mul_assoc, Nat.mul_comm, Nat.add_zero]
    rw [tenfold, ← Nat.toDigits_append_toDigits (by decide) bigger (by decide), ih,
      List.replicate_succ', List.append_assoc]
    rfl

theorem dropTrailingZeros_append (digits : List Char) (count : Nat) :
    dropTrailingZeros (digits ++ List.replicate count '0') = dropTrailingZeros digits := by
  have zeros : ∀ c ∈ List.replicate count '0', (c == '0') = true := by
    intro c member
    rw [(List.mem_replicate.mp member).2]
    rfl
  rw [dropTrailingZeros, dropTrailingZeros, List.reverse_append, List.reverse_replicate,
    List.dropWhile_append_of_pos zeros]

/-- The zeros that are dropped can be put back. -/
theorem dropTrailingZeros_fill (digits : List Char) :
    dropTrailingZeros digits ++
      List.replicate (digits.length - (dropTrailingZeros digits).length) '0' = digits := by
  let zeros := (digits.reverse.takeWhile (· == '0')).reverse
  have split : dropTrailingZeros digits ++ zeros = digits := by
    rw [dropTrailingZeros, ← List.reverse_append, List.takeWhile_append_dropWhile,
      List.reverse_reverse]
  have all : ∀ c ∈ zeros, c = '0' := by
    intro c member
    have isZero := List.mem_takeWhile_imp (List.mem_reverse.mp member)
    exact eq_of_beq isZero
  have length_eq := congrArg List.length split
  rw [List.length_append] at length_eq
  rw [← length_eq, Nat.add_sub_cancel_left, ← List.eq_replicate_length.mpr all, split]

/-- A whole number without too many digits is written positionally by its digits. -/
theorem positional_digits {digits : List Char} (nonempty : digits ≠ []) :
    positional false ⟨dropTrailingZeros digits, (digits.length : Int) - 1⟩ = digits := by
  have positive := List.length_pos_iff.mpr nonempty
  have filled := dropTrailingZeros_fill digits
  have shorter : (dropTrailingZeros digits).length ≤ digits.length := by
    have length_eq := congrArg List.length filled
    rw [List.length_append] at length_eq
    omega
  have whole : ((digits.length : Int) - 1).toNat + 1 = digits.length := by omega
  have leading : ¬ (digits.length : Int) - 1 < 0 := by omega
  simp only [positional, leading, whole, shorter, ↓reduceIte, Bool.false_eq_true, List.append_nil]
  exact filled

theorem decimalScale_le {mantissa : Nat} {exponent : Int} (small : mantissa.log2 + exponent < 32) :
    decimalScale mantissa exponent ≤ 16 := by
  have guess : ((mantissa.log2 + exponent) * 30103).fdiv 100000 ≤ 9 := by
    rw [Int.fdiv_eq_ediv_of_nonneg _ (by decide)]
    omega
  unfold decimalScale
  dsimp only
  split
  · omega
  · split <;> omega

/-- The binary parts of a small whole number that is not zero. -/
structure Whole (mantissa : Nat) (exponent : Int) (number : Nat) : Prop where
  eq : number * 2 ^ (-exponent).toNat = mantissa * 2 ^ exponent.toNat
  positive : 0 < mantissa
  small : number < 2 ^ 32

section Whole

variable {mantissa : Nat} {exponent : Int} {number : Nat} (whole : Whole mantissa exponent number)

include whole

theorem Whole.number_pos : 0 < number := by
  apply Nat.pos_of_ne_zero
  rintro rfl
  have powered := Nat.mul_pos whole.positive (Nat.two_pow_pos exponent.toNat)
  rw [← whole.eq, Nat.zero_mul] at powered
  exact absurd powered (Nat.lt_irrefl 0)

theorem Whole.log2_lt : mantissa.log2 + exponent < 32 := by
  have bound : 2 ^ (mantissa.log2 + exponent.toNat) < 2 ^ (32 + (-exponent).toNat) := by
    calc 2 ^ (mantissa.log2 + exponent.toNat)
      _ = 2 ^ mantissa.log2 * 2 ^ exponent.toNat := Nat.pow_add ..
      _ ≤ mantissa * 2 ^ exponent.toNat :=
        Nat.mul_le_mul_right _ (Nat.log2_self_le (Nat.ne_of_gt whole.positive))
      _ = number * 2 ^ (-exponent).toNat := whole.eq.symm
      _ < 2 ^ 32 * 2 ^ (-exponent).toNat :=
        Nat.mul_lt_mul_of_pos_right whole.small (Nat.two_pow_pos _)
      _ = 2 ^ (32 + (-exponent).toNat) := (Nat.pow_add ..).symm
  have exponents := (Nat.pow_lt_pow_iff_right (by decide)).mp bound
  omega

/-- Rounding to sixteen digits keeps all digits of a small whole number. -/
theorem Whole.roundedDigits_eq :
    roundedDigits 16 mantissa exponent =
      ⟨dropTrailingZeros (Nat.toDigits 10 number), (Nat.toDigits 10 number).length - 1⟩ := by
  have scale := decimalScale_le whole.log2_lt
  let place := decimalScale mantissa exponent - 16
  let count := (-place).toNat
  have none : place.toNat = 0 := by omega
  have scaled_eq : scaled mantissa exponent place =
      (number * 10 ^ count * 2 ^ (-exponent).toNat, 2 ^ (-exponent).toNat) := by
    have numerator : mantissa * 2 ^ exponent.toNat * 10 ^ count =
        number * 10 ^ count * 2 ^ (-exponent).toNat := by
      rw [← whole.eq, Nat.mul_right_comm]
    have denominator : 2 ^ (-exponent).toNat * 10 ^ place.toNat = 2 ^ (-exponent).toNat := by
      rw [none, Nat.pow_zero, Nat.mul_one]
    exact Prod.ext numerator denominator
  have digits_eq := toDigits_mul_pow whole.number_pos count
  show Scientific.ofNat (roundFraction .even (scaled mantissa exponent place).1
    (scaled mantissa exponent place).2) place = _
  rw [scaled_eq, roundFraction_mul _ _ (Nat.two_pow_pos _), Scientific.ofNat, digits_eq,
    dropTrailingZeros_append, List.length_append, List.length_replicate]
  have leading : place + ((Nat.toDigits 10 number).length + count : Nat) - 1 =
      ((Nat.toDigits 10 number).length : Int) - 1 := by omega
  rw [leading]

theorem Whole.magnitude_eq :
    Style.display.magnitude mantissa exponent = Nat.toDigits 10 number := by
  have nonzero : mantissa ≠ 0 := Nat.ne_of_gt whole.positive
  have short : (Nat.toDigits 10 number).length ≤ 10 := by
    rw [Nat.length_toDigits_le_iff (by decide) (by decide)]
    exact Nat.lt_trans whole.small (by decide)
  have isPositional :
      Style.display.isPositional (((Nat.toDigits 10 number).length : Int) - 1) = true := by
    simp only [Style.display, Bool.and_eq_true, decide_eq_true_eq]
    omega
  have digits_eq : Style.display.digits mantissa exponent =
      ⟨dropTrailingZeros (Nat.toDigits 10 number), (Nat.toDigits 10 number).length - 1⟩ :=
    whole.roundedDigits_eq
  rw [Style.magnitude, if_neg nonzero, digits_eq]
  simp only [isPositional, ↓reduceIte]
  exact positional_digits Nat.toDigits_ne_nil

end Whole

theorem le_largestIndex_of_toIndex? {x : Float} {index : Nat} (found : toIndex? x = some index) :
    index ≤ largestIndex := by
  unfold toIndex? at found
  split at found
  · simp only [Option.ite_none_right_eq_some, Option.some.injEq] at found
    obtain ⟨⟨_, _, small⟩, rfl⟩ := found
    exact small
  · cases found

/-- A double that is an index is shown by the digits of the index. -/
theorem displayText_of_toIndex? {x : Float} {index : Nat} (found : toIndex? x = some index) :
    displayText x = toString index := by
  unfold toIndex? at found
  unfold displayText Style.render
  cases content : Binary.ofFloat x with
  | nan =>
    rw [content] at found
    cases found
  | infinite negative =>
    rw [content] at found
    cases found
  | finite negative mantissa exponent =>
    rw [content] at found
    simp only [Option.ite_none_right_eq_some, Option.some.injEq] at found
    obtain ⟨⟨isWhole, unsigned, small⟩, rfl⟩ := found
    have written : String.ofList (Nat.toDigits 10 (wholePart mantissa exponent)) =
        toString (wholePart mantissa exponent) :=
      Nat.toString_eq_ofList_toDigits.symm
    rw [← written]
    apply congrArg String.ofList
    by_cases zero : mantissa = 0
    · have nothing : wholePart mantissa exponent = 0 := by
        rw [wholePart, zero, Nat.zero_mul, Nat.zero_div]
      rw [nothing, zero, Nat.toDigits_zero]
      cases negative <;> rfl
    · have whole : Whole mantissa exponent (wholePart mantissa exponent) := by
        refine ⟨isWhole, Nat.pos_of_ne_zero zero, ?_⟩
        exact Nat.lt_of_le_of_lt small (by decide)
      have plain : negative = false := by simpa [zero] using unsigned
      rw [plain, whole.magnitude_eq]
      rfl

end Scriptlet.Numeral
