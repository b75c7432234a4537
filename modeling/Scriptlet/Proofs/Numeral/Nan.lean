import Mathlib.Algebra.GroupWithZero.Nat
import Scriptlet.Value.Operator

set_option autoImplicit false

/-!
The doubles that are not a number. Packing a double into its word keeps whether it is one of them,
and neither rounding nor a finite factor makes one, so the double of an integer is none. Any two
other doubles have an order.
-/
namespace Scriptlet.Numeral

open Float.Model (Format UnpackedFloat)
open Float.Model.UnpackedFloat

/-- A word is that of no number when its exponent is all ones and its mantissa is not zero. -/
theorem isNaN_unpack (spec : Format) (word : BitVec spec.numBits) :
    (unpack spec word).isNaN =
      decide (unpackExponent word = -1#_ ∧ unpackMantissa word ≠ 0#_) := by
  unfold unpack
  dsimp only
  by_cases ones : unpackExponent word = -1#_
  · rw [if_pos ones]
    by_cases zero : unpackMantissa word = 0#_
    · rw [if_pos zero, decide_eq_false fun both => both.2 zero]
      rfl
    · rw [if_neg zero, decide_eq_true ⟨ones, zero⟩]
      rfl
  · rw [if_neg ones, decide_eq_false fun both => ones both.1]
    by_cases small : unpackExponent word = 0#_
    · rw [if_pos small]
      by_cases zero : unpackMantissa word = 0#_
      · rw [dif_pos zero]
        rfl
      · rw [dif_neg zero]
        rfl
    · rw [if_neg small]
      rfl

theorem isNaN_unpack_packComponents {spec : Format} {sign : Sign}
    {exponent : BitVec spec.exponentBits} {mantissa : BitVec spec.mantissaBitsWithoutImplicit}
    (number : exponent ≠ -1#_ ∨ mantissa = 0#_) :
    (unpack spec (packComponents spec sign exponent mantissa)).isNaN = false := by
  rw [isNaN_unpack, unpackExponent_packComponents, unpackMantissa_packComponents,
    decide_eq_false_iff_not]
  rintro ⟨ones, nonzero⟩
  exact number.elim (· ones) nonzero

theorem exponent_ne_ones {exponent : Nat} (below : exponent < 2 ^ 11 - 1) :
    BitVec.ofNat 11 exponent ≠ -1#11 := by
  intro ones
  have toNat_eq : (BitVec.ofNat 11 exponent).toNat = exponent := by
    rw [BitVec.toNat_ofNat]
    exact Nat.mod_eq_of_lt (by omega)
  have toNat_ones : (-1#11).toNat = 2 ^ 11 - 1 := by decide
  rw [ones, toNat_ones] at toNat_eq
  omega

/-- A number stays one when it is packed. -/
theorem isNaN_unpack_pack {x : UnpackedFloat} (number : x.isNaN = false) :
    (unpack .binary64 (pack .binary64 x)).isNaN = false := by
  cases x with
  | notANumber => cases number
  | infinity sign => exact isNaN_unpack_packComponents (.inr rfl)
  | zero sign => exact isNaN_unpack_packComponents (.inr rfl)
  | finite sign mantissa exponent positive =>
    unfold pack
    dsimp only
    split
    · exact isNaN_unpack_packComponents (.inr rfl)
    · rename_i small
      split
      · apply isNaN_unpack_packComponents
        left
        apply exponent_ne_ones
        have : ¬2 ^ 11 ≤ (exponent + Format.binary64.exponentBias +
          Format.binary64.mantissaBitsWithoutImplicit).toNat + 1 := small
        omega
      · exact isNaN_unpack_packComponents (.inl (by decide))

theorem isNaN_dite {p : Prop} [Decidable p] {zero : p → UnpackedFloat} {other : ¬p → UnpackedFloat}
    (first : ∀ h, (zero h).isNaN = false) (second : ∀ h, (other h).isNaN = false) :
    (dite p zero other).isNaN = false := by
  split
  · exact first _
  · exact second _

theorem isNaN_ite {p : Prop} [Decidable p] {one other : UnpackedFloat}
    (first : one.isNaN = false) (second : other.isNaN = false) :
    (ite p one other).isNaN = false := by
  split
  · exact first
  · exact second

/-- Rounding gives a number. -/
theorem isNaN_roundWithAccuracy (spec : Format) (sign : Sign) (mantissa : Nat) (exponent : Int)
    (accuracy : Accuracy) :
    (roundWithAccuracy spec sign mantissa exponent accuracy).isNaN = false := by
  unfold roundWithAccuracy
  exact isNaN_dite (fun _ => rfl) fun _ => rfl

theorem isNaN_normalize (spec : Format) (mantissa exponent : Int) (sign : Sign) :
    (UnpackedFloat.normalize spec mantissa exponent sign).isNaN = false := by
  unfold UnpackedFloat.normalize
  split
  · exact isNaN_roundWithAccuracy ..
  · rfl
  · exact isNaN_roundWithAccuracy ..

/-- A finite factor other than zero keeps a number a number. -/
theorem isNaN_mul_finite (spec : Format) {x : UnpackedFloat} (number : x.isNaN = false)
    (sign : Sign) (mantissa : Nat) (exponent : Int) (positive : 0 < mantissa) :
    (mul spec x (.finite sign mantissa exponent positive)).isNaN = false := by
  cases x with
  | notANumber => cases number
  | infinity => rfl
  | zero => rfl
  | finite => exact isNaN_roundWithAccuracy ..

theorem isNaN_neg {x : UnpackedFloat} (number : x.isNaN = false) : x.neg.isNaN = false := by
  cases x <;> first | rfl | cases number

theorem isNaN_ofModel_pack {x : UnpackedFloat} (number : x.isNaN = false) :
    (Float.ofModel (.pack x)).isNaN = false :=
  isNaN_unpack_pack number

theorem isNaN_ofScientific (spec : Format) (mantissa : Nat) (exponent : Nat) :
    (ofScientific spec mantissa exponent).isNaN = false := by
  unfold ofScientific
  refine isNaN_dite (fun _ => rfl) fun _ => isNaN_ite rfl (isNaN_ite rfl ?_)
  rw [if_pos (Int.natCast_nonneg exponent)]
  exact isNaN_mul_finite _ rfl ..

/-- The double of a natural number is a number, though it may be infinite. -/
theorem isNaN_ofNat (n : Nat) : (Float.ofNat n).isNaN = false := by
  unfold Float.ofNat
  show (Float.ofScientific n false 0).isNaN = false
  unfold Float.ofScientific
  split
  · -- A small one is multiplied by the power of ten that is one.
    have whole : (Float.ofModel (.ofUInt64 n.toUInt64)).isNaN = false :=
      isNaN_ofModel_pack (isNaN_normalize ..)
    have one : (Float.ofBits 0x3FF0000000000000).toModel.unpack =
        .finite .positive (2 ^ 52) (-52) (by decide) := rfl
    apply isNaN_ofModel_pack
    show (mul _ _ (Float.ofBits 0x3FF0000000000000).toModel.unpack).isNaN = false
    rw [one]
    exact isNaN_mul_finite _ whole ..
  · exact isNaN_ofModel_pack (isNaN_ofScientific _ n 0)

theorem isNaN_ofInt (n : Int) : (Float.ofInt n).isNaN = false := by
  cases n with
  | ofNat n => exact isNaN_ofNat n
  | negSucc n => exact isNaN_ofModel_pack (isNaN_neg (isNaN_ofNat n.succ))

/-- Any two numbers have an order. -/
theorem compare_isSome {x y : UnpackedFloat} (left : x.isNaN = false) (right : y.isNaN = false) :
    (x.compare y).isSome = true := by
  cases x with
  | notANumber => cases left
  | infinity sign => cases y <;> cases sign <;> first | rfl | cases right
  | zero sign =>
    cases y with
    | notANumber => cases right
    | infinity other => cases other <;> rfl
    | zero other => rfl
    | finite other => cases other <;> rfl
  | finite sign =>
    cases y with
    | notANumber => cases right
    | infinity other => cases other <;> rfl
    | zero other => cases sign <;> rfl
    | finite other => cases sign <;> cases other <;> rfl

theorem compare_sign_swap (sign other : Sign) : compare other sign = (compare sign other).swap := by
  cases sign <;> cases other <;> rfl

/-- The places and the mantissas of finite doubles, which are compared in this order. -/
theorem compare_parts_swap (e f : Int) (m n : Nat) :
    (compare f e).then (compare n m) = ((compare e f).then (compare m n)).swap := by
  rw [Ordering.swap_then, Int.compare_swap, Nat.compare_swap]

theorem compare_swap (x y : UnpackedFloat) : y.compare x = (x.compare y).map Ordering.swap := by
  cases x with
  | notANumber => cases y <;> rfl
  | infinity sign =>
    cases y with
    | infinity other => exact congrArg some (compare_sign_swap sign other)
    | notANumber => rfl
    | zero => cases sign <;> rfl
    | finite => cases sign <;> rfl
  | zero sign =>
    cases y with
    | infinity other => cases other <;> rfl
    | notANumber => rfl
    | zero => rfl
    | finite other => cases other <;> rfl
  | finite sign m e =>
    cases y with
    | infinity other => cases other <;> rfl
    | notANumber => rfl
    | zero => cases sign <;> rfl
    | finite other n f =>
      have parts := compare_parts_swap e f m n
      cases sign <;> cases other
      · exact congrArg (fun ordering => some ordering.swap) parts
      · rfl
      · rfl
      · exact congrArg some parts

end Scriptlet.Numeral

namespace Scriptlet.Value

theorem lt_iff_compare (x y : Float) :
    x < y ↔ x.toModel.unpack.compare y.toModel.unpack = some .lt := by
  show decide ((x.toModel.unpack.compare y.toModel.unpack == some .lt) = true) = true ↔ _
  rw [decide_eq_true_iff, beq_iff_eq]

theorem beq_iff_compare (x y : Float) :
    (x == y) = true ↔ x.toModel.unpack.compare y.toModel.unpack = some .eq := by
  show (x.toModel.unpack.compare y.toModel.unpack == some .eq) = true ↔ _
  rw [beq_iff_eq]

/-- The order found by two comparisons and a test for equality is the order of the doubles. -/
theorem compareFloats_eq (x y : Float) :
    compareFloats x y = x.toModel.unpack.compare y.toModel.unpack := by
  have swapped := Numeral.compare_swap x.toModel.unpack y.toModel.unpack
  unfold compareFloats
  simp only [lt_iff_compare, beq_iff_compare, swapped]
  cases x.toModel.unpack.compare y.toModel.unpack with
  | none => rfl
  | some ordering => cases ordering <;> rfl

/-- Two doubles that are numbers are ordered. -/
theorem exists_compareFloats {x y : Float} (left : x.isNaN = false) (right : y.isNaN = false) :
    ∃ ordering, compareFloats x y = some ordering := by
  rw [compareFloats_eq]
  exact Option.isSome_iff_exists.mp (Numeral.compare_isSome left right)

end Scriptlet.Value
