import Scriptlet.Machine.Property
import Scriptlet.Proofs.Numeral.Nan

set_option autoImplicit false

/-!
A value of the kind of numbers is a number. Constants, operators and properties give no other value,
whatever values they are given, and changing the elements or properties of a value makes none.
-/
namespace Scriptlet.Value

/-- A value that holds a double holds a number. -/
def WellKinded : Value → Prop
  | .number x => x.isNaN = false
  | _ => True

/-- A value that is not a number, in its own kind or, wrongly, in that of the numbers. -/
def IsNotNumber : Value → Prop
  | .nan => True
  | .number x => x.isNaN = true
  | _ => False

theorem WellKinded.eq_nan {value : Value} (wellKinded : value.WellKinded)
    (notNumber : value.IsNotNumber) : value = .nan := by
  cases value with
  | nan => rfl
  | number x => exact absurd (notNumber.symm.trans wellKinded) nofun
  | _ => exact notNumber.elim

theorem wellKinded_of_kind {value : Value} (other : (value.kind == .number) = false) :
    value.WellKinded := by
  cases value with
  | number x => cases other
  | _ => trivial

theorem wellKinded_ofFloat (x : Float) : (ofFloat x).WellKinded := by
  unfold ofFloat
  split
  · trivial
  · rename_i number
    exact Bool.eq_false_iff.mpr number

theorem wellKinded_ofLiteral (literal : Literal) : (ofLiteral literal).WellKinded := by
  cases literal with
  | number x => exact wellKinded_ofFloat x
  | _ => trivial

/-- Operators that work on the whole parts of doubles give an integer. -/
theorem wellKinded_applyUnary (operator : UnaryOperator) (value : Value) :
    (value.applyUnary operator).WellKinded := by
  unfold applyUnary
  cases operator with
  | not => trivial
  | negate | plus =>
    cases value.toNumber? with
    | none => trivial
    | some x => exact wellKinded_ofFloat _
  | bitNot =>
    cases value.toNumber? with
    | none => trivial
    | some x => exact Numeral.isNaN_ofInt _

theorem wellKinded_arithmetic (operation : Float → Float → Float) (left right : Value) :
    (arithmetic operation left right).WellKinded := by
  unfold arithmetic
  split
  · exact wellKinded_ofFloat _
  · trivial

theorem wellKinded_bitwise (operation : Int32 → Int32 → Int) (left right : Value) :
    (bitwise operation left right).WellKinded := by
  unfold bitwise
  split
  · exact Numeral.isNaN_ofInt _
  · trivial

theorem wellKinded_relate (operator : BinaryOperator) (left right : Value) :
    (relate operator left right).WellKinded := by
  unfold relate
  repeat' split
  all_goals trivial

theorem wellKinded_add (heap : Heap) (left right : Value) : (add heap left right).WellKinded := by
  unfold add
  repeat' split
  · trivial
  · trivial
  · exact wellKinded_arithmetic _ left right

theorem wellKinded_applyBinary (heap : Heap) (operator : BinaryOperator)
    (left right : Handle × Value) : (applyBinary heap operator left right).WellKinded := by
  cases operator with
  | add => exact wellKinded_add heap left.2 right.2
  | subtract | multiply | divide | modulo => exact wellKinded_arithmetic _ left.2 right.2
  | equal | notEqual | strictEqual | strictNotEqual => trivial
  | less | greater | lessEqual | greaterEqual => exact wellKinded_relate _ left.2 right.2
  | _ => simp only [applyBinary, wellKinded_bitwise]

/-- The length of an array or of a text is a number, and nothing else that is read is a new one. -/
theorem wellKinded_property {value fresh : Value} {key : PropertyKey}
    (reading_eq : value.property key = .fresh fresh) : fresh.WellKinded := by
  unfold property at reading_eq
  split at reading_eq
  · rename_i elements _ index
    cases found : elements[index]? <;> rw [found] at reading_eq <;> cases reading_eq
    trivial
  · rename_i elements properties name
    split at reading_eq
    · cases reading_eq
      exact Numeral.isNaN_ofNat _
    · cases found : properties.get? name <;> rw [found] at reading_eq <;> cases reading_eq
      trivial
  · rename_i properties
    cases found : properties.get? key.text <;> rw [found] at reading_eq <;> cases reading_eq
    trivial
  · rename_i text index
    cases found : text.toList[index]? <;> rw [found] at reading_eq <;> cases reading_eq <;> trivial
  · split at reading_eq <;> cases reading_eq
    · exact Numeral.isNaN_ofNat _
    · trivial
  · cases reading_eq
    trivial

section Changes

variable {value : Value} (wellKinded : value.WellKinded)

include wellKinded

theorem WellKinded.setElement (index : Nat) (handle : Handle) :
    (value.setElement index handle).WellKinded := by
  cases value with
  | array => trivial
  | _ => exact wellKinded

theorem WellKinded.append (handles : Array Handle) : (value.append handles).WellKinded := by
  cases value with
  | array => trivial
  | _ => exact wellKinded

theorem WellKinded.setNamed (name : String) (handle : Handle) :
    (value.setNamed name handle).WellKinded := by
  cases value with
  | array | object => trivial
  | _ => exact wellKinded

end Changes

/-- What is not a number equals nothing, not even itself. -/
theorem equal_nan (handle : Handle) (other : Handle × Value) :
    looselyEqual (handle, .nan) other = false ∧ looselyEqual other (handle, .nan) = false ∧
      strictlyEqual (handle, .nan) other = false ∧
      strictlyEqual other (handle, .nan) = false := by
  have left : looselyEqual (handle, .nan) other = false := rfl
  have right : looselyEqual other (handle, .nan) = false := by
    obtain ⟨_, value⟩ := other
    cases value <;> rfl
  refine ⟨left, right, ?_, ?_⟩
  · rw [strictlyEqual, left, Bool.and_false]
  · rw [strictlyEqual, right, Bool.and_false]

theorem text?_nan (heap : Heap) : text? heap .nan = some "NaN" := by
  unfold text?
  cases heap.slotCount <;> rfl

end Scriptlet.Value
