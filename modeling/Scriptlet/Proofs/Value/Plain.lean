import Scriptlet.Machine.Property

set_option autoImplicit false

/-!
Values that are compared by content. Constants, operators and missing properties give no others; in
particular none of them gives a function.
-/
namespace Scriptlet.Value

theorem children_of_isReference {value : Value} (plain : value.isReference = false) :
    value.children = [] := by
  cases value with
  | array | object => cases plain
  | _ => rfl

theorem isReference_ofFloat (x : Float) : (ofFloat x).isReference = false := by
  unfold ofFloat
  split <;> rfl

theorem isReference_ofLiteral (literal : Literal) : (ofLiteral literal).isReference = false := by
  cases literal with
  | number x => exact isReference_ofFloat x
  | _ => rfl

theorem isReference_applyUnary (operator : UnaryOperator) (value : Value) :
    (value.applyUnary operator).isReference = false := by
  unfold applyUnary
  cases operator with
  | not => rfl
  | negate | plus | bitNot =>
    cases value.toNumber? with
    | none => rfl
    | some x => first | exact isReference_ofFloat _ | rfl

theorem isReference_arithmetic (operation : Float → Float → Float) (left right : Value) :
    (arithmetic operation left right).isReference = false := by
  unfold arithmetic
  split
  · exact isReference_ofFloat _
  · rfl

theorem isReference_bitwise (operation : Int32 → Int32 → Int) (left right : Value) :
    (bitwise operation left right).isReference = false := by
  unfold bitwise
  split <;> rfl

theorem isReference_relate (operator : BinaryOperator) (left right : Value) :
    (relate operator left right).isReference = false := by
  unfold relate
  split
  · rfl
  · split <;> rfl

theorem isReference_add (heap : Heap) (left right : Value) :
    (add heap left right).isReference = false := by
  unfold add
  split
  · split <;> rfl
  · exact isReference_arithmetic _ _ _

/-- The value of an operator is compared by content. -/
theorem isReference_applyBinary (heap : Heap) (operator : BinaryOperator)
    (left right : Handle × Value) : (applyBinary heap operator left right).isReference = false := by
  cases operator with
  | add => exact isReference_add heap left.2 right.2
  | subtract | multiply | divide | modulo => simp only [applyBinary, isReference_arithmetic]
  | equal | notEqual | strictEqual | strictNotEqual => rfl
  | less | greater | lessEqual | greaterEqual => simp only [applyBinary, isReference_relate]
  | _ => simp only [applyBinary, isReference_bitwise]

/-- Reading a property makes no value that is compared by handle. -/
theorem isReference_property {value fresh : Value} {key : PropertyKey}
    (reading_eq : value.property key = .fresh fresh) : fresh.isReference = false := by
  have elim {found : Option Handle} (elim_eq : found.elim (.fresh .undefined) .found =
      Reading.fresh fresh) : fresh.isReference = false := by
    cases found <;> cases elim_eq
    rfl
  cases value with
  | array elements properties =>
    cases key with
    | index index => exact elim reading_eq
    | name name =>
      simp only [property] at reading_eq
      split at reading_eq
      · cases reading_eq
        rfl
      · exact elim reading_eq
  | object properties => exact elim reading_eq
  | string text =>
    cases key with
    | index index =>
      simp only [property] at reading_eq
      cases found : text.toList[index]? <;> rw [found] at reading_eq <;> cases reading_eq <;> rfl
    | name name =>
      simp only [property] at reading_eq
      split at reading_eq <;> cases reading_eq <;> rfl
  | _ =>
    cases reading_eq
    rfl

end Scriptlet.Value
