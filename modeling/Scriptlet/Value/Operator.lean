import Scriptlet.Value.Text

set_option autoImplicit false

/-!
Operators on values. An operand that stands for no number makes the result the NaN kind, except
where operands are only compared.
-/
namespace Scriptlet.Value

def arithmetic (operation : Float → Float → Float) (left right : Value) : Value :=
  match left.toNumber?, right.toNumber? with
  | some l, some r => .ofFloat (operation l r)
  | _, _ => .nan

def bitwise (operation : Int32 → Int32 → Int) (left right : Value) : Value :=
  match left.toNumber?, right.toNumber? with
  | some l, some r => .number (Float.ofInt (operation (Numeral.toWord l) (Numeral.toWord r)))
  | _, _ => .nan

def isString (value : Value) : Bool :=
  value.kind == .string

/-- The sum of numbers, or the texts one after the other if an operand is a string. -/
def add (heap : Heap) (left right : Value) : Value :=
  if left.isString || right.isString then
    match left.text? heap, right.text? heap with
    | some l, some r => .string (l ++ r)
    | _, _ => .nan
  else arithmetic (· + ·) left right

/-- The order of two doubles, if they have one. -/
def compareFloats (l r : Float) : Option Ordering :=
  if l < r then some .lt
  else if l == r then some .eq
  else if r < l then some .gt
  else none

def fits (operator : BinaryOperator) (ordering : Ordering) : Bool :=
  match operator with
  | .less => ordering == .lt
  | .greater => ordering == .gt
  | .lessEqual => ordering != .gt
  | .greaterEqual => ordering != .lt
  | _ => false

/-- The comparison of two values: strings by their characters, all else by number. -/
def relate (operator : BinaryOperator) (left right : Value) : Value :=
  match left, right with
  | .string l, .string r => .boolean (fits operator (compare l r))
  | _, _ =>
    match left.toNumber?, right.toNumber? with
    | some l, some r => .boolean ((compareFloats l r).any (fits operator))
    | _, _ => .nan

/-- Whether two values, each with its handle, are equal: strings by their characters, arrays,
objects and functions by handle, and all else by number. Undefined equals itself and null; what is
not a number equals nothing. -/
def looselyEqual (left right : Handle × Value) : Bool :=
  match left.2, right.2 with
  | .string l, .string r => l == r
  | .nan, _ => false
  | _, .nan => false
  | .undefined, other => other.kind == .undefined || other.kind == .null
  | other, .undefined => other.kind == .undefined || other.kind == .null
  | l, r =>
    if l.isReference || r.isReference then left.1 == right.1
    else match l.toNumber?, r.toNumber? with
      | some x, some y => x == y
      | _, _ => false

def strictlyEqual (left right : Handle × Value) : Bool :=
  left.2.kind == right.2.kind && looselyEqual left right

def applyBinary (heap : Heap) (operator : BinaryOperator) (left right : Handle × Value) : Value :=
  let l := left.2
  let r := right.2
  match operator with
  | .add => add heap l r
  | .subtract => arithmetic (· - ·) l r
  | .multiply => arithmetic (· * ·) l r
  | .divide => arithmetic (· / ·) l r
  | .modulo => arithmetic Numeral.remainder l r
  | .bitAnd => bitwise (fun a b => (a &&& b).toInt) l r
  | .bitOr => bitwise (fun a b => (a ||| b).toInt) l r
  | .bitXor => bitwise (fun a b => (a ^^^ b).toInt) l r
  | .shiftLeft => bitwise (fun a b => (a <<< b).toInt) l r
  | .shiftRight => bitwise (fun a b => (a >>> b).toInt) l r
  | .unsignedShiftRight => bitwise (fun a b => (a.toUInt32 >>> b.toUInt32).toNat) l r
  | .equal => .boolean (looselyEqual left right)
  | .notEqual => .boolean (!looselyEqual left right)
  | .strictEqual => .boolean (strictlyEqual left right)
  | .strictNotEqual => .boolean (!strictlyEqual left right)
  | .less => relate .less l r
  | .greater => relate .greater l r
  | .lessEqual => relate .lessEqual l r
  | .greaterEqual => relate .greaterEqual l r

def applyUnary (operator : UnaryOperator) (value : Value) : Value :=
  match operator with
  | .not => .boolean !value.isTruthy
  | .negate => value.toNumber?.elim .nan fun x => .ofFloat (-x)
  | .plus => value.toNumber?.elim .nan .ofFloat
  | .bitNot => value.toNumber?.elim .nan fun x => .number (Float.ofInt (~~~Numeral.toWord x).toInt)

end Scriptlet.Value
