import Scriptlet.Heap.Basic
import Scriptlet.Text.Basic

set_option autoImplicit false

/-!
The text of a value. Elements and properties are followed through the heap; a value that contains
itself, or a handle of a free slot, has no text.
-/
namespace Scriptlet.Value

open Text (commaSeparated inBraces)

def textWith (child : Handle → Option String) : Value → Option String
  | .undefined => some "undefined"
  | .null => some "null"
  | .boolean value => some (toString value)
  | .number value => some (Numeral.displayText value)
  | .string value => some value
  | .nan => some "NaN"
  | .array elements _ =>
    (elements.toList.mapM child).map fun texts => "[ " ++ commaSeparated texts ++ " ]"
  | .object properties =>
    if properties.isEmpty then some "\x7b\x7d"
    else
      (properties.toList.mapM fun entry =>
        (child entry.2).map fun text => entry.1 ++ ": " ++ text).map fun fields =>
          inBraces (commaSeparated fields)
  | .function closure => some ("function " ++ closure.name.getD "" ++ "() " ++ inBraces "[code]")
  | .native name _ => some ("function " ++ name ++ "() " ++ inBraces "[native code]")

/-- The text of a value inside the values of some handles, nested at most to a depth. -/
def textWithin (heap : Heap) : Nat → List Handle → Value → Option String
  | 0, _, value => value.textWith fun _ => none
  | depth + 1, visiting, value =>
    value.textWith fun handle =>
      if visiting.contains handle then none
      else (heap.get? handle).bind (textWithin heap depth (handle :: visiting))

/-- The text of a value. A value that does not contain itself is nested no deeper than there are
slots. -/
def text? (heap : Heap) (value : Value) : Option String :=
  textWithin heap heap.slotCount [] value

end Scriptlet.Value
