import Scriptlet.Machine.Basic

set_option autoImplicit false

/-!
Reading and writing properties. A key is an index or a name; a name that spells an index is that
index.
-/
namespace Scriptlet

inductive PropertyKey where
  | index (index : Nat)
  | name (name : String)
  deriving DecidableEq, Repr

namespace PropertyKey

def ofName (name : String) : PropertyKey :=
  (Numeral.indexText? name).elim (.name name) .index

def ofNumber (x : Float) : PropertyKey :=
  (Numeral.toIndex? x).elim (ofName (Numeral.displayText x)) .index

/-- The key of a value: its number, or else its text. A value without a text has the key `NaN`. -/
def ofValue (heap : Heap) (value : Value) : PropertyKey :=
  match value with
  | .number x => ofNumber x
  | value => (value.text? heap).elim (.name "NaN") ofName

def text : PropertyKey → String
  | .index number => toString number
  | .name word => word

def isLength (key : PropertyKey) : Bool :=
  key == .name "length"

end PropertyKey

/-- How far behind the end of an array an element may be written. Further off it becomes a named
property. -/
def largestGap : Nat := Nat.pow 2 16

/-- What reading a property comes to: a handle that is there, or a value to be put into a slot. -/
inductive Reading where
  | found (handle : Handle)
  | fresh (value : Value)

/-- What reading a property of a value comes to. A property that is missing is undefined. -/
def Value.property (value : Value) (key : PropertyKey) : Reading :=
  match value, key with
  | .array elements _, .index index => elements[index]?.elim (.fresh .undefined) .found
  | .array elements properties, .name name =>
    if key.isLength then .fresh (.number (Float.ofNat elements.size))
    else (properties.get? name).elim (.fresh .undefined) .found
  | .object properties, key => (properties.get? key.text).elim (.fresh .undefined) .found
  | .string text, .index index =>
    text.toList[index]?.elim (.fresh .undefined) fun c => .fresh (.string c.toString)
  | .string text, .name _ =>
    if key.isLength then .fresh (.number (Float.ofNat text.length)) else .fresh .undefined
  | _, _ => .fresh .undefined

/-- What writing a property of a value comes to. -/
inductive Writing where
  | ignored
  | element (index : Nat)
  | append (holes : Nat)
  | named (name : String)
  deriving DecidableEq, Repr

/-- What writing a property of a value comes to. The length of an array is not written, nor any
property of a value that is no array and no object. -/
def Value.writing (value : Value) (key : PropertyKey) : Writing :=
  match value, key with
  | .array elements _, .index index =>
    if index < elements.size then .element index
    else if index ≤ elements.size + largestGap then .append (index - elements.size)
    else .named key.text
  | .array .., .name name => if key.isLength then .ignored else .named name
  | .object _, key => .named key.text
  | _, _ => .ignored

def Value.setElement (index : Nat) (handle : Handle) : Value → Value
  | .array elements properties => .array (elements.setIfInBounds index handle) properties
  | value => value

def Value.append (handles : Array Handle) : Value → Value
  | .array elements properties => .array (elements ++ handles) properties
  | value => value

/-- An array or object with another handle as a named property. -/
def Value.setNamed (name : String) (handle : Handle) : Value → Value
  | .array elements properties => .array elements (properties.insert name handle)
  | .object properties => .object (properties.insert name handle)
  | value => value

namespace Eval

def ofReading : Reading → Eval Handle
  | .found handle => pure handle
  | .fresh value => alloc value

def getProperty (target : Handle) (key : PropertyKey) : Eval Handle := do
  let value ← deref target
  ofReading (value.property key)

/-- Handles of new undefined values, behind those given. -/
def allocHoles : Nat → Array Handle → Eval (Array Handle)
  | 0, handles => pure handles
  | count + 1, handles => do
    let hole ← alloc .undefined
    allocHoles count (handles.push hole)

/-- Writes a property. Places that are skipped at the end of an array become undefined. -/
def setProperty (target : Handle) (key : PropertyKey) (handle : Handle) : Eval Unit := do
  match (← deref target).writing key with
  | .ignored => return
  | .element index => update target (Value.setElement index handle)
  | .append holes =>
    let handles ← allocHoles holes #[]
    update target (Value.append (handles.push handle))
  | .named name => update target (Value.setNamed name handle)

end Eval
end Scriptlet
