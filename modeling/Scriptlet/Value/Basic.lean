import Scriptlet.Numeral.Reading
import Scriptlet.Numeral.Style
import Scriptlet.Tree.Basic
import Scriptlet.Value.Properties

set_option autoImplicit false

/-!
Values of programs. Arrays and objects refer to other values by handle, and functions to the scope
they were made in.
-/
namespace Scriptlet

/-- The name of a scope frame: its place among the frames, and a generation that tells it from
other frames in the same place. -/
structure ScopeId where
  index : Nat
  generation : UInt32
  deriving DecidableEq, Repr, Inhabited

def ScopeId.text (id : ScopeId) : String :=
  "scope" ++ toString id.index ++ "@" ++ toString id.generation.toNat

/-- A function of a program: its parameters and body, and the scope it was made in. -/
structure Closure where
  name : Option String
  params : List String
  body : Block
  scope : ScopeId
  node : NodeId

/-- The functions that are not written in the language. The first five are bound in every machine;
a host may bind the others. -/
inductive Native where
  | print | typeName | toText | toNumber | collect
  | sum | first | fail | apply
  deriving DecidableEq, Repr

/-- Values. A number that is not one is a kind of its own. -/
inductive Value where
  | undefined
  | null
  | boolean (value : Bool)
  | number (value : Float)
  | string (value : String)
  | nan
  | array (elements : Array Handle) (properties : PropertyMap)
  | object (properties : PropertyMap)
  | function (closure : Closure)
  | native (name : String) (operation : Native)

namespace Value

def ofFloat (x : Float) : Value :=
  if x.isNaN then .nan else .number x

def ofLiteral : Literal → Value
  | .null => .null
  | .boolean value => .boolean value
  | .string value => .string value
  | .number value => .ofFloat value

inductive Kind where
  | undefined | null | boolean | number | string | nan | array | object | function | native
  deriving DecidableEq, Repr

def kind : Value → Kind
  | .undefined => .undefined
  | .null => .null
  | .boolean _ => .boolean
  | .number _ => .number
  | .string _ => .string
  | .nan => .nan
  | .array .. => .array
  | .object _ => .object
  | .function _ => .function
  | .native .. => .native

/-- The name of a kind. Both kinds of functions have one name. -/
def Kind.name : Kind → String
  | .undefined => "undefined"
  | .null => "null"
  | .boolean => "boolean"
  | .number => "number"
  | .string => "string"
  | .nan => "NaN"
  | .array => "array"
  | .object => "object"
  | .function => "function"
  | .native => "function"

def Kind.isReference : Kind → Bool
  | .array => true
  | .object => true
  | .function => true
  | .native => true
  | _ => false

def typeName (value : Value) : String :=
  value.kind.name

def isReference (value : Value) : Bool :=
  value.kind.isReference

def toNumber? : Value → Option Float
  | .undefined => none
  | .null => some 0.0
  | .boolean value => some (if value then 1.0 else 0.0)
  | .number value => some value
  | .string value => Numeral.numericText? value
  | .nan => some 0.0
  | .array .. => none
  | .object _ => none
  | .function _ => some 0.0
  | .native .. => some 0.0

def isTruthy : Value → Bool
  | .undefined => false
  | .null => false
  | .nan => false
  | .boolean value => value
  | .number value => value != 0.0
  | .string value => !value.isEmpty
  | _ => true

/-- The handles that a value keeps alive: elements first, then properties. -/
def children : Value → List Handle
  | .array elements properties => elements.toList ++ properties.handles
  | .object properties => properties.handles
  | _ => []

end Value
end Scriptlet
