import Scriptlet.Machine.Property

set_option autoImplicit false

/-!
Natives that call no function. Each gives a handle, or the message of an error.
-/
namespace Scriptlet

/-- What a native comes to: a handle, or the message of an error. -/
abbrev NativeResult : Type :=
  Except String Handle

namespace Native

/-- The natives that every machine binds, by name, in this order. -/
def installed : List (String × Native) :=
  [("print", .print), ("typeof", .typeName), ("String", .toText), ("Number", .toNumber),
    ("gc", .collect)]

/-- What is said of a value that has no number or no text. -/
def coercionMessage : String :=
  "value cannot be coerced"

end Native

namespace Eval

def firstArgument (arguments : List Handle) : Eval Handle :=
  match arguments with
  | handle :: _ => pure handle
  | [] => alloc .undefined

/-- The texts of handles; a value without one has the text `NaN`. -/
def textsOf : List Handle → Eval (List String)
  | [] => return []
  | handle :: rest => do
    let text ← textOf handle
    return text.getD "NaN" :: (← textsOf rest)

/-- The sum of the numbers of handles, added to a number from left to right, if all have one. -/
def sumOf (total : Float) : List Handle → Eval (Option Float)
  | [] => return some total
  | handle :: rest => do
    match (← deref handle).toNumber? with
    | some value => sumOf (total + value) rest
    | none => return none

/-- Collects now: the number of freed slots, zero if collections are disabled. -/
def collectNow : Eval Nat :=
  modifyGet fun machine =>
    let (report, machine) := machine.collect
    (report.elim 0 Report.freed, machine)

def printNative (arguments : List Handle) : Eval NativeResult := do
  printLine (" ".intercalate (← textsOf arguments))
  .ok <$> alloc .undefined

def typeNameNative (arguments : List Handle) : Eval NativeResult := do
  let value ← deref (← firstArgument arguments)
  .ok <$> alloc (.string value.typeName)

def toTextNative (arguments : List Handle) : Eval NativeResult := do
  let text ← textOf (← firstArgument arguments)
  .ok <$> alloc (text.elim .nan .string)

def toNumberNative (arguments : List Handle) : Eval NativeResult := do
  let value ← deref (← firstArgument arguments)
  .ok <$> alloc (value.toNumber?.elim .nan .ofFloat)

/-- The number of slots freed by a collection. -/
def collectNative : Eval NativeResult := do
  let freed ← collectNow
  .ok <$> alloc (.number (Float.ofNat freed))

def sumNative (arguments : List Handle) : Eval NativeResult := do
  match ← sumOf 0.0 arguments with
  | some total => .ok <$> alloc (.ofFloat total)
  | none => return .error Native.coercionMessage

/-- An error with the text of the first argument. -/
def failNative (arguments : List Handle) : Eval NativeResult := do
  match arguments with
  | [] => return .error "no reason"
  | handle :: _ => return .error ((← textOf handle).getD Native.coercionMessage)

end Eval
end Scriptlet
