import Scriptlet.Diagnostic
import Scriptlet.Scope

set_option autoImplicit false

/-!
Why a run stops.
-/
namespace Scriptlet

inductive RuntimeError where
  | undefinedReference (name : String) (span : Span)
  | notCallable (kind : Value.Kind) (span : Span)
  | scopeExited (name : String) (span : Span)
  | callDepthExceeded (limit : Nat) (span : Span)
  | invalidTarget (kind : NodeKind) (span : Span)
  | native (name message : String) (span : Span)
  deriving DecidableEq, Repr

namespace RuntimeError

def code : RuntimeError → String
  | .undefinedReference .. => "E1000"
  | .notCallable .. => "E1001"
  | .scopeExited .. => "E1002"
  | .callDepthExceeded .. => "E1003"
  | .invalidTarget .. => "E102"
  | .native .. => "E1004"

/-- The part of the program that an error is about. -/
def span : RuntimeError → Span
  | .undefinedReference _ span => span
  | .notCallable _ span => span
  | .scopeExited _ span => span
  | .callDepthExceeded _ span => span
  | .invalidTarget _ span => span
  | .native _ _ span => span

def title : RuntimeError → String
  | .undefinedReference .. => "UNDEFINED REFERENCE"
  | .notCallable .. => "NOT CALLABLE"
  | .scopeExited .. => "SCOPE EXITED"
  | .callDepthExceeded .. => "CALL DEPTH EXCEEDED"
  | .invalidTarget .. => "INVALID ASSIGNMENT TARGET"
  | .native .. => "NATIVE ERROR"

def message : RuntimeError → String
  | .undefinedReference name _ => undefinedMessage name
  | .notCallable kind _ => kind.name ++ " is not a function"
  | .scopeExited name _ => "function `" ++ name ++ "` outlived the scope it was defined in"
  | .callDepthExceeded limit _ => "maximum call depth of " ++ toString limit ++ " exceeded"
  | .invalidTarget kind _ => "cannot assign to " ++ kind.name
  | .native name message _ => name ++ ": " ++ message

def hints : RuntimeError → List String
  | .undefinedReference .. => ["Declare it with `var`, `let` or `const` before reading it."]
  | .scopeExited .. => ["Functions defined inside a block can only be called while it runs."]
  | _ => []

def toDiagnostic (error : RuntimeError) : Diagnostic where
  title := error.title
  code := some error.code
  message := some error.message
  span := some error.span
  hints := error.hints

def summary (error : RuntimeError) : String :=
  "[" ++ error.code ++ "] " ++ error.message ++ " (at offset " ++ toString error.span.start ++ ")"

end RuntimeError

/-- What was tried with the handle of a free slot. -/
inductive Access where
  | read | write
  deriving DecidableEq, Repr

/-- Why evaluation stops without a value: an error of the program, the use of a free slot, or too
few steps allowed. -/
inductive Stop where
  | error (error : RuntimeError)
  | freeSlot (access : Access) (handle : Handle)
  | exhausted
  deriving DecidableEq, Repr

end Scriptlet
