set_option autoImplicit false

/-!
Ranges of program text. Offsets count characters from the start of the text.
-/
namespace Scriptlet

/-- The range from `start` up to, not including, `stop`. -/
structure Span where
  start : Nat
  stop : Nat
  deriving DecidableEq, Repr, Inhabited

namespace Span

def point (offset : Nat) : Span :=
  ⟨offset, offset⟩

def merge (a b : Span) : Span :=
  ⟨min a.start b.start, max a.stop b.stop⟩

def length (span : Span) : Nat :=
  span.stop - span.start

def isEmpty (span : Span) : Bool :=
  span.length == 0

def text (span : Span) : String :=
  toString span.start ++ ".." ++ toString span.stop

end Span
end Scriptlet
