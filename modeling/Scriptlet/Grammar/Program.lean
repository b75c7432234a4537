import Scriptlet.Grammar.Rules

set_option autoImplicit false

/-!
Reading a whole program.
-/
namespace Scriptlet

namespace Grammar

def stepsFor (tokens : Nat) : Nat :=
  16 * tokens + 16

/-- Statements up to the end of the source, as a program. -/
def program (steps : Nat) : Rule Program := do
  let statements ← statements steps false
  make fun builder => builder.program statements

def State.ofStream (stream : TokenStream) : State :=
  ⟨stream.tokens, stream.ending, 0, {}⟩

/-- Reads a program from tokens: the program or why there is none, and the nodes that were made. -/
def read (stream : TokenStream) : Except Failure Program × Builder :=
  match program (stepsFor stream.tokens.length) (.ofStream stream) with
  | .ok program state => (.ok program, state.builder)
  | .error failure state => (.error failure, state.builder)

def Failure.toDiagnostic : Failure → Diagnostic
  | .rejected error => error.toDiagnostic
  | .exhausted => { title := "TOO FEW STEPS" }

end Grammar

namespace Program

/-- Reads a program from its text: the program or why there is none, and the nodes that were
made. -/
def read (text : String) : Except Grammar.Failure Program × Builder :=
  Grammar.read (.ofText text)

def ofText (text : String) : Except Grammar.Failure Program :=
  (read text).1

end Program
end Scriptlet
