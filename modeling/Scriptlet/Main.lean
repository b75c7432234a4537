import Scriptlet.Console.Perform

set_option autoImplicit false

/-!
The command line.
-/
namespace Scriptlet.Console

/-- The number of steps that a program may use. -/
def stepLimit : Nat :=
  Nat.pow 2 62

def readFile (path : String) : IO (Except FileError String) := do
  try
    let bytes ← IO.FS.readBinFile path
    return (String.fromUTF8? bytes).elim (.error .notText) .ok
  catch
    | .noFileOrDirectory .. => return .error .notFound
    | error => return .error (.other (toString error))

/-- Answers lines until the session or the input ends. -/
partial def serve (palette : Diagnostic.Palette) (machine : Machine) : IO Unit := do
  IO.print promptText
  (← IO.getStdout).flush
  let line ← try (← IO.getStdin).getLine catch _ => pure ""
  if line.isEmpty then
    return
  match answerLine? palette stepLimit machine line with
  | none => return
  | some (reply, machine) =>
    IO.print reply.output
    IO.eprint reply.errors
    serve palette machine

/-- Does what the words of a command line ask for. -/
def start (words : List String) : IO UInt32 := do
  let palette := if (← IO.getEnv "NO_COLOR").isSome then .plain else .colored
  match Invocation.ofArguments words with
  | .error error =>
    IO.eprint error.outcome.errors
    return 0
  | .ok ⟨.prompt, config⟩ =>
    IO.print banner
    serve palette (.create config)
    return 0
  | .ok invocation =>
    let file ← invocation.command.path?.elim (pure (.error .notFound)) readFile
    let outcome := invocation.perform ⟨palette, stepLimit, file, []⟩
    IO.print outcome.output
    IO.eprint outcome.errors
    return outcome.code.toUInt32

end Scriptlet.Console

def main (words : List String) : IO UInt32 :=
  Scriptlet.Console.start words
