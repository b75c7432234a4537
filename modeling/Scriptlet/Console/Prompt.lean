import Scriptlet.Machine.Run
import Scriptlet.Text.Basic

set_option autoImplicit false

/-!
The interactive prompt: one machine, and one line after the other.
-/
namespace Scriptlet.Console

inductive Line where
  | blank | quit | help | collect | usage | program
  deriving DecidableEq, Repr

/-- What a line asks for. Commands start with a colon; all else is a program. -/
def Line.ofText (line : String) : Line :=
  match String.ofList (Text.trim line.toList) with
  | "" => .blank
  | ":quit" => .quit
  | ":q" => .quit
  | ":help" => .help
  | ":h" => .help
  | ":gc" => .collect
  | ":pool" => .usage
  | _ => .program

structure Reply where
  output : String := ""
  errors : String := ""

def banner : String :=
  "noop REPL v0.0.1 (type :help for help, :quit to exit)\n"

def promptText : String :=
  "noop> "

def promptHelp : String :=
  ":quit, :q   exit\n:gc         collect now\n:pool       show pool usage\n"

/-- Runs a line as a program. What it prints is written before its value. -/
def runLine (palette : Diagnostic.Palette) (steps : Nat) (machine : Machine) (line : String) :
    Reply × Machine :=
  let (result, machine) := machine.run steps line
  let printed := machine.output
  let machine := { machine with output := "" }
  match result with
  | .ok value => ({ output := printed ++ value ++ "\n" }, machine)
  | .error failure =>
    let report := failure.toDiagnostic.render palette (some line) (some "<repl>")
    ({ output := printed, errors := report ++ "\n" }, machine)

def answerLine? (palette : Diagnostic.Palette) (steps : Nat) (machine : Machine) (line : String) :
    Option (Reply × Machine) :=
  match Line.ofText line with
  | .quit => none
  | .blank => some ({}, machine)
  | .help => some ({ output := promptHelp }, machine)
  | .collect =>
    let (report, machine) := machine.collect
    let answer := match report with
      | some report => "freed " ++ toString report.freed ++ " slots\n"
      | none => "gc is disabled\n"
    some ({ output := answer }, machine)
  | .usage => some ({ output := machine.heap.usage.text ++ "\n" }, machine)
  | .program => some (runLine palette steps machine line)

/-- What a session writes for its lines, after its banner. A prompt stands before each line and
before the end. -/
def session (palette : Diagnostic.Palette) (steps : Nat) (machine : Machine) :
    List String → Reply
  | [] => { output := promptText }
  | line :: rest =>
    match answerLine? palette steps machine line with
    | none => { output := promptText }
    | some (reply, machine) =>
      let later := session palette steps machine rest
      { output := promptText ++ reply.output ++ later.output
        errors := reply.errors ++ later.errors }

def splitLines : List UInt8 → List (List UInt8)
  | [] => []
  | byte :: rest =>
    if byte = 10 then [byte] :: splitLines rest
    else match splitLines rest with
      | [] => [[byte]]
      | line :: lines => (byte :: line) :: lines

/-- The lines of some bytes, each with its line feed, up to the first that is no text. -/
def readLines (input : ByteArray) : List String :=
  let lines := (splitLines input.toList).map fun bytes =>
    String.fromUTF8? ⟨bytes.toArray⟩
  (lines.takeWhile Option.isSome).filterMap id

theorem flatten_splitLines (bytes : List UInt8) : (splitLines bytes).flatten = bytes := by
  induction bytes with
  | nil => rfl
  | cons byte rest ih =>
    unfold splitLines
    by_cases ends : byte = 10
    · rw [if_pos ends, List.flatten_cons, ih]
      rfl
    · rw [if_neg ends]
      cases lines_eq : splitLines rest with
      | nil =>
        rw [lines_eq] at ih
        rw [← ih]
        rfl
      | cons line lines =>
        rw [lines_eq] at ih
        show byte :: (line :: lines).flatten = _
        rw [ih]

theorem bytes_of_fromUTF8? {bytes : List UInt8} {text : String}
    (text_eq : String.fromUTF8? ⟨bytes.toArray⟩ = some text) : text.toUTF8.data.toList = bytes := by
  unfold String.fromUTF8? at text_eq
  split at text_eq
  · cases text_eq
    rfl
  · cases text_eq

/-- The lines that are read are the bytes of the input up to the first line that is no text. -/
theorem readLines_bytes (input : ByteArray) :
    ∃ rest, splitLines input.toList = (readLines input).map (·.toUTF8.data.toList) ++ rest ∧
      ∀ line, rest.head? = some line → String.fromUTF8? ⟨line.toArray⟩ = none := by
  unfold readLines
  generalize splitLines input.toList = lines
  induction lines with
  | nil => exact ⟨[], rfl, nofun⟩
  | cons line lines ih =>
    cases text_eq : String.fromUTF8? ⟨line.toArray⟩ with
    | none =>
      refine ⟨line :: lines, ?_, ?_⟩
      · simp [text_eq]
      · intro first first_eq
        cases first_eq
        exact text_eq
    | some text =>
      obtain ⟨rest, lines_eq, missing⟩ := ih
      have bytes_eq := bytes_of_fromUTF8? text_eq
      refine ⟨rest, ?_, missing⟩
      rw [List.map_cons, text_eq]
      show _ = text.toUTF8.data.toList :: _ ++ rest
      rw [bytes_eq, List.cons_append, ← lines_eq]

end Scriptlet.Console
