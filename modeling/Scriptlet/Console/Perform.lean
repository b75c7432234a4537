import Scriptlet.Console.Command
import Scriptlet.Console.Prompt
import Scriptlet.Tree.Document
import Scriptlet.Tree.Printer

set_option autoImplicit false

/-!
Doing what a command line asks for: what is written, and the exit code.
-/
namespace Scriptlet

def Usage.toJson (usage : Usage) : Json :=
  .object [("slots", .ofNat usage.slots), ("live", .ofNat usage.live), ("free", .ofNat usage.free),
    ("total_allocations", .ofNat usage.allocations),
    ("total_collections", .ofNat usage.collections), ("total_freed", .ofNat usage.freed),
    ("threshold", .ofNat usage.threshold.toNat)]

namespace Console

structure Outcome where
  code : UInt8 := 0
  output : String := ""
  errors : String := ""

inductive FileError where
  | notFound
  | isDirectory
  | notDirectory
  | notText
  | other (message : String)
  deriving DecidableEq, Repr

def FileError.message : FileError → String
  | .notFound => "No such file or directory (os error 2)"
  | .isDirectory => "Is a directory (os error 21)"
  | .notDirectory => "Not a directory (os error 20)"
  | .notText => "stream did not contain valid UTF-8"
  | .other message => message

/-- What is known besides the command line. -/
structure Surroundings where
  palette : Diagnostic.Palette
  /-- The number of steps that a program may use. -/
  steps : Nat
  /-- The text of the file that the command reads. -/
  file : Except FileError String
  /-- The lines that are typed in. -/
  lines : List String

/-- A failure with a report about the text of a file. -/
def rejected (surroundings : Surroundings) (path source : String) (report : Diagnostic) :
    Outcome where
  code := 1
  errors := report.render surroundings.palette (some source) (some path) ++ "\n"

def runFile (surroundings : Surroundings) (config : Config) (path source : String) : Outcome :=
  let (result, machine) :=
    (Machine.create config).execute surroundings.steps source ScopeChain.global
  let usage := if config.reportUsage then machine.heap.usage.toJson.pretty ++ "\n" else ""
  let outcome : Outcome := match result with
    | .ok _ => {}
    | .error failure => rejected surroundings path source failure.toDiagnostic
  { outcome with output := machine.output, errors := usage ++ outcome.errors }

def listTokens (surroundings : Surroundings) (path source : String) : Outcome :=
  match (TokenStream.ofText source).toExcept with
  | .error error => rejected surroundings path source error.toDiagnostic
  | .ok tokens =>
    let heading := ["Tokens from " ++ path ++ ":", Diagnostic.repeated 50 '─']
    { output := String.join ((heading ++ tokens.map Token.listing).map (· ++ "\n")) }

def showTree (surroundings : Surroundings) (asText : Bool) (path source : String) : Outcome :=
  match Program.ofText source with
  | .error failure => rejected surroundings path source failure.toDiagnostic
  | .ok program =>
    { output := (if asText then program.text else (program.toJson numberDocument).pretty) ++ "\n" }

/-- Does something with the text of a file. -/
def withFile (surroundings : Surroundings) (path : String) (action : String → Outcome) : Outcome :=
  match surroundings.file with
  | .ok source => action source
  | .error error =>
    { code := 1, errors := "Error reading " ++ path ++ ": " ++ error.message ++ "\n" }

def Invocation.perform (invocation : Invocation) (surroundings : Surroundings) : Outcome :=
  match invocation.command with
  | .help => { output := helpText }
  | .usage text => { errors := text ++ "\n" }
  | .run path => withFile surroundings path (runFile surroundings invocation.config path)
  | .listTokens path => withFile surroundings path (listTokens surroundings path)
  | .showTree path asText => withFile surroundings path (showTree surroundings asText path)
  | .prompt =>
    let machine := Machine.create invocation.config
    let reply := session surroundings.palette surroundings.steps machine surroundings.lines
    { output := banner ++ reply.output, errors := reply.errors }

def FlagError.outcome (error : FlagError) : Outcome where
  errors := error.message ++ "\n"

end Console
end Scriptlet
