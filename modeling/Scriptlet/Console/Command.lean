import Scriptlet.Machine.Basic

set_option autoImplicit false

/-!
What a command line asks for. Flags may stand anywhere; the words that are left are the command.
-/
namespace Scriptlet.Console

inductive Command where
  | help
  | usage (text : String)
  | run (path : String)
  | listTokens (path : String)
  | showTree (path : String) (asText : Bool)
  | prompt
  deriving DecidableEq, Repr

structure Invocation where
  command : Command
  config : Config
  deriving DecidableEq, Repr

/-- What is wrong with a flag that takes a number. -/
inductive FlagError where
  | missingNumber (flag : String)
  | malformedNumber (flag : String)
  deriving DecidableEq, Repr

def FlagError.message : FlagError → String
  | .missingNumber flag => "Usage: noop <file> " ++ flag ++ " <n>"
  | .malformedNumber flag => "Error: " ++ flag ++ " expects a non-negative integer."

/-- The number that a word denotes: decimal digits, a plus in front of them or not, below
`2 ^ 64`. -/
def readCount? (word : String) : Option Nat :=
  let cs := word.toList
  let digits := if cs.head? == some '+' then cs.tail else cs
  if digits.isEmpty || !digits.all Char.isDigit then none
  else
    let value := Numeral.digitsValue digits
    if value < Nat.pow 2 64 then some value else none

/-- The number of a flag, the last one if it is given several times, and the other words. -/
def extractCount (flag : String) : List String → Except FlagError (Option Nat × List String)
  | [] => .ok (none, [])
  | [word] => if word == flag then .error (.missingNumber flag) else .ok (none, [word])
  | word :: next :: rest =>
    if word == flag then
      match readCount? next with
      | none => .error (.malformedNumber flag)
      | some count => do
        let (later, others) ← extractCount flag rest
        return (later <|> some count, others)
    else do
      let (count, others) ← extractCount flag (next :: rest)
      return (count, word :: others)

def Command.ofWords (asText : Bool) : List String → Command
  | [] => .help
  | "-h" :: _ => .help
  | "--help" :: _ => .help
  | "help" :: _ => .help
  | "run" :: path :: _ => .run path
  | ["run"] => .usage "Usage: noop run <file>"
  | "tokens" :: path :: _ => .listTokens path
  | ["tokens"] => .usage "Usage: noop tokens <file>"
  | "ast" :: path :: _ => .showTree path asText
  | ["ast"] => .usage "Usage: noop ast [--text] <file>"
  | "repl" :: _ => .prompt
  | path :: _ => .run path

def switches : List String :=
  ["--trace", "--no-gc", "--report-pool", "--text"]

def Invocation.ofArguments (words : List String) : Except FlagError Invocation := do
  let rest := words.filter fun word => !switches.contains word
  let (threshold, rest) ← extractCount "--gc-threshold" rest
  let (depth, rest) ← extractCount "--max-depth" rest
  let standard : Config := {}
  let config := { standard with
    trace := words.contains "--trace"
    disableGc := words.contains "--no-gc"
    reportUsage := words.contains "--report-pool"
    gcThreshold := (threshold.map Nat.toUInt64).getD standard.gcThreshold
    maxCallDepth := depth.getD standard.maxCallDepth }
  return ⟨.ofWords (words.contains "--text") rest, config⟩

def Command.path? : Command → Option String
  | .run path => some path
  | .listTokens path => some path
  | .showTree path _ => some path
  | _ => none

def helpText : String :=
  "\n".intercalate [
    "noop CLI",
    "",
    "Usage:",
    "  noop <file>",
    "  noop run <file>",
    "  noop tokens <file>",
    "  noop ast [--text] <file>",
    "  noop repl",
    "",
    "Flags:",
    "  --trace              Log every evaluated node (tracing, stderr)",
    "  --no-gc              Never reclaim heap slots",
    "  --report-pool        Log pool usage after collections; print it as JSON at exit",
    "  --gc-threshold <n>   Allocations between automatic collections (default: 1024)",
    "  --max-depth <n>      Maximum nested calls (default: 512)",
    "  --text               With `ast`, print parenthesised source instead of JSON",
    "  -h, --help           Show this help message",
    "",
    "Environment:",
    "  RUST_LOG             Overrides the log filter (e.g. RUST_LOG=noop=debug)",
    "  NO_COLOR             Disables colored diagnostics",
    ""]

end Scriptlet.Console
