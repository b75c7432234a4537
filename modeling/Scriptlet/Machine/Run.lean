import Scriptlet.Grammar.Program
import Scriptlet.Machine.Evaluate

set_option autoImplicit false

/-!
Machines from the start of a session on: making one, running programs, and what a host can do.
-/
namespace Scriptlet

namespace Eval

def executeProgram (steps : Nat) (program : Program) (scope : ScopeId) : Eval Handle := do
  let mark ← rootMark
  let completion ← afterwards (fun machine => (machine.release mark).recordUsage) do
    visit ⟨program.id, ⟨0, 0⟩⟩ .program
    visit ⟨program.body.id, ⟨0, 0⟩⟩ .body
    executeAll steps program.body.statements scope
  orUndefined completion

end Eval

namespace Machine

def bare (config : Config) : Machine where
  config
  heap := (Heap.withThreshold config.gcThreshold).setEnabled (!config.disableGc)
  scopes := .initial
  roots := []
  callDepth := 0
  output := ""
  observed := false
  events := #[]

/-- Binds a name in the global scope to a new value. -/
def define (machine : Machine) (name : String) (value : Value) : Handle × Machine :=
  let (handle, heap) := machine.heap.alloc value
  (handle, { machine with heap, scopes := machine.scopes.declare ScopeChain.global name handle })

def defineNative (machine : Machine) (name : String) (operation : Native) : Handle × Machine :=
  machine.define name (.native name operation)

/-- A machine with the natives that every machine has. -/
def create (config : Config) : Machine :=
  Native.installed.foldl (fun machine entry => (machine.defineNative entry.1 entry.2).2)
    (.bare config)

def global? (machine : Machine) (name : String) : Option Value :=
  (machine.scopes.lookup? ScopeChain.global name).bind machine.heap.get?

def observe (machine : Machine) : Machine :=
  { machine with observed := true }

/-- Tells an observer which nodes were made while a text was read. -/
def recordNodes (machine : Machine) (builder : Builder) : Machine :=
  if machine.observed then
    builder.created.toList.zipIdx.foldl
      (fun machine (kind, index) => machine.record (.nodeCreated ⟨index⟩ kind)) machine
  else machine

end Machine

inductive RunFailure where
  | source (failure : Grammar.Failure)
  | stopped (stop : Stop)

def Stop.toDiagnostic : Stop → Diagnostic
  | .error cause => cause.toDiagnostic
  | .freeSlot _ handle => { title := "FREE SLOT", message := some handle.text }
  | .exhausted => { title := "TOO FEW STEPS" }

def Stop.summary : Stop → String
  | .error cause => cause.summary
  | stop => stop.toDiagnostic.summary

namespace RunFailure

def toDiagnostic : RunFailure → Diagnostic
  | .source failure => failure.toDiagnostic
  | .stopped stop => stop.toDiagnostic

def summary : RunFailure → String
  | .source failure => failure.toDiagnostic.summary
  | .stopped stop => stop.summary

end RunFailure

namespace Machine

def perform {α : Type} (machine : Machine) (action : Eval α) : Except Stop α × Machine :=
  match action machine with
  | .ok value machine => (.ok value, machine)
  | .error stop machine => (.error stop, machine)

def read (machine : Machine) (text : String) : Except Grammar.Failure Program × Machine :=
  let (result, builder) := Program.read text
  let machine := machine.recordNodes builder
  match result with
  | .ok program => (.ok program, machine.record (.parsed builder.nodeCount))
  | .error failure => (.error failure, machine)

def execute (machine : Machine) (steps : Nat) (text : String) (scope : ScopeId) :
    Except RunFailure Handle × Machine :=
  match machine.read text with
  | (.error failure, machine) => (.error (.source failure), machine)
  | (.ok program, machine) =>
    let (result, machine) := machine.perform (Eval.executeProgram steps program scope)
    (result.mapError .stopped, machine)

/-- Runs a text in the global scope: the text of its value, `NaN` if it has none. -/
def run (machine : Machine) (steps : Nat) (text : String) : Except RunFailure String × Machine :=
  match machine.execute steps text ScopeChain.global with
  | (.error failure, machine) => (.error failure, machine)
  | (.ok handle, machine) =>
    let (result, machine) := machine.perform (Eval.textOf handle)
    ((result.map (·.getD "NaN")).mapError .stopped, machine)

end Machine
end Scriptlet
