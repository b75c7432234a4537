import Scriptlet.Proofs.Grammar.Layout
import Scriptlet.Proofs.Grammar.Report
import Scriptlet.Proofs.Run.Calls

set_option autoImplicit false

/-!
Which text a failure is about. A session keeps the functions of the texts that it has run, and with
them the ranges of those texts. So an error that is raised in a function is about the text that the
function was read from, which need not be the one that is run.
-/
namespace Scriptlet

def Closure.ReadFrom (closure : Closure) (text : String) : Prop :=
  ∃ program, Program.ofText text = .ok program ∧ closure.ReadIn program

/-- The ranges of a program lie in the text that it was read from. -/
theorem Program.Shows.within {text : String} {program : Program}
    (read : Program.ofText text = .ok program) {span : Span} (shown : program.Shows span) :
    span.start ≤ span.stop ∧ span.stop ≤ text.length := by
  rcases shown with rfl | ⟨site, member, rfl⟩
  · exact ⟨Nat.le_refl 0, Nat.zero_le _⟩
  · unfold Program.ofText at read
    rcases read_eq : Program.read text with ⟨result, builder⟩
    rw [read_eq] at read
    obtain rfl : result = .ok program := read
    exact (Program.within_of_read read_eq).sites site member

namespace Run

open Eval

/-- The machines of a session, with the texts that were run, the last one first. No run was cut
short. -/
inductive Runs (config : Config) : List String → Machine → Prop where
  | create : Runs config [] (.create config)
  | run {texts : List String} {machine : Machine} (runs : Runs config texts machine) (steps : Nat)
      (text : String) (uncut : (machine.run steps text).1 ≠ .error (.stopped .exhausted)) :
      Runs config (text :: texts) (machine.run steps text).2

theorem Runs.session {config : Config} {texts : List String} {machine : Machine}
    (runs : Runs config texts machine) : Session config machine := by
  induction runs with
  | create => exact .create
  | run _ steps text uncut session => exact .run session steps text uncut

/-- A run is stopping with an error after a step, and was not before. -/
structure Raises (start : State) (count : Nat) (error : RuntimeError) : Prop where
  before : ∀ stop, (start.after count).control ≠ .stop stop
  stopping : ∀ later, count < later → (start.after later).control = .stop (.error error)

theorem Known.mono {texts more : List String} {closure : Closure} (known : Known texts closure)
    (subset : texts ⊆ more) : Known more closure := by
  obtain ⟨text, listed, read⟩ := known
  exact ⟨text, subset listed, read⟩

/-- A run that was stopping and still is has not changed what it stops with. -/
theorem stop_eq_of_step {state : State} {stop : Stop} {error : RuntimeError}
    (control_eq : state.control = .stop stop)
    (stopping : ((step state).getD state).control = .stop (.error error)) :
    stop = .error error := by
  obtain ⟨control, _ | ⟨waiting, stack⟩, machine⟩ := state <;>
    obtain rfl : control = _ := control_eq
  · exact Control.stop.inj stopping
  · have same : waiting.interrupt stop = .stop (.error error) := stopping
    unfold Pending.interrupt at same
    split at same
    · cases same
    · exact Control.stop.inj same

/-- What a run stops with was raised at some step. -/
theorem exists_raises {start : State} (begins : ∀ stop, start.control ≠ .stop stop) {count : Nat}
    {error : RuntimeError} (ended : step (start.after count) = none)
    (stopped : (start.after count).control = .stop (.error error)) :
    ∃ earlier, Raises start earlier error := by
  -- Counting back from the end, one comes to the step at which the run was stopping first.
  have back (count : Nat)
      (stopping : ∀ later, count ≤ later → (start.after later).control = .stop (.error error)) :
      ∃ earlier, Raises start earlier error := by
    induction count with
    | zero => exact absurd (stopping 0 (Nat.le_refl 0)) (begins _)
    | succ count ih =>
      by_cases before : ∃ stop, (start.after count).control = .stop stop
      · obtain ⟨stop, stop_eq⟩ := before
        refine ih fun later le => ?_
        rcases Nat.eq_or_lt_of_le le with rfl | lt
        · have next_eq := stopping (count + 1) (Nat.le_refl _)
          rw [State.after_succ] at next_eq
          rw [stop_eq, stop_eq_of_step stop_eq next_eq]
        · exact stopping later lt
      · exact ⟨count, fun stop stop_eq => before ⟨stop, stop_eq⟩, stopping⟩
  apply back count
  intro later le
  obtain ⟨more, rfl⟩ := Nat.exists_eq_add_of_le le
  rw [State.after_add, State.after_of_over ended]
  exact stopped

/-- At every point of a run the state is in layers. -/
theorem inLayers_after {texts : List String} {program : Program} {machine : Machine}
    (read : ∃ text ∈ texts, Program.ofText text = .ok program)
    (known : ∀ closure, machine.heap.Holds closure → Known texts closure) (count : Nat) :
    let start := (Entry.program program ScopeChain.global).start machine
    ∃ inner outer, InLayers texts program (start.calls count) inner outer (start.after count) := by
  intro start
  induction count with
  | zero =>
    refine ⟨program, [], ⟨rfl, read⟩, trivial, ?_, ?_, known⟩
    · rintro _ ⟨rfl⟩
      refine ⟨?_, nofun⟩
      rintro _ ⟨rfl⟩
      exact ⟨[], List.Subset.refl _⟩
    · rintro _ _ ⟨rfl⟩ ⟨⟩
  | succ count ih =>
    obtain ⟨inner, outer, inLayers⟩ := ih
    rw [State.after_succ, State.calls]
    cases next_eq : step (start.after count) with
    | some next => exact (inLayers.step next_eq).1
    | none =>
      rw [State.called_of_over next_eq]
      exact ⟨inner, outer, inLayers⟩

/-- An error of a run is about the program of the innermost layer where it is raised. -/
theorem Raises.shows {texts : List String} {program : Program} {machine : Machine}
    (read : ∃ text ∈ texts, Program.ofText text = .ok program)
    (known : ∀ closure, machine.heap.Holds closure → Known texts closure) {count : Nat}
    {error : RuntimeError}
    (raises : Raises ((Entry.program program ScopeChain.global).start machine) count error) :
    let start := (Entry.program program ScopeChain.global).start machine
    ∃ inner outer, Layers texts program (start.calls count) (inner :: outer) ∧
      inner.Shows error.span := by
  intro start
  obtain ⟨inner, outer, inLayers⟩ := inLayers_after read known count
  have stops := raises.stopping (count + 1) (Nat.lt_succ_self count)
  rw [State.after_succ] at stops
  refine ⟨inner, outer, inLayers.layers, ?_⟩
  cases next_eq : step (start.after count) with
  | none =>
    rw [next_eq] at stops
    exact absurd stops (raises.before _)
  | some next =>
    rw [next_eq] at stops
    exact (inLayers.step next_eq).2 raises.before error stops

section Runs

variable {config : Config} {texts : List String} {machine : Machine}

/-- The functions that a session has were read from the texts that it has run. -/
theorem Runs.known (runs : Runs config texts machine) (closure : Closure)
    (holds : machine.heap.Holds closure) : Known texts closure := by
  induction runs generalizing closure with
  | create =>
    exact absurd ((undisturbed_create config).holds closure holds) (not_stores_bare config _)
  | @run texts machine runs steps text uncut ih =>
    have reading := undisturbed_read machine text
    have earlier (closure : Closure) (held : (machine.read text).2.heap.Holds closure) :
        Known (text :: texts) closure :=
      (ih closure (reading.holds closure held)).mono (List.subset_cons_self text texts)
    rcases run_cases machine steps text with ⟨failure, reader, read_eq, run_eq⟩ |
      ⟨program, reader, read_eq, ⟨handle, after, outcome, run_eq⟩ | ⟨stop, after, outcome, run_eq⟩⟩
    all_goals rw [run_eq] at holds uncut; rw [read_eq] at earlier
    · exact earlier closure holds
    all_goals
      let entry : Entry := .program program ScopeChain.global
      have read : ∃ source ∈ text :: texts, Program.ofText source = .ok program :=
        ⟨text, List.mem_cons_self, ofText_of_read read_eq⟩
    · obtain ⟨count, reached⟩ := (entry.reaches_handle_iff reader handle after).mpr ⟨steps, outcome⟩
      obtain ⟨inner, outer, inLayers⟩ := inLayers_after read earlier count
      rw [reached] at inLayers
      exact inLayers.known closure holds
    · have uncut : stop ≠ .exhausted := by
        rintro rfl
        exact uncut rfl
      obtain ⟨count, reached⟩ :=
        (entry.reaches_stop_iff reader uncut after).mpr ⟨steps, outcome⟩
      obtain ⟨inner, outer, inLayers⟩ := inLayers_after read earlier count
      rw [reached] at inLayers
      exact inLayers.known closure holds

/-- A text that is not read is reported for a part of it. -/
theorem within_of_run {steps : Nat} {text : String} {cause : Grammar.Failure}
    (failed : (machine.run steps text).1 = .error (.source cause)) :
    (RunFailure.source cause).toDiagnostic.Within text.length := by
  rcases run_cases machine steps text with ⟨failure, reader, read_eq, run_eq⟩ |
    ⟨program, reader, read_eq, ⟨handle, after, outcome, run_eq⟩ | ⟨stop, after, outcome, run_eq⟩⟩
  all_goals rw [run_eq] at failed
  · cases failed
    exact Program.within_of_ofText (ofText_of_read read_eq)
  · cases value_eq : (after.perform (textOf handle)).1 <;> rw [value_eq] at failed <;> cases failed
  · cases failed

/-- A run that fails with an error of the program has raised it at some step. -/
theorem exists_raises_of_run {steps : Nat} {text : String} {error : RuntimeError}
    (failed : (machine.run steps text).1 = .error (.stopped (.error error))) :
    ∃ program count, Program.ofText text = .ok program ∧
      Raises ((Entry.program program ScopeChain.global).start (machine.read text).2) count
        error := by
  rcases run_cases machine steps text with ⟨failure, reader, read_eq, run_eq⟩ |
    ⟨program, reader, read_eq, ⟨handle, after, outcome, run_eq⟩ | ⟨found, after, outcome, run_eq⟩⟩
  all_goals rw [run_eq] at failed
  · cases failed
  · -- Reading the text of a value stops for a free slot at most.
    cases read_value : textOf handle after with
    | ok value last =>
      rw [Machine.perform, read_value] at failed
      cases failed
    | error found last =>
      rw [Machine.perform, read_value] at failed
      cases failed
      exact absurd read_value ((ordinary_textOf handle).elementary.ne_error after error last)
  · cases failed
    let entry : Entry := .program program ScopeChain.global
    have uncut : Stop.error error ≠ .exhausted := Stop.noConfusion
    obtain ⟨count, reached⟩ := (entry.reaches_stop_iff reader uncut after).mpr ⟨steps, outcome⟩
    have begins (stop : Stop) : (entry.start reader).control ≠ .stop stop := Control.noConfusion
    obtain ⟨earlier, raises⟩ := Run.exists_raises begins (by rw [reached]; rfl) (by rw [reached])
    rw [read_eq]
    exact ⟨program, earlier, ofText_of_read read_eq, raises⟩

/-- A failure of a run is about a part of a text. If the text that is run is not read, or if the
error is raised when no function is in progress, then it is about that text; otherwise it is about
the text that the innermost function in progress was read from, this one or an earlier one. Only
with more slots than handles can name may a run stop for a free slot instead. -/
theorem Runs.failure_located (runs : Runs config texts machine) (steps : Nat) (text : String)
    {failure : RunFailure} (failed : (machine.run steps text).1 = .error failure)
    (uncut : failure ≠ .stopped .exhausted) :
    (∃ cause, failure = .source cause ∧ failure.toDiagnostic.Within text.length) ∨
    (∃ program error count,
      let start := (Entry.program program ScopeChain.global).start (machine.read text).2
      Program.ofText text = .ok program ∧ failure = .stopped (.error error) ∧
      Raises start count error ∧
      match start.calls count with
      | [] => failure.toDiagnostic.Within text.length
      | closure :: _ => ∃ source ∈ text :: texts, closure.ReadFrom source ∧
        failure.toDiagnostic.Within source.length) ∨
    ∃ access handle, failure = .stopped (.freeSlot access handle) ∧
      2 ^ 32 < (machine.run steps text).2.heap.slotCount := by
  rcases failure with cause | error | ⟨access, handle⟩ | _
  · exact .inl ⟨cause, rfl, within_of_run failed⟩
  · obtain ⟨program, count, text_eq, raises⟩ := exists_raises_of_run failed
    refine .inr (.inl ⟨program, error, count, text_eq, rfl, raises, ?_⟩)
    have known (closure : Closure) (held : (machine.read text).2.heap.Holds closure) :
        Known (text :: texts) closure :=
      (runs.known closure ((undisturbed_read machine text).holds closure held)).mono
        (List.subset_cons_self text texts)
    obtain ⟨inner, outer, layers, shown⟩ :=
      raises.shows ⟨text, List.mem_cons_self, text_eq⟩ known
    obtain ⟨source, listed, source_eq⟩ := layers.read
    have within {source : String} (read : Program.ofText source = .ok inner) :
        (RunFailure.stopped (.error error)).toDiagnostic.Within source.length :=
      ⟨error.span, rfl, shown.within read⟩
    split
    · rename_i calls_eq
      rw [calls_eq] at layers
      obtain ⟨rfl, _⟩ := List.cons.inj layers.1
      exact within text_eq
    · rename_i closure calls calls_eq
      rw [calls_eq] at layers
      obtain ⟨_, _, same, function, _, _⟩ := layers
      obtain ⟨rfl, _⟩ := List.cons.inj same
      exact ⟨source, listed, ⟨inner, source_eq, function.read⟩, within source_eq⟩
  · refine .inr (.inr ⟨access, handle, rfl, Nat.lt_of_not_le fun room => ?_⟩)
    exact runs.session.sound room access handle failed
  · exact absurd rfl uncut

end Runs

/-- A program that makes a function which reads a name that is bound nowhere. -/
def makingProgram : Program :=
  let info (number start stop : Nat) : NodeInfo := ⟨⟨number⟩, ⟨start, stop⟩⟩
  let reading : Expression := .identifier (info 0 21 28) "missing"
  let body : Block := ⟨info 2 19 31, [.expression (info 1 21 29) reading]⟩
  ⟨⟨7⟩, ⟨⟨6⟩, [.declaration (info 5 0 32) .var
    [⟨info 4 4 31, "f", some (.function (info 3 8 31) none [] body)⟩]]⟩⟩

def callingProgram : Program :=
  let info (number start stop : Nat) : NodeInfo := ⟨⟨number⟩, ⟨start, stop⟩⟩
  ⟨⟨4⟩, ⟨⟨3⟩, [.expression (info 2 0 4) (.call (info 1 0 3) (.identifier (info 0 0 1) "f") [])]⟩⟩

theorem ofText_makingProgram :
    Program.ofText "var f = function() { missing; };" = .ok makingProgram := by
  cbv

theorem ofText_callingProgram : Program.ofText "f();" = .ok callingProgram := by
  cbv

/-- The machine of a session that has run the first of the two programs. -/
def madeMachine : Machine :=
  (((Entry.program makingProgram ScopeChain.global).start (.create {})).after 12).machine

theorem run_makingProgram : (Machine.create {}).run 40 "var f = function() { missing; };" =
    (.ok "undefined", madeMachine) := by
  rw [Machine.run, Machine.execute, read_of_ofText rfl ofText_makingProgram]
  rfl

theorem run_callingProgram : ∃ steps, (madeMachine.run steps "f();").1 =
    .error (.stopped (.error (.undefinedReference "missing" ⟨21, 28⟩))) := by
  let entry : Entry := .program callingProgram ScopeChain.global
  let last := (entry.start madeMachine).after 30
  have stopped : last.control = .stop (.error (.undefinedReference "missing" ⟨21, 28⟩)) := by rfl
  have ended : last.stack = [] := by rfl
  have reached : Reaches (entry.start madeMachine)
      ⟨.stop (.error (.undefinedReference "missing" ⟨21, 28⟩)), [], last.machine⟩ :=
    ⟨30, by rw [← stopped, ← ended]⟩
  have uncut : Stop.error (.undefinedReference "missing" ⟨21, 28⟩) ≠ .exhausted := nofun
  obtain ⟨steps, outcome⟩ := (entry.reaches_stop_iff madeMachine uncut _).mp reached
  have executed : executeProgram steps callingProgram ScopeChain.global madeMachine = _ := outcome
  refine ⟨steps, ?_⟩
  rw [Machine.run, Machine.execute, read_of_ofText rfl ofText_callingProgram]
  simp only [Machine.perform, executed, Except.mapError]

/-- The error of the function is about the text that it was read from, and no part of the text that
is run. -/
theorem Runs.failure_located_function :
    let failure : RunFailure := .stopped (.error (.undefinedReference "missing" ⟨21, 28⟩))
    Runs {} ["var f = function() { missing; };"] madeMachine ∧
      (∃ steps, (madeMachine.run steps "f();").1 = .error failure) ∧
      ¬ failure.toDiagnostic.Within "f();".length ∧
      ∃ closure : Closure, ∃ source ∈ ["f();", "var f = function() { missing; };"],
        closure.ReadFrom source ∧ failure.toDiagnostic.Within source.length := by
  intro failure
  have runs : Runs {} ["var f = function() { missing; };"] madeMachine := by
    have first : Runs {} [] (.create {}) := .create
    have made := first.run 40 "var f = function() { missing; };" (by rw [run_makingProgram]; nofun)
    rwa [run_makingProgram] at made
  obtain ⟨steps, failed⟩ := run_callingProgram
  have outside : ¬ failure.toDiagnostic.Within "f();".length := by
    rintro ⟨span, ⟨rfl⟩, _, inside⟩
    exact absurd inside (by decide)
  refine ⟨runs, ⟨steps, failed⟩, outside, ?_⟩
  rcases runs.failure_located steps "f();" failed nofun with ⟨cause, same, _⟩ |
    ⟨program, error, count, _, _, _, located⟩ | ⟨access, handle, same, _⟩
  · cases same
  · split at located
    · exact absurd located outside
    · rename_i closure calls calls_eq
      exact ⟨closure, located⟩
  · cases same

end Run
end Scriptlet
