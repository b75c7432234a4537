import Mathlib
import Scriptlet.Proofs.Grammar.Numbering
import Scriptlet.Proofs.Run.Placement

set_option autoImplicit false

/-!
Lexical scoping. What a session evaluates at any point, it evaluates in a scope inside frames that
were opened for the blocks and functions around it in the text, one for each. A function is called
inside the frame that it was made in, or not at all when that is closed.
-/
namespace Scriptlet.Run

open Eval

theorem undisturbed_readAll (machine : Machine) (texts : List String) :
    Undisturbed machine (readAll machine texts) :=
  undisturbed_foldl undisturbed_read texts machine

/-- The expression or statement that a task evaluates, and the scope. -/
def Task.node? : Task → Option (Node × ScopeId)
  | .expression value scope => some (.expression value, scope)
  | .statement inner scope => some (.statement inner, scope)
  | _ => none

/-- An expression or statement stands in its own code, and has a number. -/
theorem Task.code?_of_node? {task : Task} {node : Node} {scope : ScopeId}
    (node_eq : task.node? = some (node, scope)) :
    ∃ code number, task.code? = some code ∧ code.scope = scope ∧
      (∀ kinds, ⟨node, kinds⟩ ∈ code.sites kinds) ∧ node.number? = some number := by
  cases task with
  | expression value scope =>
    cases node_eq
    refine ⟨_, value.id.index, rfl, rfl, fun kinds => ?_, rfl⟩
    cases value <;> simp [Expression.sites]
  | statement inner scope =>
    cases node_eq
    refine ⟨_, inner.info.id.index, rfl, rfl, fun kinds => ?_, rfl⟩
    cases inner <;> simp [Statement.sites]
  | _ => cases node_eq

section Call

variable (state : State) (closure : Closure) (this : Option Handle) (arguments : List Handle)
  (span : Span)

/-- A call executes the body of the function in a frame that is opened inside its scope: the run
goes on with the body, and evaluation does the same. -/
def EntersBody : Prop :=
  ∃ scope frame entered,
    step state = some ⟨.run (.statements closure.body.statements scope),
      .shallower :: .close scope :: .result :: state.stack, entered⟩ ∧
    (∀ steps, callClosure (steps + 1) closure this arguments span state.machine =
      (afterwards (leaveBody scope) (executeAll steps closure.body.statements scope) >>=
        orUndefined) entered) ∧
    frameIn? entered.scopes.outline scope = some frame ∧
    frame.kind = .function ∧ frame.parent = some closure.scope ∧ frame.this = this ∧
    entered.scopes.outline = state.machine.scopes.outline ++ [frame]

/-- A call fails, in the run and in evaluation, and leaves the machine as it is. -/
def FailsWith (error : RuntimeError) : Prop :=
  step state = some ⟨.stop (.error error), state.stack, state.machine⟩ ∧
  ∀ steps, callClosure (steps + 1) closure this arguments span state.machine =
    .error (.error error) state.machine

end Call

theorem enters_body (closure : Closure) (this : Option Handle) (arguments : List Handle)
    (span : Span) (stack : List Pending) {machine : Machine}
    (isLive : machine.scopes.isLive closure.scope)
    (below : machine.callDepth < machine.config.maxCallDepth) :
    EntersBody ⟨.run (.body closure this arguments span), stack, machine⟩ closure this arguments
      span := by
  obtain ⟨scope, opened, entered, opens, still, step_eq, executes⟩ :=
    step_body closure this arguments span stack isLive below
  have outline_eq := machine.scopes.outline_push closure.scope .function this
  rw [← scopes_openScope opens, ← still.outline] at outline_eq
  have scope_eq : scope = (machine.scopes.push closure.scope .function this).1 := by
    cases opens
    rfl
  refine ⟨scope, _, entered, step_eq, executes, ?_, rfl, rfl, rfl, outline_eq⟩
  rw [outline_eq, scope_eq, ScopeChain.id_push, frameIn?_concat, if_pos rfl]

/-- A call fails if the scope of the function has been closed. -/
theorem fails_exited {state : State} {closure : Closure} {this : Option Handle}
    {arguments : List Handle} {span : Span}
    (control_eq : state.control = .run (.body closure this arguments span))
    (gone : state.machine.scopes.isLive closure.scope = false) :
    FailsWith state closure this arguments span (.scopeExited (closureName closure) span) := by
  obtain ⟨control, stack, machine⟩ := state
  cases control_eq
  refine ⟨step_body_exited closure this arguments span stack gone, fun steps => ?_⟩
  rw [callClosure_succ, gone]
  rfl

/-- A call fails if as many calls as allowed are in progress. -/
theorem fails_deepest (closure : Closure) (this : Option Handle) (arguments : List Handle)
    (span : Span) (stack : List Pending) {machine : Machine}
    (isLive : machine.scopes.isLive closure.scope)
    (deepest : machine.config.maxCallDepth ≤ machine.callDepth) :
    FailsWith ⟨.run (.body closure this arguments span), stack, machine⟩ closure this arguments span
      (.callDepthExceeded machine.config.maxCallDepth span) := by
  refine ⟨step_body_deepest closure this arguments span stack isLive deepest, fun steps => ?_⟩
  rw [callClosure_succ, isLive, if_pos deepest]
  rfl

section InPlace

variable {state : State} {past : List State} {history : ScopeHistory}
  (inPlace : InPlace (state :: past) history state)

include inPlace

/-- The frames around an expression or statement are those of the scopes around it in the text. -/
theorem InPlace.nested {task : Task} (control_eq : state.control = .run task) {node : Node}
    {scope : ScopeId} (node_eq : task.node? = some (node, scope)) :
    ∃ program, Ran (state :: past) program ∧ (∃ site ∈ program.sites, site.node = node) ∧
      ∀ site ∈ program.sites, site.node = node →
        state.machine.scopes.Nested scope site.scopes := by
  obtain ⟨code, number, code_eq, rfl, stands, number_eq⟩ := Task.code?_of_node? node_eq
  obtain ⟨program, ran, kinds, part, enclosed⟩ := (inPlace.directed task control_eq).1 code code_eq
  rw [inPlace.stands.chain_eq] at enclosed
  have member := part (stands kinds)
  refine ⟨program, ran, ⟨_, member, rfl⟩, fun site other same => ?_⟩
  obtain ⟨text, text_eq⟩ := ran.1
  rw [Grammar.site_unique_of_ofText text_eq other member (same ▸ number_eq) number_eq]
  exact enclosed.nested

/-- A call goes on inside the frame that the function was made in, as it was then, if that was open
all the time since; it fails exactly if that was closed at some point. -/
theorem InPlace.called {closure : Closure} {this : Option Handle} {arguments : List Handle}
    {span : Span} (control_eq : state.control = .run (.body closure this arguments span)) :
    ∃ origin since, MadeAt (state :: past) closure origin since ∧
      ((∀ point ∈ since, point.machine.scopes.isLive closure.scope) →
        frameIn? state.machine.scopes.outline closure.scope =
          frameIn? origin.machine.scopes.outline closure.scope ∧
        if state.machine.callDepth < state.machine.config.maxCallDepth then
          EntersBody state closure this arguments span
        else FailsWith state closure this arguments span
          (.callDepthExceeded state.machine.config.maxCallDepth span)) ∧
      ((∃ point ∈ since, point.machine.scopes.isLive closure.scope = false) ↔
        FailsWith state closure this arguments span
          (.scopeExited (closureName closure) span)) := by
  obtain ⟨origin, since, madeAt, same⟩ :=
    ((inPlace.directed _ control_eq).2 closure rfl).origin
  rw [inPlace.stands.chain_eq] at same
  have now : state ∈ since := by
    obtain ⟨earlier, points_eq⟩ := madeAt.split
    obtain ⟨info, evaluated, _⟩ := madeAt.evaluated
    cases since with
    | nil =>
      -- The call is not the point at which the function was made.
      obtain ⟨rfl, _⟩ := List.cons.inj points_eq
      rw [control_eq] at evaluated
      cases evaluated
    | cons point since =>
      obtain ⟨rfl, _⟩ := List.cons.inj points_eq
      exact List.mem_cons_self
  -- If the frame is open now, then it was open all the time.
  have kept (isLive : state.machine.scopes.isLive closure.scope) :
      ∀ point ∈ since ++ [origin], frameIn? state.machine.scopes.outline closure.scope =
        frameIn? point.machine.scopes.outline closure.scope :=
    fun point member => (same point member).resolve_left (inPlace.stands.not_closed isLive)
  obtain ⟨control, stack, machine⟩ := state
  obtain rfl : control = _ := control_eq
  refine ⟨origin, since, madeAt, fun always => ?_, ?_, fun fails => ?_⟩
  · have isLive := always _ now
    refine ⟨kept isLive origin List.mem_concat_self, ?_⟩
    split
    · next below => exact enters_body closure this arguments span stack isLive below
    · next deepest =>
      exact fails_deepest closure this arguments span stack isLive (Nat.le_of_not_lt deepest)
  · rintro ⟨point, member, gone⟩
    apply fails_exited rfl
    cases isLive : machine.scopes.isLive closure.scope with
    | false => rfl
    | true =>
      have same := kept isLive point (List.mem_append_left _ member)
      rw [ScopeChain.isLive_eq_isSome] at gone isLive
      rw [← same] at gone
      exact absurd isLive (gone ▸ Bool.false_ne_true)
  · refine ⟨_, now, ?_⟩
    cases isLive : machine.scopes.isLive closure.scope with
    | false => rfl
    | true =>
      by_cases below : machine.callDepth < machine.config.maxCallDepth
      · obtain ⟨scope, frame, entered, step_eq, _⟩ :=
          enters_body closure this arguments span stack isLive below
        cases step_eq.symm.trans fails.1
      · have step_eq := step_body_deepest closure this arguments span stack isLive
          (Nat.le_of_not_lt below)
        cases step_eq.symm.trans fails.1

end InPlace

/-- A program begins in place on a machine where only the global frame is open. -/
theorem inPlace_start {points : List State} {history : ScopeHistory} {machine reader : Machine}
    (stands : Stands points history [] machine)
    (frames_eq : machine.scopes.outline = ScopeChain.initial.outline)
    (still : Undisturbed machine reader) {text : String} {program : Program}
    (text_eq : Program.ofText text = .ok program) :
    ∃ after, after.opened = history.opened ∧
      InPlace ((Entry.program program ScopeChain.global).start reader :: points) after
        ((Entry.program program ScopeChain.global).start reader) := by
  obtain ⟨after, _⟩ := stands.undisturbed still
  refine ⟨history.rebind reader.scopes, rfl, ⟨after.lawful, after.chain_eq, ?_, trivial⟩, ?_⟩
  · exact fun closure holds => (after.made closure holds).later rfl
  · rintro _ ⟨rfl⟩
    refine ⟨?_, nofun⟩
    rintro _ ⟨rfl⟩
    refine ⟨program, ⟨⟨text, text_eq⟩, reader, List.mem_cons_self⟩, [], List.Subset.refl _, ?_⟩
    show Enclosed reader.scopes.outline ScopeChain.global []
    rw [still.outline, frames_eq]
    exact .global rfl rfl rfl

/-- The points up to one are in order: it is in place, with no more frames opened than counted, and
leaving all that is pending leaves the global frame alone. -/
structure Ordered (points : List State) (state : State) : Prop where
  inPlace : ∃ history, history.opened.length ≤ openings points ∧ InPlace points history state
  unwinds : ∃ base, base.frames = ScopeChain.initial.outline ∧
    Unwinds base state.stack (shape state.machine)

theorem ordered_start {points : List State} {history : ScopeHistory} {machine reader : Machine}
    (stands : Stands points history [] machine)
    (frames_eq : machine.scopes.outline = ScopeChain.initial.outline)
    (still : Undisturbed machine reader) {text : String} {program : Program}
    (text_eq : Program.ofText text = .ok program)
    (counted : history.opened.length ≤
      openings ((Entry.program program ScopeChain.global).start reader :: points)) :
    Ordered ((Entry.program program ScopeChain.global).start reader :: points)
      ((Entry.program program ScopeChain.global).start reader) := by
  obtain ⟨after, same, inPlace⟩ := inPlace_start stands frames_eq still text_eq
  exact ⟨⟨after, same ▸ counted, inPlace⟩, shape reader, still.outline.trans frames_eq, rfl⟩

theorem openings_le (next : State) (points : List State) :
    openings points ≤ openings (next :: points) := by
  cases points with
  | nil => exact Nat.le_refl _
  | cons state past => exact Nat.le_add_left _ _

/-- The run is over when nothing is pending any more. -/
theorem stack_of_over {state : State} (ended : step state = none) : state.stack = [] := by
  obtain ⟨control, _ | ⟨waiting, stack⟩, machine⟩ := state
  · rfl
  · cases control <;> cases ended

theorem Trace.ordered {config : Config} {points : List State} (trace : Trace config points)
    (few : openings points < 2 ^ 32) :
    ∃ state past, points = state :: past ∧ Ordered points state := by
  induction trace with
  | @first texts text program reader read_eq =>
    refine ⟨_, [], rfl, ?_⟩
    have still := (undisturbed_create config).trans <| (undisturbed_readAll _ texts).trans
      (undisturbed_read _ text)
    rw [read_eq] at still
    have stands : Stands [] .initial [] (.bare config) := by
      refine ⟨ScopeHistory.lawful_initial, rfl, fun closure held => ?_, trivial⟩
      exact absurd held (not_stores_bare config _)
    exact ordered_start stands rfl still (ofText_of_read read_eq) (Nat.zero_le _)
  | @again last past trace ended texts text program reader read_eq ih =>
    obtain ⟨_, _, ⟨rfl⟩, ordered⟩ := ih (Nat.lt_of_le_of_lt (openings_le _ _) few)
    refine ⟨_, _, rfl, ?_⟩
    obtain ⟨history, counted, inPlace⟩ := ordered.inPlace
    obtain ⟨base, frames_eq, unwinds⟩ := ordered.unwinds
    have stands := inPlace.stands
    rw [stack_of_over ended] at unwinds stands
    obtain rfl : shape last.machine = base := unwinds
    have still := (undisturbed_readAll last.machine texts).trans (undisturbed_read _ text)
    rw [read_eq] at still
    exact ordered_start stands frames_eq still (ofText_of_read read_eq)
      (Nat.le_trans counted (openings_le _ _))
  | @step state next past trace next_eq ih =>
    obtain ⟨_, _, ⟨rfl⟩, ordered⟩ := ih (Nat.lt_of_le_of_lt (openings_le _ _) few)
    refine ⟨_, _, rfl, ?_⟩
    obtain ⟨history, counted, inPlace⟩ := ordered.inPlace
    obtain ⟨base, frames_eq, unwinds⟩ := ordered.unwinds
    have opened : base.frames ≠ [] := frames_eq ▸ List.cons_ne_nil _ _
    obtain ⟨after, later, placed⟩ := inPlace_step inPlace counted few opened unwinds next_eq
    exact ⟨⟨after, later, placed.later⟩, base, frames_eq, unwinds_step opened unwinds next_eq⟩

/-- The expression or statement that is evaluated at a point stands in a program that was run, and
the walk outward from its scope meets open frames only, one for each block and each function around
it in the text, and the global frame. -/
def EvaluatesInside (points : List State) (state : State) : Prop :=
  ∀ task node scope, state.control = .run task → task.node? = some (node, scope) →
    ∃ program, Ran points program ∧ (∃ site ∈ program.sites, site.node = node) ∧
      ∀ site ∈ program.sites, site.node = node → state.machine.scopes.Nested scope site.scopes

/-- The function that is called at a point was made by a function expression. If the frame in which
that was evaluated has been open ever since, the body is executed in a frame inside it, up to the
limit of the calls; and the call fails with the error of an exited scope exactly if it has been
closed. -/
def CallsInside (points : List State) (state : State) : Prop :=
  ∀ closure this arguments span, state.control = .run (.body closure this arguments span) →
    ∃ origin since, MadeAt points closure origin since ∧
      ((∀ point ∈ since, point.machine.scopes.isLive closure.scope) →
        frameIn? state.machine.scopes.outline closure.scope =
          frameIn? origin.machine.scopes.outline closure.scope ∧
        if state.machine.callDepth < state.machine.config.maxCallDepth then
          EntersBody state closure this arguments span
        else FailsWith state closure this arguments span
          (.callDepthExceeded state.machine.config.maxCallDepth span)) ∧
      ((∃ point ∈ since, point.machine.scopes.isLive closure.scope = false) ↔
        FailsWith state closure this arguments span (.scopeExited (closureName closure) span))

theorem Trace.inside {config : Config} {state : State} {past : List State}
    (trace : Trace config (state :: past)) (few : openings (state :: past) < 2 ^ 32) :
    EvaluatesInside (state :: past) state ∧ CallsInside (state :: past) state := by
  obtain ⟨_, _, ⟨rfl⟩, ordered⟩ := trace.ordered few
  obtain ⟨history, _, inPlace⟩ := ordered.inPlace
  exact ⟨fun task node scope control_eq node_eq => inPlace.nested control_eq node_eq,
    fun closure this arguments span control_eq => inPlace.called control_eq⟩

/-- From a point on, until what is pending there goes on, the run comes to what evaluation comes
to. -/
def Evaluates (state : State) : Task → Prop
  | .expression value scope => ∀ steps,
    Follows state state.stack .handle steps (evaluate steps value scope state.machine)
  | .statement inner scope => ∀ steps,
    Follows state state.stack .completion steps (execute steps inner scope state.machine)
  | .body closure this arguments span => ∀ steps,
    Follows state state.stack .handle steps
      (callClosure steps closure this arguments span state.machine)
  | _ => True

theorem evaluates_of_control {state : State} {task : Task}
    (control_eq : state.control = .run task) :
    Evaluates state task := by
  obtain ⟨control, stack, machine⟩ := state
  cases control_eq
  cases task with
  | expression value scope => exact fun steps => (agrees steps).expression value scope stack machine
  | statement inner scope => exact fun steps => (agrees steps).statement inner scope stack machine
  | body closure this arguments span =>
    exact fun steps => (agrees steps).body closure this arguments span stack machine
  | _ => trivial

/-- A run comes to what executing a text comes to, on the same machine, and it is not over earlier
if that was cut short. -/
def RunsAs (first : State) (steps : Nat) : Except RunFailure Handle × Machine → Prop
  | (.ok handle, after) => Follows first [] Answer.handle steps (.ok handle after)
  | (.error (.stopped stop), after) => Follows first [] Answer.handle steps (.error stop after)
  | (.error (.source _), _) => False

theorem runsAs_execute {machine reader : Machine} {text : String} {program : Program}
    (read_eq : machine.read text = (.ok program, reader)) (steps : Nat) :
    RunsAs ((Entry.program program ScopeChain.global).start reader) steps
      (machine.execute steps text ScopeChain.global) := by
  have follows := (Entry.program program ScopeChain.global).follows reader steps
  rw [Entry.evaluate] at follows
  cases outcome : executeProgram steps program ScopeChain.global reader with
  | ok handle after =>
    rw [outcome] at follows
    have executed : machine.execute steps text ScopeChain.global = (.ok handle, after) := by
      simp only [Machine.execute, Machine.perform, read_eq, outcome, Except.mapError]
    rwa [executed]
  | error stop after =>
    rw [outcome] at follows
    have executed : machine.execute steps text ScopeChain.global =
        (.error (.stopped stop), after) := by
      simp only [Machine.execute, Machine.perform, read_eq, outcome, Except.mapError]
    rwa [executed]

theorem run_execute (machine : Machine) (steps : Nat) (text : String) :
    (machine.run steps text).2 = (machine.execute steps text ScopeChain.global).2 := by
  unfold Machine.run
  rcases machine.execute steps text ScopeChain.global with ⟨failure | handle, after⟩
  · rfl
  · exact textOf_keeps handle after

/-- Whatever a session runs, the run has points that come to what executing the text comes to, and
from which expressions, statements and calls go the way evaluation does. At each point up to which
fewer than `2 ^ 32` frames have been opened in the session, what is evaluated is evaluated inside
the frames of the blocks and functions around it in the text, and what is called is executed inside
the frame it was made in, or fails if that has been closed. -/
theorem session_lexical {config : Config} {machine : Machine} (session : Session config machine)
    {text : String} {program : Program} {reader : Machine}
    (read_eq : machine.read text = (.ok program, reader)) :
    let first := (Entry.program program ScopeChain.global).start reader
    (∀ steps, RunsAs first steps (machine.execute steps text ScopeChain.global) ∧
      (machine.run steps text).2 = (machine.execute steps text ScopeChain.global).2) ∧
    ∀ count, let state := first.after count
      (∀ task, state.control = .run task → Evaluates state task) ∧
      (∃ past, Trace config (state :: past)) ∧
      ∀ past, Trace config (state :: past) → openings (state :: past) < 2 ^ 32 →
        EvaluatesInside (state :: past) state ∧ CallsInside (state :: past) state := by
  intro first
  refine ⟨fun steps => ⟨runsAs_execute read_eq steps, run_execute machine steps text⟩, ?_⟩
  intro count state
  refine ⟨fun task => evaluates_of_control, session.exists_trace read_eq count, ?_⟩
  exact fun past trace few => trace.inside few

/-- A program that calls a function in one block that was made in another one. -/
def escapingProgram : Program :=
  let info (number start stop : Nat) : NodeInfo := ⟨⟨number⟩, ⟨start, stop⟩⟩
  let made : Expression := .function (info 4 13 27) none [] ⟨info 3 25 27, []⟩
  let call : Expression := .call (info 9 33 36) (.identifier (info 8 33 34) "f") []
  ⟨⟨13⟩, ⟨⟨12⟩, [
    .declaration (info 1 0 6) .var [⟨info 0 4 5, "f", none⟩],
    .block ⟨info 7 7 30, [.expression (info 6 9 28)
      (.assignment (info 5 9 27) .assign (.identifier (info 2 9 10) "f") made)]⟩,
    .block ⟨info 11 31 39, [.expression (info 10 33 37) call]⟩]⟩⟩

theorem ofText_escapingProgram :
    Program.ofText "var f; { f = function () {}; } { f(); }" = .ok escapingProgram := by
  cbv

/-- The function that is made in the first block. -/
def escapedClosure : Closure :=
  ⟨none, [], ⟨⟨⟨3⟩, ⟨25, 27⟩⟩, []⟩, ⟨1, 1⟩, ⟨4⟩⟩

/-- The point at which it is called in the second block. -/
def escapingState : State :=
  ((Entry.program escapingProgram ScopeChain.global).start (.create {})).after 36

theorem control_escapingState :
    escapingState.control = .run (.body escapedClosure none [] ⟨33, 36⟩) := by
  cbv

theorem isLive_escapingState :
    escapingState.machine.scopes.isLive ⟨1, 2⟩ ∧
      escapingState.machine.scopes.isLive escapedClosure.scope = false := by
  constructor <;> cbv

/-- The frame of the second block has the place of the one that the function was made in. -/
theorem session_lexical_escapingProgram :
    escapingState.machine.scopes.isLive ⟨1, 2⟩ ∧
    ∃ past origin since, Trace {} (escapingState :: past) ∧
      openings (escapingState :: past) < 2 ^ 32 ∧
      MadeAt (escapingState :: past) escapedClosure origin since ∧
      FailsWith escapingState escapedClosure none [] ⟨33, 36⟩
        (.scopeExited (closureName escapedClosure) ⟨33, 36⟩) ∧
      ∃ point ∈ since, point.machine.scopes.isLive escapedClosure.scope = false := by
  have silent : (Machine.create {}).observed = false := rfl
  have read_eq := read_of_ofText silent ofText_escapingProgram
  have began : Trace {} [(Entry.program escapingProgram ScopeChain.global).start (.create {})] :=
    .first [] read_eq
  have state_eq : ((Entry.program escapingProgram ScopeChain.global).start (.create {})).after 36 =
    escapingState := rfl
  obtain ⟨past, trace, counted⟩ := began.after 36
  obtain ⟨_, points⟩ := session_lexical .create read_eq
  have inside := (points 36).2.2 past
  simp only [state_eq] at trace counted inside
  have few := Nat.lt_of_le_of_lt counted (show 0 + 36 < 2 ^ 32 by decide)
  obtain ⟨origin, since, madeAt, _, exited⟩ :=
    (inside trace few).2 escapedClosure none [] ⟨33, 36⟩ control_escapingState
  have fails := fails_exited control_escapingState isLive_escapingState.2
  exact ⟨isLive_escapingState.1, past, origin, since, trace, few, madeAt, fails, exited.mpr fails⟩

end Scriptlet.Run
