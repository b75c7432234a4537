import Scriptlet.Proofs.Run.Placement
import Scriptlet.Proofs.Run.Ranges

set_option autoImplicit false

/-!
The functions in progress at a point of a run, and the programs that they were read with. What is
pending lies in layers, one for each function in progress and one for the run itself. The code of a
layer is a part of one program, and the ranges that it reports are ranges of that program.
-/
namespace Scriptlet

def Closure.ReadIn (closure : Closure) (program : Program) : Prop :=
  ∃ info kinds, ⟨.expression (.function info closure.name closure.params closure.body), kinds⟩ ∈
    program.sites ∧ info.id = closure.node

namespace Run

open Eval

/-- The functions in progress after a step, innermost first, given those before it. The body of a
function is entered, or left with a value or with an error. -/
def State.called (state : State) (calls : List Closure) : List Closure :=
  match state.control, state.stack, step state with
  | .run (.body closure _ _ _), _, some ⟨.run _, _, _⟩ => closure :: calls
  | .give _, .shallower :: _, _ | .stop _, .shallower :: _, _ => calls.tail
  | _, _, _ => calls

/-- The functions in progress after a number of steps from the start of a run. -/
def State.calls (start : State) : Nat → List Closure
  | 0 => []
  | count + 1 => (start.after count).called (start.calls count)

/-- A function was read with a program, and its body is a part of that. -/
structure FunctionOf (program : Program) (closure : Closure) : Prop where
  read : closure.ReadIn program
  body : CodeOf program (some (bodyCode closure))

/-- A function was read from one of some texts. -/
def Known (texts : List String) (closure : Closure) : Prop :=
  ∃ text ∈ texts, ∃ program, Program.ofText text = .ok program ∧ FunctionOf program closure

/-- The programs of the layers, innermost first. They were read from some texts, each function in
progress with one of them, and the last one is that of the run. -/
def Layers (texts : List String) (main : Program) : List Closure → List Program → Prop
  | [], programs => programs = [main] ∧ ∃ text ∈ texts, Program.ofText text = .ok main
  | closure :: calls, programs =>
    ∃ program outer, programs = program :: outer ∧ FunctionOf program closure ∧
      (∃ text ∈ texts, Program.ofText text = .ok program) ∧ Layers texts main calls outer

def StackOf : List Program → List Pending → Prop
  | [], _ => False
  | _ :: _, [] => True
  | program :: outer, waiting :: stack =>
    waiting.Of program ∧ StackOf (if waiting.returns then outer else program :: outer) stack

theorem not_stackOf_nil (stack : List Pending) : ¬ StackOf [] stack := by
  cases stack <;> exact id

theorem StackOf.append {program : Program} {outer : List Program} {stack pending : List Pending}
    (of : StackOf (program :: outer) stack)
    (more : ∀ waiting ∈ pending, waiting.returns = false ∧ waiting.Of program) :
    StackOf (program :: outer) (pending ++ stack) := by
  induction pending with
  | nil => exact of
  | cons waiting pending ih =>
    obtain ⟨⟨stays, here⟩, others⟩ := List.forall_mem_cons.mp more
    refine ⟨here, ?_⟩
    rw [stays]
    exact ih others

/-- A state is in layers: what is done next is of the program of the innermost one, and what is
pending of those of all. Every function in the heap was read from one of some texts. -/
structure InLayers (texts : List String) (main : Program) (calls : List Closure)
    (program : Program) (outer : List Program) (state : State) : Prop where
  layers : Layers texts main calls (program :: outer)
  stack : StackOf (program :: outer) state.stack
  task : ∀ task, state.control = .run task → task.Of program
  entered : ∀ task closure, state.control = .run task → task.closure? = some closure →
    Known texts closure
  known : ∀ closure, state.machine.heap.Holds closure → Known texts closure

section Step

variable {texts : List String} {main program : Program} {calls : List Closure}
  {outer : List Program}

/-- Where no task is to be begun, only what is pending and what is in the heap matter. -/
theorem InLayers.idle {state : State} (layers : Layers texts main calls (program :: outer))
    (stackOf : StackOf (program :: outer) state.stack) (idle : ∀ task, state.control ≠ .run task)
    (known : ∀ closure, state.machine.heap.Holds closure → Known texts closure) :
    InLayers texts main calls program outer state where
  layers := layers
  stack := stackOf
  task task same := absurd same (idle task)
  entered task _ same := absurd same (idle task)
  known := known

/-- Work that is confined to code of the innermost layer, and reports ranges of its program, goes
on in the same layers. -/
theorem InLayers.settle {code? : Option Code} {work : Eval Next} {stack : List Pending}
    {machine : Machine} (confined : Confined code? work) (reports : Reports program work)
    (of : CodeOf program code?) (layers : Layers texts main calls (program :: outer))
    (stackOf : StackOf (program :: outer) stack)
    (known : ∀ closure, machine.heap.Holds closure → Known texts closure) :
    InLayers texts main calls program outer (Run.settle stack (work machine)) ∧
      ∀ error, (Run.settle stack (work machine)).control = .stop (.error error) →
        program.Shows error.span := by
  have kept := confined machine
  have reported := reports machine
  cases result : work machine with
  | ok next after =>
    obtain ⟨control, pending⟩ := next
    rw [result] at kept reported
    obtain ⟨still, fits, rests⟩ := kept
    obtain ⟨goes, here, later⟩ := reported
    refine ⟨⟨layers, stackOf.append fun waiting member => ?_, fun task task_eq => ?_,
      fun task closure task_eq called => ?_, fun closure holds => ?_⟩, fun error stops => ?_⟩
    · obtain ⟨stays, shown⟩ := later waiting member
      exact ⟨stays, of.part (rests waiting member).1, shown⟩
    · exact ⟨of.part (fits task task_eq).1, here task task_eq⟩
    · exact known closure ((fits task task_eq).2 closure called)
    · exact known closure (still.holds closure holds)
    · exact absurd stops (goes _)
  | error stop after =>
    rw [result] at kept reported
    refine ⟨.idle layers stackOf (fun _ => Control.noConfusion) fun closure holds => ?_,
      fun error stops => ?_⟩
    · exact known closure (kept.holds closure holds)
    · exact reported error (Control.stop.inj stops)

theorem State.called_of_task {state : State} {task : Task} (control_eq : state.control = .run task)
    (other : task.closure? = none) : state.called calls = calls := by
  obtain ⟨control, stack, machine⟩ := state
  cases control_eq
  cases task with
  | body => cases other
  | _ => rfl

/-- A function is in progress once its body is entered. -/
theorem State.called_of_entered {closure : Closure} {this : Option Handle}
    {arguments : List Handle} {span : Span} {stack later : List Pending} {machine after : Machine}
    {task : Task}
    (next_eq : Run.step ⟨.run (.body closure this arguments span), stack, machine⟩ =
      some ⟨.run task, later, after⟩) :
    State.called ⟨.run (.body closure this arguments span), stack, machine⟩ calls =
      closure :: calls := by
  simp only [State.called, next_eq]

theorem State.called_of_refused {closure : Closure} {this : Option Handle}
    {arguments : List Handle} {span : Span} {stack later : List Pending} {machine after : Machine}
    {stop : Stop}
    (next_eq : Run.step ⟨.run (.body closure this arguments span), stack, machine⟩ =
      some ⟨.stop stop, later, after⟩) :
    State.called ⟨.run (.body closure this arguments span), stack, machine⟩ calls = calls := by
  simp only [State.called, next_eq]

theorem State.called_of_over {state : State} (ended : Run.step state = none) :
    state.called calls = calls := by
  obtain ⟨control, _ | ⟨waiting, stack⟩, machine⟩ := state <;> cases control <;>
    first | rfl | cases ended

/-- The program of the innermost layer was read from one of the texts. -/
theorem Layers.read (layers : Layers texts main calls (program :: outer)) :
    ∃ text ∈ texts, Program.ofText text = .ok program := by
  cases calls with
  | nil =>
    obtain ⟨same, read⟩ := layers
    obtain ⟨rfl, _⟩ := List.cons.inj same
    exact read
  | cons closure calls =>
    obtain ⟨_, _, same, _, read, _⟩ := layers
    obtain ⟨rfl, _⟩ := List.cons.inj same
    exact read

/-- When a wait is over, a function is left exactly if it was for its body. -/
theorem State.called_of_answer {state : State} {waiting : Pending} {stack : List Pending}
    (stack_eq : state.stack = waiting :: stack) (settled : ∀ task, state.control ≠ .run task) :
    state.called calls = if waiting.returns then calls.tail else calls := by
  obtain ⟨control, _, machine⟩ := state
  cases stack_eq
  cases control with
  | run task => exact absurd rfl (settled task)
  | give | stop => cases waiting <;> rfl

/-- When the body of a function is left, so is its layer. -/
theorem Layers.leave {stack : List Pending} (layers : Layers texts main calls (program :: outer))
    (stackOf : StackOf outer stack) :
    ∃ caller rest, outer = caller :: rest ∧ Layers texts main calls.tail (caller :: rest) := by
  cases outer with
  | nil => exact absurd stackOf (not_stackOf_nil stack)
  | cons caller rest =>
    refine ⟨caller, rest, rfl, ?_⟩
    cases calls with
    | nil => cases layers.1
    | cons closure calls =>
      obtain ⟨_, _, same, _, _, others⟩ := layers
      obtain ⟨rfl, rfl⟩ := List.cons.inj same
      exact others

variable {state next : State} (inLayers : InLayers texts main calls program outer state)

include inLayers

/-- A function that is made is read with the program of the innermost layer. -/
theorem InLayers.made {info : NodeInfo} {name : Option String} {params : List String}
    {body : Block} {scope : ScopeId}
    (control_eq : state.control = .run (.expression (.function info name params body) scope))
    (next_eq : step state = some next) :
    InLayers texts main calls program outer next ∧ ∀ stop, next.control ≠ .stop stop := by
  obtain ⟨control, stack, machine⟩ := state
  obtain rfl : control = _ := control_eq
  obtain ⟨layers, stackOf, task, _, known⟩ := inLayers
  obtain ⟨handle, after, begin_eq, _, _, holds⟩ :=
    begin_function info name params body scope machine
  rw [step, begin_eq] at next_eq
  cases next_eq
  refine ⟨.idle layers stackOf (fun _ => Control.noConfusion) fun closure held => ?_,
    fun _ => Control.noConfusion⟩
  rcases holds closure held with before | rfl
  · exact known closure before
  · obtain ⟨text, listed, read⟩ := layers.read
    obtain ⟨kinds, inside⟩ := (task _ rfl).code _ rfl
    refine ⟨text, listed, program, read, ⟨info, kinds, inside ?_, rfl⟩, ?_⟩
    · simp [Expression.sites]
    · rintro _ ⟨rfl⟩
      refine ⟨kinds, fun site member => inside ?_⟩
      cases body
      exact List.mem_append_left _ member

/-- A block is executed in the layer that it is in. -/
theorem InLayers.block {block : Block} {scope : ScopeId}
    (control_eq : state.control = .run (.statement (.block block) scope))
    (next_eq : step state = some next) :
    InLayers texts main calls program outer next ∧ ∀ stop, next.control ≠ .stop stop := by
  obtain ⟨control, stack, machine⟩ := state
  obtain rfl : control = _ := control_eq
  obtain ⟨layers, stackOf, task, _, known⟩ := inLayers
  obtain ⟨visited, inner, opened, still, opens, step_eq⟩ := step_block block scope stack machine
  rw [step_eq] at next_eq
  cases next_eq
  refine ⟨⟨layers, ⟨⟨nofun, nofun⟩, stackOf⟩, ?_, ?_, fun closure holds => ?_⟩, nofun⟩
  · rintro _ ⟨rfl⟩
    refine ⟨?_, nofun⟩
    rintro _ ⟨rfl⟩
    obtain ⟨kinds, inside⟩ := (task _ rfl).code _ rfl
    refine ⟨.block :: kinds, fun site member => inside ?_⟩
    cases block
    exact List.mem_append_left _ member
  · rintro _ _ ⟨rfl⟩ ⟨⟩
  · have before : visited.heap.Holds closure := by
      rw [← heap_openScope opens]
      exact holds
    exact known closure (still.holds closure before)

/-- The body of a function is entered in a layer of its own. If it is not entered, then that is
reported for the call. -/
theorem InLayers.body {closure : Closure} {this : Option Handle} {arguments : List Handle}
    {span : Span} (control_eq : state.control = .run (.body closure this arguments span))
    (next_eq : step state = some next) :
    (∃ inner rest, InLayers texts main (state.called calls) inner rest next) ∧
      ∀ error, next.control = .stop (.error error) → program.Shows error.span := by
  obtain ⟨control, stack, machine⟩ := state
  obtain rfl : control = _ := control_eq
  obtain ⟨layers, stackOf, task, entered, known⟩ := inLayers
  have shown : program.Shows span := (task _ rfl).spans span List.mem_cons_self
  -- The error is raised by the call, so that its range is one of the call.
  have refused {error : RuntimeError} (span_eq : error.span = span)
      (stops : step ⟨.run (.body closure this arguments span), stack, machine⟩ =
        some ⟨.stop (.error error), stack, machine⟩)
      (same : next = ⟨.stop (.error error), stack, machine⟩) :
      (∃ inner rest, InLayers texts main
        (State.called ⟨.run (.body closure this arguments span), stack, machine⟩ calls) inner rest
        next) ∧
        ∀ error, next.control = .stop (.error error) → program.Shows error.span := by
    subst same
    rw [State.called_of_refused stops]
    refine ⟨⟨program, outer, .idle layers stackOf (fun _ => Control.noConfusion) known⟩, ?_⟩
    rintro _ ⟨rfl⟩
    exact span_eq ▸ shown
  cases isLive : machine.scopes.isLive closure.scope with
  | false =>
    have stops := step_body_exited closure this arguments span stack isLive
    exact refused rfl stops (Option.some.inj (next_eq.symm.trans stops))
  | true =>
    by_cases deepest : machine.config.maxCallDepth ≤ machine.callDepth
    · have stops := step_body_deepest closure this arguments span stack isLive deepest
      exact refused rfl stops (Option.some.inj (next_eq.symm.trans stops))
    · obtain ⟨scope, opened, after, opens, still, step_eq, _⟩ :=
        step_body closure this arguments span stack isLive (Nat.lt_of_not_le deepest)
      rw [State.called_of_entered step_eq]
      rw [step_eq] at next_eq
      cases next_eq
      obtain ⟨text, listed, read, read_eq, function⟩ := entered _ closure rfl rfl
      refine ⟨⟨read, program :: outer, ?_, ?_, ?_, ?_, fun other holds => ?_⟩,
        fun _ => Control.noConfusion⟩
      · exact ⟨read, program :: outer, rfl, function, ⟨text, listed, read_eq⟩, layers⟩
      · exact ⟨⟨nofun, nofun⟩, ⟨nofun, nofun⟩, ⟨nofun, nofun⟩, stackOf⟩
      · rintro _ ⟨rfl⟩
        refine ⟨?_, nofun⟩
        rintro _ ⟨rfl⟩
        obtain ⟨kinds, inside⟩ := function.body _ rfl
        exact ⟨.function :: kinds, inside⟩
      · rintro _ _ ⟨rfl⟩ ⟨⟩
      · have before := still.holds other holds
        rw [Heap.Holds, heap_openScope opens] at before
        exact known other before

/-- When a wait is over, what is left is in layers. -/
theorem InLayers.leave {waiting : Pending} {stack : List Pending}
    (stack_eq : state.stack = waiting :: stack) (settled : ∀ task, state.control ≠ .run task)
    (control : Control) (idle : ∀ task, control ≠ .run task) :
    ∃ inner rest, InLayers texts main (state.called calls) inner rest
        ⟨control, stack, waiting.leave state.machine⟩ ∧
      (waiting.returns = false → inner = program) := by
  obtain ⟨layers, stackOf, _, _, known⟩ := inLayers
  rw [stack_eq] at stackOf
  rw [State.called_of_answer stack_eq settled]
  have kept (closure : Closure) (holds : (waiting.leave state.machine).heap.Holds closure) :
      Known texts closure := by
    rw [heap_leave] at holds
    exact known closure holds
  cases returns_eq : waiting.returns with
  | false =>
    have rest := stackOf.2
    rw [returns_eq] at rest
    exact ⟨program, outer, .idle layers rest idle kept, fun _ => rfl⟩
  | true =>
    have rest := stackOf.2
    rw [returns_eq] at rest
    obtain ⟨caller, others, rfl, left⟩ := layers.leave rest
    exact ⟨caller, others, .idle left rest idle kept, Bool.noConfusion⟩

/-- A step goes on in layers. An error that it raises is about a range of the program of the
innermost one. -/
theorem InLayers.step (next_eq : Run.step state = some next) :
    (∃ inner rest, InLayers texts main (state.called calls) inner rest next) ∧
      ((∀ stop, state.control ≠ .stop stop) → ∀ error, next.control = .stop (.error error) →
        program.Shows error.span) := by
  cases control_eq : state.control with
  | run task =>
    induction task using Task.plainCases with
    | plain task plain =>
      rw [State.called_of_task control_eq plain.closure?_eq]
      obtain ⟨control, stack, machine⟩ := state
      obtain rfl : control = _ := control_eq
      cases next_eq
      obtain ⟨layers, stackOf, of, _, known⟩ := inLayers
      obtain ⟨goesOn, raised⟩ := InLayers.settle (confined_begin plain)
        (reports_begin (of task rfl) plain) (of task rfl).code layers stackOf known
      exact ⟨⟨program, outer, goesOn⟩, fun _ => raised⟩
    | function info name params body scope =>
      obtain ⟨goesOn, runs⟩ := inLayers.made control_eq next_eq
      rw [State.called_of_task control_eq rfl]
      exact ⟨⟨program, outer, goesOn⟩, fun _ error stops => absurd stops (runs _)⟩
    | block block scope =>
      obtain ⟨goesOn, runs⟩ := inLayers.block control_eq next_eq
      rw [State.called_of_task control_eq rfl]
      exact ⟨⟨program, outer, goesOn⟩, fun _ error stops => absurd stops (runs _)⟩
    | body closure this arguments span =>
      obtain ⟨goesOn, raised⟩ := inLayers.body control_eq next_eq
      exact ⟨goesOn, fun _ => raised⟩
  | give answer =>
    obtain ⟨control, _ | ⟨waiting, stack⟩, machine⟩ := state <;>
      obtain rfl : control = _ := control_eq <;> cases next_eq
    obtain ⟨inner, rest, left, same⟩ := inLayers.leave rfl nofun (.give answer) nofun
    cases returns_eq : waiting.returns with
    | false =>
      obtain rfl := same returns_eq
      have of := inLayers.stack.1
      obtain ⟨goesOn, raised⟩ := InLayers.settle (confined_proceed waiting answer)
        (reports_proceed of answer) of.code left.layers left.stack left.known
      exact ⟨⟨inner, rest, goesOn⟩, fun _ => raised⟩
    | true =>
      obtain rfl : waiting = .shallower := by cases waiting <;> first | rfl | cases returns_eq
      exact ⟨⟨inner, rest, left⟩, fun _ => nofun⟩
  | stop stop =>
    obtain ⟨control, _ | ⟨waiting, stack⟩, machine⟩ := state <;>
      obtain rfl : control = _ := control_eq <;> cases next_eq
    have idle (task : Task) : waiting.interrupt stop ≠ .run task := by
      unfold Pending.interrupt
      split <;> nofun
    obtain ⟨inner, rest, left, _⟩ := inLayers.leave rfl nofun _ idle
    exact ⟨⟨inner, rest, left⟩, fun raises => absurd rfl (raises stop)⟩

end Step

end Run
end Scriptlet
