import Scriptlet.Proofs.Grammar.Postorder
import Scriptlet.Proofs.Grammar.WellFormed
import Scriptlet.Proofs.Run.Origin

set_option autoImplicit false

/-!
Assignments are to places. The grammar lets nothing but a name or a member stand before an
assignment operator, so a run never comes to an assignment to anything else, and in particular it
never stops for one. A function keeps the body that it was read with, so this is also so for
functions of earlier runs.
-/
namespace Scriptlet

def Node.AssignsToPlace (node : Node) : Prop :=
  ∀ info operator target value, node = .expression (.assignment info operator target value) →
    (∃ info name, target = .identifier info name) ∨
      ∃ info object property, target = .member info object property

theorem Expression.isAssignable_iff {target : Expression} : target.isAssignable ↔
    (∃ info name, target = .identifier info name) ∨
      ∃ info object property, target = .member info object property := by
  cases target <;> simp [isAssignable]

theorem Grammar.assignsToPlace_of_wellFormed {node : Node} (wellFormed : node.WellFormed) :
    node.AssignsToPlace := by
  rintro info operator target value rfl
  exact Expression.isAssignable_iff.mp wellFormed

namespace Run

open Eval

/-- What is done next is no assignment but one to a place, and the run does not stop for another. -/
def Control.Aims : Control → Prop
  | .run (.assignment _ target _ _) => target.isAssignable = true
  | .stop (.error (.invalidTarget ..)) => False
  | _ => True

/-- Work that goes on like that. -/
def Aims (work : Eval Next) : Prop :=
  ∀ machine, match work machine with
    | .ok (control, _) _ => control.Aims
    | .error stop _ => (Control.stop stop).Aims

/-- A move that is no assignment but one to a place, and does not stop the run for another. -/
def Move.Aims : Move → Prop
  | .give _ _ => True
  | .fail error => (Control.stop (.error error)).Aims
  | .goOn task _ => (Control.run task).Aims

theorem Elementary.aims {α : Type} {action : Eval α} {rest : α → Eval Next}
    (elementary : Elementary action) (aims : ∀ value, Aims (rest value)) :
    Aims (action >>= rest) := by
  intro machine
  simp only [Bind.bind, EStateM.bind]
  cases outcome : action machine with
  | ok value middle => exact aims value middle
  | error stop middle =>
    cases stop with
    | error error => exact absurd outcome (elementary.ne_error machine error middle)
    | freeSlot | exhausted => trivial

theorem Leads.aims {may : List Handle → List Handle → Move → Prop} {work : Eval Next}
    (leads : ∀ roots, Leads (may roots) roots work)
    (aims : ∀ roots held move, may roots held move → move.Aims) : Aims work := by
  intro machine
  have makes := (leads machine.roots).makes rfl
  generalize work machine = result at makes
  cases makes with
  | @move move held middle made quiet =>
    have aims := aims _ _ _ made
    cases move <;> exact aims
  | freeSlot quiet => trivial

/-- Only an expression leads to an assignment, and only an assignment stops for its target. -/
theorem Task.Moves.aims {task : Task} {roots held : List Handle} {move : Move}
    (moves : task.Moves roots held move) (aims : (Control.run task).Aims)
    (assigns : ∀ expression scope, task = .expression expression scope →
      (Node.expression expression).AssignsToPlace) : move.Aims := by
  cases moves with
  | assignmentExpression =>
    exact Expression.isAssignable_iff.mpr (assigns _ _ rfl _ _ _ _ rfl)
  | assignInvalid invalid => exact Bool.noConfusion (invalid.symm.trans aims)
  | _ => trivial

theorem Pending.Moves.aims {pending : Pending} {roots held : List Handle} {move : Move}
    (moves : pending.Moves roots held move) : move.Aims := by
  cases moves <;> trivial

theorem aims_enterBody (closure : Closure) (this : Option Handle) (arguments : List Handle) :
    Aims (enterBody closure this arguments) := by
  intro machine
  obtain ⟨scope, opened, opens⟩ :
    ∃ scope opened, openScope closure.scope .function this machine = .ok scope opened :=
    ⟨_, _, rfl⟩
  obtain ⟨bound, binds⟩ := bindParameters_ok scope closure.params arguments opened
  rw [enterBody_ok opens binds]
  trivial

theorem aims_beginBody (closure : Closure) (this : Option Handle) (arguments : List Handle)
    (span : Span) : Aims (beginBody closure this arguments span) := by
  intro machine
  unfold beginBody
  by_cases exited : !machine.scopes.isLive closure.scope
  · rw [if_pos exited]
    trivial
  · rw [if_neg exited]
    by_cases deepest : machine.config.maxCallDepth ≤ machine.callDepth
    · rw [if_pos deepest]
      trivial
    · rw [if_neg deepest]
      exact aims_enterBody closure this arguments machine

/-- A task goes on like that, unless it is an expression that assigns to anything but a place. -/
theorem aims_begin {task : Task} (aims : (Control.run task).Aims)
    (assigns : ∀ expression scope, task = .expression expression scope →
      (Node.expression expression).AssignsToPlace) :
    Aims (begin task) := by
  induction task using Task.plainCases with
  | plain task plain =>
    exact Leads.aims (fun _ => begin_leads plain) fun _ _ _ moves => moves.aims aims assigns
  | function info name params body scope =>
    exact Elementary.aims (.visit _ _) fun _ =>
      (Elementary.makeFunction ..).aims fun _ _ => trivial
  | block block scope => exact Elementary.aims (.visit _ _) fun _ _ => trivial
  | body closure this arguments span => exact aims_beginBody closure this arguments span

theorem aims_proceed (pending : Pending) (answer : Answer) : Aims (proceed pending answer) :=
  Leads.aims (fun _ => proceed_leads pending answer) fun _ _ _ moves => moves.aims

theorem Aims.settle {work : Eval Next} (aims : Aims work) (stack : List Pending)
    (machine : Machine) : (settle stack (work machine)).control.Aims := by
  have here := aims machine
  cases outcome : work machine with
  | ok next after => rwa [outcome] at here
  | error stop after => rwa [outcome] at here

theorem aims_step {state next : State} (aims : state.control.Aims)
    (assigns : ∀ expression scope, state.control = .run (.expression expression scope) →
      (Node.expression expression).AssignsToPlace)
    (next_eq : step state = some next) : next.control.Aims := by
  obtain ⟨control, stack, machine⟩ := state
  cases control with
  | run task =>
    cases next_eq
    apply Aims.settle
    exact aims_begin aims fun expression scope same => assigns expression scope (by rw [same])
  | give answer =>
    cases stack with
    | nil => cases next_eq
    | cons pending stack =>
      cases next_eq
      exact (aims_proceed pending answer).settle stack _
  | stop stop =>
    cases stack with
    | nil => cases next_eq
    | cons pending stack =>
      cases next_eq
      dsimp only
      unfold Pending.interrupt
      split
      · trivial
      · exact aims

/-- An expression that a program is about to evaluate is one of its sites. -/
theorem Task.Of.assignsToPlace {text : String} {program : Program} {expression : Expression}
    {scope : ScopeId} (of : (Task.expression expression scope).Of program)
    (read : Program.ofText text = .ok program) : (Node.expression expression).AssignsToPlace := by
  obtain ⟨kinds, inside⟩ := of.code _ rfl
  have listed : (⟨.expression expression, kinds⟩ : Site) ∈ program.sites := by
    apply inside
    cases expression <;> simp [Expression.sites]
  exact Grammar.assignsToPlace_of_wellFormed
    ((Grammar.wellFormed_of_ofText read).sites _ listed)

theorem aims_after {texts : List String} {program : Program} {machine : Machine}
    (read : ∃ text ∈ texts, Program.ofText text = .ok program)
    (known : ∀ closure, machine.heap.Holds closure → Known texts closure) (count : Nat) :
    (((Entry.program program ScopeChain.global).start machine).after count).control.Aims := by
  induction count with
  | zero => trivial
  | succ count ih =>
    obtain ⟨inner, outer, inLayers⟩ := inLayers_after read known count
    obtain ⟨text, _, text_eq⟩ := inLayers.layers.read
    rw [State.after_succ]
    cases next_eq : step (((Entry.program program ScopeChain.global).start machine).after count)
      with
    | none => exact ih
    | some next =>
      exact aims_step ih
        (fun expression scope same => (inLayers.task _ same).assignsToPlace text_eq) next_eq

end Run

namespace Node

theorem Every.mono {good better : Node → Prop} (weaker : ∀ node, good node → better node)
    {node : Node} (every : node.Every good) : node.Every better := by
  induction node using Node.induction with
  | step node ih =>
    obtain ⟨below, here⟩ := every_iff.mp every
    exact every_iff.mpr ⟨fun child member => ih child member (below child member),
      weaker node here⟩

/-- What holds of every node of a tree holds of every node below any node of it. -/
theorem Every.hereditary {good : Node → Prop} {node : Node} (every : node.Every good) :
    node.Every fun inner => inner.Every good := by
  induction node using Node.induction with
  | step node ih =>
    have below := (every_iff.mp every).1
    exact every_iff.mpr ⟨fun child member => ih child member (below child member), every⟩

end Node

theorem Program.every_assignsToPlace {text : String} {program : Program}
    (read : Program.ofText text = .ok program) : program.Every Node.AssignsToPlace := by
  have every := everyStatement_iff.mp (Grammar.wellFormed_of_ofText read)
  refine everyStatement_iff.mpr fun statement member => ?_
  have whole : (Node.statement statement).Every Node.WellFormed := every statement member
  exact whole.mono fun _ => Grammar.assignsToPlace_of_wellFormed

/-- What holds of every node of a program holds of every node of a function that is read with it. -/
theorem Program.Every.body {good : Node → Prop} {program : Program} (every : program.Every good)
    {closure : Closure} (read : closure.ReadIn program) : closure.body.Every good := by
  obtain ⟨info, kinds, listed, _⟩ := read
  have hereditary : program.Every fun inner => inner.Every good := by
    refine everyStatement_iff.mpr fun statement member => ?_
    have whole : (Node.statement statement).Every good :=
      everyStatement_iff.mp every statement member
    exact whole.hereditary
  have function := hereditary.sites _ listed
  exact function.1

namespace Run

section Runs

variable {config : Config} {texts : List String} {machine : Machine}

/-- No run stops for the target of an assignment. -/
theorem Runs.ne_invalidTarget (runs : Runs config texts machine) (steps : Nat) (text : String)
    (kind : NodeKind) (span : Span) :
    (machine.run steps text).1 ≠ .error (.stopped (.error (.invalidTarget kind span))) := by
  intro failed
  obtain ⟨program, count, text_eq, raises⟩ := exists_raises_of_run failed
  have known (closure : Closure) (held : (machine.read text).2.heap.Holds closure) :
      Known (text :: texts) closure :=
    (runs.known closure ((undisturbed_read machine text).holds closure held)).mono
      (List.subset_cons_self text texts)
  have aims := aims_after ⟨text, List.mem_cons_self, text_eq⟩ known (count + 1)
  rw [raises.stopping (count + 1) (Nat.lt_succ_self count)] at aims
  exact aims

/-- In a session no run stops for the target of an assignment: every assignment in a text that is
read, and in the body of every function that the session has, is to a name or to a member. -/
theorem Runs.assignsToPlaces (runs : Runs config texts machine) :
    (∀ steps text kind span,
      (machine.run steps text).1 ≠ .error (.stopped (.error (.invalidTarget kind span)))) ∧
    (∀ text program, Program.ofText text = .ok program → program.Every Node.AssignsToPlace) ∧
    ∀ closure, machine.heap.Holds closure → closure.body.Every Node.AssignsToPlace := by
  refine ⟨runs.ne_invalidTarget, fun _ _ => Program.every_assignsToPlace, fun closure holds => ?_⟩
  obtain ⟨_, _, program, read, function⟩ := runs.known closure holds
  exact (Program.every_assignsToPlace read).body function.read

end Runs

/-- The body of a function that assigns to a name in parentheses. -/
def assigningBody : Block :=
  let info (number start stop : Nat) : NodeInfo := ⟨⟨number⟩, ⟨start, stop⟩⟩
  ⟨info 4 19 31, [.expression (info 3 22 29) (.assignment (info 2 22 28) .assign
    (.identifier (info 0 22 23) "x") (.identifier (info 1 27 28) "y"))]⟩

/-- A program that makes this function. -/
def assigningProgram : Program :=
  let info (number start stop : Nat) : NodeInfo := ⟨⟨number⟩, ⟨start, stop⟩⟩
  ⟨⟨9⟩, ⟨⟨8⟩, [.declaration (info 7 0 32) .var
    [⟨info 6 4 31, "f", some (.function (info 5 8 31) none [] assigningBody)⟩]]⟩⟩

theorem ofText_assigningProgram :
    Program.ofText "var f = function() { (x) = y; };" = .ok assigningProgram := by
  cbv

/-- The machine of a session that has run the program. -/
def assigningMachine : Machine :=
  (((Entry.program assigningProgram ScopeChain.global).start (.create {})).after 12).machine

theorem run_assigningProgram : (Machine.create {}).run 40 "var f = function() { (x) = y; };" =
    (.ok "undefined", assigningMachine) := by
  rw [Machine.run, Machine.execute, read_of_ofText rfl ofText_assigningProgram]
  rfl

/-- The session has the function, and assigns to no more than places. -/
theorem Runs.assignsToPlaces_assigningMachine :
    Runs {} ["var f = function() { (x) = y; };"] assigningMachine ∧
    (∃ closure, assigningMachine.heap.Holds closure ∧ closure.body = assigningBody) ∧
    assigningBody.Every Node.AssignsToPlace ∧
    ∀ steps text kind span, (assigningMachine.run steps text).1 ≠
      .error (.stopped (.error (.invalidTarget kind span))) := by
  have runs : Runs {} ["var f = function() { (x) = y; };"] assigningMachine := by
    have first : Runs {} [] (.create {}) := .create
    have made := first.run 40 "var f = function() { (x) = y; };"
      (by rw [run_assigningProgram]; nofun)
    rwa [run_assigningProgram] at made
  obtain ⟨never, _, bodies⟩ := runs.assignsToPlaces
  have holds : ∃ closure, assigningMachine.heap.Holds closure ∧ closure.body = assigningBody :=
    ⟨_, Heap.stores_of_get?
      (show assigningMachine.heap.get? ⟨5⟩ = some (.function _) from rfl), rfl⟩
  obtain ⟨closure, held, body_eq⟩ := id holds
  exact ⟨runs, holds, body_eq ▸ bodies closure held, never⟩

end Run
end Scriptlet
