import Scriptlet.Proofs.Run.Code
import Scriptlet.Proofs.Tree.Children

set_option autoImplicit false

/-!
The ranges of the text that a run can report. A state keeps the range of a call from the time when
the call is evaluated until its function is entered, and a native reports it even later. So every
range that is reported is one of a node that was evaluated.
-/
namespace Scriptlet

/-- A range is that of a node of a program, or the one that a call without a node has. -/
def Program.Shows (program : Program) (span : Span) : Prop :=
  span = ⟨0, 0⟩ ∨ ∃ site ∈ program.sites, site.node.span = span

namespace Run

open Eval

/-- The ranges that a task may report although it has not their nodes any more. -/
@[simp]
def Task.spans : Task → List Span
  | .call _ _ span _ | .apply _ _ _ span | .body _ _ _ span => [span]
  | _ => []

/-- The ranges that may be reported when the wait is over. -/
@[simp]
def Pending.spans : Pending → List Span
  | .calleeKey _ _ span _ | .calleeRead _ _ span _ | .arguments _ span _ | .apply _ _ span
  | .nativeResult _ span => [span]
  | _ => []

/-- Whether a call of a function of the program is over when the wait is. -/
@[simp]
def Pending.returns : Pending → Bool
  | .shallower => true
  | _ => false

def CodeOf (program : Program) (code? : Option Code) : Prop :=
  ∀ code, code? = some code → ∃ kinds, code.sites kinds ⊆ program.sites

theorem CodeOf.part {program : Program} {whole part : Option Code} (of : CodeOf program whole)
    (isPart : Part whole part) : CodeOf program part := by
  intro code code_eq
  obtain ⟨outer, outer_eq, _, inside⟩ := isPart code code_eq
  obtain ⟨kinds, listed⟩ := of outer outer_eq
  exact ⟨kinds, List.Subset.trans (inside kinds) listed⟩

/-- A task evaluates a part of a program, and may report ranges of that program only. -/
structure Task.Of (program : Program) (task : Task) : Prop where
  code : CodeOf program task.code?
  spans : ∀ span ∈ task.spans, program.Shows span

structure Pending.Of (program : Program) (waiting : Pending) : Prop where
  code : CodeOf program waiting.code?
  spans : ∀ span ∈ waiting.spans, program.Shows span

/-- Work that reports ranges of a program only, itself and in what it goes on with, and enters no
function. -/
def Reports (program : Program) (work : Eval Next) : Prop :=
  ∀ machine, match work machine with
    | .ok (control, pending) _ =>
      (∀ stop, control ≠ .stop stop) ∧
        (∀ task, control = .run task → ∀ span ∈ task.spans, program.Shows span) ∧
        ∀ waiting ∈ pending, waiting.returns = false ∧
          ∀ span ∈ waiting.spans, program.Shows span
    | .error stop _ => ∀ error, stop = .error error → program.Shows error.span

section Reports

variable {program : Program}

theorem Program.shows_of_expression {value : Expression} {scope : ScopeId}
    (of : CodeOf program (some ⟨scope, fun kinds => value.sites kinds⟩)) :
    program.Shows value.span := by
  obtain ⟨kinds, inside⟩ := of _ rfl
  refine .inr ⟨⟨.expression value, kinds⟩, inside ?_, rfl⟩
  cases value <;> simp [Expression.sites]

/-- A move to what may report ranges of a program only, and to no end of a call. -/
def Move.Shows (program : Program) : Move → Prop
  | .give _ pending =>
    ∀ waiting ∈ pending, waiting.returns = false ∧ ∀ span ∈ waiting.spans, program.Shows span
  | .fail error => program.Shows error.span
  | .goOn task pending =>
    (∀ span ∈ task.spans, program.Shows span) ∧
      ∀ waiting ∈ pending, waiting.returns = false ∧ ∀ span ∈ waiting.spans, program.Shows span

theorem Leads.reports {may : List Handle → List Handle → Move → Prop} {work : Eval Next}
    (leads : ∀ roots, Leads (may roots) roots work)
    (shown : ∀ roots held move, may roots held move → move.Shows program) :
    Reports program work := by
  intro machine
  have makes := (leads machine.roots).makes rfl
  generalize work machine = result at makes
  cases makes with
  | @move move held middle made quiet =>
    have shows := shown _ _ _ made
    cases move with
    | give answer pending => exact ⟨nofun, nofun, shows⟩
    | fail error =>
      rintro _ ⟨rfl⟩
      exact shows
    | goOn task pending =>
      refine ⟨nofun, ?_, shows.2⟩
      rintro _ ⟨rfl⟩
      exact shows.1
  | freeSlot quiet => exact nofun

theorem Task.Of.shows_target {operator : AssignmentOperator} {target value : Expression}
    {scope : ScopeId} (of : (Task.assignment operator target value scope).Of program) :
    program.Shows target.span := by
  have isPart : Part (Task.assignment operator target value scope).code?
      (Task.expression target scope).code? :=
    part_of_mem fun _ _ member => List.mem_append_left _ member
  exact Program.shows_of_expression (of.code.part isPart)

/-- What a task of a program may report is in the range of one of its nodes. -/
theorem Task.Moves.shows {task : Task} {roots held : List Handle} {move : Move}
    (moves : task.Moves roots held move) (of : task.Of program) : move.Shows program := by
  have spans := of.spans
  cases moves with
  | nameUnbound => exact Program.shows_of_expression of.code
  | callExpression =>
    have shown := Program.shows_of_expression of.code
    exact ⟨List.forall_mem_singleton.mpr shown, nofun⟩
  | assignUnbound | assignInvalid => exact of.shows_target
  | callMember | call | applyFunction | applyNative => simpa [Move.Shows] using spans
  | applyOther => exact spans _ List.mem_cons_self
  | host =>
    have host : program.Shows ⟨0, 0⟩ := .inl rfl
    simpa [Move.Shows] using host
  | _ => simp [Move.Shows]

theorem Pending.Moves.shows {pending : Pending} {roots held : List Handle} {move : Move}
    (moves : pending.Moves roots held move) (of : pending.Of program) : move.Shows program := by
  have spans := of.spans
  cases moves with
  | calleeKey | calleeRead | arguments | apply => simpa [Move.Shows] using spans
  | nativeFailed => exact spans _ List.mem_cons_self
  | _ => simp [Move.Shows]

/-- A plain task reports ranges of the program that it is a task of. -/
theorem reports_begin {task : Task} (of : task.Of program) (plain : task.Plain) :
    Reports program (begin task) :=
  Leads.reports (fun _ => begin_leads plain) fun _ _ _ moves => moves.shows of

/-- When a wait is over, the ranges that may be reported are those of what was pending. -/
theorem reports_proceed {pending : Pending} (of : pending.Of program) (answer : Answer) :
    Reports program (proceed pending answer) :=
  Leads.reports (fun _ => proceed_leads pending answer) fun _ _ _ moves => moves.shows of

end Reports

end Run
end Scriptlet
