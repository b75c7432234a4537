import Scriptlet.Proofs.Run.Composite

set_option autoImplicit false

/-!
An observer makes no difference. Evaluation tells an observer of events, but does not read them:
without an observer it comes to the same result, and leaves the same machine but for the events.
-/
namespace Scriptlet.Run

open Eval

/-- The same machine without an observer and without events. -/
def unobserved (machine : Machine) : Machine :=
  { machine with observed := false, events := #[] }

/-- The same result, with the events aside. -/
def unseen {α : Type} : EStateM.Result Stop Machine α → EStateM.Result Stop Machine α
  | .ok value machine => .ok value (unobserved machine)
  | .error stop machine => .error stop (unobserved machine)

/-- An action that does the same without an observer. -/
def Discreet {α : Type} (action : Eval α) : Prop :=
  ∀ machine, action (unobserved machine) = unseen (action machine)

section Unobserved

variable (machine : Machine)

@[simp]
theorem unobserved_record (event : Event) :
    unobserved (machine.record event) = unobserved machine := by
  unfold Machine.record
  split <;> rfl

theorem record_unobserved (event : Event) :
    (unobserved machine).record event = unobserved machine :=
  rfl

@[simp]
theorem unobserved_recordUsage : unobserved machine.recordUsage = unobserved machine := by
  unfold Machine.recordUsage
  split
  · exact unobserved_record _ _
  · rfl

theorem recordUsage_unobserved : (unobserved machine).recordUsage = unobserved machine := by
  unfold Machine.recordUsage
  split <;> rfl

theorem collect_unobserved :
    (unobserved machine).collect = (machine.collect.1, unobserved machine.collect.2) := by
  unfold Machine.collect
  by_cases never : machine.config.disableGc
  · rw [if_pos never, if_pos (show (unobserved machine).config.disableGc from never),
      record_unobserved, unobserved_record]
  · rw [if_neg never, if_neg (show ¬ (unobserved machine).config.disableGc from never)]
    let collected := machine.heap.collect (machine.scopes.roots ++ machine.roots)
    let freed := { machine with heap := collected.2 }
    show (some collected.1, ((unobserved freed).record (.collected collected.1)).recordUsage) =
      (some collected.1, unobserved (freed.record (.collected collected.1)).recordUsage)
    rw [record_unobserved, recordUsage_unobserved, unobserved_recordUsage, unobserved_record]

theorem collectIfDue_unobserved :
    (unobserved machine).collectIfDue = unobserved machine.collectIfDue := by
  unfold Machine.collectIfDue
  by_cases due : machine.heap.shouldCollect
  · rw [if_pos due, if_pos (show (unobserved machine).heap.shouldCollect from due),
      collect_unobserved]
  · rw [if_neg due, if_neg (show ¬ (unobserved machine).heap.shouldCollect from due)]

theorem closeScope_unobserved (scope : ScopeId) :
    (unobserved machine).closeScope scope = unobserved (machine.closeScope scope) := by
  unfold Machine.closeScope
  by_cases canPop : machine.scopes.canPop scope
  · rw [if_pos canPop, if_pos (show (unobserved machine).scopes.canPop scope from canPop),
      unobserved_record]
    rfl
  · rw [if_neg canPop, if_neg (show ¬ (unobserved machine).scopes.canPop scope from canPop)]

theorem leave_unobserved (pending : Pending) :
    pending.leave (unobserved machine) = unobserved (pending.leave machine) := by
  cases pending with
  | close scope => exact closeScope_unobserved machine scope
  | program mark =>
    show (unobserved (machine.release mark)).recordUsage =
      unobserved (machine.release mark).recordUsage
    rw [recordUsage_unobserved, unobserved_recordUsage]
  | _ => rfl

theorem leaving_unseen {α : Type} (pending : Pending) (result : EStateM.Result Stop Machine α) :
    leaving pending (unseen result) = unseen (leaving pending result) := by
  cases result <;> simp only [leaving, unseen, leave_unobserved]

end Unobserved

section Discreet

variable {α β : Type}

theorem discreet_modify {change : Machine → Machine}
    (discreet : ∀ machine, change (unobserved machine) = unobserved (change machine)) :
    Discreet (modify change : Eval Unit) :=
  fun machine => congrArg (EStateM.Result.ok ()) (discreet machine)

theorem Discreet.bind {action : Eval α} {rest : α → Eval β} (first : Discreet action)
    (others : ∀ value, Discreet (rest value)) : Discreet (action >>= rest) := by
  intro machine
  rw [bind_at, bind_at, first machine]
  cases action machine with
  | ok value after => exact others value after
  | error stop after => rfl

theorem Discreet.releasing {action : Eval α} (discreet : Discreet action) (mark : Mark) :
    Discreet (Eval.releasing mark action) := by
  intro machine
  rw [releasing_eq_leaving, releasing_eq_leaving, discreet, leaving_unseen]

theorem Discreet.inScope {action : ScopeId → Eval α} (discreet : ∀ scope, Discreet (action scope))
    (parent : ScopeId) (kind : ScopeKind) (this : Option Handle) :
    Discreet (Eval.inScope parent kind this action) := by
  intro machine
  let pushed := machine.scopes.push parent kind this
  let opened := { machine with scopes := pushed.2 }.record (.scopePushed pushed.1 parent kind)
  have opens : openScope parent kind this machine = .ok pushed.1 opened := rfl
  have opensCopy : openScope parent kind this (unobserved machine) =
      .ok pushed.1 (unobserved opened) :=
    congrArg (EStateM.Result.ok pushed.1)
      (unobserved_record { machine with scopes := pushed.2 } _).symm
  rw [inScope_eq_leaving opens, inScope_eq_leaving opensCopy, discreet, leaving_unseen]

theorem Discreet.oneDeeper {action : Eval α} (discreet : Discreet action) :
    Discreet (Eval.oneDeeper action) := by
  intro machine
  let deeper : Machine := { machine with callDepth := machine.callDepth + 1 }
  show Run.leaving .shallower (action (unobserved deeper)) =
    unseen (Run.leaving .shallower (action deeper))
  rw [discreet, leaving_unseen]

theorem Discreet.attempt {action : Eval Handle} (discreet : Discreet action) :
    Discreet (attempt action) := by
  intro machine
  rw [attempt_at, attempt_at, discreet machine]
  cases action machine with
  | ok handle after => rfl
  | error stop after => cases stop <;> rfl

theorem Elementary.discreet {action : Eval α} (elementary : Elementary action) :
    Discreet action := by
  induction elementary with
  | pure | alloc | declare | assign | printLine => exact fun _ => rfl
  | bind first others one two => exact one.bind two
  | inspect view rest _ ih => exact fun machine => ih _ machine
  | deref handle =>
    intro machine
    rw [deref_at, deref_at, show (unobserved machine).heap = machine.heap from rfl]
    cases machine.heap.get? handle <;> rfl
  | update handle change =>
    intro machine
    unfold Eval.update
    rw [show (unobserved machine).heap = machine.heap from rfl]
    split <;> rfl
  | record event => exact discreet_modify fun machine => (unobserved_record machine event).symm
  | visit info kind =>
    refine discreet_modify fun machine => ?_
    by_cases traced : machine.config.trace
    · rw [if_pos traced, if_pos (show (unobserved machine).config.trace from traced),
        record_unobserved, unobserved_record]
    · rw [if_neg traced, if_neg (show ¬ (unobserved machine).config.trace from traced)]
  | collectIfDue => exact discreet_modify collectIfDue_unobserved
  | collectNow =>
    intro machine
    have same := collect_unobserved machine
    exact congrArg (fun done => EStateM.Result.ok (done.1.elim 0 Report.freed) done.2) same

/-- Every evaluation does the same without an observer. -/
theorem Composite.discreet {action : Eval α} (composite : Composite action) : Discreet action := by
  induction composite with
  | elementary first => exact first.discreet
  | stop => exact fun _ => rfl
  | bind first others one two => exact one.bind two
  | inspect view rest _ ih => exact fun machine => ih _ machine
  | lookup scope name span =>
    intro machine
    rw [lookup_at, lookup_at, show (unobserved machine).scopes = machine.scopes from rfl]
    cases machine.scopes.lookup? scope name <;> rfl
  | rootMark => exact fun _ => rfl
  | protectAll handles => exact fun _ => rfl
  | release mark => exact fun _ => rfl
  | releasing mark _ ih => exact ih.releasing mark
  | inScope parent kind this _ ih => exact .inScope ih parent kind this
  | oneDeeper _ ih => exact ih.oneDeeper
  | attempt _ ih => exact ih.attempt

end Discreet

end Scriptlet.Run
