import Scriptlet.Proofs.Run.Balance
import Scriptlet.Proofs.Run.Simulation

set_option autoImplicit false

/-!
Runs in lockstep. A step that does not collect is taken by both runs. Where one or the other
collects, only what it cannot use any more goes out of view.
-/
namespace Scriptlet.Run

open Eval Carries

/-- One run mirrors another one: the machines do, and what is to be done is the same under other
names. -/
structure Simulates (n : Naming) (one two : State) : Prop where
  mirrors : Mirrors n one.machine two.machine
  control : Related n one.control two.control
  stack : Related n one.stack two.stack
  sound : ∀ access handle, one.control ≠ .stop (.freeSlot access handle)

section Leave

variable {n : Naming} {one two : Machine}

/-- Both machines are left alike when a wait is over. -/
theorem Mirrors.leave (mirrors : Mirrors n one two) (pending : Pending) :
    Mirrors n (pending.leave one) ((renamePending n pending).leave two) := by
  have released (mark : Mark) : Mirrors n (one.release mark) (two.release (rename n mark)) :=
    mirrors.release (.bare rfl rfl)
  cases pending with
  | program mark => exact (released mark).recordUsage.recordUsageCopy
  | release mark => exact released mark
  | binary operator left mark => exact released mark
  | compoundName operator current name scope mark => exact released mark
  | shallower => exact { mirrors with callDepth := congrArg (· - 1) mirrors.callDepth }
  | close scope => exact mirrors.closeScope scope
  | _ => exact mirrors

end Leave

section Step

variable {n : Naming}

/-- Corresponding work above what is pending leads to states that mirror each other. -/
theorem Parallel.settle {before : Heap} {stack copy : List Pending}
    {result resultCopy : EStateM.Result Stop Machine Next}
    (parallel : Parallel n before result resultCopy) (related : Related n stack copy)
    (goes : ∀ control pending after, result = .ok (control, pending) after →
      ∀ stop, control ≠ .stop stop)
    (room : Addressable (settle stack result).machine)
    (roomCopy : Addressable (settle copy resultCopy).machine) :
    ∃ m, Grows n before m (settle stack result).machine.heap ∧
      Simulates m (settle stack result) (settle copy resultCopy) := by
  rw [heap_settle] at room roomCopy
  have alike := parallel room roomCopy
  cases result with
  | ok next after =>
    cases resultCopy with
    | error stop afterCopy => exact alike.elim
    | ok nextCopy afterCopy =>
      obtain ⟨m, grows, mirrors, nextRelated⟩ := alike
      obtain ⟨rfl, seen⟩ := nextRelated
      obtain ⟨controlSeen, pendingSeen⟩ := List.forall_mem_append.mp seen
      have stackRelated := related.mono grows
      refine ⟨m, grows, mirrors, ⟨rfl, controlSeen⟩, ⟨?_, ?_⟩, ?_⟩
      · exact (congrArg _ stackRelated.eq).trans List.map_append.symm
      · intro handle member
        simp only [Run.settle, Carries.handles, List.flatMap_append] at member
        exact (List.mem_append.mp member).elim (pendingSeen handle) (stackRelated.inView handle)
      · exact fun access handle => goes _ _ _ rfl _
  | error stop after =>
    cases resultCopy with
    | ok nextCopy afterCopy => exact alike.elim
    | error stopCopy afterCopy =>
      obtain ⟨rfl, uses, m, grows, mirrors⟩ := alike
      refine ⟨m, grows, mirrors, .bare rfl rfl, related.mono grows, ?_⟩
      rintro access handle ⟨⟩
      exact uses access handle rfl

theorem Poised.goes {work : Eval Next} (poised : Poised work) {machine after : Machine}
    {control : Control} {pending : List Pending}
    (outcome : work machine = .ok (control, pending) after) (stop : Stop) :
    control ≠ .stop stop := by
  have kept := poised machine
  rw [outcome] at kept
  exact kept.1 stop

theorem interrupt_rename (n : Naming) (pending : Pending) (stop : Stop) :
    (renamePending n pending).interrupt stop = renameControl n.name (pending.interrupt stop) := by
  cases pending with
  | attempt => cases stop <;> rfl
  | _ => rfl

theorem handles_interrupt (pending : Pending) (stop : Stop) :
    Carries.handles (pending.interrupt stop) = [] := by
  cases pending with
  | attempt => cases stop <;> rfl
  | _ => rfl

theorem interrupt_eq_stop {pending : Pending} {stop other : Stop}
    (interrupted : pending.interrupt stop = .stop other) : stop = other := by
  cases pending with
  | attempt => cases stop <;> cases interrupted <;> rfl
  | _ => cases interrupted; rfl

/-- One run is over exactly if the other one is. -/
theorem Simulates.step_eq_none_iff {one two : State} (simulates : Simulates n one two) :
    step one = none ↔ step two = none := by
  obtain ⟨control, stack, machine⟩ := one
  obtain ⟨controlCopy, stackCopy, machineCopy⟩ := two
  obtain ⟨_, ⟨rfl, _⟩, ⟨rfl, _⟩, _⟩ := simulates
  cases control <;> cases stack <;> simp [step, Carries.rename, renameControl]

/-- A step that does not collect is taken by both runs. -/
theorem Simulates.step_quiet {one two next copy : State} (simulates : Simulates n one two)
    (quiet : ∀ task, one.control = .run task → ¬ task.Collects) (next_eq : step one = some next)
    (copy_eq : step two = some copy) (room : Addressable next.machine)
    (roomCopy : Addressable copy.machine) :
    ∃ m, Grows n one.machine.heap m next.machine.heap ∧ Simulates m next copy := by
  obtain ⟨control, stack, machine⟩ := one
  obtain ⟨controlCopy, stackCopy, machineCopy⟩ := two
  obtain ⟨mirrors, ⟨rfl, controlSeen⟩, ⟨rfl, stackSeen⟩, sound⟩ := simulates
  cases control with
  | run task =>
    cases next_eq
    cases copy_eq
    exact (parallel_begin mirrors ⟨rfl, controlSeen⟩ (quiet task rfl)).settle ⟨rfl, stackSeen⟩
      (fun _ _ _ outcome => (poised_begin task).goes outcome) room roomCopy
  | give answer =>
    cases stack with
    | nil => cases next_eq
    | cons pending stack =>
      cases next_eq
      cases copy_eq
      obtain ⟨pendingSeen, stackSeen⟩ := List.forall_mem_append.mp stackSeen
      have parallel := parallel_proceed (mirrors.leave pending) pendingSeen ⟨rfl, controlSeen⟩
      rw [heap_leave] at parallel
      exact parallel.settle ⟨rfl, stackSeen⟩
        (fun _ _ _ outcome => (poised_proceed pending answer).goes outcome) room roomCopy
  | stop stop =>
    cases stack with
    | nil => cases next_eq
    | cons pending stack =>
      cases next_eq
      cases copy_eq
      obtain ⟨_, stackSeen⟩ := List.forall_mem_append.mp stackSeen
      have grows : Grows n machine.heap n (pending.leave machine).heap := by
        rw [heap_leave]
        exact .refl n machine.heap
      refine ⟨n, grows, mirrors.leave pending, ⟨interrupt_rename n pending stop, ?_⟩,
        ⟨rfl, stackSeen⟩, ?_⟩
      · rw [handles_interrupt]
        nofun
      · intro access handle interrupted
        exact sound access handle (congrArg Control.stop (interrupt_eq_stop interrupted))

/-- Whatever is pending is still in view if its handles are among the temporary roots. -/
theorem Related.of_guards {m : Naming} {one two : Machine} {base : List Handle}
    {stack copy : List Pending} (related : Related n stack copy) (name_eq : m.name = n.name)
    (extra_eq : m.extra = n.extra) (mirrors : Mirrors m one two)
    (guards : Guards base stack one.roots) : Related m stack copy where
  eq := related.eq.trans (rename_congr extra_eq.symm fun handle _ => congrFun name_eq.symm handle)
  inView handle member := by
    obtain ⟨pending, listed, inside⟩ := List.mem_flatMap.mp member
    exact mirrors.rootsInView handle (guards.held pending listed inside)

/-- Where runs may collect before a statement or a turn, both go on with it. What is pending has its
handles among the temporary roots, so it stays in view. -/
theorem Simulates.step_due {one two next copy : State} (simulates : Simulates n one two)
    {base : List Handle} (guards : Guards base one.stack one.machine.roots) {task : Task}
    (control_eq : one.control = .run task) (collects : task.Collects)
    (notCalled : ∀ arguments, task ≠ .native .collect arguments)
    (next_eq : step one = some next) (copy_eq : step two = some copy)
    (room : Addressable next.machine) (roomCopy : Addressable copy.machine) :
    ∃ m, Simulates m next copy := by
  obtain ⟨control, stack, machine⟩ := one
  obtain ⟨controlCopy, stackCopy, machineCopy⟩ := two
  obtain ⟨mirrors, ⟨rfl, _⟩, stackRelated, _⟩ := simulates
  cases control_eq
  have collected (room : Addressable machine.collectIfDue)
      (roomCopy : Addressable machineCopy.collectIfDue) :
      ∃ m : Naming, m.name = n.name ∧ m.extra = n.extra ∧
        Mirrors m machine.collectIfDue machineCopy.collectIfDue := by
    rw [Addressable, slotCount_collectIfDue] at room roomCopy
    have both := (mirrors.collectIfDueCopy roomCopy).collectIfDue room
    refine ⟨_, ?_, ?_, both⟩ <;> rfl
  cases task with
  | nextStatement | nextTest =>
    cases next_eq
    cases copy_eq
    obtain ⟨m, name_eq, extra_eq, after⟩ := collected room roomCopy
    rw [← roots_collectIfDue machine] at guards
    refine ⟨m, after, .bare rfl rfl, stackRelated.of_guards name_eq extra_eq after guards, ?_⟩
    intro access handle control_eq
    cases control_eq
  | native operation arguments =>
    cases operation with
    | collect => exact absurd rfl (notCalled arguments)
    | _ => exact collects.elim
  | _ => exact collects.elim

end Step

end Scriptlet.Run
