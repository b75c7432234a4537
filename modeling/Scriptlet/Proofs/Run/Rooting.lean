import Mathlib
import Scriptlet.Proofs.Run.Lockstep

set_option autoImplicit false

/-!
Handles in use name occupied slots, and their slots are not freed meanwhile. This holds at every
point of every run of a session in which handles name all slots, since a safe state mirrors itself,
and a collection spares everything that it can still use.
-/
namespace Scriptlet.Run

open Eval

/-- A handle is in use at a point of a run: it is needed for what is done next or what is pending,
it is a temporary root, an open frame has it, or a value in an occupied slot does. -/
inductive Uses (state : State) (handle : Handle) : Prop where
  | control (needed : handle ∈ controlHandles state.control)
  | pending (waiting : Pending) (listed : waiting ∈ state.stack) (needed : handle ∈ waiting.handles)
  | root (member : handle ∈ state.machine.roots)
  | scope (holds : state.machine.scopes.Holds handle)
  | child (owner : Handle) (value : Value) (found : state.machine.heap.get? owner = some value)
      (member : handle ∈ value.children)

/-- Every handle in use names an occupied slot, and the run does not stop for a free one. -/
structure Safe (state : State) : Prop where
  consistent : state.machine.heap.Consistent
  live : ∀ handle, Uses state handle → state.machine.heap.isLive handle
  sound : ∀ access handle, state.control ≠ .stop (.freeSlot access handle)

/-- A handle keeps its slot from one heap to the next: no slot is freed, or the heap only collects,
and leaves that slot as it is. -/
def Keeps (before after : Heap) (handle : Handle) : Prop :=
  after.freed = before.freed ∧ (∀ other, before.isLive other → after.isLive other) ∨
    ∃ roots, after = (before.collect roots).2 ∧ after.get? handle = before.get? handle

/-- What is pending has its handles among the temporary roots, so only those needed for what is done
next are to be looked at besides the machine. -/
theorem Rooted.safe {state : State} (rooted : Rooted state.machine) {base : List Handle}
    (guards : Guards base state.stack state.machine.roots)
    (needed : ∀ handle ∈ controlHandles state.control, state.machine.heap.isLive handle)
    (sound : ∀ access handle, state.control ≠ .stop (.freeSlot access handle)) : Safe state where
  consistent := rooted.consistent
  live handle uses := by
    cases uses with
    | control inside => exact needed handle inside
    | pending waiting listed inside =>
      exact rooted.roots handle (guards.held waiting listed inside)
    | root member => exact rooted.roots handle member
    | scope holds => exact rooted.scopes handle ((ScopeChain.mem_roots_iff _ _).mpr holds)
    | child owner value found member => exact rooted.closed owner value found handle member
  sound := sound

theorem Safe.rooted {state : State} (safe : Safe state) : Rooted state.machine where
  consistent := safe.consistent
  closed owner value found handle member := safe.live handle (.child owner value found member)
  scopes handle member := safe.live handle (.scope ((ScopeChain.mem_roots_iff _ _).mp member))
  roots handle member := safe.live handle (.root member)

/-- A safe state mirrors itself. -/
theorem Safe.simulates {state : State} (safe : Safe state) :
    Simulates (.self state.machine.heap) state state where
  mirrors := safe.rooted.mirrors
  control := ⟨(rename_self_control _ state.control).symm,
    fun handle needed => safe.live handle (.control needed)⟩
  stack := by
    refine ⟨(rename_self_stack _ state.stack).symm, fun handle member => ?_⟩
    obtain ⟨pending, listed, inside⟩ := List.mem_flatMap.mp member
    exact safe.live handle (.pending pending listed inside)
  sound := safe.sound

theorem Control.collects_or (control : Control) :
    (∃ task, control = .run task ∧ task.Collects) ∨
      ∀ task, control = .run task → ¬ task.Collects := by
  by_cases collects : ∃ task, control = .run task ∧ task.Collects
  · exact .inl collects
  · exact .inr fun task control_eq does => collects ⟨task, control_eq, does⟩

section Step

variable {state next : State}

/-- A step that collects does nothing else to the machine, and what is done next needs no handle. -/
theorem step_collects {task : Task} (control_eq : state.control = .run task)
    (collects : task.Collects) (next_eq : step state = some next) :
    (next.machine = state.machine.collectIfDue ∨ next.machine = state.machine.collect.2) ∧
      next.stack = state.stack ∧ controlHandles next.control = [] ∧
      ∀ stop, next.control ≠ .stop stop := by
  obtain ⟨control, stack, machine⟩ := state
  cases control_eq
  cases task with
  | nextStatement | nextTest =>
    cases next_eq
    exact ⟨.inl rfl, rfl, rfl, nofun⟩
  | native operation arguments =>
    cases operation with
    | collect =>
      cases next_eq
      exact ⟨.inr rfl, rfl, rfl, nofun⟩
    | _ => exact collects.elim
  | _ => exact collects.elim

/-- A step from a safe state leads to a safe state. A handle that is in use then is new, or has kept
its slot. -/
theorem Safe.step (safe : Safe state) {base : List Handle}
    (guards : Guards base state.stack state.machine.roots) (next_eq : step state = some next)
    (room : Addressable next.machine) :
    Safe next ∧ ∀ handle, Uses next handle → state.machine.heap.isLive handle →
      Keeps state.machine.heap next.machine.heap handle := by
  have guardsNext := guards_step guards next_eq
  rcases Control.collects_or state.control with ⟨task, control_eq, collects⟩ | quiet
  · obtain ⟨machine_eq, _, needs, goes⟩ := step_collects control_eq collects next_eq
    have roomBefore : Addressable state.machine :=
      Nat.le_trans (slotCount_le_step next_eq) room
    have rooted : Rooted next.machine := by
      rcases machine_eq with same | same
      · exact same ▸ safe.rooted.collectIfDue roomBefore
      · exact same ▸ safe.rooted.collect roomBefore
    have heap_eq : next.machine.heap = state.machine.heap ∨
        ∃ roots, next.machine.heap = (state.machine.heap.collect roots).2 := by
      rcases machine_eq with same | same
      · exact same ▸ heap_collectIfDue state.machine
      · exact same ▸ heap_collect state.machine
    have again : Safe next := rooted.safe guardsNext (by simp [needs]) fun _ _ => goes _
    refine ⟨again, fun handle uses before => ?_⟩
    rcases heap_eq with same | ⟨roots, collected⟩
    · exact .inl ⟨congrArg Heap.freed same, fun other live => same ▸ live⟩
    · refine .inr ⟨roots, collected, ?_⟩
      obtain ⟨value, found⟩ := (Heap.isLive_iff _ _).mp (again.live handle uses)
      rw [found]
      rw [collected] at found
      exact ((safe.consistent.unmarked.get?_collect roots handle value).mp found).1.symm
  · obtain ⟨m, grows, again⟩ := safe.simulates.step_quiet quiet next_eq next_eq room room
    have rooted := again.mirrors.rooted (grows.complete fun _ live => live)
    refine ⟨rooted.safe guardsNext ?_ again.sound, fun _ _ _ => .inl ⟨grows.freed, grows.live⟩⟩
    intro handle needed
    exact again.mirrors.copies.live handle (again.control.inView handle needed)

theorem Safe.after (safe : Safe state) {base : List Handle}
    (guards : Guards base state.stack state.machine.roots) {count : Nat}
    (room : Addressable (state.after count).machine) : Safe (state.after count) := by
  induction count with
  | zero => exact safe
  | succ count ih =>
    rw [State.after_succ] at room ⊢
    cases next_eq : Run.step (state.after count) with
    | none =>
      rw [next_eq] at room
      exact ih room
    | some next =>
      rw [next_eq] at room
      have before := ih (Nat.le_trans (slotCount_le_step next_eq) room)
      exact (before.step (guards_after guards count) next_eq room).1

end Step

/-- A machine between runs: whatever it can use is in occupied slots, and the global scope is
open. -/
structure Ready (machine : Machine) : Prop where
  rooted : Rooted machine
  opened : machine.scopes.isLive ScopeChain.global

theorem ready_create (config : Config) : Ready (.create config) where
  rooted := by
    have limit : config.maxCallDepth = config.maxCallDepth := rfl
    obtain ⟨n, complete, mirrors⟩ := mirrors_create limit
    exact mirrors.rooted complete
  opened := by
    rw [isLive_of_shape (shape_create config)]
    rfl

section Ready

variable {machine : Machine} (ready : Ready machine)

include ready

theorem Ready.record (event : Event) : Ready (machine.record event) := by
  refine ⟨ready.rooted.record event, ?_⟩
  unfold Machine.record
  split <;> exact ready.opened

theorem Ready.recordNodes (builder : Builder) : Ready (machine.recordNodes builder) := by
  unfold Machine.recordNodes
  split
  · exact List.foldlRecOn (motive := Ready) _ _ ready fun _ before _ _ => before.record _
  · exact ready

theorem Ready.read (text : String) : Ready (machine.read text).2 := by
  unfold Machine.read
  obtain ⟨result, builder⟩ := Program.read text
  cases result with
  | ok program => exact (ready.recordNodes builder).record _
  | error failure => exact ready.recordNodes builder

/-- At every point of the run of a program the state is safe. -/
theorem Ready.safe (program : Program) {count : Nat}
    (room : Addressable
      (((Entry.program program ScopeChain.global).start machine).after count).machine) :
    Safe (((Entry.program program ScopeChain.global).start machine).after count) := by
  let entry : Entry := .program program ScopeChain.global
  have guards : Guards machine.roots (entry.start machine).stack
      (entry.start machine).machine.roots := entry.guards machine 0
  exact (ready.rooted.safe guards nofun nofun).after guards room

theorem Ready.again {entry : Entry} (possible : entry.Possible machine) {control : Control}
    {after : Machine} (reached : Reaches (entry.start machine) ⟨control, [], after⟩)
    (rooted : Rooted after) : Ready after := by
  obtain ⟨count, after_eq⟩ := reached
  have unwinds := Entry.unwinds possible count
  rw [after_eq] at unwinds
  refine ⟨rooted, ?_⟩
  rw [isLive_of_shape unwinds]
  exact ready.opened

/-- A program that is executed gives a handle in use, or stops, but not for a free slot. -/
theorem Ready.execute (program : Program) (steps : Nat)
    (room : Addressable
      (lastMachine (executeProgram steps program ScopeChain.global machine))) :
    match executeProgram steps program ScopeChain.global machine with
    | .ok handle after => Ready after ∧ after.heap.isLive handle
    | .error stop after =>
      (∀ access handle, stop ≠ .freeSlot access handle) ∧ (stop ≠ .exhausted → Ready after) := by
  let entry : Entry := .program program ScopeChain.global
  have possible : entry.Possible machine := ready.opened
  have safe {last : State} (reached : Reaches (entry.start machine) last)
      (room : Addressable last.machine) : Safe last := by
    obtain ⟨count, rfl⟩ := reached
    exact ready.safe program room
  cases outcome : executeProgram steps program ScopeChain.global machine with
  | ok handle after =>
    rw [outcome] at room
    have reached := (entry.reaches_handle_iff machine handle after).mpr ⟨steps, outcome⟩
    have last := safe reached room
    exact ⟨ready.again possible reached last.rooted,
      last.live handle (.control (List.mem_singleton_self handle))⟩
  | error stop after =>
    rw [outcome] at room
    by_cases uncut : stop = .exhausted
    · cases uncut
      exact ⟨nofun, fun uncut => absurd rfl uncut⟩
    · have reached := (entry.reaches_stop_iff machine uncut after).mpr ⟨steps, outcome⟩
      have last := safe reached room
      exact ⟨fun access handle same => last.sound access handle (congrArg Control.stop same),
        fun _ => ready.again possible reached last.rooted⟩

end Ready

theorem textOf_of_get? {machine : Machine} {handle : Handle} {value : Value}
    (found : machine.heap.get? handle = some value) :
    textOf handle machine = .ok (value.text? machine.heap) machine := by
  simp only [textOf, Bind.bind, EStateM.bind, deref_of_get? found]
  rfl

theorem textOf_keeps (handle : Handle) (machine : Machine) :
    (machine.perform (textOf handle)).2 = machine := by
  unfold Machine.perform textOf
  simp only [Bind.bind, EStateM.bind, deref]
  cases machine.heap.get? handle <;> rfl

/-- What running a text comes to: it is not read, or it is executed to a value or to a stop. -/
theorem run_cases (machine : Machine) (steps : Nat) (text : String) :
    (∃ failure reader, machine.read text = (.error failure, reader) ∧
      machine.run steps text = (.error (.source failure), reader)) ∨
    ∃ program reader, machine.read text = (.ok program, reader) ∧
      ((∃ handle after, executeProgram steps program ScopeChain.global reader = .ok handle after ∧
        machine.run steps text =
          (((after.perform (textOf handle)).1.map (·.getD "NaN")).mapError .stopped, after)) ∨
      ∃ stop after, executeProgram steps program ScopeChain.global reader = .error stop after ∧
        machine.run steps text = (.error (.stopped stop), after)) := by
  rcases read_eq : machine.read text with ⟨failure | program, reader⟩
  · refine .inl ⟨failure, reader, rfl, ?_⟩
    simp only [Machine.run, Machine.execute, read_eq]
  · refine .inr ⟨program, reader, rfl, ?_⟩
    cases outcome : executeProgram steps program ScopeChain.global reader with
    | ok handle after =>
      refine .inl ⟨handle, after, rfl, ?_⟩
      have executed : reader.perform (executeProgram steps program ScopeChain.global) =
          (.ok handle, after) := by rw [Machine.perform, outcome]
      simp only [Machine.run, Machine.execute, read_eq, executed, Except.mapError, textOf_keeps]
    | error stop after =>
      refine .inr ⟨stop, after, rfl, ?_⟩
      have executed : reader.perform (executeProgram steps program ScopeChain.global) =
          (.error stop, after) := by rw [Machine.perform, outcome]
      simp only [Machine.run, Machine.execute, read_eq, executed, Except.mapError]

/-- A run does not stop for a free slot, and leaves the machine ready for another one, if it was
not cut short. -/
theorem Ready.run {machine : Machine} (ready : Ready machine) (steps : Nat) (text : String)
    (room : Addressable (machine.run steps text).2) :
    (∀ access handle, (machine.run steps text).1 ≠ .error (.stopped (.freeSlot access handle))) ∧
      ((machine.run steps text).1 ≠ .error (.stopped .exhausted) →
        Ready (machine.run steps text).2) := by
  have read := ready.read text
  rcases run_cases machine steps text with ⟨failure, reader, read_eq, run_eq⟩ |
    ⟨program, reader, read_eq, ⟨handle, after, outcome, run_eq⟩ | ⟨stop, after, outcome, run_eq⟩⟩
  all_goals rw [read_eq] at read; rw [run_eq] at room ⊢
  · exact ⟨nofun, fun _ => read⟩
  all_goals
    have executed := read.execute program steps
    rw [outcome] at executed
    have executed := executed room
  · obtain ⟨again, live⟩ := executed
    obtain ⟨value, found⟩ := (Heap.isLive_iff _ _).mp live
    rw [Machine.perform, textOf_of_get? found]
    exact ⟨nofun, fun _ => again⟩
  · refine ⟨fun access handle same => executed.1 access handle ?_, fun uncut => executed.2 ?_⟩
    · cases same
      rfl
    · rintro rfl
      exact uncut rfl

/-- A program that is executed takes no slot away, if it is not cut short. -/
theorem slotCount_le_execute {machine : Machine} {steps : Nat} {program : Program}
    (uncut : ∀ after, executeProgram steps program ScopeChain.global machine ≠
      .error .exhausted after) :
    machine.heap.slotCount ≤
      (lastMachine (executeProgram steps program ScopeChain.global machine)).heap.slotCount := by
  let entry : Entry := .program program ScopeChain.global
  cases outcome : executeProgram steps program ScopeChain.global machine with
  | ok handle after =>
    obtain ⟨count, last⟩ := (entry.reaches_handle_iff machine handle after).mpr ⟨steps, outcome⟩
    have more := slotCount_le_after (entry.start machine) count
    rwa [last] at more
  | error stop after =>
    have uncutStop : stop ≠ .exhausted := by
      rintro rfl
      exact uncut after outcome
    obtain ⟨count, last⟩ := (entry.reaches_stop_iff machine uncutStop after).mpr ⟨steps, outcome⟩
    have more := slotCount_le_after (entry.start machine) count
    rwa [last] at more

theorem slotCount_le_run {machine : Machine} {steps : Nat} {text : String}
    (uncut : (machine.run steps text).1 ≠ .error (.stopped .exhausted)) :
    machine.heap.slotCount ≤ (machine.run steps text).2.heap.slotCount := by
  have heap_eq := heap_read machine text
  rcases run_cases machine steps text with ⟨failure, reader, read_eq, run_eq⟩ |
    ⟨program, reader, read_eq, ⟨handle, after, outcome, run_eq⟩ | ⟨stop, after, outcome, run_eq⟩⟩
  all_goals
    rw [read_eq] at heap_eq
    rw [run_eq] at uncut ⊢
    have same := Nat.le_of_eq (congrArg Heap.slotCount heap_eq.symm)
  · exact same
  all_goals
    apply Nat.le_trans same
    have more (uncut : ∀ last, executeProgram steps program ScopeChain.global reader ≠
        .error .exhausted last) := slotCount_le_execute uncut
    rw [outcome] at more
  · exact more nofun
  · apply more
    rintro last ⟨⟩
    exact uncut rfl

/-- The machines of a session: a new one, and what the run of a text leaves, with a value or with an
error, if it was not cut short. -/
inductive Session (config : Config) : Machine → Prop where
  | create : Session config (.create config)
  | run {machine : Machine} (session : Session config machine) (steps : Nat) (text : String)
      (uncut : (machine.run steps text).1 ≠ .error (.stopped .exhausted)) :
      Session config (machine.run steps text).2

theorem Session.ready {config : Config} {machine : Machine} (session : Session config machine)
    (room : Addressable machine) : Ready machine := by
  induction session with
  | create => exact ready_create config
  | run _ steps text uncut ih =>
    have ready := ih (Nat.le_trans (slotCount_le_run uncut) room)
    exact (ready.run steps text room).2 uncut

/-- No run of a session stops for a free slot, as long as handles name all slots. -/
theorem Session.sound {config : Config} {machine : Machine} (session : Session config machine)
    {steps : Nat} {text : String} (room : Addressable (machine.run steps text).2)
    (access : Access) (handle : Handle) :
    (machine.run steps text).1 ≠ .error (.stopped (.freeSlot access handle)) := by
  by_cases uncut : (machine.run steps text).1 = .error (.stopped .exhausted)
  · intro same
    cases uncut.symm.trans same
  · have roomBefore : Addressable machine := Nat.le_trans (slotCount_le_run uncut) room
    exact ((session.ready roomBefore).run steps text room).1 access handle

/-- Whatever a session runs, at every point of the run all handles in use name occupied slots, and
each step leaves them their slots, as long as handles name all slots. No run stops for a free slot
then. -/
theorem session_safe {config : Config} {machine : Machine} (session : Session config machine)
    (text : String) :
    (∀ program count,
      let entry : Entry := .program program ScopeChain.global
      let state := (entry.start (machine.read text).2).after count
      state.machine.heap.slotCount ≤ 2 ^ 32 → Safe state ∧
        ∀ next, step state = some next → next.machine.heap.slotCount ≤ 2 ^ 32 →
          ∀ handle, Uses next handle → state.machine.heap.isLive handle →
            Keeps state.machine.heap next.machine.heap handle) ∧
    ∀ steps, (machine.run steps text).2.heap.slotCount ≤ 2 ^ 32 →
      ∀ access handle,
        (machine.run steps text).1 ≠ .error (.stopped (.freeSlot access handle)) := by
  constructor
  · intro program count entry state room
    have roomRead : Addressable (machine.read text).2 :=
      Nat.le_trans (slotCount_le_after (entry.start _) count) room
    have roomBefore : Addressable machine := by
      rwa [Addressable, heap_read] at roomRead
    have ready := (session.ready roomBefore).read text
    have safe : Safe state := ready.safe program room
    exact ⟨safe, fun next next_eq roomNext =>
      (safe.step (entry.guards _ count) next_eq roomNext).2⟩
  · exact fun steps room => session.sound room

def listProgram : Program :=
  let info : NodeInfo := ⟨⟨0⟩, ⟨0, 0⟩⟩
  let element : Expression := .literal info (.boolean true)
  ⟨⟨0⟩, ⟨⟨0⟩, [.block ⟨info, [.expression info (.array info [element])]⟩]⟩⟩

/-- Without an observer, reading a text leaves a machine as it is. -/
theorem read_silent {machine : Machine} (silent : machine.observed = false) (text : String) :
    (machine.read text).2 = machine := by
  unfold Machine.read Machine.recordNodes Machine.record
  obtain ⟨result, builder⟩ := Program.read text
  cases result <;> simp [silent]

/-- The state in which the list has been made, where each statement starts a collection. -/
def listState : State :=
  ((Entry.program listProgram ScopeChain.global).start (.create { gcThreshold := 1 })).after 16

theorem slotCount_listState : listState.machine.heap.slotCount = 7 := by
  cbv

/-- The first run of a session that collects as often as it can. -/
theorem session_safe_listProgram :
    Session { gcThreshold := 1 } (.create { gcThreshold := 1 }) ∧
      listState.machine.heap.slotCount ≤ 2 ^ 32 ∧ Safe listState ∧
      ∀ steps,
        ((Machine.create { gcThreshold := 1 }).run steps "[true]").2.heap.slotCount ≤ 2 ^ 32 →
          ∀ access handle, ((Machine.create { gcThreshold := 1 }).run steps "[true]").1 ≠
            .error (.stopped (.freeSlot access handle)) := by
  have session : Session { gcThreshold := 1 } (.create { gcThreshold := 1 }) := .create
  obtain ⟨points, runs⟩ := session_safe session "[true]"
  have silent : (Machine.create { gcThreshold := 1 }).observed = false := by rfl
  rw [read_silent silent] at points
  have room : listState.machine.heap.slotCount ≤ 2 ^ 32 := by
    rw [slotCount_listState]
    decide
  have safe := points listProgram 16
  exact ⟨session, room, (safe room).1, runs⟩

end Scriptlet.Run
