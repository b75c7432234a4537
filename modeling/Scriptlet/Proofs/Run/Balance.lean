import Scriptlet.Proofs.Run.Roots

set_option autoImplicit false

/-!
A run takes back what it has changed. From every state of it, leaving all that is pending gives the
number of calls in progress and the open frames that it began with, and when it is over, the
temporary roots are those that it began with, too.
-/
namespace Scriptlet.Run

open Eval

/-- What has to be so before something pending is left: its call is in progress within the limit,
or its frame is the innermost one. -/
def Pending.Fits : Pending → Shape → Prop
  | .shallower, shape => 0 < shape.callDepth ∧ shape.callDepth ≤ shape.config.maxCallDepth
  | .close scope, shape =>
    ∃ outer frame, shape.frames = outer ++ [frame] ∧ scope = ⟨outer.length, frame.generation⟩
  | _, _ => True

/-- What becomes of the shape of a machine when the wait is over. -/
def Pending.leaveShape : Pending → Shape → Shape
  | .shallower, shape => { shape with callDepth := shape.callDepth - 1 }
  | .close _, shape => { shape with frames := shape.frames.dropLast }
  | _, shape => shape

/-- Leaving what is pending, one after the other, gives back a shape. -/
def Unwinds (base : Shape) : List Pending → Shape → Prop
  | [], shape => shape = base
  | pending :: stack, shape => pending.Fits shape ∧ Unwinds base stack (pending.leaveShape shape)

theorem Unwinds.append {base middle : Shape} {stack : List Pending}
    (rest : Unwinds base stack middle) {pending : List Pending} {current : Shape}
    (first : Unwinds middle pending current) :
    Unwinds base (pending ++ stack) current := by
  induction pending generalizing current with
  | nil => rwa [first]
  | cons one pending ih => exact ⟨first.1, ih first.2⟩

/-- What is pending has opened frames inside those that were open. -/
theorem Unwinds.frames_extend {base : Shape} {stack : List Pending} {current : Shape}
    (unwinds : Unwinds base stack current) : base.frames <+: current.frames := by
  induction stack generalizing current with
  | nil =>
    obtain rfl : current = base := unwinds
    exact List.prefix_rfl
  | cons pending stack ih =>
    refine (ih unwinds.2).trans ?_
    cases pending with
    | close scope => exact List.dropLast_prefix current.frames
    | _ => exact List.prefix_rfl

/-- Whether something pending closes no scope and ends no call. -/
def Pending.isLight : Pending → Bool
  | .shallower | .close _ => false
  | _ => true

/-- Work that goes on, and leaves pending what takes back its changes of the machine. -/
def Poised (work : Eval Next) : Prop :=
  ∀ machine, match work machine with
    | .ok (control, pending) after =>
      (∀ stop, control ≠ .stop stop) ∧ Unwinds (shape machine) pending (shape after)
    | .error _ after => shape after = shape machine

theorem Prompt.poised {α : Type} {action : Eval α} {rest : α → Eval Next} (prompt : Prompt action)
    (poised : ∀ value, Poised (rest value)) : Poised (action >>= rest) := by
  intro machine
  simp only [Bind.bind, EStateM.bind]
  cases outcome : action machine with
  | ok value middle =>
    have after := poised value middle
    rw [prompt.shape_ok outcome] at after
    exact after
  | error stop middle => exact prompt.shape_error outcome

theorem unwinds_of_light {pending : List Pending} (light : ∀ waiting ∈ pending, waiting.isLight)
    (current : Shape) : Unwinds current pending current := by
  induction pending with
  | nil => rfl
  | cons waiting pending ih =>
    obtain ⟨first, others⟩ := List.forall_mem_cons.mp light
    cases waiting with
    | shallower | close => cases first
    | _ => exact ⟨trivial, ih others⟩

section Moves

variable {roots held : List Handle} {move : Move}

/-- No move closes a scope or ends a call. -/
theorem Task.Moves.light {task : Task} (moves : task.Moves roots held move) :
    ∀ waiting ∈ move.pending, waiting.isLight := by
  cases moves <;> simp [Move.pending, Pending.isLight]

theorem Pending.Moves.light {pending : Pending} (moves : pending.Moves roots held move) :
    ∀ waiting ∈ move.pending, waiting.isLight := by
  cases moves <;> simp [Move.pending, Pending.isLight]

end Moves

theorem Leads.poised {may : List Handle → List Handle → Move → Prop} {work : Eval Next}
    (leads : ∀ roots, Leads (may roots) roots work)
    (light : ∀ roots held move, may roots held move → ∀ waiting ∈ move.pending, waiting.isLight) :
    Poised work := by
  intro machine
  have makes := (leads machine.roots).makes rfl
  generalize work machine = result at makes
  cases makes with
  | @move move held middle made quiet =>
    have unwinds := unwinds_of_light (light _ _ _ made) (shape machine)
    rw [← quiet.shape] at unwinds
    cases move with
    | give | goOn => exact ⟨nofun, quiet.shape ▸ unwinds⟩
    | fail => exact quiet.shape
  | freeSlot quiet => exact quiet.shape

/-- A scope that has been opened is the innermost one. -/
theorem shape_openScope {parent scope : ScopeId} {kind : ScopeKind} {this : Option Handle}
    {machine opened : Machine} (opens : openScope parent kind this machine = .ok scope opened) :
    ∃ frame, shape opened = { shape machine with frames := (shape machine).frames ++ [frame] } ∧
      scope = ⟨(shape machine).frames.length, frame.generation⟩ := by
  cases opens
  refine ⟨⟨kind, some parent, this, machine.scopes.nextGeneration, {}⟩, ?_, ?_⟩
  · rw [shape_record]
    simp only [shape, ScopeChain.outline, Array.toList_push, List.map_append,
      List.map_singleton, Frame.outline]
  · simp only [shape, ScopeChain.outline, List.length_map, Array.length_toList]

theorem unwinds_openScope {parent scope : ScopeId} {kind : ScopeKind} {this : Option Handle}
    {machine opened : Machine} (opens : openScope parent kind this machine = .ok scope opened) :
    Unwinds (shape machine) [.close scope] (shape opened) := by
  obtain ⟨frame, opened_eq, scope_eq⟩ := shape_openScope opens
  refine ⟨⟨(shape machine).frames, frame, by rw [opened_eq], scope_eq⟩, ?_⟩
  rw [opened_eq]
  simp only [Unwinds, Pending.leaveShape, List.dropLast_concat]

theorem poised_beginBody (closure : Closure) (this : Option Handle) (arguments : List Handle)
    (span : Span) : Poised (beginBody closure this arguments span) := by
  intro machine
  dsimp only [beginBody]
  by_cases isLive : machine.scopes.isLive closure.scope
  · by_cases deepest : machine.config.maxCallDepth ≤ machine.callDepth
    · simp only [isLive, deepest, Bool.not_true, Bool.false_eq_true, ↓reduceIte]
      rfl
    · simp only [isLive, deepest, Bool.not_true, Bool.false_eq_true, ↓reduceIte]
      obtain ⟨scope, opened, opens⟩ :
        ∃ scope opened, openScope closure.scope .function this machine = .ok scope opened :=
        ⟨_, _, rfl⟩
      obtain ⟨bound, binds⟩ := bindParameters_ok scope closure.params arguments opened
      have bound_eq : shape bound = shape opened :=
        (ordinary_bindParameters _ _ _).elementary.prompt.shape_ok binds
      have entered_eq :
          shape (bound.record (.calling (closureName closure) (machine.callDepth + 1))) =
            shape opened :=
        (shape_record _ _).trans bound_eq
      obtain ⟨frame, opened_eq, _⟩ := shape_openScope opens
      have room : (shape opened).callDepth < (shape opened).config.maxCallDepth := by
        rw [opened_eq]
        exact Nat.lt_of_not_le deepest
      have light : Unwinds (shape machine) [.result] (shape machine) := ⟨trivial, rfl⟩
      rw [enterBody_ok opens binds]
      refine ⟨nofun, ?_⟩
      show Unwinds (shape machine) [.shallower, .close scope, .result]
        { shape (bound.record _) with callDepth := (shape (bound.record _)).callDepth + 1 }
      rw [entered_eq]
      exact ⟨⟨Nat.succ_pos _, room⟩, light.append (unwinds_openScope opens)⟩
  · simp only [isLive, Bool.not_false, ↓reduceIte]
    rfl

/-- Whatever a task begins takes back its changes of the machine when it is over. -/
theorem poised_begin (task : Task) : Poised (begin task) := by
  induction task using Task.plainCases with
  | plain task plain =>
    exact Leads.poised (fun _ => begin_leads plain) fun _ _ _ moves => moves.light
  | function info name params body scope =>
    exact (prompt_visit _ _).poised fun _ =>
      (Elementary.makeFunction _ _ _ _ _).prompt.poised fun _ _ => ⟨nofun, rfl⟩
  | block block scope =>
    refine (prompt_visit _ _).poised fun _ machine => ?_
    obtain ⟨inner, opened, opens⟩ :
      ∃ inner opened, openScope scope .block none machine = .ok inner opened := ⟨_, _, rfl⟩
    simp only [Bind.bind, EStateM.bind, opens]
    exact ⟨nofun, unwinds_openScope opens⟩
  | body closure this arguments span => exact poised_beginBody closure this arguments span

theorem poised_proceed (pending : Pending) (answer : Answer) : Poised (proceed pending answer) :=
  Leads.poised (fun _ => proceed_leads pending answer) fun _ _ _ moves => moves.light

/-- Closing the innermost frame, unless it is the global one, closes that frame only. -/
theorem shape_closeScope {machine : Machine} {scope : ScopeId} {outer : List Frame} {frame : Frame}
    (frames_eq : (shape machine).frames = outer ++ [frame])
    (scope_eq : scope = ⟨outer.length, frame.generation⟩) (inside : outer ≠ []) :
    shape (machine.closeScope scope) = { shape machine with frames := outer } := by
  have last : (machine.scopes.frames[outer.length]?).map Frame.outline = some frame := by
    have found := congrArg (·[outer.length]?) frames_eq
    simpa [shape, ScopeChain.outline] using found
  have canPop : machine.scopes.canPop scope := by
    obtain ⟨innermost, innermost_eq, rfl⟩ := Option.map_eq_some_iff.mp last
    have index_ne : outer.length ≠ 0 := fun empty => inside (List.length_eq_zero_iff.mp empty)
    simp [ScopeChain.canPop, ScopeChain.isLive, ScopeChain.frame?, scope_eq, innermost_eq,
      index_ne, Frame.outline]
  have popped : (machine.scopes.pop scope).outline = outer := by
    have shrunk := congrArg (List.take outer.length) frames_eq
    rw [ScopeChain.pop, if_pos canPop, scope_eq]
    simpa [ScopeChain.outline, shape, List.map_take] using shrunk
  rw [Machine.closeScope, if_pos canPop, shape_record]
  simp only [shape, popped]

/-- Leaving something pending that fits changes the shape of the machine as it should. -/
theorem Pending.Fits.shape_leave {pending : Pending} {machine : Machine}
    (fits : pending.Fits (shape machine))
    (open_after : (pending.leaveShape (shape machine)).frames ≠ []) :
    shape (pending.leave machine) = pending.leaveShape (shape machine) := by
  cases pending with
  | program mark => exact shape_recordUsage (machine.release mark)
  | close scope =>
    obtain ⟨outer, frame, frames_eq, scope_eq⟩ := fits
    have outer_eq : (shape machine).frames.dropLast = outer := by
      rw [frames_eq, List.dropLast_concat]
    have inside : outer ≠ [] := outer_eq ▸ open_after
    exact (shape_closeScope frames_eq scope_eq inside).trans (by rw [leaveShape, outer_eq])
  | _ => rfl

section Run

variable {base : Shape} (opened : base.frames ≠ [])

include opened

theorem Unwinds.shape_leave {pending : Pending} {stack : List Pending} {machine : Machine}
    (unwinds : Unwinds base (pending :: stack) (shape machine)) :
    shape (pending.leave machine) = pending.leaveShape (shape machine) := by
  apply unwinds.1.shape_leave
  intro closed
  have opens := unwinds.2.frames_extend
  rw [closed, List.prefix_nil] at opens
  exact opened opens

/-- A step keeps what leaving all that is pending gives. -/
theorem unwinds_step {state next : State}
    (unwinds : Unwinds base state.stack (shape state.machine)) (next_eq : step state = some next) :
    Unwinds base next.stack (shape next.machine) := by
  obtain ⟨control, stack, machine⟩ := state
  -- Work above what is pending leaves pending what takes back its changes.
  have settles {stack : List Pending} {machine : Machine} {work : Eval Next} (poised : Poised work)
      (unwinds : Unwinds base stack (shape machine)) :
      Unwinds base (settle stack (work machine)).stack
        (shape (settle stack (work machine)).machine) := by
    have outcome := poised machine
    cases result : work machine with
    | ok next after =>
      rw [result] at outcome
      exact unwinds.append outcome.2
    | error stop after =>
      rw [result] at outcome
      exact outcome ▸ unwinds
  cases control with
  | run task =>
    cases next_eq
    exact settles (poised_begin task) unwinds
  | give answer =>
    cases stack with
    | nil => cases next_eq
    | cons pending stack =>
      cases next_eq
      apply settles (poised_proceed pending answer)
      rw [unwinds.shape_leave opened]
      exact unwinds.2
  | stop stop =>
    cases stack with
    | nil => cases next_eq
    | cons pending stack =>
      cases next_eq
      rw [unwinds.shape_leave opened]
      exact unwinds.2

/-- From every state of a run, leaving all that is pending gives the same. -/
theorem unwinds_after {state : State} (unwinds : Unwinds base state.stack (shape state.machine))
    (count : Nat) :
    Unwinds base (state.after count).stack (shape (state.after count).machine) := by
  induction count with
  | zero => exact unwinds
  | succ count ih =>
    rw [State.after_succ]
    cases next_eq : step (state.after count) with
    | none => exact ih
    | some next => exact unwinds_step opened ih next_eq

end Run

/-- An entry can be made: a program in an open scope, or a call while the global scope is open. -/
def Entry.Possible (machine : Machine) : Entry → Prop
  | .program _ scope => machine.scopes.isLive scope
  | .call .. => machine.scopes.isLive ScopeChain.global

instance (machine : Machine) : DecidablePred (Entry.Possible machine)
  | .program _ scope => inferInstanceAs (Decidable (machine.scopes.isLive scope = true))
  | .call .. => inferInstanceAs (Decidable (machine.scopes.isLive ScopeChain.global = true))

theorem Entry.Possible.opened {machine : Machine} {entry : Entry}
    (possible : entry.Possible machine) : machine.scopes.outline ≠ [] := by
  have opened {scope : ScopeId} (isLive : machine.scopes.isLive scope) :
      machine.scopes.outline ≠ [] := by
    intro empty
    have none_open : machine.scopes.frames = #[] := by
      simpa [ScopeChain.outline] using empty
    simp [ScopeChain.isLive, ScopeChain.frame?, none_open] at isLive
  cases entry with
  | program program scope => exact opened possible
  | call function this arguments => exact opened possible

theorem Entry.unwinds {machine : Machine} {entry : Entry} (possible : entry.Possible machine)
    (count : Nat) :
    Unwinds (shape machine) ((entry.start machine).after count).stack
      (shape ((entry.start machine).after count).machine) :=
  have first : Unwinds (shape machine) (entry.start machine).stack (shape machine) := rfl
  unwinds_after possible.opened first count

/-- A run that is over has the temporary roots that it began with. -/
theorem Entry.roots_eq {machine after : Machine} {entry : Entry} {control : Control} {count : Nat}
    (reached : (entry.start machine).after count = ⟨control, [], after⟩)
    (few : after.roots.length ≤ machine.roots.length) : after.roots = machine.roots := by
  have guards := entry.guards machine count
  rw [reached] at guards
  have kept : machine.roots <:+ after.roots := guards
  exact (kept.eq_of_length_le few).symm

end Scriptlet.Run
