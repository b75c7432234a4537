import Scriptlet.Proofs.Run.Rooting

set_option autoImplicit false

/-!
Collections cannot be observed, except by the native that counts what it frees. A run that collects
is in lockstep with one that never frees a slot, and so are two runs that collect at different
points.
-/
namespace Scriptlet.Run

open Eval

def State.callsCollect : State → Bool
  | ⟨.run (.native .collect _), _, _⟩ => true
  | _ => false

/-- In a run that is over, only the states up to the last one matter. -/
theorem State.quiet_of_over {state : State} {last : Nat}
    (halted : Run.step (state.after last) = none)
    (before : ∀ count ≤ last, (state.after count).callsCollect = false) (count : Nat) :
    (state.after count).callsCollect = false := by
  rcases Nat.le_total count last with early | late
  · exact before count early
  · obtain ⟨more, rfl⟩ := Nat.exists_eq_add_of_le late
    rw [State.after_add, State.after_of_over halted]
    exact before last (Nat.le_refl last)

/-- In a run that is over, only the slots of the last state matter. -/
theorem State.addressable_of_over {state : State} {last : Nat}
    (halted : Run.step (state.after last) = none) (room : Addressable (state.after last).machine)
    (count : Nat) : Addressable (state.after count).machine := by
  rcases Nat.le_total count last with early | late
  · obtain ⟨more, rfl⟩ := Nat.exists_eq_add_of_le early
    exact room.of_reaches ⟨more, (State.after_add count more state).symm⟩
  · obtain ⟨more, rfl⟩ := Nat.exists_eq_add_of_le late
    rwa [State.after_add, State.after_of_over halted]

section Beside

variable {n : Naming} {one two : State} (simulates : Simulates n one two)

include simulates

theorem Simulates.callsCollect_eq : two.callsCollect = one.callsCollect := by
  obtain ⟨control, stack, machine⟩ := one
  obtain ⟨controlCopy, stackCopy, machineCopy⟩ := two
  obtain ⟨_, ⟨rfl, _⟩, _, _⟩ := simulates
  cases control with
  | run task =>
    cases task with
    | native operation arguments => cases operation <;> rfl
    | _ => rfl
  | give answer => rfl
  | stop stop => rfl

/-- A step is taken by both runs, whether they collect or not. -/
theorem Simulates.step_beside {next copy : State} {base : List Handle}
    (guards : Guards base one.stack one.machine.roots) (quiet : one.callsCollect = false)
    (next_eq : step one = some next) (copy_eq : step two = some copy)
    (room : Addressable next.machine) (roomCopy : Addressable copy.machine) :
    ∃ m, Simulates m next copy := by
  rcases Control.collects_or one.control with ⟨task, control_eq, collects⟩ | still
  · refine simulates.step_due guards control_eq collects ?_ next_eq copy_eq room roomCopy
    rintro arguments rfl
    obtain ⟨control, stack, machine⟩ := one
    cases control_eq
    cases quiet
  · obtain ⟨m, _, again⟩ := simulates.step_quiet still next_eq copy_eq room roomCopy
    exact ⟨m, again⟩

/-- Two runs stay beside each other as long as handles name all slots on both sides. -/
theorem Simulates.beside {base : List Handle} (guards : Guards base one.stack one.machine.roots)
    (quiet : ∀ count,
      (one.after count).callsCollect = false ∨ (two.after count).callsCollect = false)
    (room : ∀ count, Addressable (one.after count).machine)
    (roomCopy : ∀ count, Addressable (two.after count).machine) (count : Nat) :
    ∃ m, Simulates m (one.after count) (two.after count) := by
  induction count with
  | zero => exact ⟨n, simulates⟩
  | succ count ih =>
    obtain ⟨m, simulates⟩ := ih
    have room := room (count + 1)
    have roomCopy := roomCopy (count + 1)
    rw [State.after_succ] at room roomCopy ⊢
    rw [State.after_succ]
    cases next_eq : step (one.after count) with
    | none =>
      rw [simulates.step_eq_none_iff.mp next_eq]
      exact ⟨m, simulates⟩
    | some next =>
      cases copy_eq : step (two.after count) with
      | none => cases next_eq.symm.trans (simulates.step_eq_none_iff.mpr copy_eq)
      | some copy =>
        rw [next_eq] at room
        rw [copy_eq] at roomCopy
        have silent : (one.after count).callsCollect = false :=
          (quiet count).elim id fun silent => simulates.callsCollect_eq.symm.trans silent
        exact simulates.step_beside (guards_after guards count) silent next_eq copy_eq room roomCopy

end Beside

/-- The runs of a program on machines that mirror each other are beside each other. -/
theorem Mirrors.beside {n : Naming} {one two : Machine} (mirrors : Mirrors n one two)
    (program : Program) :
    let entry : Entry := .program program ScopeChain.global
    (∀ count, ((entry.start one).after count).callsCollect = false ∨
      ((entry.start two).after count).callsCollect = false) →
    (∀ count, Addressable ((entry.start one).after count).machine) →
    (∀ count, Addressable ((entry.start two).after count).machine) →
    ∀ count, ∃ m, Simulates m ((entry.start one).after count) ((entry.start two).after count) := by
  intro entry quiet room roomCopy count
  have first : Simulates n (entry.start one) (entry.start two) :=
    ⟨mirrors, .bare rfl rfl, .bare rfl rfl, nofun⟩
  exact first.beside (entry.guards one 0) quiet room roomCopy count

def firstState (config : Config) (program : Program) : State :=
  (Entry.program program ScopeChain.global).start (.create config)

/-- What a run that is over has come to: the text of its value, if that has one, or an error. -/
def State.outcome? : State → Option (Except RuntimeError (Option String))
  | ⟨.give (.handle handle), [], machine⟩ =>
    (machine.heap.get? handle).map fun value => .ok (value.text? machine.heap)
  | ⟨.stop (.error error), [], _⟩ => some (.error error)
  | _ => none

/-- Runs beside each other come to the same. -/
theorem Simulates.outcome?_eq {n : Naming} {one two : State} (simulates : Simulates n one two) :
    two.outcome? = one.outcome? := by
  obtain ⟨control, stack, machine⟩ := one
  obtain ⟨controlCopy, stackCopy, machineCopy⟩ := two
  obtain ⟨mirrors, ⟨rfl, seen⟩, ⟨rfl, _⟩, _⟩ := simulates
  cases control with
  | run task => rfl
  | stop stop => cases stop <;> cases stack <;> rfl
  | give answer =>
    cases answer with
    | handle handle =>
      cases stack with
      | cons pending stack => rfl
      | nil =>
        obtain ⟨value, found, foundCopy, children⟩ :=
          mirrors.copies.exists_value (seen handle (List.mem_singleton_self handle))
        have text_eq := mirrors.copies.text?_rename children
        show (machineCopy.heap.get? (n.name handle)).map _ = (machine.heap.get? handle).map _
        rw [found, foundCopy]
        exact congrArg (fun text => some (Except.ok text)) text_eq
    | _ => rfl

theorem State.outcome?_eq_some {state : State} {outcome : Except RuntimeError (Option String)}
    (halted : state.outcome? = some outcome) :
    (∃ handle value, state = ⟨.give (.handle handle), [], state.machine⟩ ∧
      state.machine.heap.get? handle = some value ∧
      outcome = .ok (value.text? state.machine.heap)) ∨
    ∃ error, state = ⟨.stop (.error error), [], state.machine⟩ ∧ outcome = .error error := by
  unfold outcome? at halted
  split at halted
  · rename_i handle machine
    obtain ⟨value, found, rfl⟩ := Option.map_eq_some_iff.mp halted
    exact .inl ⟨handle, value, rfl, found, rfl⟩
  · rename_i error machine
    cases halted
    exact .inr ⟨error, rfl, rfl⟩
  · cases halted

theorem State.step_of_outcome? {state : State} {outcome : Except RuntimeError (Option String)}
    (halted : state.outcome? = some outcome) : Run.step state = none := by
  rcases State.outcome?_eq_some halted with ⟨handle, value, last, _, _⟩ | ⟨error, last, _⟩
  · rw [last]
    rfl
  · rw [last]
    rfl

/-- A program that is executed on a new machine, with enough steps allowed, comes to an end. -/
def Finishes (config : Config) (program : Program) : Prop :=
  ∃ steps, ∀ after, executeProgram steps program ScopeChain.global (.create config) ≠
    .error .exhausted after

/-- A program that is executed on a new machine, with enough steps allowed, comes to the text of its
value, if that has one, or to an error, and has printed something. -/
def Ends (config : Config) (program : Program) (outcome : Except RuntimeError (Option String))
    (output : String) : Prop :=
  ∃ steps, match (executeProgram steps program ScopeChain.global >>= textOf) (.create config) with
    | .ok text after => outcome = .ok text ∧ output = after.output
    | .error (.error error) after => outcome = .error error ∧ output = after.output
    | .error _ _ => False

section Ends

variable (config : Config) (program : Program)

theorem finishes_iff :
    Finishes config program ↔ ∃ count, step ((firstState config program).after count) = none := by
  let entry : Entry := .program program ScopeChain.global
  constructor
  · rintro ⟨steps, uncut⟩
    cases executed : executeProgram steps program ScopeChain.global (.create config) with
    | ok handle after =>
      obtain ⟨count, reached⟩ := (entry.reaches_handle_iff _ handle after).mpr ⟨steps, executed⟩
      exact ⟨count, congrArg step reached⟩
    | error stop after =>
      have stopped : stop ≠ .exhausted := by
        rintro rfl
        exact uncut after executed
      obtain ⟨count, reached⟩ := (entry.reaches_stop_iff _ stopped after).mpr ⟨steps, executed⟩
      exact ⟨count, congrArg step reached⟩
  · rintro ⟨count, halted⟩
    have reached : Reaches (entry.start (.create config)) _ := ⟨count, rfl⟩
    obtain ⟨steps, ⟨handle, after, executed, _⟩ | ⟨stop, after, uncut, executed, _⟩⟩ :=
      Entry.evaluates_of_reaches reached halted
    · refine ⟨steps, fun last cut => ?_⟩
      cases executed.symm.trans cut
    · refine ⟨steps, fun last cut => ?_⟩
      cases executed.symm.trans cut
      exact uncut rfl

theorem ends_iff (outcome : Except RuntimeError (Option String)) (output : String) :
    Ends config program outcome output ↔
      ∃ count, ((firstState config program).after count).outcome? = some outcome ∧
        ((firstState config program).after count).machine.output = output := by
  let entry : Entry := .program program ScopeChain.global
  constructor
  · rintro ⟨steps, ended⟩
    simp only [Bind.bind, EStateM.bind] at ended
    cases executed : executeProgram steps program ScopeChain.global (.create config) with
    | ok handle after =>
      obtain ⟨count, reached⟩ := (entry.reaches_handle_iff _ handle after).mpr ⟨steps, executed⟩
      simp only [executed] at ended
      cases found : after.heap.get? handle with
      | none =>
        simp only [textOf, Bind.bind, EStateM.bind, deref, found] at ended
      | some value =>
        simp only [textOf_of_get? found] at ended
        obtain ⟨rfl, rfl⟩ := ended
        have shows : State.outcome? ⟨.give (.handle handle), [], after⟩ =
            some (.ok (value.text? after.heap)) := by
          simp only [State.outcome?, found, Option.map_some]
        exact ⟨count, (congrArg State.outcome? reached).trans shows,
          congrArg (fun state => state.machine.output) reached⟩
    | error stop after =>
      simp only [executed] at ended
      cases stop with
      | error error =>
        obtain ⟨rfl, rfl⟩ := ended
        have uncut : Stop.error error ≠ .exhausted := Stop.noConfusion
        obtain ⟨count, reached⟩ := (entry.reaches_stop_iff _ uncut after).mpr ⟨steps, executed⟩
        exact ⟨count, congrArg State.outcome? reached,
          congrArg (fun state => state.machine.output) reached⟩
      | freeSlot access handle => exact ended.elim
      | exhausted => exact ended.elim
  · rintro ⟨count, halted, rfl⟩
    rcases State.outcome?_eq_some halted with ⟨handle, value, last, found, rfl⟩ | ⟨error, last, rfl⟩
    · obtain ⟨steps, executed⟩ := (entry.reaches_handle_iff _ handle _).mp ⟨count, last⟩
      refine ⟨steps, ?_⟩
      change executeProgram steps program ScopeChain.global (.create config) = _ at executed
      simp only [Bind.bind, EStateM.bind, executed, textOf_of_get? found, and_self]
    · have uncut : Stop.error error ≠ .exhausted := Stop.noConfusion
      obtain ⟨steps, executed⟩ := (entry.reaches_stop_iff _ uncut _).mp ⟨count, last⟩
      refine ⟨steps, ?_⟩
      change executeProgram steps program ScopeChain.global (.create config) = _ at executed
      simp only [Bind.bind, EStateM.bind, executed, and_self]

/-- A program that comes to an end does so with a text or an error of its own, as long as handles
name all slots. -/
theorem finishes_iff_ends
    (room : ∀ count, Addressable ((firstState config program).after count).machine) :
    Finishes config program ↔ ∃ outcome output, Ends config program outcome output := by
  let entry : Entry := .program program ScopeChain.global
  constructor
  · intro finishes
    obtain ⟨count, halted⟩ := (finishes_iff config program).mp finishes
    have safe : Safe ((firstState config program).after count) :=
      (ready_create config).safe program (room count)
    have reached : Reaches (entry.start (.create config))
        ((firstState config program).after count) := ⟨count, rfl⟩
    simp only [ends_iff]
    obtain ⟨_, ⟨handle, after, _, last⟩ | ⟨stop, after, uncut, _, last⟩⟩ :=
      Entry.evaluates_of_reaches reached halted
    · rw [last] at safe
      obtain ⟨value, found⟩ := (Heap.isLive_iff _ _).mp
        (safe.live handle (.control (List.mem_singleton_self handle)))
      refine ⟨.ok (value.text? after.heap), _, count, ?_, rfl⟩
      rw [last]
      simp only [State.outcome?, found, Option.map_some]
    · cases stop with
      | error error =>
        refine ⟨.error error, _, count, ?_, rfl⟩
        rw [last]
        rfl
      | freeSlot access handle =>
        exact absurd (congrArg State.control last) (safe.sound access handle)
      | exhausted => exact absurd rfl uncut
  · rintro ⟨outcome, output, ended⟩
    obtain ⟨count, halted, _⟩ := (ends_iff config program outcome output).mp ended
    exact (finishes_iff config program).mpr ⟨count, State.step_of_outcome? halted⟩

end Ends

/-- A program does not come to different ends. -/
theorem Ends.unique {config : Config} {program : Program}
    {outcome other : Except RuntimeError (Option String)} {output printed : String}
    (ends : Ends config program outcome output) (endsOther : Ends config program other printed) :
    other = outcome ∧ printed = output := by
  obtain ⟨count, halted, rfl⟩ := (ends_iff config program outcome output).mp ends
  obtain ⟨later, overLater, rfl⟩ := (ends_iff config program other printed).mp endsOther
  have same := Reaches.unique ⟨count, rfl⟩ ⟨later, rfl⟩ (State.step_of_outcome? halted)
    (State.step_of_outcome? overLater)
  rw [← same] at overLater ⊢
  exact ⟨Option.some.inj (overLater.symm.trans halted), rfl⟩

/-- The run of a program that does not call the native that collects is the same with all settings
of the collector, as long as handles name all slots: it comes to an end or goes on, what it has
printed at each point is the same, and so is what it comes to in the end. -/
theorem collection_unobservable (program : Program) (config other : Config)
    (limit : other.maxCallDepth = config.maxCallDepth)
    (quiet : ∀ count, ((firstState config program).after count).callsCollect = false)
    (room : ∀ count,
      ((firstState config program).after count).machine.heap.slotCount ≤ 2 ^ 32)
    (roomOther : ∀ count,
      ((firstState other program).after count).machine.heap.slotCount ≤ 2 ^ 32) :
    (Finishes config program ↔ Finishes other program) ∧
    (∀ outcome output, Ends config program outcome output ↔ Ends other program outcome output) ∧
    (∀ count, ((firstState other program).after count).machine.output =
      ((firstState config program).after count).machine.output) ∧
    ∀ count, ((firstState other program).after count).callsCollect = false := by
  obtain ⟨n, _, mirrors⟩ := mirrors_create limit
  have beside (count : Nat) : ∃ m, Simulates m ((firstState config program).after count)
      ((firstState other program).after count) :=
    mirrors.beside program (fun count => .inl (quiet count)) room roomOther count
  have outcome_eq (count : Nat) : ((firstState other program).after count).outcome? =
      ((firstState config program).after count).outcome? := by
    obtain ⟨m, simulates⟩ := beside count
    exact simulates.outcome?_eq
  have output_eq (count : Nat) : ((firstState other program).after count).machine.output =
      ((firstState config program).after count).machine.output := by
    obtain ⟨m, simulates⟩ := beside count
    exact simulates.mirrors.output
  have ends (outcome : Except RuntimeError (Option String)) (output : String) :
      Ends config program outcome output ↔ Ends other program outcome output := by
    simp only [ends_iff, outcome_eq, output_eq]
  refine ⟨?_, ends, output_eq, fun count => ?_⟩
  · rw [finishes_iff_ends config program room, finishes_iff_ends other program roomOther]
    simp only [ends]
  · obtain ⟨m, simulates⟩ := beside count
    exact simulates.callsCollect_eq.trans (quiet count)

theorem listProgram_over : step ((firstState {} listProgram).after 24) = none := by
  rfl

set_option maxRecDepth 10000 in
theorem listProgram_quiet (count : Nat) :
    ((firstState {} listProgram).after count).callsCollect = false :=
  State.quiet_of_over listProgram_over (by decide) count

theorem listProgram_room (count : Nat) :
    ((firstState {} listProgram).after count).machine.heap.slotCount ≤ 2 ^ 32 := by
  refine State.addressable_of_over listProgram_over ?_ count
  have few : ((firstState {} listProgram).after 24).machine.heap.slotCount = 7 := by rfl
  rw [Addressable, few]
  decide

/-- Where each statement starts a collection, the list takes as many slots. -/
theorem listProgram_roomOften (count : Nat) :
    ((firstState { gcThreshold := 1 } listProgram).after count).machine.heap.slotCount ≤
      2 ^ 32 := by
  have ended : step ((firstState { gcThreshold := 1 } listProgram).after 24) = none := by cbv
  refine State.addressable_of_over ended ?_ count
  have few : ((firstState { gcThreshold := 1 } listProgram).after 24).machine.heap.slotCount = 7 :=
    by cbv
  rw [Addressable, few]
  decide

/-- The list is made also where each statement starts a collection. -/
theorem collection_unobservable_listProgram :
    (∀ count, ((firstState {} listProgram).after count).callsCollect = false) ∧
      Finishes { gcThreshold := 1 } listProgram ∧
      ∀ outcome output, Ends {} listProgram outcome output ↔
        Ends { gcThreshold := 1 } listProgram outcome output := by
  have same := collection_unobservable listProgram {} { gcThreshold := 1 } rfl listProgram_quiet
    listProgram_room listProgram_roomOften
  have finishes := (finishes_iff {} listProgram).mpr ⟨24, listProgram_over⟩
  exact ⟨listProgram_quiet, same.1.mp finishes, same.2.1⟩

end Scriptlet.Run
