import Scriptlet.Proofs.Run.Rooting

set_option autoImplicit false

/-!
The points of a session, over all its runs. Every point of every run of a session comes after those
before it, so what was done earlier can be told from them.
-/
namespace Scriptlet.Run

open Eval

/-- Reads texts one after the other, and runs none of them. -/
def readAll (machine : Machine) (texts : List String) : Machine :=
  texts.foldl (fun machine text => (machine.read text).2) machine

/-- The points of a session up to some point, that one first. A program starts on a new machine, or
when the run before it is over; more texts may be read in between. -/
inductive Trace (config : Config) : List State → Prop where
  | first (texts : List String) {text : String} {program : Program} {reader : Machine}
      (read_eq : (readAll (.create config) texts).read text = (.ok program, reader)) :
      Trace config [(Entry.program program ScopeChain.global).start reader]
  | again {last : State} {past : List State} (trace : Trace config (last :: past))
      (ended : step last = none) (texts : List String) {text : String} {program : Program}
      {reader : Machine}
      (read_eq : (readAll last.machine texts).read text = (.ok program, reader)) :
      Trace config ((Entry.program program ScopeChain.global).start reader :: last :: past)
  | step {state next : State} {past : List State} (trace : Trace config (state :: past))
      (next_eq : step state = some next) : Trace config (next :: state :: past)

/-- How many frames were opened. A step opens at most one, and then there is one more. -/
def openings : List State → Nat
  | next :: state :: past =>
    (if state.machine.scopes.depth < next.machine.scopes.depth then 1 else 0) +
      openings (state :: past)
  | _ => 0

/-- A program was read from a text and has started to run. -/
def Ran (points : List State) (program : Program) : Prop :=
  (∃ text, Program.ofText text = .ok program) ∧
    ∃ reader, (Entry.program program ScopeChain.global).start reader ∈ points

theorem Ran.later {points : List State} {program : Program} (ran : Ran points program)
    (next : State) : Ran (next :: points) program := by
  obtain ⟨read, reader, member⟩ := ran
  exact ⟨read, reader, List.mem_cons_of_mem _ member⟩

theorem ofText_of_read {machine reader : Machine} {text : String}
    {result : Except Grammar.Failure Program} (read_eq : machine.read text = (result, reader)) :
    Program.ofText text = result := by
  unfold Machine.read at read_eq
  unfold Program.ofText
  rcases read : Program.read text with ⟨outcome, builder⟩
  rw [read] at read_eq
  cases outcome with
  | ok program => exact (Prod.mk.inj read_eq).1
  | error failure => exact (Prod.mk.inj read_eq).1

/-- Reading a program does nothing to a machine without an observer. -/
theorem read_of_ofText {machine : Machine} (unseen : machine.observed = false) {text : String}
    {program : Program} (text_eq : Program.ofText text = .ok program) :
    machine.read text = (.ok program, machine) := by
  unfold Program.ofText at text_eq
  unfold Machine.read Machine.recordNodes Machine.record
  rcases outcome : Program.read text with ⟨result, builder⟩
  rw [outcome] at text_eq
  obtain rfl : result = .ok program := text_eq
  simp [unseen]

theorem openings_le_succ (next : State) (points : List State) :
    openings (next :: points) ≤ openings points + 1 := by
  cases points with
  | nil => exact Nat.zero_le _
  | cons state past =>
    rw [openings]
    split <;> omega

/-- A trace goes on for any number of steps, with no more openings than steps. -/
theorem Trace.after {config : Config} {state : State} {past : List State}
    (trace : Trace config (state :: past)) (count : Nat) :
    ∃ more, Trace config (state.after count :: more) ∧
      openings (state.after count :: more) ≤ openings (state :: past) + count := by
  induction count with
  | zero => exact ⟨past, trace, Nat.le_refl _⟩
  | succ count ih =>
    obtain ⟨more, before, counted⟩ := ih
    rw [State.after_succ]
    cases next_eq : Run.step (state.after count) with
    | none => exact ⟨more, before, Nat.le_succ_of_le counted⟩
    | some next =>
      exact ⟨_, before.step next_eq, Nat.le_trans (openings_le_succ next _)
        (Nat.succ_le_succ counted)⟩

/-- A machine between runs comes from a new one, or from the end of the last run, by reading. -/
def Between (config : Config) (machine : Machine) : Prop :=
  ∃ texts, machine = readAll (.create config) texts ∨
    ∃ last past, Trace config (last :: past) ∧ step last = none ∧
      machine = readAll last.machine texts

theorem Between.start {config : Config} {machine : Machine} (between : Between config machine)
    {text : String} {program : Program} {reader : Machine}
    (read_eq : machine.read text = (.ok program, reader)) :
    ∃ past, Trace config ((Entry.program program ScopeChain.global).start reader :: past) := by
  obtain ⟨texts, rfl | ⟨last, past, trace, ended, rfl⟩⟩ := between
  · exact ⟨[], .first texts read_eq⟩
  · exact ⟨last :: past, trace.again ended texts read_eq⟩

theorem Between.read {config : Config} {machine : Machine} (between : Between config machine)
    (text : String) : Between config (machine.read text).2 := by
  obtain ⟨texts, rfl | ⟨last, past, trace, ended, rfl⟩⟩ := between
  · exact ⟨texts ++ [text], .inl (by simp [readAll])⟩
  · exact ⟨texts ++ [text], .inr ⟨last, past, trace, ended, by simp [readAll]⟩⟩

/-- A run that has come to its end leaves a machine between runs. -/
theorem Between.reaches {config : Config} {machine : Machine} (between : Between config machine)
    {text : String} {program : Program} {reader : Machine}
    (read_eq : machine.read text = (.ok program, reader)) {last : State} (ended : step last = none)
    (reached : Reaches ((Entry.program program ScopeChain.global).start reader) last) :
    Between config last.machine := by
  obtain ⟨past, trace⟩ := between.start read_eq
  obtain ⟨count, rfl⟩ := reached
  obtain ⟨more, trace, _⟩ := trace.after count
  exact ⟨[], .inr ⟨_, more, trace, ended, rfl⟩⟩

theorem Session.between {config : Config} {machine : Machine} (session : Session config machine) :
    Between config machine := by
  induction session with
  | create => exact ⟨[], .inl rfl⟩
  | @run machine session steps text uncut between =>
    rcases run_cases machine steps text with ⟨failure, reader, read_eq, run_eq⟩ |
      ⟨program, reader, read_eq, ⟨handle, after, outcome, run_eq⟩ | ⟨stop, after, outcome, run_eq⟩⟩
    all_goals rw [run_eq] at uncut ⊢
    · have read := between.read text
      rwa [read_eq] at read
    all_goals let entry : Entry := .program program ScopeChain.global
    · have reached := (entry.reaches_handle_iff reader handle after).mpr ⟨steps, outcome⟩
      exact between.reaches read_eq rfl reached
    · have uncut : stop ≠ .exhausted := by
        rintro rfl
        exact uncut rfl
      have reached := (entry.reaches_stop_iff reader uncut after).mpr ⟨steps, outcome⟩
      exact between.reaches read_eq rfl reached

/-- Every point of every run of a session is a point of a trace. -/
theorem Session.exists_trace {config : Config} {machine : Machine}
    (session : Session config machine) {text : String} {program : Program} {reader : Machine}
    (read_eq : machine.read text = (.ok program, reader)) (count : Nat) :
    ∃ past, Trace config
      (((Entry.program program ScopeChain.global).start reader).after count :: past) := by
  obtain ⟨past, trace⟩ := session.between.start read_eq
  obtain ⟨more, later, _⟩ := trace.after count
  exact ⟨more, later⟩

end Scriptlet.Run
