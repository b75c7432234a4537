import Scriptlet.Proofs.Run.Observation

set_option autoImplicit false

/-!
What is seen of a run that is over. A run comes to one ending at most, whatever state of it is taken
for the first one, and machines that mirror each other are seen to be the same.
-/
namespace Scriptlet

/-- For a name that is bound in the global scope, the text of its value, if that has one. -/
def Machine.globalText? (machine : Machine) (name : String) : Option (Option String) :=
  (machine.global? name).map fun value => value.text? machine.heap

namespace Run

open Eval

/-- What is seen of a run that is over: what has been printed, and the error that it failed with, or
else the global names with the texts of their values. -/
structure Ending where
  output : String
  outcome : Except RuntimeError (String → Option (Option String))

/-- What is seen of a result, unless the run was cut short or stopped for a free slot. -/
def ending? : EStateM.Result Stop Machine Handle → Option Ending
  | .ok _ machine => some ⟨machine.output, .ok machine.globalText?⟩
  | .error (.error error) machine => some ⟨machine.output, .error error⟩
  | .error _ _ => none

theorem ne_exhausted_of_ending? {result : EStateM.Result Stop Machine Handle} {ending : Ending}
    (seen : ending? result = some ending) (machine : Machine) :
    result ≠ .error .exhausted machine := by
  rintro rfl
  cases seen

def launch (program : Program) (machine : Machine) : State :=
  (Entry.program program ScopeChain.global).start machine

/-- From a state on, the native that collects is not called, and handles name all slots. -/
def State.Tame (state : State) : Prop :=
  ∀ count, (state.after count).callsCollect = false ∧
    (state.after count).machine.heap.slotCount ≤ 2 ^ 32

theorem State.Tame.of_reaches {first last : State} (tame : first.Tame)
    (reached : Reaches first last) : last.Tame := by
  obtain ⟨count, rfl⟩ := reached
  intro more
  rw [← State.after_add]
  exact tame (count + more)

/-- A run that is over is tame if it was up to the end, and has handles for its last slots. -/
theorem State.tame_of_over {state : State} {last : Nat}
    (halted : Run.step (state.after last) = none)
    (quiet : ∀ count ≤ last, (state.after count).callsCollect = false)
    (room : Addressable (state.after last).machine) : state.Tame :=
  fun count => ⟨State.quiet_of_over halted quiet count, State.addressable_of_over halted room count⟩

def State.final : EStateM.Result Stop Machine Handle → State
  | .ok handle machine => ⟨.give (.handle handle), [], machine⟩
  | .error stop machine => ⟨.stop stop, [], machine⟩

theorem State.step_final (result : EStateM.Result Stop Machine Handle) :
    Run.step (.final result) = none := by
  cases result <;> rfl

theorem State.final_injective : Function.Injective State.final := by
  intro one two same
  cases one <;> cases two <;> cases same <;> rfl

/-- A run ends with a result exactly if the evaluation does, with enough steps. -/
theorem reaches_final_iff {program : Program} {machine : Machine}
    {result : EStateM.Result Stop Machine Handle}
    (uncut : ∀ after, result ≠ .error .exhausted after) :
    Reaches (launch program machine) (.final result) ↔
      ∃ steps, executeProgram steps program ScopeChain.global machine = result := by
  let entry : Entry := .program program ScopeChain.global
  cases result with
  | ok handle after => exact entry.reaches_handle_iff machine handle after
  | error stop after =>
    have uncutStop : stop ≠ .exhausted := by
      rintro rfl
      exact uncut after rfl
    exact entry.reaches_stop_iff machine uncutStop after

/-- A program that is executed on a machine, with enough steps allowed, comes to an ending. -/
def EndsIn (program : Program) (machine : Machine) (ending : Ending) : Prop :=
  ∃ steps, ending? (executeProgram steps program ScopeChain.global machine) = some ending

def EndsAt (state : State) (ending : Ending) : Prop :=
  ∃ result, Reaches state (.final result) ∧ ending? result = some ending

theorem endsIn_iff {program : Program} {machine : Machine} {ending : Ending} :
    EndsIn program machine ending ↔ EndsAt (launch program machine) ending := by
  constructor
  · rintro ⟨steps, seen⟩
    have reached := (reaches_final_iff (ne_exhausted_of_ending? seen)).mpr ⟨steps, rfl⟩
    exact ⟨_, reached, seen⟩
  · rintro ⟨result, reached, seen⟩
    obtain ⟨steps, rfl⟩ := (reaches_final_iff (ne_exhausted_of_ending? seen)).mp reached
    exact ⟨steps, seen⟩

/-- The run from a state on comes to an end. -/
def Halts (state : State) : Prop :=
  ∃ last, Reaches state last ∧ step last = none

section Reaches

variable {first last : State} (reached : Reaches first last)

include reached

/-- The last state of a run comes after any other one. -/
theorem Reaches.before_last {halted : State} (ends : Reaches first halted)
    (ended : Run.step halted = none) : Reaches last halted := by
  obtain ⟨count, rfl⟩ := reached
  obtain ⟨more, rfl⟩ := ends
  refine ⟨more, ?_⟩
  rw [← State.after_add, Nat.add_comm, State.after_add, State.after_of_over ended]

theorem Halts.of_reaches (halts : Halts first) : Halts last := by
  obtain ⟨halted, ends, ended⟩ := halts
  exact ⟨halted, reached.before_last ends ended, ended⟩

theorem endsAt_iff_of_reaches (ending : Ending) : EndsAt first ending ↔ EndsAt last ending := by
  constructor
  · rintro ⟨result, ends, seen⟩
    exact ⟨result, reached.before_last ends (State.step_final result), seen⟩
  · rintro ⟨result, ends, seen⟩
    exact ⟨result, reached.trans ends, seen⟩

end Reaches

theorem endsAt_final {result : EStateM.Result Stop Machine Handle} {ending : Ending} :
    EndsAt (.final result) ending ↔ ending? result = some ending := by
  constructor
  · rintro ⟨other, reached, seen⟩
    have same := reached.unique (.refl _) (State.step_final other) (State.step_final result)
    rwa [← State.final_injective same]
  · exact fun seen => ⟨result, .refl _, seen⟩

theorem endsAt_iff_of_final {state : State} {result : EStateM.Result Stop Machine Handle}
    (reached : Reaches state (.final result)) (ending : Ending) :
    EndsAt state ending ↔ ending? result = some ending :=
  (endsAt_iff_of_reaches reached ending).trans endsAt_final

theorem not_endsAt_of_not_halts {state : State} (endless : ¬ Halts state) (ending : Ending) :
    ¬ EndsAt state ending := by
  rintro ⟨result, reached, _⟩
  exact endless ⟨_, reached, State.step_final result⟩

section Mirrors

variable {n : Naming} {one two : Machine} (mirrors : Mirrors n one two)

include mirrors

theorem Mirrors.globalText?_eq : two.globalText? = one.globalText? := by
  funext name
  unfold Machine.globalText? Machine.global?
  rw [mirrors.scopes, ScopeChain.lookup?_rename]
  cases found : one.scopes.lookup? ScopeChain.global name with
  | none => rfl
  | some handle =>
    have seen := mirrors.scopesInView handle (ScopeChain.mem_roots_of_lookup? found)
    obtain ⟨value, value_eq, valueCopy_eq, children⟩ := mirrors.copies.exists_value seen
    have text_eq := mirrors.copies.text?_rename children
    simp only [Option.map_some, Option.bind_some, value_eq, valueCopy_eq, text_eq]

/-- Values given on machines that mirror each other are not seen. -/
theorem Mirrors.ending?_eq (handle copy : Handle) :
    ending? (.ok copy two) = ending? (.ok handle one) := by
  simp only [ending?, mirrors.output, mirrors.globalText?_eq]

/-- One machine may have more in its slots. -/
theorem Mirrors.allocOne (value : Value) :
    Mirrors n { one with heap := (one.heap.alloc value).2 } two :=
  { mirrors with
    consistent := mirrors.consistent.alloc value
    copies := mirrors.copies.congr fun handle seen =>
      mirrors.consistent.get?_alloc_of_isLive value (mirrors.copies.live handle seen) }

/-- The other machine may have more in its slots. -/
theorem Mirrors.allocCopy (value : Value) :
    Mirrors n one { two with heap := (two.heap.alloc value).2 } :=
  { mirrors with
    consistentCopy := mirrors.consistentCopy.alloc value
    copies := mirrors.copies.congrCopy fun _ seen =>
      mirrors.consistentCopy.get?_alloc_of_isLive value (mirrors.copies.isLive_copy seen) }

/-- A value that is missing gets a slot of its own; apart from that, nothing changes. -/
theorem Mirrors.exists_orUndefined (completion : Option Handle) :
    ∃ handle after, orUndefined completion one = .ok handle after ∧ after.roots = one.roots ∧
      Mirrors n after two := by
  cases completion with
  | some handle => exact ⟨handle, one, rfl, rfl, mirrors⟩
  | none => exact ⟨_, _, rfl, rfl, mirrors.allocOne .undefined⟩

theorem Mirrors.exists_orUndefinedCopy (completion : Option Handle) :
    ∃ handle after, orUndefined completion two = .ok handle after ∧ Mirrors n one after := by
  cases completion with
  | some handle => exact ⟨handle, two, rfl, mirrors⟩
  | none => exact ⟨_, _, rfl, mirrors.allocCopy .undefined⟩

end Mirrors

end Run
end Scriptlet
