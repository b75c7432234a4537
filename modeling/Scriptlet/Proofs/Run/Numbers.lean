import Mathlib
import Scriptlet.Proofs.Run.Rooting
import Scriptlet.Proofs.Run.Trace

set_option autoImplicit false

/-!
The numbers of a run. No value that is put into a slot holds a double that is not a number, so none
is found in a slot at any point of a session.
-/
namespace Scriptlet
namespace Run

open Eval

section Steps

/-- Neither the quiet things that work does nor the move it comes to put a double into a slot that
is not a number. -/
theorem Makes.wellKinded {may : List Handle → Move → Prop} {machine : Machine}
    {result : EStateM.Result Stop Machine Next} (makes : Makes may machine result)
    (wellKinded : machine.heap.WellKinded) : (lastMachine result).heap.WellKinded := by
  cases makes with
  | freeSlot quiet => exact quiet.wellKinded wellKinded
  | @move move held middle made quiet =>
    have kept := quiet.wellKinded wellKinded
    cases move <;> exact kept

theorem keepsKinds_of_leads {may : List Handle → List Handle → Move → Prop} {work : Eval Next}
    (leads : ∀ roots, Leads (may roots) roots work) : KeepsKinds work := by
  intro machine wellKinded
  have kept := ((leads machine.roots).makes rfl).wellKinded wellKinded
  cases outcome : work machine <;> rw [outcome] at kept <;> exact kept

theorem keepsKinds_openScope (parent : ScopeId) (kind : ScopeKind) (this : Option Handle) :
    KeepsKinds (openScope parent kind this) :=
  keepsKinds_of_heap fun _ => heap_record _ _

theorem keepsKinds_makeFunction (node : NodeId) (name : Option String) (params : List String)
    (body : Block) (scope : ScopeId) :
    KeepsKinds (makeFunction node name params body scope) := by
  have made (closure : Closure) : KeepsKinds (alloc (.function closure)) :=
    keepsKinds_alloc trivial
  apply (made _).bind
  intro handle
  cases name with
  | none => exact (keepsKinds_pure _).bind fun _ => keepsKinds_pure handle
  | some name => exact (keepsKinds_declare scope name handle).bind fun _ => keepsKinds_pure handle

theorem keepsKinds_enterBody (closure : Closure) (this : Option Handle)
    (arguments : List Handle) : KeepsKinds (enterBody closure this arguments) := by
  have deepens : KeepsKinds deepen := keepsKinds_of_heap fun _ => rfl
  apply keepsKinds_get.bind
  intro machine
  apply (keepsKinds_openScope _ _ _).bind
  intro scope
  apply (ordinary_bindParameters scope closure.params arguments).keepsKinds.bind
  intro _
  exact (keepsKinds_record _).bind fun _ => deepens.bind fun _ => keepsKinds_pure _

theorem keepsKinds_beginBody (closure : Closure) (this : Option Handle) (arguments : List Handle)
    (span : Span) : KeepsKinds (beginBody closure this arguments span) := by
  intro machine wellKinded
  unfold beginBody
  by_cases exited : !machine.scopes.isLive closure.scope
  · rw [if_pos exited]
    exact wellKinded
  · rw [if_neg exited]
    by_cases deepest : machine.config.maxCallDepth ≤ machine.callDepth
    · rw [if_pos deepest]
      exact wellKinded
    · rw [if_neg deepest]
      exact keepsKinds_enterBody closure this arguments machine wellKinded

theorem keepsKinds_begin (task : Task) : KeepsKinds (begin task) := by
  induction task using Task.plainCases with
  | plain task plain => exact keepsKinds_of_leads fun _ => begin_leads plain
  | function info name params body scope =>
    exact (keepsKinds_visit _ _).bind fun _ =>
      (keepsKinds_makeFunction _ _ _ _ _).bind fun _ => keepsKinds_pure _
  | block block scope =>
    exact (keepsKinds_visit _ _).bind fun _ =>
      (keepsKinds_openScope _ _ _).bind fun _ => keepsKinds_pure _
  | body closure this arguments span => exact keepsKinds_beginBody closure this arguments span

theorem KeepsKinds.settle {work : Eval Next} (keeps : KeepsKinds work) (stack : List Pending)
    {machine : Machine} (wellKinded : machine.heap.WellKinded) :
    (settle stack (work machine)).machine.heap.WellKinded := by
  have here := keeps machine wellKinded
  cases outcome : work machine with
  | ok next after => rwa [outcome] at here
  | error stop after => rwa [outcome] at here

theorem wellKinded_step {state next : State} (wellKinded : state.machine.heap.WellKinded)
    (next_eq : step state = some next) : next.machine.heap.WellKinded := by
  obtain ⟨control, stack, machine⟩ := state
  have left (pending : Pending) : (pending.leave machine).heap.WellKinded := by
    rwa [heap_leave]
  cases control with
  | run task =>
    cases next_eq
    exact (keepsKinds_begin task).settle stack wellKinded
  | give answer =>
    cases stack with
    | nil => cases next_eq
    | cons pending stack =>
      cases next_eq
      have keeps := keepsKinds_of_leads fun _ => proceed_leads pending answer
      exact keeps.settle stack (left pending)
  | stop stop =>
    cases stack with
    | nil => cases next_eq
    | cons pending stack =>
      cases next_eq
      exact left pending

theorem wellKinded_after (state : State) (wellKinded : state.machine.heap.WellKinded)
    (count : Nat) : (state.after count).machine.heap.WellKinded := by
  induction count with
  | zero => exact wellKinded
  | succ count ih =>
    rw [State.after_succ]
    cases next_eq : step (state.after count) with
    | none => exact ih
    | some next => exact wellKinded_step ih next_eq

end Steps

section Sessions

variable {config : Config} {machine : Machine}

theorem wellKinded_create (config : Config) : (Machine.create config).heap.WellKinded := by
  refine List.foldlRecOn (motive := fun machine : Machine => machine.heap.WellKinded) _ _ ?_ ?_
  · exact fun value stored => absurd stored (not_stores_bare config value)
  · intro before kept entry _
    exact kept.alloc trivial

/-- A run that is over has left the heap of its last state. -/
theorem wellKinded_execute (wellKinded : machine.heap.WellKinded) (program : Program)
    (steps : Nat) :
    match executeProgram steps program ScopeChain.global machine with
    | .ok _ after => after.heap.WellKinded
    | .error stop after => stop ≠ .exhausted → after.heap.WellKinded := by
  let entry : Entry := .program program ScopeChain.global
  cases outcome : executeProgram steps program ScopeChain.global machine with
  | ok handle after =>
    obtain ⟨count, reached⟩ := (entry.reaches_handle_iff machine handle after).mpr ⟨steps, outcome⟩
    have last := wellKinded_after (entry.start machine) wellKinded count
    rwa [reached] at last
  | error stop after =>
    intro uncut
    obtain ⟨count, reached⟩ := (entry.reaches_stop_iff machine uncut after).mpr ⟨steps, outcome⟩
    have last := wellKinded_after (entry.start machine) wellKinded count
    rwa [reached] at last

theorem Session.wellKinded (session : Session config machine) : machine.heap.WellKinded := by
  induction session with
  | create => exact wellKinded_create config
  | run session steps text uncut ih =>
    rename_i machine
    have read : (machine.read text).2.heap.WellKinded := by rwa [heap_read]
    rcases run_cases machine steps text with ⟨failure, reader, read_eq, run_eq⟩ |
      ⟨program, reader, read_eq, ⟨handle, after, outcome, run_eq⟩ | ⟨stop, after, outcome, run_eq⟩⟩
    all_goals rw [read_eq] at read; rw [run_eq] at uncut ⊢
    · exact read
    -- The text of the value is made without a new slot, so the execution alone counts.
    all_goals
      have executed := wellKinded_execute read program steps
      rw [outcome] at executed
    · exact executed
    · apply executed
      rintro rfl
      exact uncut rfl

/-- At no point of a session is there a slot with a double that is not a number. So any two numbers
in slots are ordered, and what is in a slot and is not a number is of a kind of its own: it equals
nothing, whatever its handle is, counts as false, and stands for zero. -/
theorem session_numbers (session : Session config machine) (text : String) (entry : Entry)
    (count : Nat) :
    let heap := ((entry.start (machine.read text).2).after count).machine.heap
    (∀ x, heap.Stores (.number x) → x.isNaN = false) ∧
    (∀ x y, heap.Stores (.number x) → heap.Stores (.number y) →
      ∃ ordering, Value.compareFloats x y = some ordering ∧ ∀ operator,
        Value.relate operator (.number x) (.number y) = .boolean (Value.fits operator ordering)) ∧
    ∀ value, heap.Stores value → value.IsNotNumber → value = .nan ∧
      value.isTruthy = false ∧ value.toNumber? = some 0.0 ∧ value.text? heap = some "NaN" ∧
      ∀ (handle : Handle) (other : Handle × Value),
        Value.looselyEqual (handle, value) other = false ∧
        Value.looselyEqual other (handle, value) = false ∧
        Value.strictlyEqual (handle, value) other = false ∧
        Value.strictlyEqual other (handle, value) = false := by
  intro heap
  have read : (machine.read text).2.heap.WellKinded := by
    rw [heap_read]
    exact session.wellKinded
  have wellKinded : heap.WellKinded := wellKinded_after (entry.start _) read count
  refine ⟨fun x stored => wellKinded _ stored, ?_, ?_⟩
  · intro x y stored_x stored_y
    obtain ⟨ordering, ordering_eq⟩ :=
      Value.exists_compareFloats (wellKinded _ stored_x) (wellKinded _ stored_y)
    refine ⟨ordering, ordering_eq, fun operator => ?_⟩
    simp only [Value.relate, Value.toNumber?, ordering_eq, Option.any_some]
  · intro value stored notNumber
    obtain rfl := (wellKinded value stored).eq_nan notNumber
    exact ⟨rfl, rfl, rfl, Value.text?_nan heap, Value.equal_nan⟩

end Sessions

/-- A program that reads the length of an array, and makes a number of an array, which has none. -/
def lengthProgram : Program :=
  let info (number start stop : Nat) : NodeInfo := ⟨⟨number⟩, ⟨start, stop⟩⟩
  ⟨⟨8⟩, ⟨⟨7⟩, [.declaration (info 3 0 18) .var [⟨info 2 4 17, "x",
      some (.member (info 1 8 17) (.array (info 0 8 10) []) (.named "length"))⟩],
    .expression (info 6 19 23) (.unary (info 5 19 22) .plus (.array (info 4 20 22) []))]⟩⟩

theorem ofText_lengthProgram :
    Program.ofText "var x = [].length; +[];" = .ok lengthProgram := by
  cbv

/-- The heap of a new machine that has executed the program. -/
def lengthHeap : Heap :=
  (((Entry.program lengthProgram ScopeChain.global).start (.create {})).after 28).machine.heap

/-- The length is a number in a slot, and the last value of the program is the one that is none. -/
theorem session_numbers_length :
    Session {} (.create {}) ∧
      lengthHeap.get? ⟨6⟩ = some (.number (Float.ofNat 0)) ∧ (Float.ofNat 0).isNaN = false ∧
      lengthHeap.get? ⟨8⟩ = some .nan ∧ Value.nan.isTruthy = false ∧
      Value.looselyEqual (⟨8⟩, .nan) (⟨8⟩, .nan) = false := by
  have session : Session {} (.create {}) := .create
  have length : lengthHeap.get? ⟨6⟩ = some (.number (Float.ofNat 0)) := by rfl
  have last : lengthHeap.get? ⟨8⟩ = some .nan := by rfl
  have numbers := session_numbers session "var x = [].length; +[];"
    (.program lengthProgram ScopeChain.global) 28
  rw [read_of_ofText rfl ofText_lengthProgram] at numbers
  obtain ⟨number, _, nan⟩ := numbers
  have ordered := number _ (Heap.stores_of_get? length)
  obtain ⟨_, untrue, _, _, unequal⟩ := nan .nan (Heap.stores_of_get? last) trivial
  exact ⟨session, length, ordered, last, untrue, (unequal ⟨8⟩ (⟨8⟩, .nan)).1⟩

end Run
end Scriptlet
