import Scriptlet.Proofs.Run.Roots

set_option autoImplicit false

/-!
Slots are never taken away, so a machine that has a handle for each of its slots had one all along.
-/
namespace Scriptlet.Run

open Eval

/-- No slot of a machine is behind those that handles can name. -/
def Addressable (machine : Machine) : Prop :=
  machine.heap.slotCount ≤ 2 ^ 32

def lastMachine {α : Type} : EStateM.Result Stop Machine α → Machine
  | .ok _ machine | .error _ machine => machine

/-- There are no fewer slots after an action. -/
class Growing {α : Type} (action : Eval α) : Prop where
  slotCount_le : ∀ machine, machine.heap.slotCount ≤ (lastMachine (action machine)).heap.slotCount

section Growing

variable {α β : Type}

theorem Keeping.growing {action : Eval α} (keeping : Keeping action) : Growing action where
  slotCount_le machine := by
    have kept := keeping machine
    cases outcome : action machine <;> rw [outcome] at kept <;> exact kept.2

theorem Elementary.growing {action : Eval α} (elementary : Elementary action) : Growing action :=
  elementary.keeping.growing

theorem Ordinary.growing {action : Eval α} (ordinary : Ordinary action) : Growing action :=
  ordinary.elementary.growing

instance (value : α) : Growing (pure value : Eval α) :=
  (Elementary.pure value).growing

instance {action : Eval α} {rest : α → Eval β} [first : Growing action]
    [others : ∀ value, Growing (rest value)] : Growing (action >>= rest) where
  slotCount_le machine := by
    have one := first.slotCount_le machine
    rw [bind_at]
    cases outcome : action machine with
    | ok value middle =>
      rw [outcome] at one
      exact Nat.le_trans one ((others value).slotCount_le middle)
    | error stop middle =>
      rw [outcome] at one
      exact one

instance {action : Eval α} {change : α → β} [Growing action] : Growing (change <$> action) := by
  rw [map_eq_pure_bind]
  infer_instance

instance (value : Value) : Growing (alloc value) :=
  (Elementary.alloc value).growing

instance (handle : Handle) : Growing (deref handle) :=
  (Elementary.deref handle).growing

instance (handle : Handle) (change : Value → Value) : Growing (update handle change) :=
  (Elementary.update handle change).growing

instance (scope : ScopeId) (name : String) (handle : Handle) :
    Growing (declare scope name handle) :=
  (Elementary.declare scope name handle).growing

instance (scope : ScopeId) (name : String) (handle : Handle) : Growing (assign scope name handle) :=
  (Elementary.assign scope name handle).growing

instance (event : Event) : Growing (record event) :=
  (Elementary.record event).growing

instance (info : NodeInfo) (kind : NodeKind) : Growing (visit info kind) :=
  (Elementary.visit info kind).growing

instance (handle : Handle) : Growing (textOf handle) :=
  (ordinary_textOf handle).growing

instance (count : Nat) (handles : Array Handle) : Growing (allocHoles count handles) :=
  (ordinary_allocHoles count handles).growing

instance (scope : ScopeId) (params : List String) (arguments : List Handle) :
    Growing (bindParameters scope params arguments) :=
  (ordinary_bindParameters scope params arguments).growing

instance (target : Handle) (key : PropertyKey) (handle : Handle) :
    Growing (setProperty target key handle) :=
  (ordinary_setProperty target key handle).growing

instance (node : NodeId) (name : Option String) (params : List String) (body : Block)
    (scope : ScopeId) : Growing (makeFunction node name params body scope) :=
  (Elementary.makeFunction node name params body scope).growing

instance (handle : Handle) : Growing (protect handle) :=
  ⟨fun _ => Nat.le_refl _⟩

instance (mark : Mark) : Growing (release mark) :=
  ⟨fun _ => Nat.le_refl _⟩

instance (parent : ScopeId) (kind : ScopeKind) (this : Option Handle) :
    Growing (openScope parent kind this) :=
  (keeping_openScope parent kind this).growing

instance : Growing deepen :=
  ⟨fun _ => Nat.le_refl _⟩

instance (answer : Answer) (pending : List Pending) : Growing (resume answer pending) :=
  ⟨fun _ => Nat.le_refl _⟩

instance (answer : Answer) : Growing (give answer) :=
  ⟨fun _ => Nat.le_refl _⟩

instance (handle : Handle) : Growing (giveHandle handle) :=
  ⟨fun _ => Nat.le_refl _⟩

instance (task : Task) (pending : List Pending) : Growing (goOn task pending) :=
  ⟨fun _ => Nat.le_refl _⟩

end Growing

theorem Makes.slotCount_le {may : List Handle → Move → Prop} {machine : Machine}
    {result : EStateM.Result Stop Machine Next} (makes : Makes may machine result) :
    machine.heap.slotCount ≤ (lastMachine result).heap.slotCount := by
  cases makes with
  | @move move held middle made quiet => cases move <;> exact quiet.slots
  | freeSlot quiet => exact quiet.slots

theorem growing_begin (task : Task) : Growing (begin task) := by
  induction task using Task.plainCases with
  | plain task plain => exact ⟨fun machine => ((begin_leads plain).makes rfl).slotCount_le⟩
  | function info name params body scope =>
    exact inferInstanceAs (Growing (visit _ _ >>= fun _ =>
      makeFunction info.id name params body scope >>= giveHandle))
  | block block scope =>
    exact inferInstanceAs (Growing (visit _ _ >>= fun _ =>
      openScope scope .block none >>= fun inner =>
      goOn (.statements block.statements inner) [.close inner]))
  | body closure this arguments span =>
    refine ⟨fun machine => ?_⟩
    have enters : Growing (enterBody closure this arguments) := by
      have reads : Growing (get : Eval Machine) := ⟨fun _ => Nat.le_refl _⟩
      unfold enterBody
      infer_instance
    dsimp only [begin, beginBody]
    split
    · exact Nat.le_refl _
    · split
      · exact Nat.le_refl _
      · exact enters.slotCount_le machine

theorem heap_leave (pending : Pending) (machine : Machine) :
    (pending.leave machine).heap = machine.heap := by
  cases pending with
  | program => exact heap_recordUsage _
  | close scope =>
    simp only [Pending.leave, Machine.closeScope]
    split
    · exact heap_record _ _
    · rfl
  | _ => rfl

theorem heap_settle (stack : List Pending) (result : EStateM.Result Stop Machine Next) :
    (settle stack result).machine = lastMachine result := by
  cases result <;> rfl

theorem heap_recordNodes (machine : Machine) (builder : Builder) :
    (machine.recordNodes builder).heap = machine.heap := by
  unfold Machine.recordNodes
  split
  · refine List.foldlRecOn (motive := fun after : Machine => after.heap = machine.heap) _ _ rfl ?_
    intro after same entry _
    rw [heap_record, same]
  · rfl

theorem heap_read (machine : Machine) (text : String) :
    (machine.read text).2.heap = machine.heap := by
  unfold Machine.read
  obtain ⟨result, builder⟩ := Program.read text
  cases result with
  | ok program =>
    dsimp only
    rw [heap_record, heap_recordNodes]
  | error failure => exact heap_recordNodes machine builder

/-- A step takes no slot away. -/
theorem slotCount_le_step {state next : State} (next_eq : step state = some next) :
    state.machine.heap.slotCount ≤ next.machine.heap.slotCount := by
  obtain ⟨control, stack, machine⟩ := state
  cases control with
  | run task =>
    cases next_eq
    rw [heap_settle]
    exact (growing_begin task).slotCount_le machine
  | give answer =>
    cases stack with
    | nil => cases next_eq
    | cons pending stack =>
      cases next_eq
      have same : (pending.leave machine).roots = (pending.leave machine).roots := rfl
      have more := ((proceed_leads pending answer).makes same).slotCount_le
      rw [heap_settle]
      rwa [heap_leave] at more
  | stop stop =>
    cases stack with
    | nil => cases next_eq
    | cons pending stack =>
      cases next_eq
      exact Nat.le_of_eq (congrArg Heap.slotCount (heap_leave pending machine).symm)

/-- A run takes no slot away. -/
theorem slotCount_le_after (state : State) (count : Nat) :
    state.machine.heap.slotCount ≤ (state.after count).machine.heap.slotCount := by
  induction count with
  | zero => exact Nat.le_refl _
  | succ count ih =>
    rw [State.after_succ]
    cases next_eq : step (state.after count) with
    | none => exact ih
    | some next => exact Nat.le_trans ih (slotCount_le_step next_eq)

/-- A machine from which a run goes on has handles for its slots if a later one has. -/
theorem Addressable.of_reaches {first last : State} (room : Addressable last.machine)
    (reached : Reaches first last) : Addressable first.machine := by
  obtain ⟨count, rfl⟩ := reached
  exact Nat.le_trans (slotCount_le_after first count) room

end Scriptlet.Run
