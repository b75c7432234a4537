import Scriptlet.Proofs.Run.Steady
import Scriptlet.Proofs.Value.Kinds

set_option autoImplicit false

/-!
Actions that keep the kinds of values apart: none of them puts a double into a slot that is not a
number.
-/
namespace Scriptlet

/-- No slot holds a double that is not a number. -/
def Heap.WellKinded (heap : Heap) : Prop :=
  ∀ value, heap.Stores value → value.WellKinded

namespace Heap

variable {heap : Heap} (wellKinded : heap.WellKinded)

include wellKinded

theorem WellKinded.alloc {value : Value} (fresh : value.WellKinded) :
    (heap.alloc value).2.WellKinded := by
  intro found stored
  rcases stores_of_alloc stored with rfl | before
  · exact fresh
  · exact wellKinded found before

theorem WellKinded.modify (target : Handle) {change : Value → Value}
    (keeps : ∀ value : Value, value.WellKinded → (change value).WellKinded) :
    (heap.modify target change).WellKinded := by
  intro found stored
  obtain ⟨value, before, rfl | rfl⟩ := stores_of_modify stored
  · exact wellKinded found before
  · exact keeps value (wellKinded value before)

theorem WellKinded.collect (roots : List Handle) : (heap.collect roots).2.WellKinded :=
  fun value stored => wellKinded value (stores_of_collect stored)

end Heap

namespace Run

open Eval

/-- An action that puts no double into a slot that is not a number. -/
def KeepsKinds {α : Type} (action : Eval α) : Prop :=
  ∀ machine, machine.heap.WellKinded → match action machine with
    | .ok _ after => after.heap.WellKinded
    | .error _ after => after.heap.WellKinded

section Actions

variable {α β : Type}

theorem keepsKinds_of_heap {action : Eval α}
    (same : ∀ machine, match action machine with
      | .ok _ after => after.heap = machine.heap
      | .error _ after => after.heap = machine.heap) : KeepsKinds action := by
  intro machine wellKinded
  have heap_eq := same machine
  cases outcome : action machine <;> rw [outcome] at heap_eq <;> dsimp only at heap_eq ⊢ <;>
    rwa [heap_eq]

theorem keepsKinds_pure (value : α) : KeepsKinds (pure value : Eval α) :=
  fun _ wellKinded => wellKinded

theorem keepsKinds_get : KeepsKinds (get : Eval Machine) :=
  fun _ wellKinded => wellKinded

theorem KeepsKinds.bind {action : Eval α} {rest : α → Eval β} (first : KeepsKinds action)
    (others : ∀ value, KeepsKinds (rest value)) : KeepsKinds (action >>= rest) := by
  intro machine wellKinded
  have middle := first machine wellKinded
  simp only [Bind.bind, EStateM.bind]
  cases outcome : action machine with
  | ok value after =>
    rw [outcome] at middle
    exact others value after middle
  | error stop after =>
    rw [outcome] at middle
    exact middle

theorem keepsKinds_record (event : Event) : KeepsKinds (record event) :=
  keepsKinds_of_heap fun machine => heap_record machine event

theorem keepsKinds_visit (info : NodeInfo) (kind : NodeKind) : KeepsKinds (visit info kind) := by
  apply keepsKinds_of_heap
  intro machine
  show Machine.heap (if machine.config.trace then _ else machine) = machine.heap
  split
  · exact heap_record machine _
  · rfl

theorem wellKinded_collect {machine : Machine} (wellKinded : machine.heap.WellKinded) :
    machine.collect.2.heap.WellKinded := by
  rcases heap_collect machine with same | ⟨roots, collected⟩
  · rwa [same]
  · rw [collected]
    exact wellKinded.collect roots

theorem keepsKinds_collectIfDue : KeepsKinds collectIfDue := by
  intro machine wellKinded
  show (Machine.collectIfDue machine).heap.WellKinded
  unfold Machine.collectIfDue
  split
  · exact wellKinded_collect wellKinded
  · exact wellKinded

theorem keepsKinds_collectNow : KeepsKinds collectNow :=
  fun _ => wellKinded_collect

theorem keepsKinds_alloc {value : Value} (fresh : value.WellKinded) : KeepsKinds (alloc value) :=
  fun _ wellKinded => wellKinded.alloc fresh

theorem keepsKinds_deref (handle : Handle) : KeepsKinds (deref handle) := by
  apply keepsKinds_of_heap
  intro machine
  unfold deref
  cases machine.heap.get? handle <;> rfl

theorem keepsKinds_update (handle : Handle) {change : Value → Value}
    (keeps : ∀ value : Value, value.WellKinded → (change value).WellKinded) :
    KeepsKinds (update handle change) := by
  intro machine wellKinded
  unfold update
  by_cases isLive : machine.heap.isLive handle
  · simp only [isLive, ↓reduceIte]
    exact wellKinded.modify handle keeps
  · simp only [isLive]
    exact wellKinded

theorem keepsKinds_declare (scope : ScopeId) (name : String) (handle : Handle) :
    KeepsKinds (declare scope name handle) :=
  keepsKinds_of_heap fun _ => rfl

theorem keepsKinds_assign (scope : ScopeId) (name : String) (handle : Handle) :
    KeepsKinds (assign scope name handle) :=
  keepsKinds_of_heap fun _ => rfl

theorem keepsKinds_printLine (line : String) : KeepsKinds (printLine line) :=
  keepsKinds_of_heap fun _ => rfl

end Actions

end Run
end Scriptlet
