import Scriptlet.Proofs.Heap.Counts
import Scriptlet.Proofs.Run.Ordinary
import Scriptlet.Proofs.Run.Prompt

set_option autoImplicit false

/-!
What ordinary actions leave alone. They may bind names, fill slots and change values, but the open
frames, the functions, the temporary roots and the calls in progress are the same after them, and no
slot is taken away.
-/
namespace Scriptlet

namespace Run

open Eval

/-- The temporary roots are the same after an action, and there are no fewer slots. -/
def Keeping {α : Type} (action : Eval α) : Prop :=
  ∀ machine, match action machine with
    | .ok _ after | .error _ after =>
      after.roots = machine.roots ∧ machine.heap.slotCount ≤ after.heap.slotCount

section Keeping

variable {α β : Type}

theorem keeping_pure (value : α) : Keeping (pure value : Eval α) :=
  fun _ => ⟨rfl, Nat.le_refl _⟩

theorem keeping_modify {change : Machine → Machine}
    (roots : ∀ machine, (change machine).roots = machine.roots)
    (slots : ∀ machine, machine.heap.slotCount ≤ (change machine).heap.slotCount) :
    Keeping (modify change : Eval Unit) :=
  fun machine => ⟨roots machine, slots machine⟩

theorem Keeping.bind {action : Eval α} {rest : α → Eval β} (first : Keeping action)
    (others : ∀ value, Keeping (rest value)) : Keeping (action >>= rest) := by
  intro machine
  have one := first machine
  simp only [Bind.bind, EStateM.bind]
  cases outcome : action machine with
  | ok value middle =>
    rw [outcome] at one
    have two := others value middle
    dsimp only
    cases last : rest value middle <;> rw [last] at two <;>
      exact ⟨two.1.trans one.1, Nat.le_trans one.2 two.2⟩
  | error stop middle =>
    rw [outcome] at one
    exact one

theorem roots_record (machine : Machine) (event : Event) :
    (machine.record event).roots = machine.roots := by
  unfold Machine.record
  split <;> rfl

theorem roots_recordUsage (machine : Machine) : machine.recordUsage.roots = machine.roots := by
  unfold Machine.recordUsage
  split
  · exact roots_record machine _
  · rfl

theorem roots_collect (machine : Machine) : machine.collect.2.roots = machine.roots := by
  unfold Machine.collect
  split
  · exact roots_record machine _
  · exact (roots_recordUsage _).trans (roots_record _ _)

theorem roots_collectIfDue (machine : Machine) : machine.collectIfDue.roots = machine.roots := by
  unfold Machine.collectIfDue
  split
  · exact roots_collect machine
  · rfl

theorem slotCount_collect (machine : Machine) :
    machine.collect.2.heap.slotCount = machine.heap.slotCount := by
  rcases heap_collect machine with same | ⟨roots, collected⟩
  · rw [same]
  · rw [collected, Heap.slotCount_collect]

theorem slotCount_collectIfDue (machine : Machine) :
    machine.collectIfDue.heap.slotCount = machine.heap.slotCount := by
  unfold Machine.collectIfDue
  split
  · exact slotCount_collect machine
  · rfl

theorem slotCount_modify (heap : Heap) (handle : Handle) (change : Value → Value) :
    (heap.modify handle change).slotCount = heap.slotCount := by
  simp [Heap.modify, Heap.slotCount]

theorem Elementary.keeping {action : Eval α} (elementary : Elementary action) :
    Keeping action := by
  induction elementary with
  | pure value => exact keeping_pure value
  | bind first others one two => exact one.bind two
  | inspect view rest others ih => exact fun machine => ih _ machine
  | alloc value => exact fun machine => ⟨rfl, machine.heap.slotCount_le_alloc value⟩
  | deref handle =>
    intro machine
    rw [deref_at]
    cases machine.heap.get? handle <;> exact ⟨rfl, Nat.le_refl _⟩
  | update handle change =>
    intro machine
    unfold Eval.update
    by_cases isLive : machine.heap.isLive handle
    · rw [if_pos isLive]
      exact ⟨rfl, Nat.le_of_eq (slotCount_modify _ handle change).symm⟩
    · rw [if_neg isLive]
      exact ⟨rfl, Nat.le_refl _⟩
  | declare | assign | printLine =>
    exact keeping_modify (fun _ => rfl) fun _ => Nat.le_refl _
  | record event =>
    exact keeping_modify (roots_record · event) fun machine =>
      Nat.le_of_eq (congrArg Heap.slotCount (heap_record machine event).symm)
  | visit info kind =>
    refine keeping_modify (fun machine => ?_) fun machine => ?_ <;> split
    · exact roots_record machine _
    · rfl
    · exact Nat.le_of_eq (congrArg Heap.slotCount (heap_record machine _).symm)
    · exact Nat.le_refl _
  | collectIfDue =>
    exact keeping_modify roots_collectIfDue fun machine =>
      Nat.le_of_eq (slotCount_collectIfDue machine).symm
  | collectNow =>
    exact fun machine => ⟨roots_collect machine, Nat.le_of_eq (slotCount_collect machine).symm⟩

end Keeping

/-- What ordinary actions and lookups may do to a machine. -/
structure Quiet (before after : Machine) : Prop where
  shape : shape after = shape before
  undisturbed : Undisturbed before after
  wellKinded : before.heap.WellKinded → after.heap.WellKinded
  roots : after.roots = before.roots
  slots : before.heap.slotCount ≤ after.heap.slotCount

theorem Quiet.refl (machine : Machine) : Quiet machine machine :=
  ⟨rfl, .refl machine, id, rfl, Nat.le_refl _⟩

theorem Quiet.trans {first middle last : Machine} (one : Quiet first middle)
    (two : Quiet middle last) : Quiet first last where
  shape := two.shape.trans one.shape
  undisturbed := one.undisturbed.trans two.undisturbed
  wellKinded kept := two.wellKinded (one.wellKinded kept)
  roots := two.roots.trans one.roots
  slots := Nat.le_trans one.slots two.slots

section Ordinary

variable {α : Type} {action : Eval α} (ordinary : Ordinary action) {machine after : Machine}

include ordinary

theorem Ordinary.quiet_ok {value : α} (outcome : action machine = .ok value after) :
    Quiet machine after := by
  have steady := ordinary.steady machine
  have kinds := ordinary.keepsKinds machine
  have keeping := ordinary.elementary.keeping machine
  rw [outcome] at steady kinds keeping
  exact ⟨ordinary.elementary.prompt.shape_ok outcome, steady, kinds, keeping.1, keeping.2⟩

theorem Ordinary.quiet_error {stop : Stop} (outcome : action machine = .error stop after) :
    Quiet machine after := by
  have steady := ordinary.steady machine
  have kinds := ordinary.keepsKinds machine
  have keeping := ordinary.elementary.keeping machine
  rw [outcome] at steady kinds keeping
  exact ⟨ordinary.elementary.prompt.shape_error outcome, steady, kinds, keeping.1, keeping.2⟩

/-- Ordinary actions stop for a free slot only. -/
theorem Ordinary.stop_eq {stop : Stop} (outcome : action machine = .error stop after) :
    ∃ access handle, stop = .freeSlot access handle := by
  cases stop with
  | error error => exact absurd outcome (ordinary.elementary.ne_error machine error after)
  | exhausted => exact absurd rfl (ordinary.elementary.prompt.uncut outcome)
  | freeSlot access handle => exact ⟨access, handle, rfl⟩

end Ordinary

end Run
end Scriptlet
