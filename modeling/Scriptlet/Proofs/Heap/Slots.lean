import Mathlib.Data.List.Nodup
import Mathlib.Data.List.Perm.Subperm
import Scriptlet.Proofs.Heap.Marking

set_option autoImplicit false

/-!
Heaps whose list of free slots is right. Filling a slot and changing a value keep it so. Both leave
every other slot as it is, as long as there is a handle for each slot.
-/
namespace Scriptlet.Heap

/-- No slot has a mark. -/
def Unmarked (heap : Heap) : Prop :=
  ∀ (index : Nat) (slot : Slot), heap.slots[index]? = some (some slot) → slot.marked = false

/-- Between collections: no slot has a mark, and the list of free slots names each empty slot
once. -/
structure Consistent (heap : Heap) : Prop where
  unmarked : heap.Unmarked
  free_nodup : heap.free.Nodup
  mem_free_iff : ∀ index, index ∈ heap.free.map UInt32.toNat ↔ heap.slots[index]? = some none

/-- What can be reached from some roots through occupied slots. -/
abbrev Reachable (heap : Heap) (isRoot : Handle → Prop) : Handle → Prop :=
  ReachableFrom heap.get? isRoot

theorem get?_eq_contentAt? (heap : Heap) : heap.get? = contentAt? heap.slots :=
  rfl

theorem isLive_iff (heap : Heap) (handle : Handle) :
    heap.isLive handle ↔ ∃ value, heap.get? handle = some value := by
  rw [isLive, Option.isSome_iff_exists]

theorem isLive_of_get? {heap : Heap} {handle : Handle} {value : Value}
    (found : heap.get? handle = some value) : heap.isLive handle :=
  (heap.isLive_iff handle).mpr ⟨value, found⟩

theorem lt_size_of_isLive {heap : Heap} {handle : Handle} (live : heap.isLive handle) :
    handle.index < heap.slots.size := by
  by_cases bound : handle.index < heap.slots.size
  · exact bound
  · simp [isLive, get?, slot?, bound] at live

theorem not_isLive_of_free {heap : Heap} {handle : Handle}
    (free : heap.slots[handle.index]? = some none) : ¬ heap.isLive handle := by
  simp [isLive, get?, slot?, free]

theorem Unmarked.not_markedAt {heap : Heap} (unmarked : heap.Unmarked) (handle : Handle) :
    ¬ MarkedAt heap.slots handle := by
  rintro ⟨slot, found, marked⟩
  rw [unmarked _ slot ((slotAt?_eq_some_iff _ _ _).mp found)] at marked
  cases marked

/-- The first free slot is there and empty. -/
theorem Consistent.getElem?_of_free {heap : Heap} (consistent : heap.Consistent) {word : UInt32}
    {rest : List UInt32} (free : heap.free = word :: rest) :
    heap.slots[(⟨word⟩ : Handle).index]? = some none :=
  (consistent.mem_free_iff _).mp (by simp [free, Handle.index])

theorem alloc_of_free_nil {heap : Heap} (value : Value) (free : heap.free = []) :
    heap.alloc value = (⟨heap.slotCount⟩, { heap with
      slots := heap.slots.push (some ⟨value, false⟩)
      sinceCollection := heap.sinceCollection + 1
      allocations := heap.allocations + 1 }) := by
  simp [alloc, free, slotCount]

theorem alloc_of_free_cons {heap : Heap} (value : Value) {word : UInt32} {rest : List UInt32}
    (free : heap.free = word :: rest) :
    heap.alloc value = (⟨word⟩, { heap with
      slots := heap.slots.setIfInBounds word.toNat (some ⟨value, false⟩)
      free := rest
      sinceCollection := heap.sinceCollection + 1
      allocations := heap.allocations + 1 }) := by
  simp [alloc, free]

theorem slotCount_le_alloc (heap : Heap) (value : Value) :
    heap.slotCount ≤ (heap.alloc value).2.slotCount := by
  cases free : heap.free with
  | nil => simp [alloc_of_free_nil value free, slotCount]
  | cons word rest => simp [alloc_of_free_cons value free, slotCount]

section Alloc

variable {heap : Heap} (consistent : heap.Consistent) (value : Value)

include consistent

/-- Filling a slot keeps what is in the others. -/
theorem Consistent.get?_alloc_of_isLive {handle : Handle} (live : heap.isLive handle) :
    (heap.alloc value).2.get? handle = heap.get? handle := by
  have bound := lt_size_of_isLive live
  cases free : heap.free with
  | nil =>
    have apart : handle.index ≠ heap.slots.size := Nat.ne_of_lt bound
    simp [alloc_of_free_nil value free, get?, slot?, Array.getElem?_push, apart]
  | cons word rest =>
    have apart : word.toNat ≠ handle.index := by
      intro same
      have empty := consistent.getElem?_of_free free
      rw [show (⟨word⟩ : Handle).index = handle.index from same] at empty
      exact not_isLive_of_free empty live
    simp [alloc_of_free_cons value free, get?, slot?, apart]

variable (room : (heap.alloc value).2.slotCount ≤ 2 ^ 32)

include room

/-- A filled slot was empty or did not exist. -/
theorem Consistent.not_isLive_alloc : ¬ heap.isLive (heap.alloc value).1 := by
  cases free : heap.free with
  | nil =>
    simp only [alloc_of_free_nil value free, slotCount, Array.size_push] at room ⊢
    simp [isLive, get?, slot?, Handle.index_mk (Nat.lt_of_succ_le room)]
  | cons word rest =>
    rw [alloc_of_free_cons value free]
    exact not_isLive_of_free (consistent.getElem?_of_free free)

/-- Filling a slot puts the value there and nowhere else. -/
theorem Consistent.get?_alloc (handle : Handle) :
    (heap.alloc value).2.get? handle =
      if handle = (heap.alloc value).1 then some value else heap.get? handle := by
  cases free : heap.free with
  | nil =>
    simp only [alloc_of_free_nil value free, slotCount, Array.size_push] at room ⊢
    have place := Handle.index_mk (Nat.lt_of_succ_le room)
    by_cases same : handle = ⟨heap.slots.size⟩
    · simp [same, get?, slot?, place]
    · have apart : handle.index ≠ heap.slots.size := by
        intro equal
        exact same (Handle.eq_of_index (equal.trans place.symm))
      simp [same, get?, slot?, Array.getElem?_push, apart]
  | cons word rest =>
    obtain ⟨bound, _⟩ := Array.getElem?_eq_some_iff.mp (consistent.getElem?_of_free free)
    simp only [alloc_of_free_cons value free]
    by_cases same : handle = ⟨word⟩
    · simp only [same, get?, slot?, Handle.index] at bound ⊢
      simp [bound]
    · have apart : word.toNat ≠ handle.index := by
        intro equal
        exact same (Handle.eq_of_index equal.symm)
      simp [same, get?, slot?, apart]

end Alloc

theorem Consistent.alloc {heap : Heap} (consistent : heap.Consistent) (value : Value) :
    (heap.alloc value).2.Consistent := by
  cases free : heap.free with
  | nil =>
    rw [alloc_of_free_nil value free]
    refine ⟨fun index slot found => ?_, consistent.free_nodup, fun index => ?_⟩
    · rw [Array.getElem?_push] at found
      split at found
      · cases found
        rfl
      · exact consistent.unmarked index slot found
    · by_cases same : index = heap.slots.size
      · simp [same, free]
      · simpa [Array.getElem?_push, same] using consistent.mem_free_iff index
  | cons word rest =>
    have nodup := consistent.free_nodup
    rw [free, List.nodup_cons] at nodup
    obtain ⟨inside, _⟩ := Array.getElem?_eq_some_iff.mp (consistent.getElem?_of_free free)
    have bound : word.toNat < heap.slots.size := inside
    rw [alloc_of_free_cons value free]
    refine ⟨fun index slot found => ?_, nodup.2, fun index => ?_⟩
    · rw [Array.getElem?_setIfInBounds] at found
      split at found
      · cases found
        rfl
      · exact consistent.unmarked index slot found
    · have before := consistent.mem_free_iff index
      rw [free, List.map_cons, List.mem_cons] at before
      by_cases same : index = word.toNat
      · subst same
        simpa [Array.getElem?_setIfInBounds, bound, UInt32.toNat_inj] using nodup.1
      · simpa [same, Array.getElem?_setIfInBounds, Ne.symm same] using before

/-- Changing a value changes nothing else. -/
theorem get?_modify (heap : Heap) (handle : Handle) (change : Value → Value) (other : Handle) :
    (heap.modify handle change).get? other =
      if other = handle then (heap.get? handle).map change else heap.get? other := by
  by_cases same : other = handle
  · subst same
    cases found : heap.slots[other.index]? with
    | none => simp [modify, get?, slot?, Array.getElem?_modify, found]
    | some cell => cases cell <;> simp [modify, get?, slot?, Array.getElem?_modify, found]
  · have apart : handle.index ≠ other.index := by
      intro equal
      exact same (Handle.eq_of_index equal.symm)
    simp [modify, get?, slot?, Array.getElem?_modify, apart, same]

@[simp] theorem isLive_modify (heap : Heap) (handle : Handle) (change : Value → Value)
    (other : Handle) : (heap.modify handle change).isLive other = heap.isLive other := by
  rw [isLive, get?_modify]
  split
  · rename_i same
    rw [Option.isSome_map, same, isLive]
  · rfl

theorem Consistent.modify {heap : Heap} (consistent : heap.Consistent) (handle : Handle)
    (change : Value → Value) : (heap.modify handle change).Consistent := by
  refine ⟨?_, consistent.free_nodup, ?_⟩
  · intro index slot found
    rw [Heap.modify, Array.getElem?_modify] at found
    split at found
    · simp only [Option.map_eq_some_iff] at found
      obtain ⟨cell, before, slot, rfl, rfl⟩ := found
      exact consistent.unmarked index slot before
    · exact consistent.unmarked index slot found
  · intro index
    rw [show (heap.modify handle change).free = heap.free from rfl, consistent.mem_free_iff,
      Heap.modify, Array.getElem?_modify]
    split
    · cases heap.slots[index]? with
      | none => simp
      | some cell => cases cell <;> simp
    · rfl

/-- A heap without slots is consistent. -/
theorem consistent_withThreshold (threshold : UInt64) : (withThreshold threshold).Consistent := by
  refine ⟨fun index slot found => ?_, List.nodup_nil, ?_⟩
  · simp [withThreshold] at found
  · simp [withThreshold]

end Scriptlet.Heap
