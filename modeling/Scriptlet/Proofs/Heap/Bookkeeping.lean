import Mathlib
import Scriptlet.Proofs.Heap.Collection

set_option autoImplicit false

/-!
The books of a heap. However a heap is used, it has no more slots than were once occupied at the
same time, and everything ever put into a slot is counted. As long as there is a handle for each
slot, the list of free slots names each empty slot once.
-/
namespace Scriptlet.Heap

theorem getElem?_alloc_of_ne {heap : Heap} {value : Value}
    (room : (heap.alloc value).2.slotCount ≤ 2 ^ 32) {index : Nat}
    (other : index ≠ (heap.alloc value).1.index) :
    (heap.alloc value).2.slots[index]? = heap.slots[index]? := by
  cases free : heap.free with
  | nil =>
    simp only [alloc_of_free_nil value free, slotCount, Array.size_push] at room other ⊢
    rw [Handle.index_mk (Nat.lt_of_succ_le room)] at other
    simp [Array.getElem?_push, other]
  | cons word rest =>
    simp only [alloc_of_free_cons value free] at other ⊢
    have apart : word.toNat ≠ index := Ne.symm other
    simp [apart]

/-- Behind the last slot that has a handle, a new slot gets the handle of the first one, which still
reads as it did. -/
theorem alloc_of_full {heap : Heap} (value : Value) (full : heap.slotCount = 2 ^ 32)
    (free : heap.free = []) :
    (heap.alloc value).1 = ⟨0⟩ ∧ (heap.alloc value).2.get? ⟨0⟩ = heap.get? ⟨0⟩ := by
  simp only [slotCount] at full
  have apart : (0 : Nat) ≠ heap.slots.size := by omega
  constructor
  · simp [alloc_of_free_nil value free, slotCount, full]
  · rw [alloc_of_free_nil value free]
    simp only [get?, slot?, Handle.index, UInt32.toNat_zero, Array.getElem?_push, if_neg apart]

/-- Puts values into slots, one after the other. -/
def allocAll (heap : Heap) : List Value → List Handle × Heap
  | [] => ([], heap)
  | value :: values =>
    let (handle, filled) := heap.alloc value
    let (handles, last) := filled.allocAll values
    (handle :: handles, last)

/-- The free slots are handed out in their order, and no new one before the last of them. -/
theorem allocAll_free (heap : Heap) (values : List Value) (few : values.length ≤ heap.freeCount) :
    (heap.allocAll values).1.map Handle.word = heap.free.take values.length ∧
      (heap.allocAll values).2.slotCount = heap.slotCount := by
  induction values generalizing heap with
  | nil => exact ⟨rfl, rfl⟩
  | cons value values inductive_hypothesis =>
    cases free : heap.free with
    | nil => simp [freeCount, free] at few
    | cons word rest =>
      have handed := alloc_of_free_cons value free
      have fewer : values.length ≤ (heap.alloc value).2.freeCount := by
        simp only [freeCount, free, handed, List.length_cons] at few ⊢
        omega
      obtain ⟨handles_eq, same⟩ := inductive_hypothesis (heap.alloc value).2 fewer
      have count : (heap.alloc value).2.slotCount = heap.slotCount := by
        simp [handed, slotCount]
      refine ⟨?_, same.trans count⟩
      rw [show (heap.alloc value).2.free = rest by rw [handed]] at handles_eq
      simp only [allocAll, List.map_cons, handles_eq, List.length_cons, List.take_succ_cons]
      rw [handed]

/-- The heaps that a heap has been, the present one first. A value is changed through the handle of
an occupied slot only. -/
inductive Course : List Heap → Prop where
  | new (threshold : UInt64) : Course [withThreshold threshold]
  | alloc {heap : Heap} {past : List Heap} (course : Course (heap :: past)) (value : Value) :
      Course ((heap.alloc value).2 :: heap :: past)
  | modify {heap : Heap} {past : List Heap} (course : Course (heap :: past)) {handle : Handle}
      (live : heap.isLive handle) (change : Value → Value) :
      Course (heap.modify handle change :: heap :: past)
  | collect {heap : Heap} {past : List Heap} (course : Course (heap :: past))
      (roots : List Handle) : Course ((heap.collect roots).2 :: heap :: past)
  | setThreshold {heap : Heap} {past : List Heap} (course : Course (heap :: past))
      (threshold : UInt64) : Course (heap.setThreshold threshold :: heap :: past)
  | setEnabled {heap : Heap} {past : List Heap} (course : Course (heap :: past))
      (enabled : Bool) : Course (heap.setEnabled enabled :: heap :: past)

/-- What is right about a heap with a past: the count of what was ever put into slots, the number of
slots, which were all occupied once, and its list of free slots, if there is a handle for each
slot. -/
structure Kept (heap : Heap) (past : List Heap) : Prop where
  fits : heap.Fits
  consistent : heap.slotCount ≤ 2 ^ 32 → heap.Consistent
  allocations : heap.allocations = heap.liveCount + heap.freed
  upper : ∀ earlier ∈ heap :: past, earlier.liveCount ≤ heap.slotCount
  full : ∃ earlier ∈ heap :: past, earlier.liveCount = heap.slotCount

section Kept

variable {heap : Heap} {past : List Heap} (kept : Kept heap past)

include kept

/-- What leaves the slots and what was counted alone keeps the books. -/
theorem Kept.same {after : Heap} (fits : after.Fits)
    (consistent : heap.Consistent → after.Consistent)
    (slots : after.slotCount = heap.slotCount) (live : after.liveCount = heap.liveCount)
    (allocations : after.allocations = heap.allocations) (freed : after.freed = heap.freed) :
    Kept after (heap :: past) where
  fits := fits
  consistent room := consistent (kept.consistent (slots ▸ room))
  allocations := by rw [allocations, live, freed, kept.allocations]
  upper := by
    rw [slots]
    refine List.forall_mem_cons.mpr ⟨?_, kept.upper⟩
    rw [live]
    exact kept.upper heap List.mem_cons_self
  full := by
    obtain ⟨earlier, member, full⟩ := kept.full
    exact ⟨earlier, List.mem_cons_of_mem _ member, by rw [slots, full]⟩

theorem Kept.alloc (value : Value) : Kept (heap.alloc value).2 (heap :: past) where
  fits := kept.fits.alloc value
  consistent room :=
    (kept.consistent (Nat.le_trans (heap.slotCount_le_alloc value) room)).alloc value
  allocations := by
    have counted : (heap.alloc value).2.allocations = heap.allocations + 1 := by
      unfold Heap.alloc
      split <;> rfl
    have freed : (heap.alloc value).2.freed = heap.freed := by
      unfold Heap.alloc
      split <;> rfl
    have allocations := kept.allocations
    rw [counted, freed, kept.fits.liveCount_alloc value]
    omega
  upper := by
    refine List.forall_mem_cons.mpr ⟨Nat.sub_le _ _, fun earlier member => ?_⟩
    exact Nat.le_trans (kept.upper earlier member) (heap.slotCount_le_alloc value)
  full := by
    cases free : heap.free with
    | nil =>
      -- The slot is a new one, and no slot is free now either.
      refine ⟨_, List.mem_cons_self, ?_⟩
      simp [alloc_of_free_nil value free, liveCount, freeCount, free]
    | cons word rest =>
      obtain ⟨earlier, member, full⟩ := kept.full
      refine ⟨earlier, List.mem_cons_of_mem _ member, ?_⟩
      rw [full]
      simp [alloc_of_free_cons value free, slotCount]

theorem Kept.collect (roots : List Handle) : Kept (heap.collect roots).2 (heap :: past) where
  fits := kept.fits.collect roots
  consistent room := by
    rw [heap.slotCount_collect roots] at room
    exact (kept.consistent room).collect roots room
  allocations := by
    have live := kept.fits.liveCount_collect roots
    have freed : (heap.collect roots).2.freed = heap.freed + (heap.collect roots).1.freed := rfl
    have allocations : (heap.collect roots).2.allocations = heap.allocations := rfl
    have before := kept.allocations
    omega
  upper := by
    have size := heap.slotCount_collect roots
    rw [size]
    refine List.forall_mem_cons.mpr ⟨?_, kept.upper⟩
    rw [← size]
    exact Nat.sub_le _ _
  full := by
    obtain ⟨earlier, member, full⟩ := kept.full
    exact ⟨earlier, List.mem_cons_of_mem _ member, by rw [full, heap.slotCount_collect roots]⟩

end Kept

theorem Course.kept {heaps : List Heap} (course : Course heaps) :
    ∃ heap past, heaps = heap :: past ∧ Kept heap past := by
  induction course with
  | new threshold =>
    refine ⟨_, [], rfl, fits_withThreshold threshold, fun _ => consistent_withThreshold threshold,
      rfl, ?_, ?_⟩
    · exact List.forall_mem_singleton.mpr (Nat.le_refl 0)
    · exact ⟨_, List.mem_cons_self, rfl⟩
  | alloc _ value ih =>
    obtain ⟨_, _, ⟨rfl⟩, kept⟩ := ih
    exact ⟨_, _, rfl, kept.alloc value⟩
  | @modify heap past _ handle live change ih =>
    obtain ⟨_, _, ⟨rfl⟩, kept⟩ := ih
    have size : (heap.modify handle change).slotCount = heap.slotCount := by
      simp [slotCount, Heap.modify]
    refine ⟨_, _, rfl, kept.same (kept.fits.modify handle change)
      (·.modify handle change) size ?_ rfl rfl⟩
    rw [liveCount, size]
    rfl
  | collect _ roots ih =>
    obtain ⟨_, _, ⟨rfl⟩, kept⟩ := ih
    exact ⟨_, _, rfl, kept.collect roots⟩
  | setThreshold _ threshold ih =>
    obtain ⟨_, _, ⟨rfl⟩, kept⟩ := ih
    exact ⟨_, _, rfl, kept.same kept.fits (fun consistent => ⟨consistent.unmarked,
      consistent.free_nodup, consistent.mem_free_iff⟩) rfl rfl rfl rfl⟩
  | setEnabled _ enabled ih =>
    obtain ⟨_, _, ⟨rfl⟩, kept⟩ := ih
    exact ⟨_, _, rfl, kept.same kept.fits (fun consistent => ⟨consistent.unmarked,
      consistent.free_nodup, consistent.mem_free_iff⟩) rfl rfl rfl rfl⟩

/-- However a heap was used: as long as there is a handle for each slot, its list of free slots
names each empty slot once, and what is counted as live are the occupied slots. So, if there is a
handle for it, a value is put into a slot that is not occupied, and no other slot is changed. A new
slot is made only when none is free. Everything ever put into a slot is counted as live or was
freed, and the number of slots is the largest number ever counted as live. -/
theorem course_books {heap : Heap} {past : List Heap} (course : Course (heap :: past)) :
    (heap.slotCount ≤ 2 ^ 32 →
      heap.free.Nodup ∧
      (∀ index, index ∈ heap.free.map UInt32.toNat ↔ heap.slots[index]? = some none) ∧
      heap.liveCount = heap.slots.countP Option.isSome) ∧
    (∀ value, let handle := (heap.alloc value).1
      let after := (heap.alloc value).2
      (after.slotCount ≤ 2 ^ 32 →
        ¬ heap.isLive handle ∧ after.get? handle = some value ∧
        ∀ index, index ≠ handle.index → after.slots[index]? = heap.slots[index]?) ∧
      if heap.free = [] then after.slotCount = heap.slotCount + 1
      else handle.word ∈ heap.free ∧ after.slotCount = heap.slotCount) ∧
    (∀ values, values.length ≤ heap.freeCount →
      (heap.allocAll values).1.map Handle.word = heap.free.take values.length ∧
      (heap.allocAll values).2.slotCount = heap.slotCount) ∧
    heap.allocations = heap.liveCount + heap.freed ∧
    (∀ earlier ∈ heap :: past, earlier.liveCount ≤ heap.slotCount) ∧
    ∃ earlier ∈ heap :: past, earlier.liveCount = heap.slotCount := by
  obtain ⟨_, _, ⟨rfl⟩, kept⟩ := course.kept
  refine ⟨fun room => ?_, fun value => ?_, heap.allocAll_free, kept.allocations, kept.upper,
    kept.full⟩
  · have consistent := kept.consistent room
    exact ⟨consistent.free_nodup, consistent.mem_free_iff, consistent.liveCount_eq⟩
  intro handle after
  constructor
  · intro room
    have consistent := kept.consistent (Nat.le_trans (heap.slotCount_le_alloc value) room)
    have contents : after.get? handle = some value :=
      (consistent.get?_alloc value room handle).trans (if_pos rfl)
    exact ⟨consistent.not_isLive_alloc value room, contents, fun _ => getElem?_alloc_of_ne room⟩
  · cases free : heap.free with
    | nil => simp [after, alloc_of_free_nil value free, slotCount]
    | cons word rest => simp [handle, after, alloc_of_free_cons value free, slotCount]

/-- A heap that had two values, of which one was freed. -/
def halfFreed : Heap :=
  let two := (((withThreshold 0).alloc .null).2.alloc .undefined).2
  (two.collect [⟨1⟩]).2

theorem halfFreed_free : halfFreed.free = [0] := by
  cbv

theorem course_books_halfFreed :
    ∃ past, Course (halfFreed :: past) ∧ halfFreed.freeCount = 1 ∧
      ¬ halfFreed.isLive (halfFreed.alloc .nan).1 ∧
      (halfFreed.allocAll [.nan]).1.map Handle.word = [0] ∧
      ∃ earlier ∈ halfFreed :: past, earlier.liveCount = halfFreed.slotCount := by
  have course : Course (halfFreed :: _) :=
    (((Course.new 0).alloc .null).alloc .undefined).collect [⟨1⟩]
  have books := course_books course
  have count : halfFreed.freeCount = 1 := congrArg List.length halfFreed_free
  have handed := (books.2.2.1 [.nan] (Nat.le_of_eq count.symm)).1
  rw [halfFreed_free] at handed
  have room : (halfFreed.alloc .nan).2.slotCount ≤ 2 ^ 32 := by cbv
  exact ⟨_, course, count, ((books.2.1 .nan).1 room).1, handed, books.2.2.2.2.2⟩

end Scriptlet.Heap
