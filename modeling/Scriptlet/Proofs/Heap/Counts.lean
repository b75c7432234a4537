import Mathlib.Data.List.Induction
import Scriptlet.Proofs.Heap.Slots

set_option autoImplicit false

/-!
How many slots are occupied. However many slots a heap has, it lists no more free ones than are
empty, so the number of occupied slots that it states is never cut off at zero.
-/
namespace Scriptlet

/-- The elements with a property are as many as the places where they stand. -/
theorem countP_eq_length_filter_range {α : Type} (good : α → Bool) (items : List α) :
    items.countP good =
      ((List.range items.length).filter fun index => items[index]?.any good).length := by
  induction items using List.reverseRecOn with
  | nil => rfl
  | append_singleton items last inductive_hypothesis =>
    have before : ∀ index ∈ List.range items.length,
        (items ++ [last])[index]?.any good = items[index]?.any good := by
      intro index member
      rw [List.getElem?_append_left (List.mem_range.mp member)]
    rw [List.countP_append, List.length_append, List.length_singleton, List.range_succ,
      List.filter_append, List.length_append, List.filter_congr before, inductive_hypothesis]
    cases found : good last <;> simp [found]

theorem length_unmarkedIndices (slots : Array (Option Slot)) :
    (unmarkedIndices slots).length = slots.countP isUnmarked := by
  have counted := countP_eq_length_filter_range isUnmarked slots.toList
  simp only [Array.length_toList, Array.getElem?_toList, Array.countP_toList] at counted
  exact counted.symm

/-- Marking keeps slots occupied. -/
theorem countP_isSome_markFrom (slots : Array (Option Slot)) (work : List Handle) :
    (markFrom slots work).countP Option.isSome = slots.countP Option.isSome := by
  fun_induction markFrom slots work with
  | case1 slots => rfl
  | case2 slots handle rest bound slot found marked ih => exact ih
  | case3 slots handle rest bound slot found fresh ih =>
    have occupied : slots[handle.index].isSome = true := by rw [found]; rfl
    have some_pos : 0 < slots.countP Option.isSome :=
      Array.countP_pos_iff.mpr ⟨_, Array.getElem_mem bound, occupied⟩
    rw [ih, Array.countP_set, if_pos occupied, Option.isSome_some, if_pos rfl]
    omega
  | case4 slots handle rest bound found ih => exact ih
  | case5 slots handle rest outside ih => exact ih

/-- A sweep frees the occupied slots without a mark. -/
theorem countP_isSome_map_sweepSlot (slots : Array (Option Slot)) :
    (slots.map sweepSlot).countP Option.isSome + slots.countP isUnmarked =
      slots.countP Option.isSome := by
  rw [Array.countP_map, ← Array.countP_toList, ← Array.countP_toList, ← Array.countP_toList]
  induction slots.toList with
  | nil => rfl
  | cons cell cells ih =>
    simp only [List.countP_cons, Function.comp_apply]
    cases cell with
    | none => simpa [sweepSlot, isUnmarked] using ih
    | some slot => cases marked : slot.marked <;> simp [sweepSlot, isUnmarked, marked] <;> omega

namespace Heap

/-- No more slots are free than are empty. -/
def Fits (heap : Heap) : Prop :=
  heap.slots.countP Option.isSome + heap.freeCount ≤ heap.slotCount

theorem countP_isNone (slots : Array (Option Slot)) :
    slots.countP Option.isSome + slots.countP Option.isNone = slots.size := by
  have others : slots.countP (fun cell => decide ¬ cell.isSome = true) =
      slots.countP Option.isNone := by
    congr 1
    funext cell
    cases cell <;> rfl
  rw [← others]
  exact Array.size_eq_countP_add_countP.symm

section Consistent

variable {heap : Heap} (consistent : heap.Consistent)

include consistent

/-- As many slots are free as are empty. -/
theorem Consistent.freeCount_eq : heap.freeCount = heap.slots.countP Option.isNone := by
  let empty := (List.range heap.slots.toList.length).filter fun index =>
    heap.slots.toList[index]?.any Option.isNone
  have same : (heap.free.map UInt32.toNat).Perm empty := by
    have nodup : (heap.free.map UInt32.toNat).Nodup :=
      consistent.free_nodup.map fun _ _ => UInt32.toNat_inj.mp
    refine (List.perm_ext_iff_of_nodup nodup (List.nodup_range.filter _)).mpr fun index => ?_
    rw [consistent.mem_free_iff, List.mem_filter, List.mem_range, Option.any_eq_true,
      Array.getElem?_toList, Array.length_toList]
    constructor
    · intro found
      obtain ⟨bound, _⟩ := Array.getElem?_eq_some_iff.mp found
      exact ⟨bound, none, found, rfl⟩
    · rintro ⟨_, cell, found, isNone⟩
      rw [found, Option.isNone_iff_eq_none.mp isNone]
  rw [freeCount, ← List.length_map, same.length_eq, ← Array.countP_toList]
  exact (countP_eq_length_filter_range Option.isNone heap.slots.toList).symm

/-- As many slots are counted as live as are occupied. -/
theorem Consistent.liveCount_eq : heap.liveCount = heap.slots.countP Option.isSome := by
  have total := countP_isNone heap.slots
  simp only [liveCount, slotCount, consistent.freeCount_eq]
  omega

theorem Consistent.fits : heap.Fits := by
  have total := countP_isNone heap.slots
  simp only [Fits, slotCount, consistent.freeCount_eq]
  omega

end Consistent

theorem fits_withThreshold (threshold : UInt64) : (withThreshold threshold).Fits :=
  Nat.le_refl 0

section Fits

variable {heap : Heap} (fits : heap.Fits)

include fits

theorem Fits.freeCount_le : heap.freeCount ≤ heap.slotCount :=
  Nat.le_trans (Nat.le_add_left _ _) fits

theorem Fits.alloc (value : Value) : (heap.alloc value).2.Fits := by
  unfold Fits freeCount slotCount at *
  cases free : heap.free with
  | nil =>
    simp only [alloc_of_free_nil value free, free, Array.countP_push, Array.size_push,
      List.length_nil, Option.isSome_some, ↓reduceIte] at fits ⊢
    omega
  | cons word rest =>
    -- A slot that is filled again may have been listed as free wrongly; then fewer are occupied.
    have filled : (heap.slots.setIfInBounds word.toNat (some ⟨value, false⟩)).countP
        Option.isSome ≤ heap.slots.countP Option.isSome + 1 := by
      unfold Array.setIfInBounds
      split
      · rw [Array.countP_set]
        split <;> split <;> omega
      · omega
    simp only [alloc_of_free_cons value free, free, Array.size_setIfInBounds,
      List.length_cons] at fits ⊢
    omega

theorem Fits.liveCount_alloc (value : Value) :
    (heap.alloc value).2.liveCount = heap.liveCount + 1 := by
  have bound := fits.freeCount_le
  unfold liveCount freeCount slotCount at *
  cases free : heap.free with
  | nil =>
    simp only [alloc_of_free_nil value free, free, Array.size_push, List.length_nil]
    omega
  | cons word rest =>
    simp only [alloc_of_free_cons value free, free, Array.size_setIfInBounds,
      List.length_cons] at bound ⊢
    omega

theorem Fits.modify (handle : Handle) (change : Value → Value) :
    (heap.modify handle change).Fits := by
  have same : (heap.slots.modify handle.index (Option.map fun slot =>
      { slot with value := change slot.value })).countP Option.isSome =
        heap.slots.countP Option.isSome := by
    have occupied : (heap.slots.modify handle.index (Option.map fun slot =>
        { slot with value := change slot.value })).map Option.isSome =
          heap.slots.map Option.isSome := by
      apply Array.ext_getElem?
      intro index
      rw [Array.getElem?_map, Array.getElem?_map, Array.getElem?_modify]
      split
      · cases heap.slots[index]? with
        | none => rfl
        | some cell => cases cell <;> rfl
      · rfl
    have counted := congrArg (Array.countP id) occupied
    rwa [Array.countP_map, Array.countP_map] at counted
  unfold Fits freeCount slotCount at *
  simpa [Heap.modify, same] using fits

section Collect

variable (roots : List Handle)

omit fits in
theorem slotCount_collect (heap : Heap) : (heap.collect roots).2.slotCount = heap.slotCount := by
  simp [slotCount, Heap.collect]

omit fits in
/-- What a collection frees is no longer occupied. -/
theorem countP_collect (heap : Heap) :
    (heap.collect roots).2.slots.countP Option.isSome + (heap.collect roots).1.freed =
      heap.slots.countP Option.isSome := by
  have swept := countP_isSome_map_sweepSlot (markFrom heap.slots roots)
  rw [countP_isSome_markFrom, ← length_unmarkedIndices] at swept
  exact swept

omit fits in
theorem freeCount_collect (heap : Heap) :
    (heap.collect roots).2.freeCount = (heap.collect roots).1.freed + heap.freeCount := by
  simp [freeCount, Heap.collect]

theorem Fits.collect : (heap.collect roots).2.Fits := by
  have occupied := heap.countP_collect roots
  have free := heap.freeCount_collect roots
  have size := heap.slotCount_collect roots
  unfold Fits at *
  omega

theorem Fits.liveCount_collect :
    (heap.collect roots).2.liveCount + (heap.collect roots).1.freed = heap.liveCount := by
  have bound := (fits.collect roots).freeCount_le
  have free := heap.freeCount_collect roots
  have size := heap.slotCount_collect roots
  unfold liveCount
  omega

end Collect

end Fits

end Heap
end Scriptlet
