import Scriptlet.Heap.Basic

set_option autoImplicit false

/-!
Collection. Marking follows children from the roots with a list of work; sweeping frees every
occupied slot without a mark. Marking ends because a slot is marked only once.
-/
namespace Scriptlet

structure Report where
  liveBefore : Nat
  liveAfter : Nat
  freed : Nat
  threshold : UInt64
  deriving DecidableEq, Repr

/-- Whether a slot is occupied and without a mark. -/
def isUnmarked : Option Slot → Bool
  | some slot => !slot.marked
  | none => false

def markFrom (slots : Array (Option Slot)) (work : List Handle) : Array (Option Slot) :=
  match work with
  | [] => slots
  | handle :: rest =>
    if bound : handle.index < slots.size then
      match found : slots[handle.index] with
      | some slot =>
        if fresh : slot.marked then markFrom slots rest
        else
          markFrom (slots.set handle.index (some { slot with marked := true }))
            (slot.value.children ++ rest)
      | none => markFrom slots rest
    else markFrom slots rest
termination_by (slots.countP isUnmarked, work.length)
decreasing_by
  · exact Prod.Lex.right _ (by simp)
  · apply Prod.Lex.left
    have unmarked : isUnmarked slots[handle.index] = true := by simp [found, isUnmarked, fresh]
    have pos : 0 < slots.countP isUnmarked :=
      Array.countP_pos_iff.mpr ⟨_, Array.getElem_mem bound, unmarked⟩
    have marked : ¬isUnmarked (some { slot with marked := true }) = true := by simp [isUnmarked]
    rw [Array.countP_set, if_pos unmarked, if_neg marked]
    omega
  · exact Prod.Lex.right _ (by simp)
  · exact Prod.Lex.right _ (by simp)

/-- A slot after a sweep: freed if it has no mark, else without its mark. -/
def sweepSlot : Option Slot → Option Slot
  | some slot => if slot.marked then some { slot with marked := false } else none
  | none => none

/-- The numbers of the slots that a sweep frees, in increasing order. -/
def unmarkedIndices (slots : Array (Option Slot)) : List Nat :=
  (List.range slots.size).filter fun index => slots[index]?.any isUnmarked

namespace Heap

/-- The threshold after a collection: doubled, up to a bound, if less than a quarter was freed;
halved, down to a bound, if more than three quarters were. -/
def adaptedThreshold (threshold : UInt64) (freed live : Nat) : UInt64 :=
  if live = 0 then threshold
  else if 4 * freed < live then min (threshold * 2) largestThreshold
  else if 3 * live < 4 * freed then max (threshold / 2) leastThreshold
  else threshold

/-- Frees every slot that cannot be reached from the roots. -/
def collect (heap : Heap) (roots : List Handle) : Report × Heap :=
  let liveBefore := heap.liveCount
  let marked := markFrom heap.slots roots
  let garbage := unmarkedIndices marked
  let freed := garbage.length
  let threshold := adaptedThreshold heap.threshold freed liveBefore
  let heap := { heap with
    slots := marked.map sweepSlot
    free := garbage.reverse.map Nat.toUInt32 ++ heap.free
    collections := heap.collections + 1
    freed := heap.freed + freed
    sinceCollection := 0
    threshold }
  (⟨liveBefore, heap.liveCount, freed, threshold⟩, heap)

end Heap
end Scriptlet
