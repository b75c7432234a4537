import Scriptlet.Value.Basic

set_option autoImplicit false

/-!
The heap: slots for values, and the slots that are free. Freed slots are used again, the last one
freed first, before a new slot is made.
-/
namespace Scriptlet

/-- An occupied slot. The mark is set during a collection only. -/
structure Slot where
  value : Value
  marked : Bool

/-- Slots with the numbers of the free ones, and what the collector counts. -/
structure Heap where
  slots : Array (Option Slot)
  free : List UInt32
  sinceCollection : Nat
  threshold : UInt64
  enabled : Bool
  allocations : Nat
  collections : Nat
  freed : Nat

/-- The number of allocations between collections, unless a configuration says otherwise. -/
def defaultThreshold : UInt64 := 1024

def leastThreshold : UInt64 := 1024

def largestThreshold : UInt64 := 1000000

/-- How full a heap is, and what was done so far. -/
structure Usage where
  slots : Nat
  live : Nat
  free : Nat
  allocations : Nat
  collections : Nat
  freed : Nat
  threshold : UInt64
  deriving DecidableEq, Repr

def Usage.text (usage : Usage) : String :=
  "pool: " ++ toString usage.live ++ " live / " ++ toString usage.free ++ " free / " ++
    toString usage.slots ++ " slots, " ++ toString usage.allocations ++ " allocations, " ++
    toString usage.collections ++ " collections (" ++ toString usage.freed ++
    " freed), threshold " ++ toString usage.threshold.toNat

namespace Heap

/-- A heap without slots. The threshold is at least one. -/
def withThreshold (threshold : UInt64) : Heap where
  slots := #[]
  free := []
  sinceCollection := 0
  threshold := max threshold 1
  enabled := true
  allocations := 0
  collections := 0
  freed := 0

def empty : Heap :=
  withThreshold defaultThreshold

/-- Switches collections after a number of allocations on or off. -/
def setEnabled (heap : Heap) (enabled : Bool) : Heap :=
  { heap with enabled }

def setThreshold (heap : Heap) (threshold : UInt64) : Heap :=
  { heap with threshold := max threshold leastThreshold }

/-- Whether enough was allocated for a collection. -/
def shouldCollect (heap : Heap) : Bool :=
  heap.enabled && heap.threshold.toNat ≤ heap.sinceCollection

def slot? (heap : Heap) (handle : Handle) : Option Slot :=
  heap.slots[handle.index]?.join

def get? (heap : Heap) (handle : Handle) : Option Value :=
  (heap.slot? handle).map Slot.value

/-- Whether the slot of a handle is occupied. -/
def isLive (heap : Heap) (handle : Handle) : Bool :=
  (heap.get? handle).isSome

/-- Puts a value into a free or new slot. The number of a new slot is cut to one word, so there is
no handle for a slot behind the first 2 ^ 32. -/
def alloc (heap : Heap) (value : Value) : Handle × Heap :=
  let slot := some ⟨value, false⟩
  let sinceCollection := heap.sinceCollection + 1
  let allocations := heap.allocations + 1
  match heap.free with
  | word :: free =>
    (⟨word⟩, { heap with
      slots := heap.slots.setIfInBounds word.toNat slot, free, sinceCollection, allocations })
  | [] =>
    (⟨heap.slots.size⟩, { heap with slots := heap.slots.push slot, sinceCollection, allocations })

def modify (heap : Heap) (handle : Handle) (change : Value → Value) : Heap :=
  { heap with
    slots := heap.slots.modify handle.index (Option.map fun slot =>
      { slot with value := change slot.value }) }

def slotCount (heap : Heap) : Nat :=
  heap.slots.size

def freeCount (heap : Heap) : Nat :=
  heap.free.length

def liveCount (heap : Heap) : Nat :=
  heap.slotCount - heap.freeCount

/-- How full a heap is, and what was done so far. -/
def usage (heap : Heap) : Usage where
  slots := heap.slotCount
  live := heap.liveCount
  free := heap.freeCount
  allocations := heap.allocations
  collections := heap.collections
  freed := heap.freed
  threshold := heap.threshold

end Heap
end Scriptlet
