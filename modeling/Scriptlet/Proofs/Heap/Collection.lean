import Scriptlet.Proofs.Heap.Counts
import Scriptlet.Scope

set_option autoImplicit false

/-!
Collections. A slot survives exactly if it was occupied and can be reached from the roots, and then
it keeps its value. Hence a second collection from the same roots frees nothing.
-/
namespace Scriptlet

theorem slotAt?_map_sweepSlot (slots : Array (Option Slot)) (handle : Handle) :
    slotAt? (slots.map sweepSlot) handle = sweepSlot (slotAt? slots handle) := by
  simp only [slotAt?, Array.getElem?_map]
  cases slots[handle.index]? with
  | none => rfl
  | some cell => cases cell <;> rfl

/-- A sweep keeps what has a mark, with its value. -/
theorem contentAt?_map_sweepSlot (slots : Array (Option Slot)) (handle : Handle) (value : Value) :
    contentAt? (slots.map sweepSlot) handle = some value ↔
      MarkedAt slots handle ∧ contentAt? slots handle = some value := by
  simp only [contentAt?, slotAt?_map_sweepSlot, MarkedAt]
  cases slotAt? slots handle with
  | none => simp [sweepSlot]
  | some slot => cases marked : slot.marked <;> simp [sweepSlot, marked]

theorem mem_unmarkedIndices (slots : Array (Option Slot)) (index : Nat) :
    index ∈ unmarkedIndices slots ↔
      ∃ slot, slots[index]? = some (some slot) ∧ slot.marked = false := by
  simp only [unmarkedIndices, List.mem_filter, List.mem_range, Option.any_eq_true]
  constructor
  · rintro ⟨_, cell, found, unmarked⟩
    cases cell with
    | none => cases unmarked
    | some slot => exact ⟨slot, found, by simpa [isUnmarked] using unmarked⟩
  · rintro ⟨slot, found, unmarked⟩
    obtain ⟨bound, _⟩ := Array.getElem?_eq_some_iff.mp found
    exact ⟨bound, some slot, found, by simp [isUnmarked, unmarked]⟩

namespace Heap

variable {heap : Heap} (roots : List Handle)

section Unmarked

variable (unmarked : heap.Unmarked)

include unmarked

/-- Marking from the roots marks what is occupied and can be reached. -/
theorem Unmarked.markedAt_iff (handle : Handle) :
    MarkedAt (markFrom heap.slots roots) handle ↔
      heap.isLive handle ∧ heap.Reachable (· ∈ roots) handle :=
  markedAt_markFrom_iff unmarked.not_markedAt roots handle

/-- A collection keeps exactly the values that can be reached from the roots, where they are. -/
theorem Unmarked.get?_collect (handle : Handle) (value : Value) :
    (heap.collect roots).2.get? handle = some value ↔
      heap.get? handle = some value ∧ heap.Reachable (· ∈ roots) handle := by
  change contentAt? ((markFrom heap.slots roots).map sweepSlot) handle = some value ↔ _
  rw [contentAt?_map_sweepSlot, unmarked.markedAt_iff, contentAt?_markFrom,
    ← get?_eq_contentAt?]
  constructor
  · rintro ⟨⟨_, reached⟩, found⟩
    exact ⟨found, reached⟩
  · rintro ⟨found, reached⟩
    exact ⟨⟨isLive_of_get? found, reached⟩, found⟩

theorem Unmarked.isLive_collect (handle : Handle) :
    (heap.collect roots).2.isLive handle ↔
      heap.isLive handle ∧ heap.Reachable (· ∈ roots) handle := by
  simp only [isLive_iff, unmarked.get?_collect, exists_and_right]

/-- Of the slots that handles name, those are freed that are occupied and cannot be reached. -/
theorem Unmarked.mem_garbage (handle : Handle) :
    handle.index ∈ unmarkedIndices (markFrom heap.slots roots) ↔
      heap.isLive handle ∧ ¬ heap.Reachable (· ∈ roots) handle := by
  have marked := unmarked.markedAt_iff roots handle
  have occupied : heap.isLive handle ↔
      ∃ slot, slotAt? (markFrom heap.slots roots) handle = some slot := by
    rw [← Option.isSome_iff_exists, isLive, get?_eq_contentAt?, ← contentAt?_markFrom, contentAt?,
      Option.isSome_map]
  rw [mem_unmarkedIndices]
  constructor
  · rintro ⟨slot, found, isUnmarked⟩
    have here := (slotAt?_eq_some_iff _ handle slot).mpr found
    refine ⟨occupied.mpr ⟨slot, here⟩, fun reached => ?_⟩
    obtain ⟨other, foundOther, isMarked⟩ := marked.mpr ⟨occupied.mpr ⟨slot, here⟩, reached⟩
    rw [here] at foundOther
    cases foundOther
    rw [isUnmarked] at isMarked
    cases isMarked
  · rintro ⟨live, unreached⟩
    obtain ⟨slot, here⟩ := occupied.mp live
    refine ⟨slot, (slotAt?_eq_some_iff _ _ _).mp here, ?_⟩
    cases isMarked : slot.marked with
    | false => rfl
    | true => exact absurd (marked.mp ⟨slot, here, isMarked⟩).2 unreached

/-- A slot that no handle names is freed. -/
theorem Unmarked.getElem?_collect_of_le {index : Nat} (behind : 2 ^ 32 ≤ index) (slot : Slot) :
    (heap.collect roots).2.slots[index]? ≠ some (some slot) := by
  change ((markFrom heap.slots roots).map sweepSlot)[index]? ≠ _
  rw [Array.getElem?_map, getElem?_markFrom_of_le heap.slots roots behind]
  cases found : heap.slots[index]? with
  | none => exact nofun
  | some cell =>
    cases cell with
    | none => exact nofun
    | some before => simp [sweepSlot, unmarked index before found]

/-- What can be reached stays so: everything on the way there survives too. -/
theorem Unmarked.reachable_collect {handle : Handle}
    (reached : heap.Reachable (· ∈ roots) handle) :
    (heap.collect roots).2.Reachable (· ∈ roots) handle := by
  induction reached with
  | root start => exact .root start
  | child before found member ih =>
    exact .child ih ((unmarked.get?_collect roots _ _).mpr ⟨found, before⟩) member

end Unmarked

/-- A sweep leaves no marks. -/
theorem unmarked_collect (heap : Heap) : (heap.collect roots).2.Unmarked := by
  intro index slot found
  change ((markFrom heap.slots roots).map sweepSlot)[index]? = _ at found
  rw [Array.getElem?_map, Option.map_eq_some_iff] at found
  obtain ⟨cell, _, swept⟩ := found
  unfold sweepSlot at swept
  split at swept
  · split at swept <;> cases swept
    rfl
  · cases swept

/-- A second collection from the same roots frees nothing. -/
theorem Unmarked.freed_collect_collect (unmarked : heap.Unmarked) :
    ((heap.collect roots).2.collect roots).1.freed = 0 := by
  have swept := heap.unmarked_collect roots
  change (unmarkedIndices (markFrom (heap.collect roots).2.slots roots)).length = 0
  rw [List.length_eq_zero_iff, List.eq_nil_iff_forall_not_mem]
  intro index garbage
  by_cases named : index < 2 ^ 32
  · rw [← Handle.index_mk named, swept.mem_garbage] at garbage
    have reached := ((unmarked.isLive_collect roots _).mp garbage.1).2
    exact garbage.2 (unmarked.reachable_collect roots reached)
  · obtain ⟨slot, found, _⟩ := (mem_unmarkedIndices _ _).mp garbage
    rw [getElem?_markFrom_of_le _ roots (Nat.le_of_not_lt named)] at found
    exact unmarked.getElem?_collect_of_le roots (Nat.le_of_not_lt named) slot found

/-- Until a number is cut to a word, the freed slots are listed before those that were free. -/
theorem map_toNat_free_collect (room : heap.slotCount ≤ 2 ^ 32) :
    (heap.collect roots).2.free.map UInt32.toNat =
      (unmarkedIndices (markFrom heap.slots roots)).reverse ++ heap.free.map UInt32.toNat := by
  change (_ ++ heap.free).map UInt32.toNat = _
  rw [List.map_append, List.map_map]
  congr 1
  refine (List.map_congr_left fun index member => ?_).trans (List.map_id _)
  obtain ⟨slot, found, _⟩ := (mem_unmarkedIndices _ _).mp (List.mem_reverse.mp member)
  obtain ⟨bound, _⟩ := Array.getElem?_eq_some_iff.mp found
  rw [size_markFrom] at bound
  exact Handle.index_mk (Nat.lt_of_lt_of_le bound room)

/-- A collection leaves a heap consistent, if there is a handle for each slot. -/
theorem Consistent.collect (consistent : heap.Consistent) (room : heap.slotCount ≤ 2 ^ 32) :
    (heap.collect roots).2.Consistent := by
  have free := map_toNat_free_collect roots room
  refine ⟨heap.unmarked_collect roots, ?_, fun index => ?_⟩
  · apply List.Nodup.of_map UInt32.toNat
    rw [free, List.nodup_append]
    refine ⟨List.nodup_reverse.mpr (List.nodup_range.filter _),
      consistent.free_nodup.map fun _ _ => UInt32.toNat_inj.mp, ?_⟩
    rintro index garbage _ listed rfl
    obtain ⟨slot, occupied, _⟩ := (mem_unmarkedIndices _ _).mp (List.mem_reverse.mp garbage)
    rw [consistent.mem_free_iff, ← getElem?_markFrom_eq_some_none_iff _ roots, occupied] at listed
    cases listed
  · change _ ↔ ((markFrom heap.slots roots).map sweepSlot)[index]? = some none
    rw [free, List.mem_append, List.mem_reverse, mem_unmarkedIndices, consistent.mem_free_iff,
      ← getElem?_markFrom_eq_some_none_iff _ roots, Array.getElem?_map]
    cases (markFrom heap.slots roots)[index]? with
    | none => simp
    | some cell =>
      cases cell with
      | none => simp [sweepSlot]
      | some slot => cases marked : slot.marked <;> simp [sweepSlot, marked]

end Heap

/-- A handle is bound in an open frame, or is the receiver of one. -/
def ScopeChain.Holds (chain : ScopeChain) (handle : Handle) : Prop :=
  ∃ frame ∈ chain.frames,
    (∃ name, (name, handle) ∈ frame.bindings.entries) ∨ frame.this = some handle

theorem Frame.mem_handles_iff (frame : Frame) (handle : Handle) :
    handle ∈ frame.handles ↔
      (∃ name, (name, handle) ∈ frame.bindings.entries) ∨ frame.this = some handle := by
  simp [Frame.handles, Bindings.handles]

theorem ScopeChain.mem_roots_iff (chain : ScopeChain) (handle : Handle) :
    handle ∈ chain.roots ↔ chain.Holds handle := by
  simp only [ScopeChain.roots, ScopeChain.Holds, List.mem_flatMap, Array.mem_toList_iff,
    Frame.mem_handles_iff]

namespace Heap

/-- Collection is exact. The marking loop runs to its end; a slot stays occupied exactly if it can
be reached from an open frame or an extra root, so one that no handle names is freed; what stays
keeps its place and its value; the marks are cleared; the list of free slots stays right, if there
is a handle for each slot; the report counts what was freed; and a second collection frees nothing
more. -/
theorem collect_exact (heap : Heap) (consistent : heap.Consistent) (chain : ScopeChain)
    (extra : List Handle) :
    let roots := chain.roots ++ extra
    let report := (heap.collect roots).1
    let after := (heap.collect roots).2
    (∃ turns ≤ turnsAhead heap.slots roots,
      markStep^[turns] (heap.slots, roots) = (markFrom heap.slots roots, [])) ∧
    (∀ handle, after.isLive handle ↔ heap.isLive handle ∧
      heap.Reachable (fun root => chain.Holds root ∨ root ∈ extra) handle) ∧
    (∀ handle, after.isLive handle → after.get? handle = heap.get? handle) ∧
    (∀ index slot, 2 ^ 32 ≤ index → after.slots[index]? ≠ some (some slot)) ∧
    after.Unmarked ∧
    (heap.slotCount ≤ 2 ^ 32 → after.Consistent) ∧
    (report.liveBefore = heap.liveCount ∧ report.liveAfter = after.liveCount ∧
      report.liveAfter ≤ report.liveBefore ∧
      report.freed = report.liveBefore - report.liveAfter) ∧
    (after.collect roots).1.freed = 0 := by
  intro roots report after
  have isRoot : (· ∈ roots) = fun root => chain.Holds root ∨ root ∈ extra := by
    funext root
    rw [List.mem_append, chain.mem_roots_iff]
  have unmarked := consistent.unmarked
  have counted : after.liveCount + report.freed = heap.liveCount :=
    consistent.fits.liveCount_collect roots
  have before : report.liveBefore = heap.liveCount := rfl
  have later : report.liveAfter = after.liveCount := rfl
  refine ⟨exists_iterate_markStep heap.slots roots, fun handle => ?_, fun handle live => ?_,
    fun index slot behind => unmarked.getElem?_collect_of_le roots behind slot,
    heap.unmarked_collect roots, consistent.collect roots, ⟨before, later, ?_, ?_⟩,
    unmarked.freed_collect_collect roots⟩
  · rw [← isRoot]
    exact unmarked.isLive_collect roots handle
  · obtain ⟨value, found⟩ := (after.isLive_iff handle).mp live
    rw [found, ((unmarked.get?_collect roots handle value).mp found).1]
  · omega
  · omega

/-- Two arrays inside each other, a free slot, and a number that nothing refers to. -/
def tangled : Heap where
  slots := #[some ⟨.array #[⟨1⟩, ⟨2⟩, ⟨7⟩] .empty, false⟩, some ⟨.array #[⟨0⟩] .empty, false⟩,
    none, some ⟨.boolean true, false⟩]
  free := [2]
  sinceCollection := 3
  threshold := 1
  enabled := true
  allocations := 4
  collections := 1
  freed := 1

/-- A cycle that one binding leads into survives, next to roots that name no occupied slot. -/
theorem collect_exact_tangled :
    tangled.Consistent ∧
      (tangled.collect ((ScopeChain.initial.declare ScopeChain.global "x" ⟨0⟩).roots ++
        [⟨2⟩, ⟨9⟩])).2.isLive ⟨1⟩ := by
  have consistent : tangled.Consistent := by
    refine ⟨?_, by decide, ?_⟩
    · intro index slot found
      rcases index with _ | _ | _ | _ | index <;> simp [tangled] at found <;> simp [← found]
    · intro index
      rcases index with _ | _ | _ | _ | index <;> simp [tangled]
  refine ⟨consistent, ?_⟩
  have exact := collect_exact tangled consistent
    (ScopeChain.initial.declare ScopeChain.global "x" ⟨0⟩) [⟨2⟩, ⟨9⟩]
  refine (exact.2.1 ⟨1⟩).mpr ⟨rfl, .child (.root (.inl ?_)) (show tangled.get? ⟨0⟩ = _ from rfl) ?_⟩
  · exact (ScopeChain.mem_roots_iff _ _).mp (by decide)
  · simp [Value.children]

end Heap
end Scriptlet
