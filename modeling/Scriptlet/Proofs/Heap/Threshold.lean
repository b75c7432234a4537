import Mathlib
import Scriptlet.Proofs.Heap.Bookkeeping

set_option autoImplicit false

/-!
How the threshold of a heap adapts. A collection that frees little makes the next one come later,
and one that frees much makes it come earlier, as long as the threshold is between its two bounds.
A heap may be given a threshold outside of them; then a collection brings it to the bound.
-/
namespace Scriptlet.Heap

theorem toNat_leastThreshold : leastThreshold.toNat = 1024 :=
  rfl

theorem toNat_largestThreshold : largestThreshold.toNat = 1000000 :=
  rfl

theorem toNat_max_word (a b : UInt64) : (max a b).toNat = max a.toNat b.toNat := by
  change (if a ≤ b then b else a).toNat = _
  by_cases order : a ≤ b
  · have values := UInt64.le_iff_toNat_le.mp order
    rw [if_pos order]
    omega
  · have values := mt UInt64.le_iff_toNat_le.mpr order
    rw [if_neg order]
    omega

theorem toNat_min_word (a b : UInt64) : (min a b).toNat = min a.toNat b.toNat := by
  change (if a ≤ b then a else b).toNat = _
  by_cases order : a ≤ b
  · have values := UInt64.le_iff_toNat_le.mp order
    rw [if_pos order]
    omega
  · have values := mt UInt64.le_iff_toNat_le.mpr order
    rw [if_neg order]
    omega

section Adapted

variable (threshold : UInt64) {freed live : Nat}

/-- Little was freed. Doubling stays within a word. -/
theorem toNat_adaptedThreshold_of_few (few : 4 * freed < live)
    (bound : threshold.toNat < 2 ^ 63) :
    (adaptedThreshold threshold freed live).toNat = min (2 * threshold.toNat) 1000000 := by
  have some_live : live ≠ 0 := by omega
  have double : (threshold * 2).toNat = 2 * threshold.toNat := by
    rw [UInt64.toNat_mul, show (2 : UInt64).toNat = 2 from rfl]
    omega
  rw [adaptedThreshold, if_neg some_live, if_pos few, toNat_min_word, double,
    toNat_largestThreshold]

/-- Much was freed. -/
theorem toNat_adaptedThreshold_of_many (many : 3 * live < 4 * freed) (within : freed ≤ live) :
    (adaptedThreshold threshold freed live).toNat = max (threshold.toNat / 2) 1024 := by
  have some_live : live ≠ 0 := by omega
  have not_few : ¬ 4 * freed < live := by omega
  rw [adaptedThreshold, if_neg some_live, if_neg not_few, if_pos many, toNat_max_word,
    UInt64.toNat_div, toNat_leastThreshold]
  rfl

theorem adaptedThreshold_of_between (not_few : ¬ 4 * freed < live)
    (not_many : ¬ 3 * live < 4 * freed) : adaptedThreshold threshold freed live = threshold := by
  by_cases none_live : live = 0
  · rw [adaptedThreshold, if_pos none_live]
  · rw [adaptedThreshold, if_neg none_live, if_neg not_few, if_neg not_many]

end Adapted

theorem threshold_collect (heap : Heap) (roots : List Handle) :
    (heap.collect roots).2.threshold =
      adaptedThreshold heap.threshold (heap.collect roots).1.freed heap.liveCount :=
  rfl

/-- A collection never sets the threshold to zero, unless the threshold is too large to be doubled
within a word. -/
theorem one_le_threshold_collect {heap : Heap} (positive : 1 ≤ heap.threshold.toNat)
    (bound : heap.threshold.toNat < 2 ^ 63) {roots : List Handle}
    (within : (heap.collect roots).1.freed ≤ heap.liveCount) :
    1 ≤ (heap.collect roots).2.threshold.toNat := by
  rw [threshold_collect]
  by_cases few : 4 * (heap.collect roots).1.freed < heap.liveCount
  · rw [toNat_adaptedThreshold_of_few _ few bound]
    omega
  · by_cases many : 3 * heap.liveCount < 4 * (heap.collect roots).1.freed
    · rw [toNat_adaptedThreshold_of_many _ many within]
      omega
    · rwa [adaptedThreshold_of_between _ few many]

/-- The threshold is at least one, as long as it was never too large to be doubled within a word. -/
theorem Course.one_le_threshold {heaps : List Heap} (course : Course heaps) :
    ∀ heap past, heaps = heap :: past →
      (∀ earlier ∈ past, earlier.threshold.toNat < 2 ^ 63) → 1 ≤ heap.threshold.toNat := by
  induction course with
  | new threshold =>
    rintro _ _ ⟨rfl⟩ _
    show 1 ≤ (max threshold 1).toNat
    rw [toNat_max_word]
    exact Nat.le_max_right _ _
  | @alloc heap past course value ih =>
    rintro _ _ ⟨rfl⟩ bounds
    have before := ih heap past rfl fun earlier member => bounds earlier (.tail _ member)
    unfold Heap.alloc
    split <;> exact before
  | @modify heap past course handle live change ih =>
    rintro _ _ ⟨rfl⟩ bounds
    exact ih heap past rfl fun earlier member => bounds earlier (.tail _ member)
  | @collect heap past course roots ih =>
    rintro _ _ ⟨rfl⟩ bounds
    have before := ih heap past rfl fun earlier member => bounds earlier (.tail _ member)
    obtain ⟨_, _, ⟨rfl⟩, kept⟩ := course.kept
    have counted := kept.fits.liveCount_collect roots
    exact one_le_threshold_collect before (bounds heap (.head _)) (by omega)
  | @setThreshold heap past course threshold ih =>
    rintro _ _ ⟨rfl⟩ _
    show 1 ≤ (max threshold leastThreshold).toNat
    rw [toNat_max_word, toNat_leastThreshold]
    omega
  | @setEnabled heap past course enabled ih =>
    rintro _ _ ⟨rfl⟩ bounds
    exact ih heap past rfl fun earlier member => bounds earlier (.tail _ member)

/-- However a heap was used, its threshold is at least one, as long as it was never too large to be
doubled within a word. A collection that frees less than a quarter of the occupied slots does not
lower the threshold, unless it is above its upper bound and is brought down to that; one that frees
more than three quarters does not raise it, unless it is below its lower bound and is brought up to
that; and any other collection leaves it as it is. -/
theorem course_threshold {heap : Heap} {past : List Heap} (course : Course (heap :: past)) :
    ((∀ earlier ∈ past, earlier.threshold.toNat < 2 ^ 63) → 1 ≤ heap.threshold) ∧
    ∀ roots, let after := (heap.collect roots).2
      let live := heap.liveCount
      let freed := live - after.liveCount
      let old := heap.threshold
      let new := after.threshold
      (4 * freed < live → (old ≤ largestThreshold → old ≤ new) ∧
        (largestThreshold < old → old.toNat < 2 ^ 63 → new = largestThreshold)) ∧
      (3 * live < 4 * freed → (leastThreshold ≤ old → new ≤ old) ∧
        (old < leastThreshold → new = leastThreshold)) ∧
      (¬ 4 * freed < live → ¬ 3 * live < 4 * freed → new = old) := by
  refine ⟨fun bounds => UInt64.le_iff_toNat_le.mpr (course.one_le_threshold heap past rfl bounds),
    fun roots => ?_⟩
  intro after live freed old new
  obtain ⟨_, _, ⟨rfl⟩, kept⟩ := course.kept
  have counted : after.liveCount + (heap.collect roots).1.freed = live :=
    kept.fits.liveCount_collect roots
  have freed_eq : (heap.collect roots).1.freed = freed := by omega
  have new_eq : new = adaptedThreshold old freed live := by rw [← freed_eq]; rfl
  simp only [UInt64.le_iff_toNat_le, UInt64.lt_iff_toNat_lt, ← UInt64.toNat_inj,
    toNat_leastThreshold, toNat_largestThreshold]
  refine ⟨fun few => ⟨fun below => ?_, fun above bound => ?_⟩,
    fun many => ?_, fun not_few not_many => ?_⟩
  · have doubled := toNat_adaptedThreshold_of_few old few (by omega)
    rw [new_eq, doubled]
    omega
  · have doubled := toNat_adaptedThreshold_of_few old few bound
    rw [new_eq, doubled]
    omega
  · have halved := toNat_adaptedThreshold_of_many old many (by omega)
    rw [new_eq, halved]
    omega
  · rw [new_eq, adaptedThreshold_of_between old not_few not_many]

def single (threshold : UInt64) : Heap :=
  ((withThreshold threshold).alloc .null).2

theorem course_single (threshold : UInt64) : Course [single threshold, withThreshold threshold] :=
  (Course.new threshold).alloc .null

/-- Between the bounds a threshold is doubled when nothing is freed. -/
theorem course_threshold_single :
    Course [single 2000, withThreshold 2000] ∧ 1 ≤ (single 2000).threshold ∧
      ((single 2000).collect [⟨0⟩]).1 = ⟨1, 1, 0, 4000⟩ ∧
      (single 2000).threshold ≤ ((single 2000).collect [⟨0⟩]).2.threshold := by
  have course := course_single 2000
  obtain ⟨positive, adapts⟩ := course_threshold course
  have first : ∀ earlier ∈ [withThreshold 2000], earlier.threshold.toNat < 2 ^ 63 :=
    List.forall_mem_singleton.mpr (by decide)
  have report : ((single 2000).collect [⟨0⟩]).1 = ⟨1, 1, 0, 4000⟩ := by cbv
  have few : 4 * ((single 2000).liveCount - ((single 2000).collect [⟨0⟩]).2.liveCount) <
      (single 2000).liveCount := by cbv
  exact ⟨course, positive first, report, ((adapts [⟨0⟩]).1 few).1 (by decide)⟩

/-- Outside of the bounds a threshold turns back to them. One of five is raised when everything is
freed, and one of two millions is lowered when nothing is. -/
theorem threshold_turns_back :
    (Course [single 5, withThreshold 5] ∧
      ¬ (3 * (single 5).liveCount <
          4 * ((single 5).liveCount - ((single 5).collect []).2.liveCount) →
        ((single 5).collect []).2.threshold ≤ (single 5).threshold)) ∧
    Course [single 2000000, withThreshold 2000000] ∧
      ¬ (4 * ((single 2000000).liveCount - ((single 2000000).collect [⟨0⟩]).2.liveCount) <
          (single 2000000).liveCount →
        (single 2000000).threshold ≤ ((single 2000000).collect [⟨0⟩]).2.threshold) := by
  refine ⟨⟨course_single 5, ?_⟩, course_single 2000000, ?_⟩
  · have live : (single 5).liveCount = 1 := by cbv
    have left : ((single 5).collect []).2.liveCount = 0 := by cbv
    have raised : ((single 5).collect []).2.threshold = 1024 := by cbv
    rw [live, left, raised]
    decide
  · have live : (single 2000000).liveCount = 1 := by cbv
    have left : ((single 2000000).collect [⟨0⟩]).2.liveCount = 1 := by cbv
    have lowered : ((single 2000000).collect [⟨0⟩]).2.threshold = 1000000 := by cbv
    rw [live, left, lowered]
    decide

end Scriptlet.Heap
