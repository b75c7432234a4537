import Scriptlet.Proofs.Run.Actions
import Scriptlet.Proofs.Value.Properties

set_option autoImplicit false

/-!
Reading a property that was just written. An array keeps an element that is written too far behind
its end in the table of its named properties, where no index is looked up, so this one write is not
read back.
-/
namespace Scriptlet

namespace Writing

/-- How many places a write skips. -/
def holes : Writing → Nat
  | .append holes => holes
  | _ => 0

end Writing

namespace Value

/-- The table of an array or an object. -/
def table? : Value → Option PropertyMap
  | .array _ properties => some properties
  | .object properties => some properties
  | _ => none

/-- Whether a key is an index too far behind the end of an array. -/
def isBeyond (value : Value) (key : PropertyKey) : Bool :=
  match value, key with
  | .array elements _, .index index => elements.size + largestGap < index
  | _, _ => false

/-- A value after a write, with handles for the places that are skipped. -/
def written (handle : Handle) (holes : Array Handle) : Writing → Value → Value
  | .ignored => id
  | .element index => setElement index handle
  | .append _ => append (holes.push handle)
  | .named name => setNamed name handle

section

variable {value : Value} {properties : PropertyMap} {key : PropertyKey}

/-- The handle written is what is read, unless it was written beyond an array. -/
theorem property_written (table : value.table? = some properties) (indexed : properties.Indexed)
    (notLength : value.kind = .array → key.isLength = false) (handle : Handle)
    {holes : Array Handle} (filled : holes.size = (value.writing key).holes) :
    (written handle holes (value.writing key) value).property key =
      if value.isBeyond key then .fresh .undefined else .found handle := by
  cases value with
  | array elements named =>
    cases table
    cases key with
    | index index =>
      simp only [isBeyond, decide_eq_true_eq]
      by_cases within : index < elements.size
      · have near : ¬ elements.size + largestGap < index := by omega
        simp [writing, written, setElement, property, within, near]
      · by_cases beyond : elements.size + largestGap < index
        · have far : ¬ index ≤ elements.size + largestGap := by omega
          simp [writing, written, setNamed, property, within, beyond, far]
        · have near : index ≤ elements.size + largestGap := by omega
          simp only [writing, within, near, ↓reduceIte, Writing.holes] at filled
          have last : (elements ++ holes).size = index := by
            rw [Array.size_append]
            omega
          have found : ((elements ++ holes).push handle)[index]? = some handle := by
            rw [← last]
            exact Array.getElem?_push_size
          rw [if_neg beyond]
          simp only [writing, within, near, ↓reduceIte, written, append, property,
            Array.append_push, found, Option.elim_some]
    | name name =>
      have other := notLength rfl
      simp [writing, written, setNamed, property, isBeyond, other, indexed.get?_insert]
  | object named =>
    cases table
    simp [writing, written, setNamed, property, isBeyond, indexed.get?_insert]
  | _ => cases table

end

end Value

namespace Eval

/-- What is left of a heap when some slots have been filled with undefined values. Those were free
or are new, if there are handles for all slots. -/
structure Padded (before after : Heap) (holes : Array Handle) : Prop where
  consistent : after.Consistent
  slots : before.slotCount ≤ after.slotCount
  kept : ∀ handle value, before.get? handle = some value → after.get? handle = some value
  hole : after.slotCount ≤ 2 ^ 32 →
    ∀ hole ∈ holes, ¬ before.isLive hole ∧ after.get? hole = some .undefined

/-- Allocating keeps what is in the heap, and gives as many handles as asked for. -/
theorem allocHoles_eq_ok (count : Nat) (handles : Array Handle) {machine : Machine}
    (consistent : machine.heap.Consistent) :
    ∃ holes heap, allocHoles count handles machine = .ok (handles ++ holes) { machine with heap } ∧
      holes.size = count ∧ Padded machine.heap heap holes := by
  induction count generalizing handles machine with
  | zero =>
    refine ⟨#[], machine.heap, ?_, rfl, consistent, Nat.le_refl _, fun _ _ found => found, by simp⟩
    rw [Array.append_empty]
    rfl
  | succ count ih =>
    let first := (machine.heap.alloc .undefined).1
    let extended := { machine with heap := (machine.heap.alloc .undefined).2 }
    have kept (handle : Handle) (value : Value) (found : machine.heap.get? handle = some value) :
        extended.heap.get? handle = some value := by
      have live := Heap.isLive_of_get? found
      exact (consistent.get?_alloc_of_isLive .undefined live).trans found
    have rest : extended.heap.Consistent := consistent.alloc .undefined
    obtain ⟨holes, heap, allocated, size, padded⟩ := ih (handles.push first) rest
    have more := machine.heap.slotCount_le_alloc .undefined
    refine ⟨#[first] ++ holes, heap, ?_, ?_, padded.consistent, Nat.le_trans more padded.slots,
      ?_, ?_⟩
    · rw [← Array.append_assoc, Array.append_singleton]
      exact allocated
    · simp [size, Nat.add_comm]
    · exact fun handle value found => padded.kept handle value (kept handle value found)
    · intro room hole member
      have roomFirst : extended.heap.slotCount ≤ 2 ^ 32 := Nat.le_trans padded.slots room
      rcases Array.mem_append.mp member with isFirst | isLater
      · obtain rfl : hole = first := by simpa using isFirst
        have filled := (consistent.get?_alloc .undefined roomFirst first).trans (if_pos rfl)
        exact ⟨consistent.not_isLive_alloc .undefined roomFirst, padded.kept first _ filled⟩
      · obtain ⟨unused, filled⟩ := padded.hole room hole isLater
        refine ⟨fun live => unused ?_, filled⟩
        obtain ⟨value, found⟩ := (Heap.isLive_iff _ _).mp live
        exact Heap.isLive_of_get? (kept hole value found)

variable {machine : Machine} {target : Handle} {value : Value}

theorem update_eq_ok (found : machine.heap.get? target = some value) (change : Value → Value) :
    update target change machine =
      .ok () { machine with heap := machine.heap.modify target change } := by
  unfold update
  rw [if_pos (Heap.isLive_of_get? found)]

/-- What a write of a property makes of a heap, with handles for the places that are skipped. -/
structure Wrote (target : Handle) (value : Value) (key : PropertyKey) (handle : Handle)
    (holes : Array Handle) (before after : Heap) : Prop where
  consistent : after.Consistent
  filled : holes.size = (value.writing key).holes
  written : after.get? target = some (value.written handle holes (value.writing key))
  kept : ∀ other content, other ≠ target → before.get? other = some content →
    after.get? other = some content
  hole : after.slotCount ≤ 2 ^ 32 →
    ∀ hole ∈ holes, ¬ before.isLive hole ∧ after.get? hole = some .undefined
  ignored : value.writing key = .ignored → after = before

/-- Whatever is written is one change of the target, behind the handles of the places skipped. -/
theorem Padded.wrote {before heap : Heap} {holes : Array Handle} (padded : Padded before heap holes)
    (found : before.get? target = some value) {key : PropertyKey} {writing : Writing}
    (writing_eq : value.writing key = writing) (filled : holes.size = writing.holes)
    {handle : Handle} {change : Value → Value}
    (writes : Value.written handle holes writing value = change value)
    (effective : writing ≠ .ignored) :
    Wrote target value key handle holes before (heap.modify target change) := by
  subst writing_eq
  refine ⟨padded.consistent.modify target change, filled, ?_, ?_, ?_,
    fun ignored => absurd ignored effective⟩
  · rw [Heap.get?_modify, if_pos rfl, padded.kept target value found, writes]
    rfl
  · intro other content apart contained
    rw [Heap.get?_modify, if_neg apart, padded.kept other content contained]
  · intro room hole member
    rw [Run.slotCount_modify] at room
    obtain ⟨unused, content⟩ := padded.hole room hole member
    have apart : hole ≠ target := by
      rintro rfl
      exact unused (Heap.isLive_of_get? found)
    exact ⟨unused, by rw [Heap.get?_modify, if_neg apart, content]⟩

/-- A write succeeds, and changes nothing but the heap. -/
theorem exists_wrote (consistent : machine.heap.Consistent)
    (found : machine.heap.get? target = some value) (key : PropertyKey) (handle : Handle) :
    ∃ holes heap, setProperty target key handle machine = .ok () { machine with heap } ∧
      Wrote target value key handle holes machine.heap heap := by
  have read := Run.deref_of_get? found
  have whole : Padded machine.heap machine.heap #[] :=
    ⟨consistent, Nat.le_refl _, fun _ _ contained => contained, by simp⟩
  unfold setProperty
  cases writing : value.writing key with
  | ignored =>
    refine ⟨#[], machine.heap, ?_, consistent, by rw [writing]; rfl, ?_, ?_, by simp, fun _ => rfl⟩
    · simp only [bind, EStateM.bind, read, writing]
      rfl
    · rw [writing]
      exact found
    · exact fun _ _ _ contained => contained
  | element index =>
    refine ⟨#[], _, ?_, whole.wrote found writing rfl rfl nofun⟩
    simp only [bind, EStateM.bind, read, writing]
    exact update_eq_ok found _
  | append count =>
    obtain ⟨holes, heap, allocated, size, padded⟩ := allocHoles_eq_ok count #[] consistent
    rw [Array.empty_append] at allocated
    refine ⟨holes, _, ?_, padded.wrote found writing size rfl nofun⟩
    simp only [bind, EStateM.bind, read, writing, allocated]
    exact update_eq_ok (padded.kept target value found) _
  | named name =>
    refine ⟨#[], _, ?_, whole.wrote found writing rfl rfl nofun⟩
    simp only [bind, EStateM.bind, read, writing]
    exact update_eq_ok found _

/-- A write succeeds, and leaves the target as the write says. -/
theorem setProperty_eq_ok (consistent : machine.heap.Consistent)
    (found : machine.heap.get? target = some value) (key : PropertyKey) (handle : Handle) :
    ∃ holes after, setProperty target key handle machine = .ok () after ∧
      after.heap.Consistent ∧ holes.size = (value.writing key).holes ∧
      after.heap.get? target = some (value.written handle holes (value.writing key)) := by
  obtain ⟨holes, heap, written, wrote⟩ := exists_wrote consistent found key handle
  exact ⟨holes, _, written, wrote.consistent, wrote.filled, wrote.written⟩

/-- A handle written as a property is the one that is read afterwards. What is written beyond an
array is lost to reading: it gives a new undefined value, which has a slot of its own if there are
handles for all slots. -/
theorem getProperty_setProperty (consistent : machine.heap.Consistent)
    (found : machine.heap.get? target = some value) {properties : PropertyMap}
    (table : value.table? = some properties) (indexed : properties.Indexed) (key : PropertyKey)
    (notLength : value.kind = .array → key.isLength = false) (handle : Handle) :
    ∃ after, setProperty target key handle machine = .ok () after ∧
      if value.isBeyond key then
        ∃ hole last, getProperty target key after = .ok hole last ∧
          alloc .undefined after = .ok hole last ∧
          (last.heap.slotCount ≤ 2 ^ 32 →
            ¬ after.heap.isLive hole ∧ last.heap.get? hole = some .undefined)
      else getProperty target key after = .ok handle after := by
  obtain ⟨holes, after, written, consistentAfter, size, foundAfter⟩ :=
    setProperty_eq_ok consistent found key handle
  have reading := Value.property_written table indexed notLength handle size
  have read := Run.deref_of_get? foundAfter
  refine ⟨after, written, ?_⟩
  unfold getProperty
  simp only [bind, EStateM.bind, read, reading]
  split
  · refine ⟨_, _, rfl, rfl, fun room => ⟨consistentAfter.not_isLive_alloc .undefined room, ?_⟩⟩
    exact (consistentAfter.get?_alloc .undefined room _).trans (if_pos rfl)
  · rfl

/-- A machine whose only value is an array without elements, which has one named property. -/
def listMachine : Machine :=
  ((Machine.bare {}).define "list" (.array #[] (.ofList [("tag", ⟨0⟩)]))).2

theorem getProperty_setProperty_list :
    (∃ after, setProperty ⟨0⟩ (.index 5) ⟨0⟩ listMachine = .ok () after ∧
      getProperty ⟨0⟩ (.index 5) after = .ok ⟨0⟩ after) ∧
    ∃ after hole last, setProperty ⟨0⟩ (.index 70000) ⟨0⟩ listMachine = .ok () after ∧
      getProperty ⟨0⟩ (.index 70000) after = .ok hole last ∧
      last.heap.get? hole = some .undefined := by
  have consistent : listMachine.heap.Consistent := (Run.rooted_bare {}).consistent.alloc _
  have found : listMachine.heap.get? ⟨0⟩ = some (.array #[] (.ofList [("tag", ⟨0⟩)])) := rfl
  have indexed := PropertyMap.indexed_ofList [("tag", ⟨0⟩)]
  obtain ⟨near, written, read⟩ :=
    getProperty_setProperty consistent found rfl indexed (.index 5) (fun _ => rfl) ⟨0⟩
  obtain ⟨after, writtenFar, hole, last, readFar, allocated, contents⟩ :=
    getProperty_setProperty consistent found rfl indexed (.index 70000) (fun _ => rfl) ⟨0⟩
  have few : last.heap.slotCount = 2 := by
    cases writtenFar
    cases allocated
    rfl
  have room : last.heap.slotCount ≤ 2 ^ 32 := by
    rw [few]
    decide
  exact ⟨⟨near, written, read⟩, after, hole, last, writtenFar, readFar, (contents room).2⟩

end Eval
end Scriptlet
