import Scriptlet.Proofs.Run.Property

set_option autoImplicit false

/-!
Reading what was not written. A write of a property changes neither what other properties of its
target give nor what any property of another value gives, apart from which slot a new value is put
into. A new value has a slot of its own as long as there are handles for all slots.
-/
namespace Scriptlet

namespace Value

section

variable {value : Value} {key other : PropertyKey} (handle : Handle)

theorem property_setElement_of_ne {index : Nat} (apart : other ≠ .index index) :
    (value.setElement index handle).property other = value.property other := by
  cases value with
  | array elements properties =>
    cases other with
    | index place =>
      have elsewhere : index ≠ place := by
        rintro rfl
        exact apart rfl
      simp [setElement, property, elsewhere]
    | name name => simp [setElement, property]
  | _ => rfl

/-- More elements are seen only behind the others, and in the length. -/
theorem property_append_of_ne {elements holes : Array Handle} {properties : PropertyMap}
    (apart : other ≠ .index (elements.size + holes.size)) (notLength : other.isLength = false) :
    let before := Value.array elements properties
    let after := before.append (holes.push handle)
    after.property other = before.property other ∨
      before.property other = .fresh .undefined ∧ ∃ hole ∈ holes,
        after.property other = .found hole := by
  cases other with
  | name name => exact .inl (by simp [append, property, notLength])
  | index place =>
    have elsewhere : place ≠ elements.size + holes.size := by
      rintro rfl
      exact apart rfl
    by_cases old : place < elements.size
    · left
      simp only [append, property, Array.getElem?_append_left old]
    · have behind : elements[place]? = none := Array.getElem?_eq_none (by omega)
      have added : (elements ++ holes.push handle)[place]? =
          if place < elements.size + holes.size then holes[place - elements.size]? else none := by
        have other : place - elements.size ≠ holes.size := by omega
        rw [Array.getElem?_append_right (by omega), Array.getElem?_push, if_neg other]
        split
        · rfl
        · exact Array.getElem?_eq_none (by omega)
      by_cases skipped : place < elements.size + holes.size
      · have inside : place - elements.size < holes.size := by omega
        refine .inr ⟨by simp [property, behind], holes[place - elements.size],
          Array.getElem_mem inside, ?_⟩
        simp only [append, property, added, skipped, ↓reduceIte, Array.getElem?_eq_getElem inside,
          Option.elim_some]
      · left
        simp only [append, property, added, behind, skipped, ↓reduceIte]

theorem property_setNamed_of_ne {name : String} (apart : other.text ≠ name)
    (indexed : ∀ properties, value.table? = some properties → properties.Indexed) :
    (value.setNamed name handle).property other = value.property other := by
  cases value with
  | array elements properties =>
    have kept := indexed properties rfl
    cases other with
    | index place => rfl
    | name other => simp [setNamed, property, kept.get?_insert, show other ≠ name from apart]
  | object properties =>
    have kept := indexed properties rfl
    simp [setNamed, property, kept.get?_insert, apart]
  | _ => rfl

/-- Another property is read as before the write, unless it has become a place that was skipped. -/
theorem property_written_of_ne (apart : other.text ≠ key.text)
    (notLength : value.kind = .array → other.isLength = false)
    (indexed : ∀ properties, value.table? = some properties → properties.Indexed)
    {holes : Array Handle} (filled : holes.size = (value.writing key).holes) :
    let after := value.written handle holes (value.writing key)
    after.property other = value.property other ∨
      value.property other = .fresh .undefined ∧ ∃ hole ∈ holes,
        after.property other = .found hole := by
  intro after
  have named := property_setNamed_of_ne handle apart indexed
  have elsewhere : other ≠ key := fun same => apart (congrArg PropertyKey.text same)
  cases value with
  | array elements properties =>
    cases key with
    | index index =>
      by_cases within : index < elements.size
      · left
        simp only [after, writing, within, ↓reduceIte, written]
        exact property_setElement_of_ne handle elsewhere
      · by_cases near : index ≤ elements.size + largestGap
        · simp only [writing, within, near, ↓reduceIte, Writing.holes] at filled
          simp only [after, writing, within, near, ↓reduceIte, written]
          have last : index = elements.size + holes.size := by omega
          exact property_append_of_ne handle (last ▸ elsewhere) (notLength rfl)
        · left
          simp only [after, writing, within, near, ↓reduceIte, written]
          exact named
    | name name =>
      left
      by_cases isLength : PropertyKey.isLength (.name name)
      · simp only [after, writing, isLength, ↓reduceIte, written, id]
      · simp only [after, writing, isLength, written]
        exact named
  | object properties => exact .inl named
  | _ => exact .inl rfl

end

end Value

namespace Eval

/-- Reading a property on a machine gives a value in a slot that another one does not use. Only an
undefined value may be in that slot already. -/
structure ReadsFresh (target : Handle) (key : PropertyKey) (value : Value)
    (unused machine after : Machine) (handle : Handle) : Prop where
  reads : getProperty target key machine = .ok handle after
  fresh : after.heap.slotCount ≤ 2 ^ 32 → ¬ unused.heap.isLive handle ∧
    after.heap.get? handle = some value ∧ (machine.heap.isLive handle → value = .undefined)

/-- Reading a property gives one handle on two machines, which stay as they are; or it gives one
value, on each of them in a slot that the first one does not use. -/
def ReadsAlike (target : Handle) (key : PropertyKey) (one two : Machine) : Prop :=
  (∃ handle, getProperty target key one = .ok handle one ∧
    getProperty target key two = .ok handle two) ∨
  ∃ value first oneAfter second twoAfter,
    ReadsFresh target key value one one oneAfter first ∧
    ReadsFresh target key value one two twoAfter second

theorem getProperty_of_get? {machine : Machine} {target : Handle} {value : Value}
    (found : machine.heap.get? target = some value) (key : PropertyKey) :
    getProperty target key machine = ofReading (value.property key) machine := by
  have read := Run.deref_of_get? found
  unfold getProperty
  simp only [bind, EStateM.bind, read]

section

variable {machine : Machine} {heap : Heap} {target slot : Handle} {value content after : Value}
  {key other : PropertyKey} {handle : Handle} {holes : Array Handle}
  (wrote : Wrote target value key handle holes machine.heap heap)

include wrote

theorem Wrote.isLive {occupied : Handle} (live : machine.heap.isLive occupied) :
    heap.isLive occupied := by
  by_cases same : occupied = target
  · rw [same]
    exact Heap.isLive_of_get? wrote.written
  · obtain ⟨content, contained⟩ := (Heap.isLive_iff _ _).mp live
    exact Heap.isLive_of_get? (wrote.kept occupied content same contained)

/-- What reading comes to alike, or has got a place in the meantime, is read alike. -/
theorem Wrote.readsAlike (consistent : machine.heap.Consistent)
    (found : machine.heap.get? slot = some content) (foundAfter : heap.get? slot = some after)
    (same : after.property other = content.property other ∨
      content.property other = .fresh .undefined ∧ ∃ hole ∈ holes,
        after.property other = .found hole) :
    ReadsAlike slot other machine { machine with heap } := by
  have first := getProperty_of_get? found other
  have second : getProperty slot other { machine with heap } =
      ofReading (after.property other) { machine with heap } :=
    getProperty_of_get? foundAfter other
  have fresh (value : Value) (first_eq : getProperty slot other machine = alloc value machine) :
      ReadsFresh slot other value machine machine
        { machine with heap := (machine.heap.alloc value).2 }
        (machine.heap.alloc value).1 :=
    ⟨first_eq, fun room =>
      have unused := consistent.not_isLive_alloc value room
      ⟨unused, (consistent.get?_alloc value room _).trans (if_pos rfl),
        fun live => absurd live unused⟩⟩
  rcases same with same | ⟨missing, hole, member, filled⟩
  · rw [same] at second
    cases reading : content.property other with
    | found handle =>
      rw [reading] at first second
      exact .inl ⟨handle, first, second⟩
    | fresh value =>
      rw [reading] at first second
      refine .inr ⟨value, _, _, _, _, fresh value first, second, fun room => ?_⟩
      have unused := wrote.consistent.not_isLive_alloc value room
      exact ⟨fun live => unused (wrote.isLive live),
        (wrote.consistent.get?_alloc value room _).trans (if_pos rfl),
        fun live => absurd live unused⟩
  · rw [missing] at first
    rw [filled] at second
    refine .inr ⟨.undefined, _, _, _, _, fresh .undefined first, second, fun room => ?_⟩
    obtain ⟨unused, contained⟩ := wrote.hole room hole member
    exact ⟨unused, contained, fun _ => rfl⟩

end

/-- Nothing is written to a value without properties, nor to the length of an array. -/
theorem writing_eq_ignored {value : Value} {key : PropertyKey}
    (refused : value.table? = none ∨ value.kind = .array ∧ key.isLength) :
    value.writing key = .ignored := by
  cases value with
  | array elements properties =>
    obtain ⟨_, isLength⟩ := refused.resolve_left nofun
    cases key with
    | index index => cases isLength
    | name name => exact if_pos isLength
  | object properties => rcases refused with isNone | ⟨isArray, _⟩ <;> contradiction
  | _ => rfl

/-- A write of a property changes nothing but the heap, and there nothing that other properties of
the target or any property of another value are read from. A write to a value without properties,
or to the length of an array, changes nothing. -/
theorem setProperty_frame {machine : Machine} (consistent : machine.heap.Consistent)
    {target : Handle} {value : Value} (found : machine.heap.get? target = some value)
    (indexed : ∀ properties, value.table? = some properties → properties.Indexed)
    (key : PropertyKey) (handle : Handle) :
    ∃ heap, setProperty target key handle machine = .ok () { machine with heap } ∧
      (∀ other, other.text ≠ key.text → (value.kind = .array → other.isLength = false) →
        ReadsAlike target other machine { machine with heap }) ∧
      (∀ slot other, machine.heap.isLive slot → slot ≠ target →
        ReadsAlike slot other machine { machine with heap }) ∧
      (value.table? = none ∨ value.kind = .array ∧ key.isLength → heap = machine.heap) := by
  obtain ⟨holes, heap, written, wrote⟩ := exists_wrote consistent found key handle
  refine ⟨heap, written, ?_, ?_, ?_⟩
  · intro other apart notLength
    have same := Value.property_written_of_ne handle apart notLength indexed wrote.filled
    exact wrote.readsAlike consistent found wrote.written same
  · intro slot other live elsewhere
    obtain ⟨content, contained⟩ := (Heap.isLive_iff _ _).mp live
    have kept := wrote.kept slot content elsewhere contained
    exact wrote.readsAlike consistent contained kept (.inl rfl)
  · exact fun refused => wrote.ignored (writing_eq_ignored refused)

/-- A machine with an array that has one named property, and a text. -/
def pairMachine : Machine :=
  (listMachine.define "text" (.string "ab")).2

theorem setProperty_frame_pair :
    ∃ heap, setProperty ⟨0⟩ (.index 5) ⟨1⟩ pairMachine = .ok () { pairMachine with heap } ∧
      ReadsAlike ⟨0⟩ (.index 3) pairMachine { pairMachine with heap } ∧
      ReadsAlike ⟨0⟩ (.name "tag") pairMachine { pairMachine with heap } ∧
      ReadsAlike ⟨1⟩ (.index 5) pairMachine { pairMachine with heap } ∧
      setProperty ⟨0⟩ (.name "length") ⟨1⟩ pairMachine = .ok () pairMachine := by
  have consistent : pairMachine.heap.Consistent :=
    ((Run.rooted_bare {}).consistent.alloc _).alloc _
  have found : pairMachine.heap.get? ⟨0⟩ = some (.array #[] (.ofList [("tag", ⟨0⟩)])) := rfl
  have indexed (properties : PropertyMap)
      (table : (Value.array #[] (.ofList [("tag", ⟨0⟩)])).table? = some properties) :
      properties.Indexed := by
    cases table
    exact PropertyMap.indexed_ofList _
  obtain ⟨heap, written, others, elsewhere, _⟩ :=
    setProperty_frame consistent found indexed (.index 5) ⟨1⟩
  obtain ⟨_, writtenLength, _, _, still⟩ :=
    setProperty_frame consistent found indexed (.name "length") ⟨1⟩
  refine ⟨heap, written, others (.index 3) (by decide) (fun _ => rfl),
    others (.name "tag") (by decide) (fun _ => rfl),
    elsewhere ⟨1⟩ (.index 5) rfl (by decide), ?_⟩
  rw [writtenLength, still (.inr ⟨rfl, rfl⟩)]

end Eval
end Scriptlet
