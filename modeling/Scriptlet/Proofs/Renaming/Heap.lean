import Mathlib.Data.List.Perm.Subperm
import Scriptlet.Proofs.Heap.Collection
import Scriptlet.Proofs.Renaming.Value

set_option autoImplicit false

/-!
Heaps of which a part is copied into others with other names for its handles. A value and its copy
have the same text, and are compared with the same results.
-/
namespace Scriptlet

/-- The handles in view name occupied slots, and their values have children in view only. Each has
its own copy, whose children are the copies of the children. -/
structure Heap.Copies (f : Handle → Handle) (inView : Handle → Prop) (one two : Heap) : Prop where
  live : ∀ handle, inView handle → one.isLive handle
  closed : ∀ handle value, inView handle → one.get? handle = some value →
    ∀ child ∈ value.children, inView child
  injective : ∀ left right, inView left → inView right → f left = f right → left = right
  copied : ∀ handle value, inView handle → one.get? handle = some value →
    two.get? (f handle) = some (value.rename f)

def AtMost (inView : Handle → Prop) (count : Nat) : Prop :=
  ∀ handles : List Handle, handles.Nodup → (∀ handle ∈ handles, inView handle) →
    handles.length ≤ count

theorem Heap.atMost_slotCount (heap : Heap) :
    AtMost (fun handle => heap.isLive handle) heap.slotCount := by
  intro handles nodup live
  have index_injective : Function.Injective Handle.index := fun _ _ => Handle.eq_of_index
  have inside : handles.map Handle.index ⊆ List.range heap.slotCount := by
    intro index member
    obtain ⟨handle, listed, rfl⟩ := List.mem_map.mp member
    exact List.mem_range.mpr (lt_size_of_isLive (live handle listed))
  have fits := ((nodup.map index_injective).subperm inside).length_le
  rwa [List.length_map, List.length_range] at fits

namespace Value

section Depth

variable {heap : Heap} {inView : Handle → Prop} {count : Nat}
  (closed : ∀ handle value, inView handle → heap.get? handle = some value →
    ∀ child ∈ value.children, inView child)

include closed

/-- Once as many handles are visited or may be as are in view, a text goes no deeper. -/
theorem textWithin_succ (atMost : AtMost inView count) (depth : Nat) (visiting : List Handle)
    (value : Value) (nodup : visiting.Nodup) (seen : ∀ handle ∈ visiting, inView handle)
    (children : ∀ child ∈ value.children, inView child) (deep : count ≤ depth + visiting.length) :
    textWithin heap (depth + 1) visiting value = textWithin heap depth visiting value := by
  induction depth generalizing visiting value with
  | zero =>
    rw [textWithin, textWithin]
    apply textWith_congr
    intro handle member
    by_cases visited : visiting.contains handle
    · rw [if_pos visited]
    · rw [if_neg visited]
      cases found : heap.get? handle with
      | none => rfl
      | some child =>
        have more := atMost (handle :: visiting)
          (List.nodup_cons.mpr ⟨by simpa using visited, nodup⟩)
          (List.forall_mem_cons.mpr ⟨children handle member, seen⟩)
        rw [List.length_cons] at more
        omega
  | succ depth ih =>
    rw [textWithin, textWithin]
    apply textWith_congr
    intro handle member
    by_cases visited : visiting.contains handle
    · rw [if_pos visited, if_pos visited]
    · rw [if_neg visited, if_neg visited]
      cases found : heap.get? handle with
      | none => rfl
      | some child =>
        apply ih
        · exact List.nodup_cons.mpr ⟨by simpa using visited, nodup⟩
        · exact List.forall_mem_cons.mpr ⟨children handle member, seen⟩
        · exact closed handle child (children handle member) found
        · rw [List.length_cons]
          omega

theorem textWithin_of_le {depth : Nat} (atMost : AtMost inView count) (deep : count ≤ depth)
    (value : Value) (children : ∀ child ∈ value.children, inView child) :
    textWithin heap depth [] value = textWithin heap count [] value := by
  obtain ⟨more, rfl⟩ := Nat.exists_eq_add_of_le deep
  induction more with
  | zero => rfl
  | succ more ih =>
    have before := ih (Nat.le_add_right count more)
    rw [← before]
    exact textWithin_succ closed atMost (count + more) [] value List.nodup_nil nofun children
      (by simp)

/-- The text of a value may be looked for at any depth that is no less than the number of handles
in view. -/
theorem textWithin_eq {other : Nat} (atMost : AtMost inView count)
    (atMostOther : AtMost inView other) (value : Value)
    (children : ∀ child ∈ value.children, inView child) :
    textWithin heap count [] value = textWithin heap other [] value := by
  rcases Nat.le_total count other with deep | deep
  · exact (textWithin_of_le closed atMost deep value children).symm
  · exact textWithin_of_le closed atMostOther deep value children

end Depth

end Value

namespace Heap.Copies

variable {f : Handle → Handle} {inView : Handle → Prop} {one two : Heap}
  (copies : Copies f inView one two)

include copies

theorem exists_value {handle : Handle} (seen : inView handle) :
    ∃ value, one.get? handle = some value ∧ two.get? (f handle) = some (value.rename f) ∧
      ∀ child ∈ value.children, inView child := by
  obtain ⟨value, found⟩ := (one.isLive_iff handle).mp (copies.live handle seen)
  exact ⟨value, found, copies.copied handle value seen found, copies.closed handle value seen found⟩

theorem isLive_copy {handle : Handle} (seen : inView handle) : two.isLive (f handle) := by
  obtain ⟨value, _, found, _⟩ := copies.exists_value seen
  exact isLive_of_get? found

theorem atMost_slotCount : AtMost inView one.slotCount := fun handles nodup seen =>
  one.atMost_slotCount handles nodup fun handle member => copies.live handle (seen handle member)

theorem atMost_copy : AtMost inView two.slotCount := by
  intro handles nodup seen
  have fits := two.atMost_slotCount (handles.map f)
    (nodup.map_on fun left leftMember right rightMember =>
      copies.injective left right (seen left leftMember) (seen right rightMember))
    (List.forall_mem_map.mpr fun handle member => copies.isLive_copy (seen handle member))
  rwa [List.length_map] at fits

theorem contains_map {visiting : List Handle} (seen : ∀ handle ∈ visiting, inView handle)
    {handle : Handle} (handleSeen : inView handle) :
    (visiting.map f).contains (f handle) = visiting.contains handle := by
  rw [Bool.eq_iff_iff, List.contains_iff_mem, List.contains_iff_mem, List.mem_map]
  constructor
  · rintro ⟨other, member, same⟩
    rwa [← copies.injective other handle (seen other member) handleSeen same]
  · exact fun member => ⟨handle, member, rfl⟩

theorem textWithin_rename (depth : Nat) (visiting : List Handle) (value : Value)
    (seen : ∀ handle ∈ visiting, inView handle)
    (children : ∀ child ∈ value.children, inView child) :
    Value.textWithin two depth (visiting.map f) (value.rename f) =
      Value.textWithin one depth visiting value := by
  induction depth generalizing visiting value with
  | zero => exact Value.textWith_rename f value _
  | succ depth ih =>
    rw [Value.textWithin, Value.textWithin, Value.textWith_rename]
    apply Value.textWith_congr
    intro handle member
    rw [copies.contains_map seen (children handle member)]
    by_cases visited : visiting.contains handle
    · rw [if_pos visited, if_pos visited]
    · rw [if_neg visited, if_neg visited]
      obtain ⟨child, found, foundCopy, grandchildren⟩ :=
        copies.exists_value (children handle member)
      rw [found, foundCopy]
      apply ih (handle :: visiting)
      · exact List.forall_mem_cons.mpr ⟨children handle member, seen⟩
      · exact grandchildren

/-- A value and its copy have the same text. -/
theorem text?_rename {value : Value} (children : ∀ child ∈ value.children, inView child) :
    (value.rename f).text? two = value.text? one :=
  calc (value.rename f).text? two
    _ = Value.textWithin one two.slotCount [] value :=
      copies.textWithin_rename two.slotCount [] value nofun children
    _ = value.text? one :=
      Value.textWithin_eq copies.closed copies.atMost_copy copies.atMost_slotCount value children

theorem ofValue_rename {value : Value} (children : ∀ child ∈ value.children, inView child) :
    PropertyKey.ofValue two (value.rename f) = PropertyKey.ofValue one value := by
  have text_eq := copies.text?_rename children
  cases value <;> simp_all [PropertyKey.ofValue, Value.rename]

theorem looselyEqual_rename {left right : Handle} (l r : Value) (leftSeen : inView left)
    (rightSeen : inView right) :
    Value.looselyEqual (f left, l.rename f) (f right, r.rename f) =
      Value.looselyEqual (left, l) (right, r) := by
  have same : (f left == f right) = (left == right) := by
    rw [Bool.eq_iff_iff, beq_iff_eq, beq_iff_eq]
    exact ⟨copies.injective left right leftSeen rightSeen, congrArg f⟩
  cases l <;> cases r <;>
    simp [Value.looselyEqual, Value.rename, Value.isReference, Value.kind, Value.Kind.isReference,
      Value.toNumber?, same]

/-- An operator gives the same value on copies. -/
theorem applyBinary_rename (operator : BinaryOperator) {left right : Handle} {l r : Value}
    (leftSeen : inView left) (rightSeen : inView right)
    (leftChildren : ∀ child ∈ l.children, inView child)
    (rightChildren : ∀ child ∈ r.children, inView child) :
    Value.applyBinary two operator (f left, l.rename f) (f right, r.rename f) =
      Value.applyBinary one operator (left, l) (right, r) := by
  have leftText := copies.text?_rename leftChildren
  have rightText := copies.text?_rename rightChildren
  have equal := copies.looselyEqual_rename l r leftSeen rightSeen
  cases operator with
  | add =>
    simp only [Value.applyBinary, Value.add, Value.isString, Value.kind_rename, leftText, rightText,
      Value.arithmetic_rename]
    rfl
  | equal | notEqual => simp only [Value.applyBinary, equal]
  | strictEqual | strictNotEqual =>
    simp only [Value.applyBinary, Value.strictlyEqual, Value.kind_rename, equal]
  | less | greater | lessEqual | greaterEqual =>
    simp only [Value.applyBinary, Value.relate_rename]
  | _ => simp only [Value.applyBinary, Value.arithmetic_rename, Value.bitwise_rename]

/-- A smaller view is copied, too, if it is closed. -/
theorem narrow {isKept : Handle → Prop}
    (closed : ∀ handle value, inView handle → isKept handle → one.get? handle = some value →
      ∀ child ∈ value.children, isKept child) :
    Copies f (fun handle => inView handle ∧ isKept handle) one two where
  live handle seen := copies.live handle seen.1
  closed handle value seen found child member :=
    ⟨copies.closed handle value seen.1 found child member,
      closed handle value seen.1 seen.2 found child member⟩
  injective left right leftSeen rightSeen := copies.injective left right leftSeen.1 rightSeen.1
  copied handle value seen := copies.copied handle value seen.1

/-- Heaps that have the same values for what is in view are copied alike. -/
theorem congr {other : Heap}
    (same : ∀ handle, inView handle → other.get? handle = one.get? handle) :
    Copies f inView other two where
  live handle seen := by
    rw [isLive, same handle seen]
    exact copies.live handle seen
  closed handle value seen found := copies.closed handle value seen (same handle seen ▸ found)
  injective := copies.injective
  copied handle value seen found := copies.copied handle value seen (same handle seen ▸ found)

/-- Heaps that have the same values for the copies are copies alike. -/
theorem congrCopy {other : Heap}
    (same : ∀ handle, inView handle → other.get? (f handle) = two.get? (f handle)) :
    Copies f inView one other where
  live := copies.live
  closed := copies.closed
  injective := copies.injective
  copied handle value seen found :=
    (same handle seen).trans (copies.copied handle value seen found)

/-- What can be reached in a heap can be reached in the copy. -/
theorem reachable_copy {isRoot isRootCopy : Handle → Prop}
    (roots : ∀ handle, isRoot handle → inView handle ∧ isRootCopy (f handle)) {handle : Handle}
    (reached : one.Reachable isRoot handle) :
    inView handle ∧ two.Reachable isRootCopy (f handle) := by
  induction reached with
  | root start => exact ⟨(roots _ start).1, .root (roots _ start).2⟩
  | @child parent child value _ found member ih =>
    refine ⟨copies.closed _ value ih.1 found _ member, ?_⟩
    have foundCopy := copies.copied _ value ih.1 found
    exact .child ih.2 foundCopy (Value.children_rename f value ▸ List.mem_map_of_mem member)

end Heap.Copies
end Scriptlet
