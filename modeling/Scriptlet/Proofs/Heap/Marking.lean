import Mathlib.Algebra.GroupWithZero.Nat
import Mathlib.Logic.Function.Iterate
import Scriptlet.Heap.Collect

set_option autoImplicit false

/-!
Marking. The list of work is an agenda: what it names, and what is inside that, gets a mark, and
nothing else does. Every slot puts its children on the agenda once, so the agenda runs empty.
-/
namespace Scriptlet

theorem Handle.index_lt (handle : Handle) : handle.index < 2 ^ 32 :=
  handle.word.toNat_lt

theorem Handle.index_mk {index : Nat} (bound : index < 2 ^ 32) : Handle.index ⟨index⟩ = index :=
  Nat.mod_eq_of_lt bound

def slotAt? (slots : Array (Option Slot)) (handle : Handle) : Option Slot :=
  slots[handle.index]?.join

def contentAt? (slots : Array (Option Slot)) (handle : Handle) : Option Value :=
  (slotAt? slots handle).map Slot.value

def MarkedAt (slots : Array (Option Slot)) (handle : Handle) : Prop :=
  ∃ slot, slotAt? slots handle = some slot ∧ slot.marked = true

/-- A handle names no slot that still lacks its mark. -/
def SettledAt (slots : Array (Option Slot)) (handle : Handle) : Prop :=
  ∀ slot, slotAt? slots handle = some slot → slot.marked = true

/-- What can be reached from some roots by following the children of values. -/
inductive ReachableFrom (content : Handle → Option Value) (isRoot : Handle → Prop) :
    Handle → Prop where
  | root {handle : Handle} (start : isRoot handle) : ReachableFrom content isRoot handle
  | child {parent handle : Handle} {value : Value} (reached : ReachableFrom content isRoot parent)
      (found : content parent = some value) (member : handle ∈ value.children) :
      ReachableFrom content isRoot handle

/-- Roots that can be reached themselves reach nothing new. -/
theorem ReachableFrom.trans {content : Handle → Option Value} {isRoot isStart : Handle → Prop}
    (starts : ∀ handle, isStart handle → ReachableFrom content isRoot handle) {handle : Handle}
    (reached : ReachableFrom content isStart handle) : ReachableFrom content isRoot handle := by
  induction reached with
  | root start => exact starts _ start
  | child _ found member ih => exact .child ih found member

theorem ReachableFrom.mono {content : Handle → Option Value} {isRoot isStart : Handle → Prop}
    (starts : ∀ handle, isStart handle → isRoot handle) {handle : Handle}
    (reached : ReachableFrom content isStart handle) : ReachableFrom content isRoot handle :=
  reached.trans fun start isStart => .root (starts start isStart)

section Slots

variable (slots : Array (Option Slot))

theorem slotAt?_eq_some_iff (handle : Handle) (slot : Slot) :
    slotAt? slots handle = some slot ↔ slots[handle.index]? = some (some slot) := by
  simp [slotAt?, Option.join_eq_some_iff]

theorem slotAt?_set (index : Nat) (bound : index < slots.size) (slot : Slot) (handle : Handle) :
    slotAt? (slots.set index (some slot)) handle =
      if handle.index = index then some slot else slotAt? slots handle := by
  simp only [slotAt?, Array.getElem?_set]
  by_cases same : index = handle.index
  · simp [same]
  · simp [same, Ne.symm same]

theorem slotAt?_of_getElem {handle : Handle} (bound : handle.index < slots.size)
    {cell : Option Slot} (found : slots[handle.index] = cell) : slotAt? slots handle = cell := by
  simp [slotAt?, bound, found]

theorem slotAt?_outside {handle : Handle} (outside : ¬ handle.index < slots.size) :
    slotAt? slots handle = none := by
  simp [slotAt?, Array.getElem?_eq_none (Nat.le_of_not_lt outside)]

variable {slots}

theorem settledAt_of_free {handle : Handle} (free : slotAt? slots handle = none) :
    SettledAt slots handle := by
  intro slot found
  rw [free] at found
  cases found

theorem settledAt_of_marked {handle : Handle} {slot : Slot}
    (found : slotAt? slots handle = some slot) (marked : slot.marked = true) :
    SettledAt slots handle := by
  intro other foundOther
  rw [found] at foundOther
  cases foundOther
  exact marked

end Slots

section OneMark

variable {slots : Array (Option Slot)} {handle : Handle} {slot : Slot}
  (bound : handle.index < slots.size) (found : slots[handle.index] = some slot)

include found

theorem contentAt?_set_marked (other : Handle) :
    contentAt? (slots.set handle.index (some { slot with marked := true })) other =
      contentAt? slots other := by
  simp only [contentAt?, slotAt?_set]
  by_cases same : other.index = handle.index
  · have here := slotAt?_of_getElem slots (same ▸ bound) (show slots[other.index] = some slot by
      simp only [same, found])
    simp [same, here]
  · simp [same]

omit found in
theorem markedAt_set_marked (other : Handle) :
    MarkedAt (slots.set handle.index (some { slot with marked := true })) other ↔
      other = handle ∨ MarkedAt slots other := by
  simp only [MarkedAt, slotAt?_set]
  by_cases same : other = handle
  · simp [same]
  · have apart : other.index ≠ handle.index := mt Handle.eq_of_index same
    simp [same, apart]

theorem settledAt_set_marked {other : Handle}
    (settled : other = handle ∨ SettledAt slots other) :
    SettledAt (slots.set handle.index (some { slot with marked := true })) other := by
  intro after foundAfter
  rw [slotAt?_set] at foundAfter
  split at foundAfter
  · cases foundAfter
    rfl
  · rename_i apart
    rcases settled with rfl | settled
    · exact absurd rfl apart
    · exact settled after foundAfter

end OneMark

@[simp] theorem size_markFrom (slots : Array (Option Slot)) (work : List Handle) :
    (markFrom slots work).size = slots.size := by
  fun_induction markFrom slots work <;> simp_all

/-- Marking occupies no slot and frees none. -/
theorem getElem?_markFrom_eq_some_none_iff (slots : Array (Option Slot)) (work : List Handle)
    (index : Nat) : (markFrom slots work)[index]? = some none ↔ slots[index]? = some none := by
  fun_induction markFrom slots work with
  | case1 slots => rfl
  | case2 slots handle rest bound slot found marked ih => exact ih
  | case3 slots handle rest bound slot found fresh ih =>
    rw [ih, Array.getElem?_set]
    split
    · rename_i same
      subst same
      simp [bound, found]
    · rfl
  | case4 slots handle rest bound found ih => exact ih
  | case5 slots handle rest outside ih => exact ih

/-- A slot that no handle names gets no mark. -/
theorem getElem?_markFrom_of_le (slots : Array (Option Slot)) (work : List Handle) {index : Nat}
    (behind : 2 ^ 32 ≤ index) : (markFrom slots work)[index]? = slots[index]? := by
  fun_induction markFrom slots work with
  | case1 slots => rfl
  | case2 slots handle rest bound slot found marked ih => exact ih
  | case3 slots handle rest bound slot found fresh ih =>
    have apart : handle.index ≠ index := by
      have inside := handle.index_lt
      omega
    rw [ih, Array.getElem?_set_ne bound apart]
  | case4 slots handle rest bound found ih => exact ih
  | case5 slots handle rest outside ih => exact ih

/-- Marking changes no value and occupies no slot. -/
theorem contentAt?_markFrom (slots : Array (Option Slot)) (work : List Handle) (other : Handle) :
    contentAt? (markFrom slots work) other = contentAt? slots other := by
  fun_induction markFrom slots work with
  | case1 slots => rfl
  | case2 slots handle rest bound slot found marked ih => exact ih
  | case3 slots handle rest bound slot found fresh ih =>
    rw [ih, contentAt?_set_marked bound found]
  | case4 slots handle rest bound found ih => exact ih
  | case5 slots handle rest outside ih => exact ih

/-- Only what was marked, or can be reached from the agenda, is marked afterwards. -/
theorem reachable_of_markedAt_markFrom (slots : Array (Option Slot)) (work : List Handle)
    {other : Handle} (marked : MarkedAt (markFrom slots work) other) :
    MarkedAt slots other ∨ ReachableFrom (contentAt? slots) (· ∈ work) other := by
  fun_induction markFrom slots work with
  | case1 slots => exact .inl marked
  | case2 slots handle rest bound slot found _ ih =>
    exact (ih marked).imp_right (.mono fun _ member => List.mem_cons_of_mem _ member)
  | case3 slots handle rest bound slot found fresh ih =>
    have start : ReachableFrom (contentAt? slots) (· ∈ handle :: rest) handle :=
      .root List.mem_cons_self
    have here : contentAt? slots handle = some slot.value := by
      simp [contentAt?, slotAt?_of_getElem slots bound found]
    rcases ih marked with before | reached
    · rcases (markedAt_set_marked bound other).mp before with rfl | before
      · exact .inr start
      · exact .inl before
    · rw [show contentAt? (slots.set handle.index (some { slot with marked := true })) =
        contentAt? slots from funext (contentAt?_set_marked bound found)] at reached
      refine .inr (reached.trans fun next member => ?_)
      rcases List.mem_append.mp member with member | member
      · exact .child start here member
      · exact .root (List.mem_cons_of_mem _ member)
  | case4 slots handle rest bound found ih =>
    exact (ih marked).imp_right (.mono fun _ member => List.mem_cons_of_mem _ member)
  | case5 slots handle rest outside ih =>
    exact (ih marked).imp_right (.mono fun _ member => List.mem_cons_of_mem _ member)

/-- The children of a marked slot are settled or still on the agenda. -/
def FollowedUpTo (slots : Array (Option Slot)) (work : List Handle) : Prop :=
  ∀ handle slot, slotAt? slots handle = some slot → slot.marked = true →
    ∀ child ∈ slot.value.children, child ∈ work ∨ SettledAt slots child

/-- An entry of the agenda that is settled can be dropped. -/
theorem FollowedUpTo.drop {slots : Array (Option Slot)} {handle : Handle} {rest : List Handle}
    (followed : FollowedUpTo slots (handle :: rest)) (settled : SettledAt slots handle) :
    FollowedUpTo slots rest := by
  intro parent slot found marked child member
  rcases followed parent slot found marked child member with onAgenda | done
  · rcases List.mem_cons.mp onAgenda with rfl | onAgenda
    · exact .inr settled
    · exact .inl onAgenda
  · exact .inr done

/-- Marking a slot keeps the invariant if its children are put on the agenda. -/
theorem FollowedUpTo.mark {slots : Array (Option Slot)} {handle : Handle} {rest : List Handle}
    {slot : Slot} (bound : handle.index < slots.size) (found : slots[handle.index] = some slot)
    (followed : FollowedUpTo slots (handle :: rest)) :
    FollowedUpTo (slots.set handle.index (some { slot with marked := true }))
      (slot.value.children ++ rest) := by
  intro parent after foundAfter marked child member
  rw [slotAt?_set] at foundAfter
  split at foundAfter
  · cases foundAfter
    exact .inl (List.mem_append_left _ member)
  · rcases followed parent after foundAfter marked child member with onAgenda | done
    · rcases List.mem_cons.mp onAgenda with rfl | onAgenda
      · exact .inr (settledAt_set_marked bound found (.inl rfl))
      · exact .inl (List.mem_append_right _ onAgenda)
    · exact .inr (settledAt_set_marked bound found (.inr done))

/-- Whatever is settled when the rest of an agenda is done is settled for the whole agenda, if its
first entry is settled already. -/
theorem settled_cons {slots after : Array (Option Slot)} {handle : Handle} {rest : List Handle}
    (here : SettledAt slots handle)
    (settles : ∀ other, other ∈ rest ∨ SettledAt slots other → SettledAt after other) :
    ∀ other, other ∈ handle :: rest ∨ SettledAt slots other → SettledAt after other := by
  intro other pending
  apply settles
  rcases pending with pending | settled
  · rcases List.mem_cons.mp pending with rfl | pending
    · exact .inr here
    · exact .inl pending
  · exact .inr settled

/-- The loop invariant of marking at its end: the agenda is settled, what was settled still is, and
no marked slot has a child that was left out. -/
theorem settled_markFrom (slots : Array (Option Slot)) (work : List Handle)
    (followed : FollowedUpTo slots work) :
    FollowedUpTo (markFrom slots work) [] ∧
      ∀ handle, handle ∈ work ∨ SettledAt slots handle →
        SettledAt (markFrom slots work) handle := by
  fun_induction markFrom slots work with
  | case1 slots => exact ⟨followed, fun handle settled => settled.resolve_left List.not_mem_nil⟩
  | case2 slots handle rest bound slot found marked ih =>
    have here := settledAt_of_marked (slotAt?_of_getElem slots bound found) marked
    obtain ⟨closed, settles⟩ := ih (followed.drop here)
    exact ⟨closed, settled_cons here settles⟩
  | case3 slots handle rest bound slot found fresh ih =>
    obtain ⟨closed, settles⟩ := ih (followed.mark bound found)
    refine ⟨closed, fun other pending => settles other ?_⟩
    rcases pending with pending | settled
    · rcases List.mem_cons.mp pending with rfl | pending
      · exact .inr (settledAt_set_marked bound found (.inl rfl))
      · exact .inl (List.mem_append_right _ pending)
    · exact .inr (settledAt_set_marked bound found (.inr settled))
  | case4 slots handle rest bound found ih =>
    have here := settledAt_of_free (slotAt?_of_getElem slots bound found)
    obtain ⟨closed, settles⟩ := ih (followed.drop here)
    exact ⟨closed, settled_cons here settles⟩
  | case5 slots handle rest outside ih =>
    have here := settledAt_of_free (slotAt?_outside slots outside)
    obtain ⟨closed, settles⟩ := ih (followed.drop here)
    exact ⟨closed, settled_cons here settles⟩

/-- From slots without marks, exactly the occupied slots that the agenda reaches are marked. -/
theorem markedAt_markFrom_iff {slots : Array (Option Slot)}
    (clear : ∀ handle, ¬ MarkedAt slots handle) (work : List Handle) (handle : Handle) :
    MarkedAt (markFrom slots work) handle ↔
      (contentAt? slots handle).isSome ∧ ReachableFrom (contentAt? slots) (· ∈ work) handle := by
  constructor
  · intro marked
    refine ⟨?_, (reachable_of_markedAt_markFrom slots work marked).resolve_left (clear handle)⟩
    obtain ⟨slot, found, _⟩ := marked
    rw [← contentAt?_markFrom slots work, contentAt?, found]
    rfl
  · rintro ⟨occupied, reached⟩
    have followed : FollowedUpTo slots work := fun parent slot found marked =>
      absurd ⟨slot, found, marked⟩ (clear parent)
    obtain ⟨closed, settles⟩ := settled_markFrom slots work followed
    have settled : SettledAt (markFrom slots work) handle := by
      clear occupied
      induction reached with
      | root start => exact settles _ (.inl start)
      | child _ found member ih =>
        rw [← contentAt?_markFrom slots work, contentAt?, Option.map_eq_some_iff] at found
        obtain ⟨slot, found, rfl⟩ := found
        exact (closed _ slot found (ih slot found) _ member).resolve_left List.not_mem_nil
    rw [← contentAt?_markFrom slots work, contentAt?, Option.isSome_map, Option.isSome_iff_exists]
      at occupied
    obtain ⟨slot, found⟩ := occupied
    exact ⟨slot, found, settled slot found⟩

/-- One turn of the marking loop: the first entry of the agenda is taken off, and if its slot is
occupied and has no mark, it gets one and its children go onto the agenda. -/
def markStep : Array (Option Slot) × List Handle → Array (Option Slot) × List Handle
  | (slots, []) => (slots, [])
  | (slots, handle :: rest) =>
    match slotAt? slots handle with
    | some slot =>
      if slot.marked then (slots, rest)
      else
        (slots.setIfInBounds handle.index (some { slot with marked := true }),
          slot.value.children ++ rest)
    | none => (slots, rest)

/-- The number of children in a slot that are still to be put on the agenda. -/
def childrenAhead : Option Slot → Nat
  | some slot => if slot.marked then 0 else slot.value.children.length
  | none => 0

/-- A bound on the turns that marking still takes. -/
def turnsAhead (slots : Array (Option Slot)) (work : List Handle) : Nat :=
  (slots.toList.map childrenAhead).sum + work.length

theorem turnsAhead_set_marked {slots : Array (Option Slot)} {index : Nat} {slot : Slot}
    (bound : index < slots.size) (found : slots[index] = some slot) (fresh : ¬ slot.marked = true)
    (rest : List Handle) :
    turnsAhead (slots.set index (some { slot with marked := true })) (slot.value.children ++ rest) =
      turnsAhead slots rest := by
  have before : slots.toList =
      slots.toList.take index ++ some slot :: slots.toList.drop (index + 1) := by
    rw [← found, ← Array.getElem_toList, List.getElem_cons_drop, List.take_append_drop]
  have after : (slots.set index (some { slot with marked := true })).toList =
      slots.toList.take index ++
        some { slot with marked := true } :: slots.toList.drop (index + 1) := by
    rw [Array.toList_set, List.set_eq_take_append_cons_drop, if_pos (by simpa using bound)]
  have sumBefore := congrArg (fun cells => (cells.map childrenAhead).sum) before
  simp only [List.map_append, List.map_cons, List.sum_append, List.sum_cons, childrenAhead, fresh,
    Bool.false_eq_true, ↓reduceIte] at sumBefore
  simp only [turnsAhead, after, List.map_append, List.map_cons, List.sum_append, List.sum_cons,
    childrenAhead, ↓reduceIte, List.length_append]
  omega

/-- Marking ends: its agenda is empty after as many turns as there are roots, and children in
occupied slots. -/
theorem exists_iterate_markStep (slots : Array (Option Slot)) (work : List Handle) :
    ∃ turns ≤ turnsAhead slots work,
      markStep^[turns] (slots, work) = (markFrom slots work, []) := by
  fun_induction markFrom slots work with
  | case1 slots => exact ⟨0, Nat.zero_le _, rfl⟩
  | case2 slots handle rest bound slot found marked ih =>
    obtain ⟨turns, few, done⟩ := ih
    refine ⟨turns + 1, Nat.succ_le_succ few, ?_⟩
    rw [Function.iterate_succ_apply, ← done, markStep, slotAt?_of_getElem slots bound found]
    simp [marked]
  | case3 slots handle rest bound slot found fresh ih =>
    obtain ⟨turns, few, done⟩ := ih
    rw [turnsAhead_set_marked bound found fresh] at few
    refine ⟨turns + 1, Nat.succ_le_succ few, ?_⟩
    rw [Function.iterate_succ_apply, ← done, markStep, slotAt?_of_getElem slots bound found]
    simp [fresh, Array.setIfInBounds, bound]
  | case4 slots handle rest bound found ih =>
    obtain ⟨turns, few, done⟩ := ih
    refine ⟨turns + 1, Nat.succ_le_succ few, ?_⟩
    rw [Function.iterate_succ_apply, ← done, markStep, slotAt?_of_getElem slots bound found]
  | case5 slots handle rest outside ih =>
    obtain ⟨turns, few, done⟩ := ih
    refine ⟨turns + 1, Nat.succ_le_succ few, ?_⟩
    rw [Function.iterate_succ_apply, ← done, markStep, slotAt?_outside slots outside]

end Scriptlet
