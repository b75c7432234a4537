import Scriptlet.Proofs.Renaming.Heap
import Scriptlet.Proofs.Renaming.Scope
import Scriptlet.Proofs.Renaming.State
import Scriptlet.Proofs.Run.Growing

set_option autoImplicit false

/-!
Machines that mirror each other. Whatever one of them can still use, the other one has under
another name. A collection on either side changes nothing about that, as long as handles name all
slots; only what cannot be used any more goes out of view.
-/
namespace Scriptlet.Run

open Eval Carries

/-- All handles of the data are in view, and the other data is the same under other names. -/
structure Related {α : Type} [Carries α] (n : Naming) (one two : α) : Prop where
  eq : two = rename n one
  inView : ∀ handle ∈ handles one, n.inView handle

theorem Related.bare {α : Type} [Carries α] {n : Naming} {one two : α} (eq : two = rename n one)
    (empty : handles one = []) : Related n one two where
  eq := eq
  inView handle member := by
    rw [empty] at member
    cases member

/-- A naming that goes on from another one: what was in view is so still and has the same name, and
slots that have been filled are in view. None has been freed. -/
structure Grows (n : Naming) (before : Heap) (m : Naming) (after : Heap) : Prop where
  view : ∀ handle, n.inView handle → m.inView handle
  same : ∀ handle, n.inView handle → m.name handle = n.name handle
  extra : m.extra = n.extra
  live : ∀ handle, before.isLive handle → after.isLive handle
  fresh : ∀ handle, after.isLive handle → before.isLive handle ∨ m.inView handle
  freed : after.freed = before.freed

theorem Grows.refl (n : Naming) (heap : Heap) : Grows n heap n heap :=
  ⟨fun _ seen => seen, fun _ _ => rfl, rfl, fun _ live => live, fun _ => .inl, rfl⟩

theorem Grows.trans {n m k : Naming} {before middle after : Heap} (one : Grows n before m middle)
    (two : Grows m middle k after) : Grows n before k after where
  view handle seen := two.view handle (one.view handle seen)
  same handle seen := (two.same handle (one.view handle seen)).trans (one.same handle seen)
  extra := two.extra.trans one.extra
  live handle live := two.live handle (one.live handle live)
  fresh handle live := by
    rcases two.fresh handle live with middle | seen
    · exact (one.fresh handle middle).imp_right (two.view handle)
    · exact .inr seen
  freed := two.freed.trans one.freed

section Related

variable {n : Naming}

theorem Related.mono {α : Type} [Carries α] {m : Naming} {before after : Heap} {one two : α}
    (related : Related n one two) (grows : Grows n before m after) : Related m one two where
  eq := related.eq.trans (rename_congr grows.extra.symm fun handle member =>
    (grows.same handle (related.inView handle member)).symm)
  inView handle member := grows.view handle (related.inView handle member)

theorem related_empty : Related n (#[] : Array Handle) #[] :=
  ⟨Array.map_empty.symm, nofun⟩

theorem related_childless {value : Value} (childless : value.children = []) :
    Related n value value :=
  .bare (Value.rename_eq_self childless).symm childless

theorem related_handle {handle : Handle} (seen : n.inView handle) :
    Related n handle (n.name handle) :=
  ⟨rfl, List.forall_mem_singleton.mpr seen⟩

theorem related_none : Related n (none : Option Handle) none :=
  .bare rfl rfl

section Handle

variable {handle copy : Handle} (related : Related n handle copy)

include related

theorem Related.seen : n.inView handle :=
  related.inView handle (List.mem_singleton_self handle)

theorem Related.some : Related n (some handle) (some copy) :=
  ⟨congrArg Option.some related.eq, related.inView⟩

/-- A native that gives a handle. -/
theorem Related.ok : Related n (.ok handle : NativeResult) (.ok copy) :=
  ⟨congrArg Except.ok related.eq, related.inView⟩

theorem Related.push {handles copies : Array Handle} (others : Related n handles copies) :
    Related n (handles.push handle) (copies.push copy) where
  eq := by
    rw [others.eq, related.eq]
    exact Array.map_push.symm
  inView other member := by
    rw [show Carries.handles (handles.push handle) = _ from Array.toList_push] at member
    rcases List.mem_append.mp member with before | new
    · exact others.inView other before
    · exact related.inView other new

theorem Related.cons {rest restCopy : List Handle} (others : Related n rest restCopy) :
    Related n (handle :: rest) (copy :: restCopy) where
  eq := by
    rw [related.eq, others.eq]
    rfl
  inView := List.forall_mem_cons.mpr ⟨related.seen, others.inView⟩

theorem Related.singleton : Related n [handle] [copy] :=
  have none : Related n ([] : List Handle) [] := .bare rfl rfl
  related.cons none

end Handle

theorem Related.append {first second copy copyOther : List Handle} (related : Related n first copy)
    (other : Related n second copyOther) : Related n (first ++ second) (copy ++ copyOther) where
  eq := by
    rw [related.eq, other.eq]
    exact List.map_append.symm
  inView := List.forall_mem_append.mpr ⟨related.inView, other.inView⟩

theorem Related.toList {handle? copy : Option Handle} (related : Related n handle? copy) :
    Related n handle?.toList copy.toList where
  eq := by
    rw [related.eq]
    exact Option.toList_map
  inView := related.inView

theorem Related.head? {handles copies : List Handle} (related : Related n handles copies) :
    Related n handles.head? copies.head? := by
  obtain ⟨rfl, seen⟩ := related
  cases handles with
  | nil => exact related_none
  | cons handle rest => exact ⟨rfl, List.forall_mem_singleton.mpr (seen handle List.mem_cons_self)⟩

theorem Related.head {handle : Handle} {rest copies : List Handle}
    (related : Related n (handle :: rest) copies) :
    ∃ copy restCopy, copies = copy :: restCopy ∧ Related n handle copy ∧
      Related n rest restCopy := by
  obtain ⟨handleSeen, restSeen⟩ := List.forall_mem_cons.mp related.inView
  exact ⟨n.name handle, rest.map n.name, related.eq, related_handle handleSeen, rfl, restSeen⟩

section Value

variable {value copy : Value} (related : Related n value copy)

include related

theorem Related.kind_eq : copy.kind = value.kind := by
  rw [related.eq]
  exact value.kind_rename n.name

theorem Related.toNumber?_eq : copy.toNumber? = value.toNumber? := by
  rw [related.eq]
  exact value.toNumber?_rename n.name

theorem Related.isTruthy_eq : copy.isTruthy = value.isTruthy := by
  rw [related.eq]
  exact value.isTruthy_rename n.name

theorem Related.applyUnary_eq (operator : UnaryOperator) :
    copy.applyUnary operator = value.applyUnary operator := by
  rw [related.eq]
  exact value.applyUnary_rename n.name operator

theorem Related.writing_eq (key : PropertyKey) : copy.writing key = value.writing key := by
  rw [related.eq]
  exact value.writing_rename n.name key

theorem Related.property (key : PropertyKey) :
    Related n (value.property key) (copy.property key) where
  eq := by
    rw [related.eq]
    exact value.property_rename n.name key
  inView handle member := related.inView handle (value.handles_property key member)

end Value

end Related

/-- A handle that a machine can still come to by its scopes and temporary roots. -/
def Usable (machine : Machine) (handle : Handle) : Prop :=
  machine.heap.Reachable (· ∈ machine.scopes.roots ++ machine.roots) handle

/-- Whatever one machine can still use, the other one has under another name. The other one may have
more temporary roots at the bottom. The settings, apart from the limit of the calls in progress, and
the events may differ. -/
structure Mirrors (n : Naming) (one two : Machine) : Prop where
  consistent : one.heap.Consistent
  consistentCopy : two.heap.Consistent
  copies : one.heap.Copies n.name n.inView two.heap
  scopesInView : ∀ handle ∈ one.scopes.roots, n.inView handle
  rootsInView : ∀ handle ∈ one.roots, n.inView handle
  scopes : two.scopes = one.scopes.rename n.name
  roots : two.roots = one.roots.map n.name ++ n.extra
  callDepth : two.callDepth = one.callDepth
  output : two.output = one.output
  limit : two.config.maxCallDepth = one.config.maxCallDepth

/-- Whatever a machine can still use is in occupied slots. -/
structure Rooted (machine : Machine) : Prop where
  consistent : machine.heap.Consistent
  closed : ∀ handle value, machine.heap.get? handle = some value →
    ∀ child ∈ value.children, machine.heap.isLive child
  scopes : ∀ handle ∈ machine.scopes.roots, machine.heap.isLive handle
  roots : ∀ handle ∈ machine.roots, machine.heap.isLive handle

/-- A machine whose handles are in occupied slots mirrors itself. -/
theorem Rooted.mirrors {machine : Machine} (rooted : Rooted machine) :
    Mirrors (.self machine.heap) machine machine where
  consistent := rooted.consistent
  consistentCopy := rooted.consistent
  copies := ⟨fun _ live => live, fun handle value _ => rooted.closed handle value,
    fun _ _ _ _ same => same, fun _ value _ found =>
      found.trans (congrArg some value.rename_id.symm)⟩
  scopesInView := rooted.scopes
  rootsInView := rooted.roots
  scopes := machine.scopes.rename_id.symm
  roots := ((List.append_nil _).trans (List.map_id _)).symm
  callDepth := rfl
  output := rfl
  limit := rfl

theorem Grows.complete {n m : Naming} {before after : Heap} (grows : Grows n before m after)
    (complete : n.Complete before) : m.Complete after := by
  intro handle live
  rcases grows.fresh handle live with before | seen
  · exact grows.view handle (complete handle before)
  · exact seen

theorem Mirrors.rooted {n : Naming} {one two : Machine} (mirrors : Mirrors n one two)
    (complete : n.Complete one.heap) : Rooted one where
  consistent := mirrors.consistent
  closed handle value found child member :=
    mirrors.copies.live child (mirrors.copies.closed handle value
      (complete handle (Heap.isLive_of_get? found)) found child member)
  scopes handle member := mirrors.copies.live handle (mirrors.scopesInView handle member)
  roots handle member := mirrors.copies.live handle (mirrors.rootsInView handle member)

theorem Rooted.record {machine : Machine} (rooted : Rooted machine) (event : Event) :
    Rooted (machine.record event) := by
  unfold Machine.record
  split <;> exact { rooted with }

theorem Rooted.recordUsage {machine : Machine} (rooted : Rooted machine) :
    Rooted machine.recordUsage := by
  unfold Machine.recordUsage
  split
  · exact rooted.record _
  · exact rooted

/-- What can still be used stays in occupied slots when a machine collects. -/
theorem Rooted.collect {machine : Machine} (rooted : Rooted machine) (room : Addressable machine) :
    Rooted machine.collect.2 := by
  have unmarked := rooted.consistent.unmarked
  unfold Machine.collect
  split
  · exact rooted.record _
  · refine Rooted.recordUsage (Rooted.record ?_ _)
    exact {
      consistent := rooted.consistent.collect _ room
      closed := by
        intro handle value found child member
        obtain ⟨before, reached⟩ := (unmarked.get?_collect _ handle value).mp found
        exact (unmarked.isLive_collect _ child).mpr
          ⟨rooted.closed handle value before child member, .child reached before member⟩
      scopes := fun handle member => (unmarked.isLive_collect _ handle).mpr
        ⟨rooted.scopes handle member, .root (List.mem_append_left _ member)⟩
      roots := fun handle member => (unmarked.isLive_collect _ handle).mpr
        ⟨rooted.roots handle member, .root (List.mem_append_right _ member)⟩ }

theorem Rooted.collectIfDue {machine : Machine} (rooted : Rooted machine)
    (room : Addressable machine) : Rooted machine.collectIfDue := by
  unfold Machine.collectIfDue
  split
  · exact rooted.collect room
  · exact rooted

section Mirrors

variable {n m : Naming} {one two : Machine} (mirrors : Mirrors n one two)

include mirrors

/-- Machines mirror each other with heaps that have grown likewise. -/
theorem Mirrors.grow {heap heapCopy : Heap} (grows : Grows n one.heap m heap)
    (consistent : heap.Consistent) (consistentCopy : heapCopy.Consistent)
    (copies : heap.Copies m.name m.inView heapCopy) :
    Mirrors m { one with heap } { two with heap := heapCopy } where
  consistent := consistent
  consistentCopy := consistentCopy
  copies := copies
  scopesInView handle member := grows.view handle (mirrors.scopesInView handle member)
  rootsInView handle member := grows.view handle (mirrors.rootsInView handle member)
  scopes := mirrors.scopes.trans (ScopeChain.rename_congr fun handle member =>
    (grows.same handle (mirrors.scopesInView handle member)).symm)
  roots := by
    rw [mirrors.roots, grows.extra, List.map_congr_left fun handle member =>
      (grows.same handle (mirrors.rootsInView handle member)).symm]
  callDepth := mirrors.callDepth
  output := mirrors.output
  limit := mirrors.limit

/-- Events do not matter. -/
theorem Mirrors.record (event : Event) : Mirrors n (one.record event) two := by
  unfold Machine.record
  split <;> exact { mirrors with }

theorem Mirrors.recordCopy (event : Event) : Mirrors n one (two.record event) := by
  unfold Machine.record
  split <;> exact { mirrors with }

theorem Mirrors.recordUsage : Mirrors n one.recordUsage two := by
  unfold Machine.recordUsage
  split
  · exact mirrors.record _
  · exact mirrors

theorem Mirrors.recordUsageCopy : Mirrors n one two.recordUsage := by
  unfold Machine.recordUsage
  split
  · exact mirrors.recordCopy _
  · exact mirrors

/-- What can still be used is in view, and the other machine can still use the copy. -/
theorem Mirrors.usableCopy {handle : Handle} (usable : Usable one handle) :
    n.inView handle ∧ Usable two (n.name handle) := by
  apply mirrors.copies.reachable_copy _ usable
  intro root member
  rw [mirrors.scopes, ScopeChain.roots_rename, mirrors.roots]
  rcases List.mem_append.mp member with inScope | temporary
  · exact ⟨mirrors.scopesInView root inScope, List.mem_append_left _ (List.mem_map_of_mem inScope)⟩
  · exact ⟨mirrors.rootsInView root temporary,
      List.mem_append_right _ (List.mem_append_left _ (List.mem_map_of_mem temporary))⟩

/-- What cannot be used any more may go out of view. -/
theorem Mirrors.narrow : Mirrors (n.narrow (Usable one)) one two :=
  { mirrors with
    copies := mirrors.copies.narrow fun _ _ _ usable found _ member => .child usable found member
    scopesInView := fun handle member =>
      ⟨mirrors.scopesInView handle member, .root (List.mem_append_left _ member)⟩
    rootsInView := fun handle member =>
      ⟨mirrors.rootsInView handle member, .root (List.mem_append_right _ member)⟩ }

/-- A machine that has collected still has everything that is in view. -/
theorem Mirrors.collect (room : Addressable one) :
    Mirrors (n.narrow (Usable one)) one.collect.2 two := by
  have narrowed := mirrors.narrow
  unfold Machine.collect
  split
  · exact narrowed.record _
  · refine Mirrors.recordUsage (Mirrors.record ?_ _)
    exact { narrowed with
      consistent := mirrors.consistent.collect _ room
      copies := narrowed.copies.congr fun handle seen => by
        obtain ⟨value, found, _⟩ := mirrors.copies.exists_value seen.1
        have kept := (mirrors.consistent.unmarked.get?_collect _ handle value).mpr
          ⟨found, seen.2⟩
        exact kept.trans found.symm }

/-- The other machine may collect as well. -/
theorem Mirrors.collectCopy (room : Addressable two) :
    Mirrors (n.narrow (Usable one)) one two.collect.2 := by
  have narrowed := mirrors.narrow
  unfold Machine.collect
  split
  · exact narrowed.recordCopy _
  · refine Mirrors.recordUsageCopy (Mirrors.recordCopy ?_ _)
    exact { narrowed with
      consistentCopy := mirrors.consistentCopy.collect _ room
      copies := narrowed.copies.congrCopy fun handle seen => by
        obtain ⟨value, _, found, _⟩ := mirrors.copies.exists_value seen.1
        have kept := (mirrors.consistentCopy.unmarked.get?_collect _ _ _).mpr
          ⟨found, (mirrors.usableCopy seen.2).2⟩
        exact kept.trans found.symm }

theorem Mirrors.collectIfDue (room : Addressable one) :
    Mirrors (n.narrow (Usable one)) one.collectIfDue two := by
  unfold Machine.collectIfDue
  split
  · exact mirrors.collect room
  · exact mirrors.narrow

theorem Mirrors.collectIfDueCopy (room : Addressable two) :
    Mirrors (n.narrow (Usable one)) one two.collectIfDue := by
  unfold Machine.collectIfDue
  split
  · exact mirrors.collectCopy room
  · exact mirrors.narrow

/-- Both machines go back to a mark. -/
theorem Mirrors.release {mark copy : Mark} (related : Related n mark copy) :
    Mirrors n (one.release mark) (two.release copy) := by
  obtain ⟨rfl, _⟩ := related
  have dropped : (rename n mark).cut two.roots = (mark.cut one.roots).map n.name ++ n.extra := by
    have above : (one.roots.map n.name ++ n.extra).length - (rename n mark).height =
        one.roots.length - mark.height := by
      rw [List.length_append, List.length_map]
      exact Nat.add_sub_add_right _ _ _
    rw [Mark.cut, Mark.cut, mirrors.roots, above, List.drop_append_of_le_length, List.map_drop]
    rw [List.length_map]
    exact Nat.sub_le _ _
  exact { mirrors with
    rootsInView := fun handle member =>
      mirrors.rootsInView handle ((mark.cut_suffix one.roots).mem member)
    roots := dropped }

/-- Both machines mark the top of their temporary roots. -/
theorem Mirrors.related_mark :
    Related n (⟨one.roots.length⟩ : Mark) ⟨two.roots.length⟩ where
  eq := by
    rw [mirrors.roots, List.length_append, List.length_map]
    rfl
  inView := nofun

/-- Both machines make handles temporary roots. -/
theorem Mirrors.protectAll {handles copies : List Handle} (related : Related n handles copies) :
    Mirrors n { one with roots := handles.reverse ++ one.roots }
      { two with roots := copies.reverse ++ two.roots } := by
  obtain ⟨rfl, seen⟩ := related
  exact { mirrors with
    rootsInView := by
      intro handle member
      rcases List.mem_append.mp member with new | before
      · exact seen handle (List.mem_reverse.mp new)
      · exact mirrors.rootsInView handle before
    roots := by
      rw [mirrors.roots, List.map_append, List.append_assoc, List.map_reverse]
      rfl }

theorem Mirrors.closeScope (scope : ScopeId) :
    Mirrors n (one.closeScope scope) (two.closeScope scope) := by
  unfold Machine.closeScope
  rw [mirrors.scopes, ScopeChain.canPop_rename]
  split
  · refine Mirrors.recordCopy (Mirrors.record ?_ _) _
    exact { mirrors with
      scopesInView := fun handle member =>
        mirrors.scopesInView handle (ScopeChain.roots_pop_subset scope member)
      scopes := by rw [ScopeChain.pop_rename] }
  · exact mirrors

end Mirrors

/-- Results on two machines are alike: both are values that are the same under other names, or both
are the same stop, and not for a free slot. -/
def Alike {α : Type} [Carries α] (n : Naming) (before : Heap) :
    EStateM.Result Stop Machine α → EStateM.Result Stop Machine α → Prop
  | .ok value one, .ok copy two =>
    ∃ m, Grows n before m one.heap ∧ Mirrors m one two ∧ Related m value copy
  | .error stop one, .error other two =>
    other = stop ∧ (∀ access handle, stop ≠ .freeSlot access handle) ∧
      ∃ m, Grows n before m one.heap ∧ Mirrors m one two
  | _, _ => False

/-- Results on two machines are alike as long as handles name all slots. -/
def Parallel {α : Type} [Carries α] (n : Naming) (before : Heap)
    (result copy : EStateM.Result Stop Machine α) : Prop :=
  Addressable (lastMachine result) → Addressable (lastMachine copy) → Alike n before result copy

section Parallel

variable {α β : Type} [Carries α] [Carries β] {n m : Naming} {one two : Machine}

theorem parallel_pure (mirrors : Mirrors n one two) {value copy : α}
    (related : Related n value copy) :
    Parallel n one.heap ((pure value : Eval α) one) ((pure copy : Eval α) two) :=
  fun _ _ => ⟨n, .refl n one.heap, mirrors, related⟩

theorem parallel_fail (mirrors : Mirrors n one two) (error : RuntimeError) :
    Parallel n one.heap ((fail error : Eval α) one) ((fail error : Eval α) two) :=
  fun _ _ => ⟨rfl, nofun, n, .refl n one.heap, mirrors⟩

/-- Results are alike also when they are compared with an earlier heap. -/
theorem Alike.mono {before after : Heap} {result copy : EStateM.Result Stop Machine α}
    (alike : Alike m after result copy) (grows : Grows n before m after) :
    Alike n before result copy := by
  cases result with
  | ok value last =>
    cases copy with
    | ok valueCopy lastCopy =>
      obtain ⟨k, later, mirrors, related⟩ := alike
      exact ⟨k, grows.trans later, mirrors, related⟩
    | error stop lastCopy => exact alike.elim
  | error stop last =>
    cases copy with
    | ok valueCopy lastCopy => exact alike.elim
    | error stopCopy lastCopy =>
      obtain ⟨same, uses, k, later, mirrors⟩ := alike
      exact ⟨same, uses, k, grows.trans later, mirrors⟩

/-- What comes next is done on machines that mirror each other again. If handles name all slots in
the end, they do so in between. -/
theorem Parallel.bind {before : Heap} {action copy : Eval α} {rest restCopy : α → Eval β}
    [growing : ∀ value, Growing (rest value)] [growingCopy : ∀ value, Growing (restCopy value)]
    (parallel : Parallel n before (action one) (copy two))
    (goes : ∀ {m : Naming} {value valueCopy : α} {after afterCopy : Machine},
      Grows n before m after.heap → Mirrors m after afterCopy → Related m value valueCopy →
      Parallel m after.heap (rest value after) (restCopy valueCopy afterCopy)) :
    Parallel n before ((action >>= rest) one) ((copy >>= restCopy) two) := by
  rw [bind_at, bind_at]
  intro room roomCopy
  cases outcome : action one with
  | ok value after =>
    rw [outcome] at parallel room
    have roomMiddle := Nat.le_trans ((growing value).slotCount_le after) room
    cases outcomeCopy : copy two with
    | ok valueCopy afterCopy =>
      rw [outcomeCopy] at parallel roomCopy
      have roomMiddleCopy :=
        Nat.le_trans ((growingCopy valueCopy).slotCount_le afterCopy) roomCopy
      obtain ⟨m, grows, mirrors, related⟩ := parallel roomMiddle roomMiddleCopy
      exact (goes grows mirrors related room roomCopy).mono grows
    | error stop afterCopy =>
      rw [outcomeCopy] at parallel roomCopy
      exact (parallel roomMiddle roomCopy).elim
  | error stop after =>
    rw [outcome] at parallel room
    cases outcomeCopy : copy two with
    | ok valueCopy afterCopy =>
      rw [outcomeCopy] at parallel roomCopy
      have roomMiddleCopy :=
        Nat.le_trans ((growingCopy valueCopy).slotCount_le afterCopy) roomCopy
      exact (parallel room roomMiddleCopy).elim
    | error stopCopy afterCopy =>
      rw [outcomeCopy] at parallel roomCopy
      exact parallel room roomCopy

theorem Parallel.map {before : Heap} {action copy : Eval α} {change changeCopy : α → β}
    (parallel : Parallel n before (action one) (copy two))
    (changes : ∀ {m : Naming} {value valueCopy : α},
      Related m value valueCopy → Related m (change value) (changeCopy valueCopy)) :
    Parallel n before ((change <$> action) one) ((changeCopy <$> copy) two) := by
  rw [map_eq_pure_bind, map_eq_pure_bind]
  exact parallel.bind fun _ mirrors related => parallel_pure mirrors (changes related)

end Parallel

end Scriptlet.Run
