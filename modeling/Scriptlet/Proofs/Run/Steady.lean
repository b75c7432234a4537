import Scriptlet.Proofs.Heap.Collection
import Scriptlet.Proofs.Scope.Outline
import Scriptlet.Proofs.Value.Plain
import Scriptlet.Machine.Run

set_option autoImplicit false

/-!
Actions that open no scope and make no function. Of those that a run is made of, only two do
otherwise, one each.
-/
namespace Scriptlet

namespace Heap

def Stores (heap : Heap) (value : Value) : Prop :=
  ∃ slot : Slot, some slot ∈ heap.slots ∧ slot.value = value

/-- A function is in some slot. -/
def Holds (heap : Heap) (closure : Closure) : Prop :=
  heap.Stores (.function closure)

theorem stores_of_get? {heap : Heap} {handle : Handle} {value : Value}
    (found : heap.get? handle = some value) : heap.Stores value := by
  obtain ⟨slot, place, same⟩ := Option.map_eq_some_iff.mp found
  have there := Option.join_eq_some_iff.mp place
  exact ⟨slot, Array.mem_of_getElem? there, same⟩

theorem stores_of_alloc {heap : Heap} {value found : Value}
    (stored : (heap.alloc value).2.Stores found) : found = value ∨ heap.Stores found := by
  obtain ⟨slot, member, rfl⟩ := stored
  cases free : heap.free with
  | nil =>
    rw [alloc_of_free_nil value free] at member
    rcases Array.mem_push.mp member with before | same
    · exact .inr ⟨slot, before, rfl⟩
    · exact .inl (by cases same; rfl)
  | cons word rest =>
    rw [alloc_of_free_cons value free] at member
    rcases Array.mem_or_eq_of_mem_setIfInBounds member with before | same
    · exact .inr ⟨slot, before, rfl⟩
    · exact .inl (by cases same; rfl)

theorem stores_of_modify {heap : Heap} {change : Value → Value} {target : Handle} {found : Value}
    (stored : (heap.modify target change).Stores found) :
    ∃ value, heap.Stores value ∧ (found = value ∨ found = change value) := by
  obtain ⟨slot, member, rfl⟩ := stored
  obtain ⟨index, there⟩ := Array.getElem?_of_mem member
  rw [modify, Array.getElem?_modify] at there
  split at there
  · obtain ⟨cell, before, changed⟩ := Option.map_eq_some_iff.mp there
    obtain ⟨old, rfl, rfl⟩ := Option.map_eq_some_iff.mp changed
    exact ⟨old.value, ⟨old, Array.mem_of_getElem? before, rfl⟩, .inr rfl⟩
  · exact ⟨slot.value, ⟨slot, Array.mem_of_getElem? there, rfl⟩, .inl rfl⟩

theorem stores_of_mem_markFrom {slots : Array (Option Slot)} {work : List Handle} {slot : Slot}
    (member : some slot ∈ markFrom slots work) :
    ∃ old : Slot, some old ∈ slots ∧ old.value = slot.value := by
  fun_induction markFrom slots work with
  | case1 slots => exact ⟨slot, member, rfl⟩
  | case2 slots handle rest bound there found marked ih => exact ih member
  | case3 slots handle rest bound there found fresh ih =>
    obtain ⟨old, before, same⟩ := ih member
    rcases Array.mem_or_eq_of_mem_set before with before | marked
    · exact ⟨old, before, same⟩
    · cases marked
      exact ⟨there, found ▸ Array.getElem_mem bound, same⟩
  | case4 slots handle rest bound found ih => exact ih member
  | case5 slots handle rest outside ih => exact ih member

theorem stores_of_collect {heap : Heap} {roots : List Handle} {found : Value}
    (stored : (heap.collect roots).2.Stores found) : heap.Stores found := by
  obtain ⟨slot, member, rfl⟩ := stored
  obtain ⟨cell, marked, swept⟩ := Array.mem_map.mp member
  cases cell with
  | none => cases swept
  | some before =>
    simp only [sweepSlot] at swept
    split at swept
    · cases swept
      obtain ⟨old, there, same⟩ := stores_of_mem_markFrom marked
      exact ⟨old, there, same⟩
    · cases swept

end Heap

namespace Run

open Eval

/-- A machine with nothing bound has nothing in its slots. -/
theorem not_stores_bare (config : Config) (value : Value) :
    ¬ (Machine.bare config).heap.Stores value := by
  rintro ⟨slot, member, _⟩
  exact Array.not_mem_empty _ member

@[simp]
theorem heap_record (machine : Machine) (event : Event) :
    (machine.record event).heap = machine.heap := by
  unfold Machine.record
  split <;> rfl

@[simp]
theorem heap_recordUsage (machine : Machine) : machine.recordUsage.heap = machine.heap := by
  unfold Machine.recordUsage
  split
  · exact heap_record machine _
  · rfl

theorem heap_collect (machine : Machine) : machine.collect.2.heap = machine.heap ∨
    ∃ roots, machine.collect.2.heap = (machine.heap.collect roots).2 := by
  unfold Machine.collect
  split
  · exact .inl (heap_record machine _)
  · refine .inr ⟨machine.scopes.roots ++ machine.roots, ?_⟩
    simp only [heap_recordUsage, heap_record]

theorem heap_collectIfDue (machine : Machine) : machine.collectIfDue.heap = machine.heap ∨
    ∃ roots, machine.collectIfDue.heap = (machine.heap.collect roots).2 := by
  unfold Machine.collectIfDue
  split
  · exact heap_collect machine
  · exact .inl rfl

/-- The open frames stay, apart from what is bound in them, and no function is added. -/
structure Undisturbed (before after : Machine) : Prop where
  outline : after.scopes.outline = before.scopes.outline
  generation : after.scopes.nextGeneration = before.scopes.nextGeneration
  holds : ∀ closure, after.heap.Holds closure → before.heap.Holds closure

theorem Undisturbed.refl (machine : Machine) : Undisturbed machine machine :=
  ⟨rfl, rfl, fun _ holds => holds⟩

theorem Undisturbed.trans {first middle last : Machine} (one : Undisturbed first middle)
    (two : Undisturbed middle last) : Undisturbed first last where
  outline := two.outline.trans one.outline
  generation := two.generation.trans one.generation
  holds closure held := one.holds closure (two.holds closure held)

theorem undisturbed_record (machine : Machine) (event : Event) :
    Undisturbed machine (machine.record event) := by
  unfold Machine.record
  split <;> exact ⟨rfl, rfl, fun _ holds => holds⟩

theorem undisturbed_recordUsage (machine : Machine) :
    Undisturbed machine machine.recordUsage := by
  unfold Machine.recordUsage
  split
  · exact undisturbed_record machine _
  · exact .refl machine

theorem undisturbed_collect (machine : Machine) : Undisturbed machine machine.collect.2 := by
  unfold Machine.collect
  split
  · exact undisturbed_record machine _
  · refine Undisturbed.trans ?_ (undisturbed_recordUsage _)
    refine Undisturbed.trans ?_ (undisturbed_record _ _)
    exact ⟨rfl, rfl, fun _ => Heap.stores_of_collect⟩

theorem undisturbed_foldl {α : Type} {change : Machine → α → Machine}
    (keeps : ∀ machine item, Undisturbed machine (change machine item)) (items : List α)
    (machine : Machine) : Undisturbed machine (items.foldl change machine) := by
  induction items generalizing machine with
  | nil => exact .refl machine
  | cons item items ih => exact (keeps machine item).trans (ih (change machine item))

theorem undisturbed_read (machine : Machine) (text : String) :
    Undisturbed machine (machine.read text).2 := by
  have noted (builder : Builder) : Undisturbed machine (machine.recordNodes builder) := by
    unfold Machine.recordNodes
    split
    · exact undisturbed_foldl (fun machine _ => undisturbed_record machine _) _ machine
    · exact .refl machine
  unfold Machine.read
  rcases Program.read text with ⟨result, builder⟩
  cases result with
  | ok program => exact (noted builder).trans (undisturbed_record _ _)
  | error failure => exact noted builder

theorem undisturbed_create (config : Config) : Undisturbed (.bare config) (.create config) := by
  refine undisturbed_foldl (fun machine entry => ?_) Native.installed (.bare config)
  obtain ⟨name, operation⟩ := entry
  refine ⟨machine.scopes.outline_declare _ _ _, machine.scopes.nextGeneration_declare _ _ _, ?_⟩
  intro closure held
  exact (Heap.stores_of_alloc held).resolve_left nofun

/-- An action that opens and closes no scope and makes no function. -/
def Steady {α : Type} (action : Eval α) : Prop :=
  ∀ machine, match action machine with
    | .ok _ after => Undisturbed machine after
    | .error _ after => Undisturbed machine after

section Steady

variable {α β : Type}

theorem steady_pure (value : α) : Steady (pure value : Eval α) :=
  .refl

theorem steady_get : Steady (get : Eval Machine) :=
  .refl

theorem steady_modify {change : Machine → Machine}
    (keeps : ∀ machine, Undisturbed machine (change machine)) :
    Steady (modify change : Eval Unit) :=
  keeps

theorem Steady.bind {action : Eval α} {rest : α → Eval β} (steady : Steady action)
    (steadies : ∀ value, Steady (rest value)) : Steady (action >>= rest) := by
  intro machine
  have first := steady machine
  simp only [Bind.bind, EStateM.bind]
  cases outcome : action machine with
  | ok value middle =>
    rw [outcome] at first
    have second := steadies value middle
    dsimp only
    cases last : rest value middle <;> rw [last] at second <;> exact first.trans second
  | error stop middle =>
    rw [outcome] at first
    exact first

theorem steady_record (event : Event) : Steady (record event) :=
  steady_modify fun machine => undisturbed_record machine event

theorem steady_visit (info : NodeInfo) (kind : NodeKind) : Steady (visit info kind) :=
  steady_modify fun machine => by
    split
    · exact undisturbed_record machine _
    · exact .refl machine

theorem steady_collectIfDue : Steady collectIfDue :=
  steady_modify fun machine => by
    unfold Machine.collectIfDue
    split
    · exact undisturbed_collect machine
    · exact .refl machine

theorem steady_collectNow : Steady collectNow :=
  undisturbed_collect

theorem steady_printLine (line : String) : Steady (printLine line) :=
  steady_modify fun _ => ⟨rfl, rfl, fun _ holds => holds⟩

theorem steady_alloc {value : Value} (other : (value.kind == .function) = false) :
    Steady (alloc value) := by
  intro machine
  refine ⟨rfl, rfl, fun closure held => ?_⟩
  rcases Heap.stores_of_alloc held with rfl | before
  · cases other
  · exact before

theorem steady_allocPlain {value : Value} (plain : value.isReference = false) :
    Steady (alloc value) := by
  apply steady_alloc
  cases value with
  | function closure => cases plain
  | _ => rfl

theorem steady_deref (handle : Handle) : Steady (deref handle) := by
  intro machine
  unfold deref
  cases machine.heap.get? handle <;> exact .refl machine

theorem steady_update (handle : Handle) {change : Value → Value}
    (keeps : ∀ value closure, change value = .function closure → value = .function closure) :
    Steady (update handle change) := by
  intro machine
  unfold update
  by_cases isLive : machine.heap.isLive handle
  · simp only [isLive, ↓reduceIte]
    refine ⟨rfl, rfl, fun closure held => ?_⟩
    obtain ⟨value, before, same | changed⟩ := Heap.stores_of_modify held
    · rwa [← same] at before
    · rwa [keeps value closure changed.symm] at before
  · simp only [isLive]
    exact .refl machine

theorem steady_declare (scope : ScopeId) (name : String) (handle : Handle) :
    Steady (declare scope name handle) :=
  steady_modify fun machine =>
    ⟨machine.scopes.outline_declare scope name handle,
      machine.scopes.nextGeneration_declare scope name handle, fun _ holds => holds⟩

theorem steady_assign (scope : ScopeId) (name : String) (handle : Handle) :
    Steady (assign scope name handle) :=
  steady_modify fun machine => by
    refine ⟨machine.scopes.outline_assign scope name handle, ?_, fun _ holds => holds⟩
    show ((machine.scopes.assign? scope name handle).getD _).nextGeneration = _
    cases assigned : machine.scopes.assign? scope name handle with
    | none => exact machine.scopes.nextGeneration_declare ScopeChain.global name handle
    | some after => exact ScopeChain.nextGeneration_of_assign? assigned

end Steady

end Run
end Scriptlet
