import Scriptlet.Machine.Run

set_option autoImplicit false

/-!
The actions that a run is made of. All of them but looking up a name are put together from a few
basic ones, so what holds of those and stays true when actions follow each other holds of them all.
-/
namespace Scriptlet.Run

open Eval

theorem deref_at (handle : Handle) (machine : Machine) :
    deref handle machine =
      (machine.heap.get? handle).elim (.error (.freeSlot .read handle) machine)
        (.ok · machine) := by
  unfold deref
  cases machine.heap.get? handle <;> rfl

theorem lookup_at (scope : ScopeId) (name : String) (span : Span) (machine : Machine) :
    lookup scope name span machine =
      (machine.scopes.lookup? scope name).elim
        (.error (.error (.undefinedReference name span)) machine) (.ok · machine) := by
  unfold lookup
  cases machine.scopes.lookup? scope name <;> rfl

/-- An action put together from basic ones. None of them stops for an error of the program. -/
inductive Elementary : {α : Type} → Eval α → Prop where
  | pure {α : Type} (value : α) : Elementary (pure value)
  | bind {α β : Type} {action : Eval α} {rest : α → Eval β} (first : Elementary action)
      (others : ∀ value, Elementary (rest value)) : Elementary (action >>= rest)
  | inspect {α β : Type} (view : Heap → ScopeChain → β) (rest : β → Eval α)
      (others : ∀ seen, Elementary (rest seen)) :
      Elementary (get >>= fun machine => rest (view machine.heap machine.scopes))
  | alloc (value : Value) : Elementary (alloc value)
  | deref (handle : Handle) : Elementary (deref handle)
  | update (handle : Handle) (change : Value → Value) : Elementary (update handle change)
  | declare (scope : ScopeId) (name : String) (handle : Handle) :
      Elementary (declare scope name handle)
  | assign (scope : ScopeId) (name : String) (handle : Handle) :
      Elementary (assign scope name handle)
  | printLine (line : String) : Elementary (printLine line)
  | record (event : Event) : Elementary (record event)
  | visit (info : NodeInfo) (kind : NodeKind) : Elementary (visit info kind)
  | collectIfDue : Elementary collectIfDue
  | collectNow : Elementary collectNow

namespace Elementary

theorem makeFunction (node : NodeId) (name : Option String) (params : List String) (body : Block)
    (scope : ScopeId) : Elementary (makeFunction node name params body scope) := by
  apply Elementary.bind (.alloc _)
  intro handle
  cases name with
  | none => exact .bind (.pure _) fun _ => .pure _
  | some name => exact .bind (.declare scope name handle) fun _ => .pure _

/-- Such an action may stop for a free slot, but not for an error of the program. -/
theorem ne_error {α : Type} {action : Eval α} (elementary : Elementary action) :
    ∀ machine error after, action machine ≠ .error (.error error) after := by
  induction elementary with
  | pure | alloc | declare | assign | printLine | record | visit | collectIfDue | collectNow =>
    exact fun _ _ _ => nofun
  | bind first others one two =>
    rename_i action rest
    intro machine error after
    simp only [Bind.bind, EStateM.bind]
    cases outcome : action machine with
    | ok value middle => exact two value middle error after
    | error stop middle => exact fun same => one machine error middle (by cases same; exact outcome)
  | inspect view rest _ ih =>
    exact fun machine => ih _ machine
  | deref handle =>
    intro machine error after
    rw [deref_at]
    cases machine.heap.get? handle <;> exact nofun
  | update handle change =>
    intro machine error after
    unfold Eval.update
    split <;> exact nofun

end Elementary
end Scriptlet.Run
