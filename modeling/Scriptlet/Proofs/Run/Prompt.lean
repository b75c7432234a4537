import Scriptlet.Proofs.Run.Elementary
import Scriptlet.Proofs.Scope.Outline

set_option autoImplicit false

/-!
The actions that a run is made of. They are not cut short, and change neither the number of calls
in progress, nor which frames are open.
-/
namespace Scriptlet

namespace Run

open Eval

/-- What evaluation takes back after it has changed it, and the settings, which never change. -/
structure Shape where
  callDepth : Nat
  frames : List Frame
  config : Config

def shape (machine : Machine) : Shape where
  callDepth := machine.callDepth
  frames := machine.scopes.outline
  config := machine.config

theorem isLive_of_shape {one two : Machine} (same : shape one = shape two) (scope : ScopeId) :
    one.scopes.isLive scope = two.scopes.isLive scope := by
  have frames_eq : one.scopes.outline = two.scopes.outline := congrArg Shape.frames same
  rw [ScopeChain.isLive_eq_outline, frames_eq, ← ScopeChain.isLive_eq_outline]

@[simp]
theorem shape_record (machine : Machine) (event : Event) :
    shape (machine.record event) = shape machine := by
  unfold Machine.record
  split <;> rfl

@[simp]
theorem shape_recordUsage (machine : Machine) : shape machine.recordUsage = shape machine := by
  unfold Machine.recordUsage
  split
  · exact shape_record ..
  · rfl

theorem shape_collect (machine : Machine) : shape machine.collect.2 = shape machine := by
  unfold Machine.collect
  split
  · exact shape_record ..
  · exact (shape_recordUsage _).trans (shape_record _ _)

theorem shape_collectIfDue (machine : Machine) : shape machine.collectIfDue = shape machine := by
  unfold Machine.collectIfDue
  split
  · exact shape_collect machine
  · rfl

/-- An action that is not cut short, and keeps the shape of the machine. -/
def Prompt {α : Type} (action : Eval α) : Prop :=
  ∀ machine, match action machine with
    | .ok _ after => shape after = shape machine
    | .error stop after => stop ≠ .exhausted ∧ shape after = shape machine

section Prompt

variable {α β : Type}

theorem Prompt.shape_ok {action : Eval α} (prompt : Prompt action) {machine after : Machine}
    {value : α} (outcome : action machine = .ok value after) : shape after = shape machine := by
  have kept := prompt machine
  rw [outcome] at kept
  exact kept

theorem Prompt.shape_error {action : Eval α} (prompt : Prompt action) {machine after : Machine}
    {stop : Stop} (outcome : action machine = .error stop after) :
    shape after = shape machine := by
  have kept := prompt machine
  rw [outcome] at kept
  exact kept.2

theorem Prompt.uncut {action : Eval α} (prompt : Prompt action) {machine after : Machine}
    {stop : Stop} (outcome : action machine = .error stop after) : stop ≠ .exhausted := by
  have kept := prompt machine
  rw [outcome] at kept
  exact kept.1

theorem prompt_pure (value : α) : Prompt (pure value : Eval α) :=
  fun _ => rfl

theorem prompt_get : Prompt (get : Eval Machine) :=
  fun _ => rfl

theorem prompt_modify {change : Machine → Machine}
    (keeps : ∀ machine, shape (change machine) = shape machine) :
    Prompt (modify change : Eval Unit) :=
  keeps

theorem Prompt.bind {action : Eval α} {rest : α → Eval β} (prompt : Prompt action)
    (prompts : ∀ value, Prompt (rest value)) : Prompt (action >>= rest) := by
  intro machine
  simp only [Bind.bind, EStateM.bind]
  cases outcome : action machine with
  | ok value middle =>
    have kept := prompts value middle
    rw [prompt.shape_ok outcome] at kept
    exact kept
  | error stop middle => exact ⟨prompt.uncut outcome, prompt.shape_error outcome⟩

theorem prompt_visit (info : NodeInfo) (kind : NodeKind) : Prompt (visit info kind) :=
  prompt_modify fun machine => by
    split
    · exact shape_record ..
    · rfl

theorem prompt_record (event : Event) : Prompt (record event) :=
  prompt_modify fun machine => shape_record machine event

theorem prompt_alloc (value : Value) : Prompt (alloc value) :=
  fun _ => rfl

theorem prompt_deref (handle : Handle) : Prompt (deref handle) := by
  intro machine
  unfold deref
  cases machine.heap.get? handle with
  | none => exact ⟨nofun, rfl⟩
  | some value => rfl

theorem prompt_update (handle : Handle) (change : Value → Value) :
    Prompt (update handle change) := by
  intro machine
  unfold update
  by_cases isLive : machine.heap.isLive handle
  · simp only [isLive, ↓reduceIte]
    rfl
  · simp only [isLive]
    exact ⟨nofun, rfl⟩

theorem prompt_lookup (scope : ScopeId) (name : String) (span : Span) :
    Prompt (lookup scope name span) := by
  intro machine
  unfold lookup
  cases machine.scopes.lookup? scope name with
  | none => exact ⟨nofun, rfl⟩
  | some handle => rfl

theorem prompt_declare (scope : ScopeId) (name : String) (handle : Handle) :
    Prompt (declare scope name handle) :=
  prompt_modify fun machine => by
    simp only [shape, ScopeChain.outline_declare]

theorem prompt_assign (scope : ScopeId) (name : String) (handle : Handle) :
    Prompt (assign scope name handle) :=
  prompt_modify fun machine => by
    simp only [shape, ScopeChain.outline_assign]

theorem prompt_protectAll (handles : List Handle) : Prompt (protectAll handles) :=
  prompt_modify fun _ => rfl

theorem prompt_release (mark : Mark) : Prompt (release mark) :=
  prompt_modify fun _ => rfl

theorem prompt_rootMark : Prompt rootMark :=
  fun _ => rfl

theorem prompt_latest (mark : Mark) (completion value : Option Handle) :
    Prompt (latest mark completion value) := by
  cases value with
  | none => exact prompt_pure completion
  | some value =>
    exact (prompt_release mark).bind fun _ => (prompt_protectAll [value]).bind fun _ =>
      prompt_pure (some value)

theorem prompt_collectIfDue : Prompt collectIfDue :=
  prompt_modify shape_collectIfDue

theorem prompt_printLine (line : String) : Prompt (printLine line) :=
  prompt_modify fun _ => rfl

theorem prompt_collectNow : Prompt collectNow :=
  shape_collect

theorem Elementary.prompt {action : Eval α} (elementary : Elementary action) : Prompt action := by
  induction elementary with
  | pure value => exact prompt_pure value
  | bind first others one two => exact one.bind two
  | inspect view rest others ih => exact prompt_get.bind fun machine => ih _
  | alloc value => exact prompt_alloc value
  | deref handle => exact prompt_deref handle
  | update handle change => exact prompt_update handle change
  | declare scope name handle => exact prompt_declare scope name handle
  | assign scope name handle => exact prompt_assign scope name handle
  | printLine line => exact prompt_printLine line
  | record event => exact prompt_record event
  | visit info kind => exact prompt_visit info kind
  | collectIfDue => exact prompt_collectIfDue
  | collectNow => exact prompt_collectNow

end Prompt

theorem shape_defineNative (machine : Machine) (name : String) (operation : Native) :
    shape (machine.defineNative name operation).2 = shape machine := by
  have prompt := (prompt_alloc (.native name operation)).bind fun handle =>
    prompt_declare ScopeChain.global name handle
  exact prompt machine

theorem shape_create (config : Config) : shape (.create config) = shape (.bare config) := by
  apply List.foldlRecOn (motive := fun machine => shape machine = shape (.bare config))
  · rfl
  · intro machine same entry _
    exact (shape_defineNative machine _ _).trans same

end Run
end Scriptlet
