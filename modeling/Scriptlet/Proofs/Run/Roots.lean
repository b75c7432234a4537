import Scriptlet.Proofs.Run.Agreement
import Scriptlet.Proofs.Run.Moves

set_option autoImplicit false

/-!
The temporary roots of a run. What is pending has its handles among them, and none of those below
the mark that it goes back to is ever dropped before it does so. A run that stops leaves some behind
for a while, but only above the marks of what is still pending.
-/
namespace Scriptlet

namespace Mark

variable {mark : Mark} {roots more : List Handle}

theorem cut_suffix (mark : Mark) (roots : List Handle) : mark.cut roots <:+ roots :=
  List.drop_suffix _ roots

/-- Nothing is above a mark that has just been made. -/
@[simp]
theorem cut_length (roots : List Handle) : (⟨roots.length⟩ : Mark).cut roots = roots := by
  simp [cut]

/-- More temporary roots on top do not change what is below a mark. -/
theorem cut_of_suffix (reached : mark.height ≤ roots.length) (extended : roots <:+ more) :
    mark.cut more = mark.cut roots := by
  obtain ⟨top, rfl⟩ := extended
  have above : top.length + roots.length - mark.height =
      top.length + (roots.length - mark.height) := by omega
  rw [cut, cut, List.length_append, above, ← List.drop_drop, List.drop_left]

theorem height_le_length_cut (reached : mark.height ≤ roots.length) :
    mark.height ≤ (mark.cut roots).length := by
  rw [cut, List.length_drop]
  omega

theorem cut_cons (reached : mark.height ≤ roots.length) (handle : Handle) :
    mark.cut (handle :: roots) = mark.cut roots :=
  cut_of_suffix reached (List.suffix_cons handle roots)

@[simp]
theorem cut_cut (reached : mark.height ≤ roots.length) :
    mark.cut (mark.cut roots) = mark.cut roots :=
  (cut_of_suffix (height_le_length_cut reached) (cut_suffix mark roots)).symm

end Mark

namespace Run

open Eval

def Pending.handles : Pending → List Handle
  | .memberRead target _ | .storeValue _ target _ _ | .store target _
  | .calleeRead target _ _ _ => [target]
  | .binary _ left _ => [left]
  | .before handle => [handle]
  | .compoundName _ current _ _ _ => [current]
  | .compoundProperty _ current target _ => [current, target]
  | .apply function this _ => function :: this.toList
  | .moreStatements _ _ _ completion | .turn _ _ _ _ completion
  | .nextTurn _ _ _ _ completion => completion.toList
  | _ => []

/-- The mark that something pending goes back to. -/
def Pending.mark? : Pending → Option Mark
  | .program mark | .release mark | .memberKey _ _ mark | .memberRead _ mark
  | .rightOperand _ _ _ mark | .binary _ _ mark | .compoundName _ _ _ _ mark
  | .moreStatements _ _ mark _ | .turn _ _ _ mark _ | .nextTurn _ _ _ mark _ => some mark
  | _ => none

/-- The temporary roots that are there for what waits further out. -/
def Pending.below (pending : Pending) (roots : List Handle) : List Handle :=
  pending.mark?.elim roots (·.cut roots)

/-- Whatever is pending has its handles among the temporary roots, and its mark is not above them;
at the bottom are those that a run began with. -/
def Guards (base : List Handle) : List Pending → List Handle → Prop
  | [], roots => base <:+ roots
  | pending :: stack, roots =>
    pending.handles ⊆ roots ∧ (∀ mark, pending.mark? = some mark → mark.height ≤ roots.length) ∧
      Guards base stack (pending.below roots)

section Guards

variable {base roots more : List Handle} {pending : Pending} {stack : List Pending}

theorem Pending.below_suffix (pending : Pending) (roots : List Handle) :
    pending.below roots <:+ roots := by
  unfold below
  cases pending.mark? with
  | none => exact List.suffix_rfl
  | some mark => exact mark.cut_suffix roots

/-- More temporary roots on top do no harm. -/
theorem Guards.mono (guards : Guards base stack roots) (extended : roots <:+ more) :
    Guards base stack more := by
  induction stack generalizing roots more with
  | nil => exact guards.trans extended
  | cons pending stack ih =>
    obtain ⟨held, reached, rest⟩ := guards
    refine ⟨List.Subset.trans held extended.subset, ?_, ih rest ?_⟩
    · exact fun mark found => Nat.le_trans (reached mark found) extended.length_le
    · unfold Pending.below
      cases found : pending.mark? with
      | none => exact extended
      | some mark =>
        have same := Mark.cut_of_suffix (reached mark found) extended
        exact List.suffix_iff_eq_append.mpr (by simp [same])

/-- Whatever is pending has its handles among the temporary roots. -/
theorem Guards.held (guards : Guards base stack roots) :
    ∀ pending ∈ stack, pending.handles ⊆ roots := by
  induction stack generalizing roots with
  | nil => nofun
  | cons pending stack ih =>
    refine List.forall_mem_cons.mpr ⟨guards.1, fun other member => ?_⟩
    exact List.Subset.trans (ih guards.2.2 other member) (pending.below_suffix roots).subset

/-- Something that neither holds a handle nor goes back to a mark can be pending anywhere. -/
theorem Guards.cons_light (guards : Guards base stack roots) (handles : pending.handles = [])
    (mark : pending.mark? = none) : Guards base (pending :: stack) roots := by
  refine ⟨by simp [handles], by simp [mark], ?_⟩
  rwa [Pending.below, mark]

/-- What waits to go back to a mark can be pending when that has just been made. -/
theorem Guards.cons_marked (guards : Guards base stack roots) (handles : pending.handles = [])
    (mark : pending.mark? = some ⟨roots.length⟩) : Guards base (pending :: stack) roots := by
  refine ⟨by simp [handles], by simp [mark], ?_⟩
  rwa [Pending.below, mark, Option.elim, Mark.cut_length]

/-- What takes the place of something pending goes back to the same mark. -/
theorem Guards.replace {next : Pending} (guards : Guards base (pending :: stack) roots)
    (same : next.mark? = pending.mark?) (held : next.handles ⊆ roots) :
    Guards base (next :: stack) roots := by
  refine ⟨held, same ▸ guards.2.1, ?_⟩
  rw [Pending.below, same]
  exact guards.2.2

/-- What takes the place of something pending may hold the handle that is made a root. -/
theorem Guards.protect {next : Pending} {handle : Handle}
    (guards : Guards base (pending :: stack) roots) (same : next.mark? = pending.mark?)
    (held : next.handles ⊆ handle :: roots) : Guards base (next :: stack) (handle :: roots) :=
  (guards.mono (List.suffix_cons handle roots)).replace same held

/-- What takes the place of something pending may hold a handle that is the one root above its
mark. -/
theorem Guards.renew {next : Pending} {mark : Mark} {handle : Handle}
    (guards : Guards base (pending :: stack) roots) (marked : pending.mark? = some mark)
    (same : next.mark? = some mark) (held : next.handles = [handle]) :
    Guards base (next :: stack) (handle :: mark.cut roots) := by
  have reached := guards.2.1 mark marked
  have rest := guards.2.2
  rw [Pending.below, marked, Option.elim] at rest
  refine ⟨by simp [held], ?_, ?_⟩
  · intro other found
    cases same.symm.trans found
    exact Nat.le_succ_of_le (Mark.height_le_length_cut reached)
  · rwa [Pending.below, same, Option.elim, Mark.cut_cons (Mark.height_le_length_cut reached),
      Mark.cut_cut reached]

end Guards

def Move.pending : Move → List Pending
  | .give _ pending | .goOn _ pending => pending
  | .fail _ => []

section Moves

variable {base roots held : List Handle} {stack : List Pending} {move : Move}

/-- A task leaves pending only what has its handles among the temporary roots. -/
theorem Task.Moves.guards {task : Task} (moves : task.Moves roots held move)
    (guards : Guards base stack roots) : Guards base (move.pending ++ stack) held := by
  have marked : Guards base (.release ⟨roots.length⟩ :: stack) roots := guards.cons_marked rfl rfl
  cases moves with
  | program | member | binary => exact guards.cons_marked rfl rfl
  | object | array | assignMember | callMember | call => exact marked.cons_light rfl rfl
  | statements | loopStatement => exact marked.cons_marked rfl rfl
  | unary | logical | expressions | sequence | keyComputed | assignName | applyNative
  | nativeApply | conditional | expressionStatement | declare => exact guards.cons_light rfl rfl
  | assignCompound =>
    refine ⟨by simp [Pending.handles], by simp [Pending.mark?], ?_⟩
    simpa [Pending.below, Pending.mark?, Mark.cut_cons] using guards
  | host =>
    refine ⟨List.nil_subset _, by simp [Pending.mark?]; omega, ?_⟩
    rw [Pending.below, Pending.mark?, Option.elim,
      Mark.cut_of_suffix (Nat.le_refl _) (List.suffix_append _ roots), Mark.cut_length]
    exact guards
  | _ => exact guards

theorem roots_leave_suffix (pending : Pending) (machine : Machine) :
    pending.below machine.roots <:+ (pending.leave machine).roots := by
  cases pending with
  | program mark =>
    simp only [Pending.leave, roots_recordUsage]
    exact List.suffix_rfl
  | close scope =>
    simp only [Pending.leave, Machine.closeScope]
    split
    · rw [roots_record]
      exact List.suffix_rfl
    · exact List.suffix_rfl
  | release | binary | compoundName => exact List.suffix_rfl
  | _ => exact Pending.below_suffix _ _

/-- When a wait is over, what waits further out has what it needs. -/
theorem Guards.leave {pending : Pending} {machine : Machine}
    (guards : Guards base (pending :: stack) machine.roots) :
    Guards base stack (pending.leave machine).roots :=
  guards.2.2.mono (roots_leave_suffix pending machine)

theorem Pending.Moves.guards {pending : Pending} {machine : Machine}
    (moves : pending.Moves (pending.leave machine).roots held move)
    (guards : Guards base (pending :: stack) machine.roots) :
    Guards base (move.pending ++ stack) held := by
  have left := guards.leave
  have kept := guards.1
  cases moves with
  | memberKey | rightOperand | moreExpressions | storeKey | calleeKey | arguments =>
    exact guards.protect rfl (by simp [Pending.handles])
  | storeCompound | calleeRead =>
    have target := kept List.mem_cons_self
    exact guards.protect rfl (by simpa [Pending.handles] using .inr target)
  | storeValue | moreStatements | turn | nextTurn => exact guards.replace rfl kept
  | memberRead => exact guards.2.2
  | statementsOverRenewed => exact guards.2.2.mono (List.suffix_cons _ _)
  | moreStatementsRenewed | nextTurnRenewed => exact guards.renew rfl rfl rfl
  | _ => exact left

end Moves

/-- Work after which whatever is pending has its handles among the temporary roots. -/
def Guarded (base : List Handle) (stack : List Pending) (work : Eval Next) : Prop :=
  ∀ machine, Guards base stack machine.roots →
    Guards base (settle stack (work machine)).stack (settle stack (work machine)).machine.roots

section Guarded

variable {base : List Handle} {stack : List Pending}

theorem Makes.guards {may : List Handle → Move → Prop} {machine : Machine}
    {result : EStateM.Result Stop Machine Next} (makes : Makes may machine result)
    (fits : ∀ held move, may held move → Guards base (move.pending ++ stack) held)
    (guards : Guards base stack machine.roots) :
    Guards base (settle stack result).stack (settle stack result).machine.roots := by
  cases makes with
  | @move move held middle made quiet =>
    have after := fits held move made
    cases move <;> exact after
  | freeSlot quiet => exact quiet.roots ▸ guards

theorem Keeping.guarded {α : Type} {action : Eval α} {rest : α → Eval Next}
    (keeping : Keeping action) (others : ∀ value, Guarded base stack (rest value)) :
    Guarded base stack (action >>= rest) := by
  intro machine guards
  have kept := keeping machine
  rw [bind_at]
  cases outcome : action machine with
  | ok value middle =>
    rw [outcome] at kept
    exact others value middle (kept.1 ▸ guards)
  | error stop middle =>
    rw [outcome] at kept
    exact kept.1 ▸ guards

theorem keeping_get : Keeping (get : Eval Machine) :=
  fun _ => ⟨rfl, Nat.le_refl _⟩

theorem keeping_openScope (parent : ScopeId) (kind : ScopeKind) (this : Option Handle) :
    Keeping (openScope parent kind this) := by
  intro machine
  let pushed := machine.scopes.push parent kind this
  have heap_eq :=
    heap_record { machine with scopes := pushed.2 } (.scopePushed pushed.1 parent kind)
  exact ⟨roots_record _ _, Nat.le_of_eq (congrArg Heap.slotCount heap_eq.symm)⟩

theorem guarded_enterBody (closure : Closure) (this : Option Handle) (arguments : List Handle) :
    Guarded base stack (enterBody closure this arguments) := by
  have deepens : Keeping deepen := fun _ => ⟨rfl, Nat.le_refl _⟩
  apply keeping_get.guarded
  intro machine
  apply (keeping_openScope _ _ _).guarded
  intro scope
  apply (ordinary_bindParameters scope closure.params arguments).elementary.keeping.guarded
  intro _
  apply (ordinary_record _).elementary.keeping.guarded
  intro _
  apply deepens.guarded
  intro _ machine guards
  exact ((guards.cons_light rfl rfl).cons_light rfl rfl).cons_light rfl rfl

theorem guarded_begin (task : Task) : Guarded base stack (begin task) := by
  induction task using Task.plainCases with
  | plain task plain =>
    intro machine guards
    exact ((begin_leads plain).makes rfl).guards (fun _ _ moves => moves.guards guards) guards
  | function info name params body scope =>
    apply (Elementary.visit _ _).keeping.guarded
    intro _
    exact (Elementary.makeFunction _ _ _ _ _).keeping.guarded fun _ _ guards => guards
  | block block scope =>
    apply (Elementary.visit _ _).keeping.guarded
    intro _
    exact (keeping_openScope _ _ _).guarded fun _ _ guards => guards.cons_light rfl rfl
  | body closure this arguments span =>
    intro machine guards
    dsimp only [begin, beginBody]
    split
    · exact guards
    · split
      · exact guards
      · exact guarded_enterBody closure this arguments machine guards

/-- A step keeps the handles of all that is pending among the temporary roots. -/
theorem guards_step {state next : State} (guards : Guards base state.stack state.machine.roots)
    (next_eq : step state = some next) : Guards base next.stack next.machine.roots := by
  obtain ⟨control, stack, machine⟩ := state
  cases control with
  | run task =>
    cases next_eq
    exact guarded_begin task machine guards
  | give answer =>
    cases stack with
    | nil => cases next_eq
    | cons pending stack =>
      cases next_eq
      exact ((proceed_leads pending answer).makes rfl).guards
        (fun _ _ moves => moves.guards guards) guards.leave
  | stop stop =>
    cases stack with
    | nil => cases next_eq
    | cons pending stack =>
      cases next_eq
      exact guards.leave

theorem guards_after {state : State} (guards : Guards base state.stack state.machine.roots)
    (count : Nat) :
    Guards base (state.after count).stack (state.after count).machine.roots := by
  induction count with
  | zero => exact guards
  | succ count ih =>
    rw [State.after_succ]
    cases next_eq : step (state.after count) with
    | none => exact ih
    | some next => exact guards_step ih next_eq

end Guarded

theorem Entry.guards (entry : Entry) (machine : Machine) (count : Nat) :
    Guards machine.roots ((entry.start machine).after count).stack
      ((entry.start machine).after count).machine.roots := by
  have first : Guards machine.roots (entry.start machine).stack
    (entry.start machine).machine.roots := List.suffix_rfl
  exact guards_after first count

end Run
end Scriptlet
