import Scriptlet.Proofs.Run.Ending
import Scriptlet.Proofs.Run.Unobserved

set_option autoImplicit false

/-!
Assignments with an operator. An assignment such as `x += e` to a name comes to the same as its
expansion `x = x + e`: to the same handle or the same error, with the same machine left. Only the
observer can tell one from the other, for the expansion has more nodes to visit.
-/
namespace Scriptlet.Run

open Eval

section Settles

variable {first : State} {steps : Nat}

theorem Takes.mono {count : Nat} {state : State} (takes : Takes steps state)
    (fewer : count ≤ steps) : Takes count state := by
  obtain ⟨extra, rfl⟩ := Nat.exists_eq_add_of_le fewer
  induction extra with
  | zero => exact takes
  | succ extra ih => exact ih (Takes.of_succ takes) (Nat.le_add_right count extra)

theorem Follows.reaches_final {result : EStateM.Result Stop Machine Handle}
    (follows : Follows first [] .handle steps result)
    (uncut : ∀ machine, result ≠ .error .exhausted machine) : Reaches first (.final result) := by
  cases result with
  | ok value machine => exact follows
  | error stop machine =>
    cases stop with
    | exhausted => exact absurd rfl (uncut machine)
    | error error => exact follows
    | freeSlot access handle => exact follows

/-- An evaluation that is not cut short has the same result with all larger numbers of steps, from
some number on. -/
theorem settles {results : Nat → EStateM.Result Stop Machine Handle}
    (follows : ∀ steps, Follows first [] .handle steps (results steps))
    (uncut : ∀ machine, results steps ≠ .error .exhausted machine) :
    ∃ bound, ∀ more, bound ≤ more → results more = results steps := by
  have halted := State.step_final (results steps)
  obtain ⟨count, last⟩ := (follows steps).reaches_final uncut
  refine ⟨count + 1, fun more enough => ?_⟩
  have followsMore := follows more
  have uncutMore (machine : Machine) : results more ≠ .error .exhausted machine := by
    intro cut
    rw [cut] at followsMore
    have going := (Takes.mono followsMore enough).isSome_step
    rw [last, halted] at going
    exact absurd going Bool.false_ne_true
  have reachedMore := followsMore.reaches_final uncutMore
  exact State.final_injective (reachedMore.unique ⟨count, last⟩ (State.step_final _) halted)

end Settles

theorem bind_congr_at {α β : Type} {action other : Eval α} {rest restOther : α → Eval β}
    {machine : Machine} (same : action machine = other machine)
    (goes : ∀ value after, other machine = .ok value after →
      rest value after = restOther value after) :
    (action >>= rest) machine = (other >>= restOther) machine := by
  simp only [Bind.bind, EStateM.bind, same]
  cases outcome : other machine with
  | ok value after => exact goes value after outcome
  | error stop after => rfl

/-- An expression, with enough steps allowed, comes to a result, events aside. -/
def ComesTo (expression : Expression) (scope : ScopeId) (machine : Machine)
    (result : EStateM.Result Stop Machine Handle) : Prop :=
  (∀ after, result ≠ .error .exhausted after) ∧
    ∃ steps, unseen (evaluate steps expression scope machine) = result

section ComesTo

variable {expression other : Expression} {scope : ScopeId} {machine : Machine}
  {result : EStateM.Result Stop Machine Handle}

/-- What an expression comes to is its result with every larger number of steps, from some number
on. -/
theorem ComesTo.settles (comes : ComesTo expression scope machine result) :
    ∃ bound, ∀ more, bound ≤ more →
      unseen (evaluate more expression scope machine) = result := by
  obtain ⟨uncut, steps, rfl⟩ := comes
  have uncutSeen (after : Machine) :
      evaluate steps expression scope machine ≠ .error .exhausted after :=
    fun cut => uncut (unobserved after) (congrArg unseen cut)
  obtain ⟨bound, settled⟩ := Run.settles
    (fun steps => (agrees steps).expression expression scope [] machine) uncutSeen
  exact ⟨bound, fun more enough => congrArg unseen (settled more enough)⟩

/-- An expression comes to one result at most. -/
theorem ComesTo.unique {second : EStateM.Result Stop Machine Handle}
    (comes : ComesTo expression scope machine result)
    (comesSecond : ComesTo expression scope machine second) : result = second := by
  obtain ⟨bound, settled⟩ := comes.settles
  obtain ⟨boundSecond, settledSecond⟩ := comesSecond.settles
  rw [← settled _ (Nat.le_max_left bound boundSecond),
    ← settledSecond _ (Nat.le_max_right bound boundSecond)]

/-- Two expressions that have the same results, if one is allowed some more steps than the other,
come to the same. -/
theorem comesTo_iff_of_unseen_eq {fewer more : Nat}
    (same : ∀ steps, unseen (evaluate (steps + fewer) expression scope machine) =
      unseen (evaluate (steps + more) other scope machine)) :
    ComesTo expression scope machine result ↔ ComesTo other scope machine result := by
  constructor
  · intro comes
    obtain ⟨bound, settled⟩ := comes.settles
    refine ⟨comes.1, bound + more, ?_⟩
    rw [← same, settled _ (Nat.le_add_right bound fewer)]
  · intro comes
    obtain ⟨bound, settled⟩ := comes.settles
    refine ⟨comes.1, bound + fewer, ?_⟩
    rw [same, settled _ (Nat.le_add_right bound more)]

end ComesTo

section Assignments

variable (steps : Nat) (scope : ScopeId)

/-- What a name and a value are combined to by an operator. The name is looked up first, and what
it is bound to is held meanwhile. -/
def combineName (operator : BinaryOperator) (name : String) (span : Span) (value : Expression) :
    Eval Handle := do
  let mark ← rootMark
  let current ← lookup scope name span
  protect current
  let right ← releasing mark (evaluate steps value scope)
  applyBinary operator current right

def bindTo (name : String) (action : Eval Handle) : Eval Handle := do
  let handle ← action
  assign scope name handle
  return handle

theorem evaluateAssignment_assign (info : NodeInfo) (name : String) (value : Expression) :
    evaluateAssignment (steps + 1) .assign (.identifier info name) value scope =
      bindTo scope name (evaluate steps value scope) := by
  rw [evaluateAssignment]
  rfl

theorem evaluateAssignment_compound {operator : AssignmentOperator} {binary : BinaryOperator}
    (compound : operator.binary? = some binary) (info : NodeInfo) (name : String)
    (value : Expression) :
    evaluateAssignment (steps + 1) operator (.identifier info name) value scope =
      bindTo scope name (combineName steps scope binary name info.span value) := by
  rw [evaluateAssignment, compound, bindTo, combineName]
  simp only [bind_assoc]

end Assignments

section Unobserved

variable (steps : Nat) (scope : ScopeId) (machine : Machine)

theorem visit_bind_unobserved {α : Type} (info : NodeInfo) (kind : NodeKind)
    (rest : Unit → Eval α) :
    (visit info kind >>= rest) (unobserved machine) = rest () (unobserved machine) := by
  have visited : visit info kind (unobserved machine) = .ok () (unobserved machine) :=
    congrArg (EStateM.Result.ok ()) (ite_self (unobserved machine))
  rw [bind_at, visited]

theorem unseen_evaluate (expression : Expression) :
    unseen (evaluate steps expression scope machine) =
      evaluate steps expression scope (unobserved machine) :=
  (((Composite.within steps).expression expression scope).discreet machine).symm

theorem evaluate_assignment_unobserved (info : NodeInfo) (operator : AssignmentOperator)
    (target value : Expression) :
    evaluate (steps + 1) (.assignment info operator target value) scope (unobserved machine) =
      evaluateAssignment steps operator target value scope (unobserved machine) := by
  rw [evaluate, visit_bind_unobserved]

theorem evaluate_identifier_unobserved (info : NodeInfo) (name : String) :
    evaluate (steps + 1) (.identifier info name) scope (unobserved machine) =
      lookup scope name info.span (unobserved machine) := by
  rw [evaluate, visit_bind_unobserved]

theorem evaluate_binary_unobserved (info left : NodeInfo) (operator : BinaryOperator)
    (name : String) (right : Expression) :
    evaluate (steps + 2) (.binary info operator (.identifier left name) right) scope
        (unobserved machine) =
      combineName (steps + 1) scope operator name left.span right (unobserved machine) := by
  rw [evaluate, visit_bind_unobserved]
  refine bind_congr_at rfl fun mark after marked => ?_
  cases marked
  exact bind_congr_at (evaluate_identifier_unobserved steps scope machine left name)
    fun _ _ _ => rfl

end Unobserved

section Compound

variable {operator : AssignmentOperator} {binary : BinaryOperator}
  (compound : operator.binary? = some binary) (name : String) (value : Expression)
  {target inner : NodeInfo} (same : inner.span = target.span)
  (whole expanded outer operation : NodeInfo) (scope : ScopeId) (machine : Machine)

include compound same

/-- With one more step, the expansion has the same result as the assignment with an operator. -/
theorem unseen_evaluate_compound (steps : Nat) :
    unseen (evaluate (steps + 3) (.assignment whole operator (.identifier target name) value)
        scope machine) =
      unseen (evaluate (steps + 4) (.assignment expanded .assign (.identifier outer name)
        (.binary operation binary (.identifier inner name) value)) scope machine) := by
  rw [unseen_evaluate, unseen_evaluate, evaluate_assignment_unobserved,
    evaluate_assignment_unobserved, evaluateAssignment_compound _ _ compound,
    evaluateAssignment_assign, ← same]
  exact bind_congr_at (evaluate_binary_unobserved ..).symm fun _ _ _ => rfl

/-- An assignment with an operator to a name comes to exactly what its expansion comes to. The name
is reported at the same range if it is bound nowhere. -/
theorem compound_iff_expansion (result : EStateM.Result Stop Machine Handle) :
    ComesTo (.assignment whole operator (.identifier target name) value) scope machine result ↔
      ComesTo (.assignment expanded .assign (.identifier outer name)
        (.binary operation binary (.identifier inner name) value)) scope machine result :=
  comesTo_iff_of_unseen_eq
    (unseen_evaluate_compound compound name value same whole expanded outer operation scope machine)

end Compound

/-- A machine whose only value is a text that `x` is bound to. -/
def textMachine : Machine :=
  ((Machine.bare {}).define "x" (.string "a")).2

/-- The place of a name at the start of a text. -/
def nameInfo : NodeInfo :=
  ⟨⟨0⟩, ⟨0, 1⟩⟩

/-- An assignment of another text to `x`. -/
def rebinding : Expression :=
  .assignment ⟨⟨3⟩, ⟨6, 13⟩⟩ .assign (.identifier ⟨⟨1⟩, ⟨6, 7⟩⟩ "x")
    (.literal ⟨⟨2⟩, ⟨10, 13⟩⟩ (.string "c"))

/-- Like `x += (x = "c")`, its expansion reads `x` before it is bound anew. -/
theorem compound_iff_expansion_rebinding :
    ∃ handle after, after.heap.get? handle = some (.string "ac") ∧
      ComesTo (.assignment nameInfo .assign (.identifier nameInfo "x")
        (.binary nameInfo .add (.identifier nameInfo "x") rebinding)) ScopeChain.global textMachine
        (.ok handle after) := by
  have compound : AssignmentOperator.addAssign.binary? = some .add := rfl
  have same : nameInfo.span = nameInfo.span := rfl
  have expands := compound_iff_expansion compound "x" rebinding same nameInfo nameInfo nameInfo
    nameInfo ScopeChain.global textMachine
  refine ⟨_, _, ?_, (expands _).mp ⟨nofun, 5, rfl⟩⟩
  rfl

end Scriptlet.Run
