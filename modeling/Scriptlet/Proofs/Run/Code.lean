import Scriptlet.Proofs.Run.Moves
import Scriptlet.Proofs.Tree.Sites

set_option autoImplicit false

/-!
The code in a state of a run. A task and what is pending have parts of a program still to evaluate,
in one scope. Only three kinds of tasks go beyond that: a function expression makes a function, and
a block and the body of a function are executed in scopes of their own.
-/
namespace Scriptlet.Run

open Eval

/-- Code that is still to be evaluated in a scope: its sites, given the scopes around it. -/
structure Code where
  scope : ScopeId
  sites : List ScopeKind → List Site

def Task.code? : Task → Option Code
  | .program code scope => some ⟨scope, fun kinds => statementSites kinds code.body.statements⟩
  | .expression value scope => some ⟨scope, fun kinds => value.sites kinds⟩
  | .expressions values scope | .sequence values scope _ =>
    some ⟨scope, fun kinds => expressionSites kinds values⟩
  | .key property scope => some ⟨scope, fun kinds => property.sites kinds⟩
  | .assignment _ target value scope =>
    some ⟨scope, fun kinds => target.sites kinds ++ value.sites kinds⟩
  | .call callee values _ scope =>
    some ⟨scope, fun kinds => callee.sites kinds ++ expressionSites kinds values⟩
  | .statements listed scope => some ⟨scope, fun kinds => statementSites kinds listed⟩
  | .statement inner scope | .nextStatement inner scope =>
    some ⟨scope, fun kinds => inner.sites kinds⟩
  | .declarations listed scope => some ⟨scope, fun kinds => declaratorSites kinds listed⟩
  | .nextTest test scope => some ⟨scope, fun kinds => test.sites kinds⟩
  | .apply .. | .body .. | .native .. | .host .. | .tally _ => none

/-- The code that something pending evaluates later. -/
def Pending.code? : Pending → Option Code
  | .memberKey property scope _ => some ⟨scope, fun kinds => property.sites kinds⟩
  | .rightOperand _ right scope _ | .logical _ right scope =>
    some ⟨scope, fun kinds => right.sites kinds⟩
  | .moreExpressions rest scope | .moreSequence rest scope =>
    some ⟨scope, fun kinds => expressionSites kinds rest⟩
  | .storeKey _ property inner scope =>
    some ⟨scope, fun kinds => property.sites kinds ++ inner.sites kinds⟩
  | .storeValue _ _ inner scope => some ⟨scope, fun kinds => inner.sites kinds⟩
  | .calleeKey property values _ scope =>
    some ⟨scope, fun kinds => property.sites kinds ++ expressionSites kinds values⟩
  | .calleeRead _ values _ scope | .arguments values _ scope =>
    some ⟨scope, fun kinds => expressionSites kinds values⟩
  | .moreStatements rest scope _ _ => some ⟨scope, fun kinds => statementSites kinds rest⟩
  | .branch consequent alternate scope =>
    some ⟨scope, fun kinds => consequent.sites kinds ++ alternateSites kinds alternate⟩
  | .declare _ rest scope => some ⟨scope, fun kinds => declaratorSites kinds rest⟩
  | .turn test inner scope _ _ | .nextTurn test inner scope _ _ =>
    some ⟨scope, fun kinds => test.sites kinds ++ inner.sites kinds⟩
  | _ => none

/-- The function whose body a task begins. -/
def Task.closure? : Task → Option Closure
  | .body closure _ _ _ => some closure
  | _ => none

theorem Task.Plain.closure?_eq {task : Task} (plain : task.Plain) : task.closure? = none := by
  cases task with
  | body => exact plain.elim
  | _ => rfl

/-- Whether a scope is closed when the wait is over. -/
def Pending.closes : Pending → Bool
  | .close _ => true
  | _ => false

def Part (whole part : Option Code) : Prop :=
  ∀ inner, part = some inner → ∃ outer, whole = some outer ∧ inner.scope = outer.scope ∧
    ∀ kinds, inner.sites kinds ⊆ outer.sites kinds

theorem part_none (whole : Option Code) : Part whole none :=
  nofun

theorem part_of_mem {scope : ScopeId} {whole part : List ScopeKind → List Site}
    (inside : ∀ kinds site, site ∈ part kinds → site ∈ whole kinds) :
    Part (some ⟨scope, whole⟩) (some ⟨scope, part⟩) := by
  rintro _ ⟨rfl⟩
  exact ⟨_, rfl, rfl, inside⟩

theorem part_self {scope : ScopeId} {code : List ScopeKind → List Site} :
    Part (some ⟨scope, code⟩) (some ⟨scope, code⟩) :=
  part_of_mem fun _ _ member => member

/-- What work may go on with on a machine, if it has some code: parts of that code, and the body of
a function of the heap. -/
def Task.Fits (code? : Option Code) (machine : Machine) (task : Task) : Prop :=
  Part code? task.code? ∧ ∀ closure, task.closure? = some closure → machine.heap.Holds closure

/-- What may become pending: parts of the code, and nothing that closes a scope. -/
def Pending.Rests (code? : Option Code) (waiting : Pending) : Prop :=
  Part code? waiting.code? ∧ waiting.closes = false

/-- Work that opens and closes no scope and makes no function, and goes on with nothing but parts of
some code. -/
def Confined (code? : Option Code) (work : Eval Next) : Prop :=
  ∀ machine, match work machine with
    | .ok (control, pending) after =>
      Undisturbed machine after ∧ (∀ task, control = .run task → task.Fits code? machine) ∧
        ∀ waiting ∈ pending, waiting.Rests code?
    | .error _ after => Undisturbed machine after

section Confined

variable {code? : Option Code}

/-- A move to parts of some code, which closes no scope and enters no function. -/
def Move.Stays (code? : Option Code) : Move → Prop
  | .goOn task pending =>
    Part code? task.code? ∧ task.closure? = none ∧ ∀ waiting ∈ pending, waiting.Rests code?
  | .give _ pending => ∀ waiting ∈ pending, waiting.Rests code?
  | .fail _ => True

theorem Leads.confined {may : List Handle → List Handle → Move → Prop} {work : Eval Next}
    (leads : ∀ roots, Leads (may roots) roots work)
    (stays : ∀ roots held move, may roots held move → move.Stays code?) : Confined code? work := by
  intro machine
  have makes := (leads machine.roots).makes rfl
  generalize work machine = result at makes
  cases makes with
  | @move move held middle made quiet =>
    have stays := stays _ _ _ made
    have kept : Undisturbed machine { middle with roots := held } :=
      quiet.undisturbed.trans ⟨rfl, rfl, fun _ holds => holds⟩
    cases move with
    | give answer pending => exact ⟨kept, nofun, stays⟩
    | fail error => exact kept
    | goOn task pending =>
      obtain ⟨part, other, rests⟩ := stays
      refine ⟨kept, ?_, rests⟩
      rintro _ ⟨rfl⟩
      exact ⟨part, fun closure called => nomatch other.symm.trans called⟩
  | freeSlot quiet => exact quiet.undisturbed

end Confined

section Moves

variable {whole : Option Code} {task : Task} {roots held : List Handle}

theorem stays_alone (part : Part whole task.code?) (other : task.closure? = none) :
    (Move.goOn task []).Stays whole :=
  ⟨part, other, nofun⟩

theorem stays_waiting {waiting : Pending} (part : Part whole task.code?)
    (later : Part whole waiting.code?) (other : task.closure? = none)
    (opens : waiting.closes = false) : (Move.goOn task [waiting]).Stays whole :=
  ⟨part, other, List.forall_mem_singleton.mpr ⟨later, opens⟩⟩

theorem stays_releasing {waiting : Pending} {mark : Mark} (part : Part whole task.code?)
    (later : Part whole waiting.code?) (other : task.closure? = none)
    (opens : waiting.closes = false) : (Move.goOn task [waiting, .release mark]).Stays whole :=
  ⟨part, other, List.forall_mem_cons.mpr
    ⟨⟨later, opens⟩, List.forall_mem_singleton.mpr ⟨part_none _, rfl⟩⟩⟩

/-- The properties of an object have the values that are evaluated for it. -/
theorem part_object {info : NodeInfo} {properties : List ObjectProperty} {scope : ScopeId} :
    Part (Task.expression (.object info properties) scope).code?
      (Task.expressions (properties.map ObjectProperty.value) scope).code? := by
  refine part_of_mem fun kinds site member => ?_
  obtain ⟨value, listed, inside⟩ := mem_expressionSites.mp member
  obtain ⟨⟨key, _, span⟩, property_mem, rfl⟩ := List.mem_map.mp listed
  have found : site ∈ propertySites kinds properties :=
    mem_propertySites.mpr ⟨_, property_mem, List.mem_append_left _ inside⟩
  exact List.mem_append_left _ found

/-- A plain task goes on with parts of its code, unless it is the call of a function. -/
theorem Task.Moves.stays {move : Move} (moves : task.Moves roots held move)
    (other : ∀ function this arguments span, task ≠ .apply function this arguments span) :
    move.Stays task.code? := by
  cases moves with
  | callExpression | assignmentExpression | sequenceExpression =>
    exact stays_alone (part_of_mem fun _ _ _ => by grind [Expression.sites]) rfl
  | declaration => exact stays_alone (part_of_mem fun _ _ _ => by grind [Statement.sites]) rfl
  | declareUndefined =>
    exact stays_alone (part_of_mem fun _ _ _ => by grind [declaratorSites]) rfl
  | nextStatement | nextTest => exact stays_alone part_self rfl
  | nativeCollect => exact stays_alone (part_none _) rfl
  | program | keyComputed => exact stays_waiting part_self (part_none _) rfl rfl
  | object => exact stays_releasing part_object (part_none _) rfl rfl
  | array =>
    exact stays_releasing (part_of_mem fun _ _ _ => by grind [Expression.sites]) (part_none _) rfl
      rfl
  | unary =>
    exact stays_waiting (part_of_mem fun _ _ _ => by grind [Expression.sites]) (part_none _) rfl rfl
  | assignName | assignCompound =>
    exact stays_waiting (part_of_mem fun _ _ _ => by grind) (part_none _) rfl rfl
  | expressionStatement =>
    exact stays_waiting (part_of_mem fun _ _ _ => by grind [Statement.sites]) (part_none _) rfl rfl
  | nativeApply | host => exact stays_waiting (part_none _) (part_none _) rfl rfl
  | member | binary | logical =>
    exact stays_waiting (part_of_mem fun _ _ _ => by grind [Expression.sites])
      (part_of_mem fun _ _ _ => by grind [Expression.sites]) rfl rfl
  | assignMember | callMember | call =>
    exact stays_releasing (part_of_mem fun _ _ _ => by grind [Expression.sites])
      (part_of_mem fun _ _ _ => by grind [Expression.sites]) rfl rfl
  | expressions | sequence =>
    exact stays_waiting (part_of_mem fun _ _ _ => by grind [expressionSites])
      (part_of_mem fun _ _ _ => by grind [expressionSites]) rfl rfl
  | conditional =>
    exact stays_waiting (part_of_mem fun _ _ _ => by grind [Statement.sites])
      (part_of_mem fun _ _ _ => by grind [Statement.sites]) rfl rfl
  | declare =>
    exact stays_waiting
      (part_of_mem fun _ _ _ => by grind [declaratorSites, Declarator.sites, initSites])
      (part_of_mem fun _ _ _ => by grind [declaratorSites]) rfl rfl
  | loopStatement =>
    exact stays_releasing (part_of_mem fun _ _ _ => by grind [Statement.sites])
      (part_of_mem fun _ _ _ => by grind [Statement.sites]) rfl rfl
  | statements =>
    exact List.forall_mem_cons.mpr
      ⟨⟨part_self, rfl⟩, List.forall_mem_singleton.mpr ⟨part_none _, rfl⟩⟩
  | applyFunction | applyNative => exact absurd rfl (other _ _ _ _)
  | nameUnbound | assignUnbound | assignInvalid | applyOther => trivial
  | _ => exact List.forall_mem_nil _

theorem Pending.Moves.stays {pending : Pending} {move : Move}
    (moves : pending.Moves roots held move) : move.Stays pending.code? := by
  cases moves with
  | memberKey | rightOperand | moreExpressions | storeValue | storeCompound | calleeRead
  | arguments => exact stays_waiting part_self (part_none _) rfl rfl
  | storeKey | calleeKey | turn | nextTurn | nextTurnRenewed =>
    exact stays_waiting (part_of_mem fun _ _ _ => by grind) (part_of_mem fun _ _ _ => by grind)
      rfl rfl
  | moreStatements | moreStatementsRenewed =>
    exact stays_waiting (part_of_mem fun _ _ _ => by grind [statementSites])
      (part_of_mem fun _ _ _ => by grind [statementSites]) rfl rfl
  | apply => exact stays_alone (part_none _) rfl
  | logical | moreSequence | declare => exact stays_alone part_self rfl
  | consequent => exact stays_alone (part_of_mem fun _ _ _ => by grind) rfl
  | alternate => exact stays_alone (part_of_mem fun _ _ _ => by grind [alternateSites]) rfl
  | nativeFailed => trivial
  | _ => exact List.forall_mem_nil _

end Moves

/-- The function that is called is that of the handle, so the heap has it. -/
theorem confined_beginApply (function : Handle) (this : Option Handle) (arguments : List Handle)
    (span : Span) : Confined none (beginApply function this arguments span) := by
  intro machine
  cases found : machine.heap.get? function with
  | none =>
    simp only [beginApply, Bind.bind, EStateM.bind, deref, found]
    exact .refl machine
  | some value =>
    simp only [beginApply, Bind.bind, EStateM.bind, deref, found]
    cases value with
    | function closure =>
      refine ⟨.refl machine, ?_, nofun⟩
      rintro _ ⟨rfl⟩
      refine ⟨part_none _, ?_⟩
      rintro _ ⟨rfl⟩
      exact Heap.stores_of_get? found
    | native name operation =>
      have leads (roots : List Handle) : Leads (fun _ => Move.Stays none) roots
          (Eval.record (.callingNative name arguments.length) >>= fun _ =>
            goOn (.native operation arguments) [.nativeResult name span]) :=
        .after (ordinary_record _) fun _ =>
          .goOn (stays_waiting (part_none _) (part_none _) rfl rfl)
      exact Leads.confined leads (fun _ _ _ stays => stays) machine
    | _ => exact .refl machine

theorem confined_begin {task : Task} (plain : task.Plain) : Confined task.code? (begin task) := by
  cases task with
  | apply function this arguments span => exact confined_beginApply function this arguments span
  | _ => exact Leads.confined (fun _ => begin_leads plain) fun _ _ _ moves => moves.stays nofun

theorem confined_proceed (pending : Pending) (answer : Answer) :
    Confined pending.code? (proceed pending answer) :=
  Leads.confined (fun _ => proceed_leads pending answer) fun _ _ _ moves => moves.stays

end Scriptlet.Run
