import Scriptlet.Proofs.Run.Agreement

set_option autoImplicit false

/-!
How evaluation is put together. Beside the elementary actions it looks up names and stops, and it
changes the temporary roots, the open scopes and the number of calls in progress only for the time
of a part. What holds of these parts, and stays true when they are put together, holds of every
evaluation.
-/
namespace Scriptlet.Run

open Eval

/-- An action put together from elementary ones as evaluation does it. Of the machine it reads the
heap, the scopes, the number of calls in progress and the settings directly. -/
inductive Composite : {α : Type} → Eval α → Prop where
  | elementary {α : Type} {action : Eval α} (first : Elementary action) : Composite action
  | stop {α : Type} (stop : Stop) : Composite (throw stop : Eval α)
  | bind {α β : Type} {action : Eval α} {rest : α → Eval β} (first : Composite action)
      (others : ∀ value, Composite (rest value)) : Composite (action >>= rest)
  | inspect {α β : Type} (view : Heap → ScopeChain → Nat → Config → β) (rest : β → Eval α)
      (others : ∀ seen, Composite (rest seen)) :
      Composite (get >>= fun machine =>
        rest (view machine.heap machine.scopes machine.callDepth machine.config))
  | lookup (scope : ScopeId) (name : String) (span : Span) : Composite (lookup scope name span)
  | rootMark : Composite rootMark
  | protectAll (handles : List Handle) : Composite (protectAll handles)
  | release (mark : Mark) : Composite (release mark)
  | releasing {α : Type} (mark : Mark) {action : Eval α} (part : Composite action) :
      Composite (releasing mark action)
  | inScope {α : Type} (parent : ScopeId) (kind : ScopeKind) (this : Option Handle)
      {action : ScopeId → Eval α} (part : ∀ scope, Composite (action scope)) :
      Composite (inScope parent kind this action)
  | oneDeeper {α : Type} {action : Eval α} (part : Composite action) : Composite (oneDeeper action)
  | attempt {action : Eval Handle} (part : Composite action) : Composite (attempt action)

namespace Composite

theorem pure {α : Type} (value : α) : Composite (pure value : Eval α) :=
  .elementary (.pure value)

theorem fail {α : Type} (error : RuntimeError) : Composite (fail error : Eval α) :=
  .stop (.error error)

theorem map {α β : Type} {action : Eval α} (composite : Composite action) (change : α → β) :
    Composite (change <$> action) := by
  rw [map_eq_pure_bind]
  exact composite.bind fun value => pure (change value)

/-- An elementary action comes first. -/
theorem after {α β : Type} {action : Eval α} {rest : α → Eval β} (first : Elementary action)
    (others : ∀ value, Composite (rest value)) : Composite (action >>= rest) :=
  .bind (.elementary first) others

/-- The temporary roots are marked first. -/
theorem marked {α : Type} {rest : Mark → Eval α} (others : ∀ mark, Composite (rest mark)) :
    Composite (Eval.rootMark >>= rest) :=
  .bind .rootMark others

/-- A handle is made a temporary root first. -/
theorem rooted {α : Type} (handle : Handle) {rest : Unit → Eval α}
    (others : ∀ value, Composite (rest value)) : Composite (protect handle >>= rest) :=
  .bind (.protectAll [handle]) others

theorem latest (mark : Mark) (completion value : Option Handle) :
    Composite (Eval.latest mark completion value) := by
  cases value with
  | none => exact pure completion
  | some value => exact .bind (.release mark) fun _ => rooted value fun _ => pure (some value)

/-- Evaluation with a number of steps is composite. -/
structure Within (steps : Nat) : Prop where
  expression : ∀ expression scope, Composite (evaluate steps expression scope)
  expressions : ∀ expressions scope, Composite (evaluateAll steps expressions scope)
  sequence : ∀ expressions scope last, Composite (evaluateSequence steps expressions scope last)
  key : ∀ property scope, Composite (evaluateKey steps property scope)
  assignment : ∀ operator target value scope,
    Composite (evaluateAssignment steps operator target value scope)
  call : ∀ callee arguments span scope, Composite (evaluateCall steps callee arguments span scope)
  apply : ∀ function this arguments span, Composite (Eval.call steps function this arguments span)
  body : ∀ closure this arguments span, Composite (callClosure steps closure this arguments span)
  native : ∀ operation arguments, Composite (callNative steps operation arguments)
  host : ∀ function this arguments, Composite (callFromHost steps function this arguments)
  statements : ∀ statements scope, Composite (executeAll steps statements scope)
  rest : ∀ statements scope mark completion,
    Composite (executeRest steps statements scope mark completion)
  statement : ∀ statement scope, Composite (execute steps statement scope)
  declarations : ∀ declarators scope, Composite (declareAll steps declarators scope)
  loop : ∀ test body scope mark completion,
    Composite (Eval.loop steps test body scope mark completion)

section Steps

variable {steps : Nat} (within : Within steps)

include within

theorem expression_succ (expression : Expression) (scope : ScopeId) :
    Composite (evaluate (steps + 1) expression scope) := by
  rw [evaluate.eq_def]
  apply after (.visit _ _)
  intro _
  cases expression with
  | literal info value => exact .elementary (.alloc _)
  | identifier info name => exact .lookup scope name info.span
  | this info =>
    exact .inspect (fun _ scopes _ _ => scopes.this? scope) orUndefined
      fun seen => .elementary (ordinary_orUndefined seen).elementary
  | member info object property =>
    apply marked
    intro mark
    apply (within.expression object scope).bind
    intro target
    apply rooted target
    intro _
    apply (within.key property scope).bind
    intro key
    apply after (ordinary_getProperty target key).elementary
    intro handle
    exact .bind (.release mark) fun _ => pure handle
  | call info callee arguments => exact within.call callee arguments info.span scope
  | assignment info operator target value => exact within.assignment operator target value scope
  | object info properties =>
    apply marked
    intro mark
    exact .releasing mark ((within.expressions _ scope).bind fun _ => .elementary (.alloc _))
  | array info elements =>
    apply marked
    intro mark
    exact .releasing mark ((within.expressions elements scope).bind fun _ => .elementary (.alloc _))
  | sequence info expressions => exact within.sequence expressions scope none
  | unary info operator argument =>
    apply (within.expression argument scope).bind
    intro handle
    exact after (.deref handle) fun _ => .elementary (.alloc _)
  | binary info operator left right =>
    apply marked
    intro mark
    apply (within.expression left scope).bind
    intro left
    apply rooted left
    intro _
    apply (within.expression right scope).releasing mark |>.bind
    intro right
    exact .elementary (ordinary_applyBinary operator left right).elementary
  | logical info operator left right =>
    apply (within.expression left scope).bind
    intro handle
    apply after (.deref handle)
    intro value
    dsimp only
    split
    · exact pure handle
    · exact within.expression right scope
  | function info name params body => exact .elementary (.makeFunction _ _ _ _ _)

theorem expressions_succ (expressions : List Expression) (scope : ScopeId) :
    Composite (evaluateAll (steps + 1) expressions scope) := by
  cases expressions with
  | nil => exact pure []
  | cons expression rest =>
    rw [evaluateAll]
    apply (within.expression expression scope).bind
    intro handle
    apply rooted handle
    intro _
    exact (within.expressions rest scope).bind fun _ => pure _

theorem sequence_succ (expressions : List Expression) (scope : ScopeId) (last : Option Handle) :
    Composite (evaluateSequence (steps + 1) expressions scope last) := by
  cases expressions with
  | nil => exact .elementary (ordinary_orUndefined last).elementary
  | cons expression rest =>
    rw [evaluateSequence]
    exact (within.expression expression scope).bind fun handle =>
      within.sequence rest scope (some handle)

theorem key_succ (property : MemberProperty) (scope : ScopeId) :
    Composite (evaluateKey (steps + 1) property scope) := by
  cases property with
  | named name => exact pure _
  | computed expression =>
    rw [evaluateKey]
    apply (within.expression expression scope).bind
    intro handle
    apply after (.deref handle)
    intro value
    exact .inspect (fun heap _ _ _ => PropertyKey.ofValue heap value) Pure.pure fun _ => pure _

theorem assignment_succ (operator : AssignmentOperator) (target value : Expression)
    (scope : ScopeId) :
    Composite (evaluateAssignment (steps + 1) operator target value scope) := by
  cases target with
  | identifier info name =>
    rw [evaluateAssignment]
    have assigns (handle : Handle) : Composite (do assign scope name handle; return handle) :=
      after (.assign scope name handle) fun _ => pure handle
    cases operator.binary? with
    | none => exact (within.expression value scope).bind assigns
    | some operator =>
      apply marked
      intro mark
      apply (Composite.lookup scope name info.span).bind
      intro current
      apply rooted current
      intro _
      apply (within.expression value scope).releasing mark |>.bind
      intro right
      exact after (ordinary_applyBinary operator current right).elementary assigns
  | member info object property =>
    rw [evaluateAssignment]
    apply marked
    intro mark
    apply Composite.releasing mark
    apply (within.expression object scope).bind
    intro target
    apply rooted target
    intro _
    apply (within.key property scope).bind
    intro key
    have stores (handle : Handle) : Composite (do setProperty target key handle; return handle) :=
      after (ordinary_setProperty target key handle).elementary fun _ => pure handle
    cases operator.binary? with
    | none => exact (within.expression value scope).bind stores
    | some operator =>
      apply after (ordinary_getProperty target key).elementary
      intro current
      apply rooted current
      intro _
      apply (within.expression value scope).bind
      intro right
      exact after (ordinary_applyBinary operator current right).elementary stores
  | _ => rw [evaluateAssignment.eq_def]; exact fail _

theorem call_succ (callee : Expression) (arguments : List Expression) (span : Span)
    (scope : ScopeId) : Composite (evaluateCall (steps + 1) callee arguments span scope) := by
  cases callee with
  | member info object property =>
    rw [evaluateCall]
    apply marked
    intro mark
    apply Composite.releasing mark
    apply (within.expression object scope).bind
    intro target
    apply rooted target
    intro _
    apply (within.key property scope).bind
    intro key
    apply after (ordinary_getProperty target key).elementary
    intro function
    apply rooted function
    intro _
    apply (within.expressions arguments scope).bind
    intro handles
    exact within.apply function (some target) handles span
  | _ =>
    rw [evaluateCall.eq_def]
    apply marked
    intro mark
    apply Composite.releasing mark
    apply (within.expression _ scope).bind
    intro function
    apply rooted function
    intro _
    apply (within.expressions arguments scope).bind
    intro handles
    exact within.apply function none handles span

theorem apply_succ (function : Handle) (this : Option Handle) (arguments : List Handle)
    (span : Span) : Composite (Eval.call (steps + 1) function this arguments span) := by
  rw [Eval.call]
  apply after (.deref function)
  intro value
  cases value with
  | function closure => exact within.body closure this arguments span
  | native name operation =>
    apply after (.record _)
    intro _
    apply (within.native operation arguments).bind
    intro result
    cases result with
    | ok handle => exact pure handle
    | error message => exact fail _
  | _ => exact fail _

theorem body_succ (closure : Closure) (this : Option Handle) (arguments : List Handle)
    (span : Span) : Composite (callClosure (steps + 1) closure this arguments span) := by
  let view (_ : Heap) (scopes : ScopeChain) (depth : Nat) (config : Config) : Bool × Nat × Nat :=
    (scopes.isLive closure.scope, config.maxCallDepth, depth)
  let rest : Bool × Nat × Nat → Eval Handle := fun (isLive, limit, depth) =>
    if !isLive then Eval.fail (.scopeExited (closureName closure) span)
    else if limit ≤ depth then Eval.fail (.callDepthExceeded limit span)
    else Eval.inScope closure.scope .function this (fun scope => do
      bindParameters scope closure.params arguments
      record (.calling (closureName closure) (depth + 1))
      Eval.oneDeeper (executeAll steps closure.body.statements scope)) >>= orUndefined
  have composite (seen : Bool × Nat × Nat) : Composite (rest seen) := by
    obtain ⟨isLive, limit, depth⟩ := seen
    dsimp only [rest]
    split
    · exact fail _
    · split
      · exact fail _
      · refine .bind (.inScope _ _ _ fun scope => ?_) fun value =>
          .elementary (ordinary_orUndefined value).elementary
        apply after (ordinary_bindParameters scope closure.params arguments).elementary
        intro _
        exact after (.record _) fun _ => (within.statements _ scope).oneDeeper
  have body_eq : callClosure (steps + 1) closure this arguments span =
      get >>= fun machine =>
        rest (view machine.heap machine.scopes machine.callDepth machine.config) := by
    funext machine
    rw [callClosure_succ, get_bind]
    dsimp only [rest, view]
    split
    · rfl
    · split <;> rfl
  rw [body_eq]
  exact .inspect view rest composite

theorem native_succ (operation : Native) (arguments : List Handle) :
    Composite (callNative (steps + 1) operation arguments) := by
  rw [callNative.eq_def]
  cases operation with
  | print => exact .elementary (ordinary_printNative arguments).elementary
  | typeName => exact .elementary (ordinary_typeNameNative arguments).elementary
  | toText => exact .elementary (ordinary_toTextNative arguments).elementary
  | toNumber => exact .elementary (ordinary_toNumberNative arguments).elementary
  | collect => exact after .collectNow fun _ => map (.elementary (.alloc _)) _
  | sum => exact .elementary (ordinary_sumNative arguments).elementary
  | first => exact map (.elementary (ordinary_firstArgument arguments).elementary) _
  | fail => exact .elementary (ordinary_failNative arguments).elementary
  | apply =>
    cases arguments with
    | nil => exact pure _
    | cons function arguments =>
      exact .attempt (within.host function arguments.head? arguments)

theorem host_succ (function : Handle) (this : Option Handle) (arguments : List Handle) :
    Composite (callFromHost (steps + 1) function this arguments) := by
  rw [callFromHost]
  apply marked
  intro mark
  apply Composite.releasing mark
  exact .bind (.protectAll _) fun _ => within.apply function this arguments _

theorem statements_succ (statements : List Statement) (scope : ScopeId) :
    Composite (executeAll (steps + 1) statements scope) := by
  rw [executeAll]
  apply marked
  intro mark
  exact .releasing mark (within.rest statements scope mark none)

theorem rest_succ (statements : List Statement) (scope : ScopeId) (mark : Mark)
    (completion : Option Handle) :
    Composite (executeRest (steps + 1) statements scope mark completion) := by
  cases statements with
  | nil => exact pure completion
  | cons statement rest =>
    rw [executeRest]
    apply after .collectIfDue
    intro _
    apply (within.statement statement scope).bind
    intro value
    exact (latest mark completion value).bind fun latest => within.rest rest scope mark latest

theorem statement_succ (statement : Statement) (scope : ScopeId) :
    Composite (execute (steps + 1) statement scope) := by
  rw [execute.eq_def]
  apply after (.visit _ _)
  intro _
  cases statement with
  | declaration info kind declarations =>
    exact (within.declarations declarations scope).bind fun _ => pure none
  | conditional info condition consequent alternate =>
    apply (within.expression condition scope).bind
    intro handle
    apply after (.deref handle)
    intro test
    split
    · exact within.statement consequent scope
    · cases alternate with
      | none => exact pure none
      | some alternate => exact within.statement alternate scope
  | «while» info test body =>
    apply marked
    intro mark
    exact .releasing mark (within.loop test body scope mark none)
  | expression info expression => exact map (within.expression expression scope) _
  | block block => exact .inScope scope .block none fun inner => within.statements _ inner

theorem declarations_succ (declarators : List Declarator) (scope : ScopeId) :
    Composite (declareAll (steps + 1) declarators scope) := by
  cases declarators with
  | nil => exact pure ()
  | cons declarator rest =>
    rw [declareAll]
    apply after (.visit _ _)
    intro _
    have declares (handle : Handle) : Composite (do
        declare scope declarator.name handle
        declareAll steps rest scope) :=
      after (.declare scope declarator.name handle) fun _ => within.declarations rest scope
    cases declarator.init with
    | some init => exact (within.expression init scope).bind declares
    | none => exact after (.alloc .undefined) declares

theorem loop_succ (test : Expression) (body : Statement) (scope : ScopeId) (mark : Mark)
    (completion : Option Handle) :
    Composite (Eval.loop (steps + 1) test body scope mark completion) := by
  rw [Eval.loop]
  apply after .collectIfDue
  intro _
  apply (within.expression test scope).bind
  intro handle
  apply after (.deref handle)
  intro condition
  split
  · apply (within.statement body scope).bind
    intro value
    exact (latest mark completion value).bind fun latest =>
      within.loop test body scope mark latest
  · exact pure completion

end Steps

/-- Every evaluation is composite. -/
theorem within (steps : Nat) : Within steps := by
  induction steps with
  | zero =>
    constructor <;> intros
    · rw [evaluate.eq_def]; exact .stop _
    · rw [evaluateAll.eq_def]; exact .stop _
    · rw [evaluateSequence.eq_def]; exact .stop _
    · rw [evaluateKey.eq_def]; exact .stop _
    · rw [evaluateAssignment.eq_def]; exact .stop _
    · rw [evaluateCall.eq_def]; exact .stop _
    · rw [Eval.call.eq_def]; exact .stop _
    · rw [callClosure.eq_def]; exact .stop _
    · rw [callNative.eq_def]; exact .stop _
    · rw [callFromHost.eq_def]; exact .stop _
    · rw [executeAll.eq_def]; exact .stop _
    · rw [executeRest.eq_def]; exact .stop _
    · rw [execute.eq_def]; exact .stop _
    · rw [declareAll.eq_def]; exact .stop _
    · rw [Eval.loop.eq_def]; exact .stop _
  | succ steps ih =>
    exact {
      expression := expression_succ ih
      expressions := expressions_succ ih
      sequence := sequence_succ ih
      key := key_succ ih
      assignment := assignment_succ ih
      call := call_succ ih
      apply := apply_succ ih
      body := body_succ ih
      native := native_succ ih
      host := host_succ ih
      statements := statements_succ ih
      rest := rest_succ ih
      statement := statement_succ ih
      declarations := declarations_succ ih
      loop := loop_succ ih }

end Composite
end Scriptlet.Run
