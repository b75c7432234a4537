import Scriptlet.Proofs.Run.Follows

set_option autoImplicit false

/-!
Runs in steps agree with evaluation. A run comes to its end in a state exactly if evaluation, with
enough steps allowed, ends with the same result on the same machine.
-/
namespace Scriptlet.Run

open Eval

/-- The run of a task, whatever is pending, follows an evaluation. -/
def Performs {α : Type} (steps : Nat) (task : Task) (answer : α → Answer) (action : Eval α) :
    Prop :=
  ∀ stack machine, Follows ⟨.run task, stack, machine⟩ stack answer steps (action machine)

/-- The run of every task follows its evaluation with a number of steps. -/
structure Agrees (steps : Nat) : Prop where
  expression : ∀ expression scope,
    Performs steps (.expression expression scope) .handle (evaluate steps expression scope)
  expressions : ∀ expressions scope,
    Performs steps (.expressions expressions scope) .handles (evaluateAll steps expressions scope)
  sequence : ∀ expressions scope last,
    Performs steps (.sequence expressions scope last) .handle
      (evaluateSequence steps expressions scope last)
  key : ∀ property scope,
    Performs steps (.key property scope) .key (evaluateKey steps property scope)
  assignment : ∀ operator target value scope,
    Performs steps (.assignment operator target value scope) .handle
      (evaluateAssignment steps operator target value scope)
  call : ∀ callee arguments span scope,
    Performs steps (.call callee arguments span scope) .handle
      (evaluateCall steps callee arguments span scope)
  apply : ∀ function this arguments span,
    Performs steps (.apply function this arguments span) .handle
      (Eval.call steps function this arguments span)
  body : ∀ closure this arguments span,
    Performs steps (.body closure this arguments span) .handle
      (callClosure steps closure this arguments span)
  native : ∀ operation arguments,
    Performs steps (.native operation arguments) .native (callNative steps operation arguments)
  host : ∀ function this arguments,
    Performs steps (.host function this arguments) .handle
      (callFromHost steps function this arguments)
  statements : ∀ statements scope,
    Performs steps (.statements statements scope) .completion
      (executeAll steps statements scope)
  rest : ∀ statements scope mark completion value stack machine,
    Follows ⟨.give (.completion value), .moreStatements statements scope mark completion :: stack,
        machine⟩ stack .completion steps
      ((latest mark completion value >>= executeRest steps statements scope mark) machine)
  statement : ∀ statement scope,
    Performs steps (.statement statement scope) .completion (execute steps statement scope)
  declarations : ∀ declarators scope,
    Performs steps (.declarations declarators scope) (fun _ => .completion none)
      (declareAll steps declarators scope)
  loop : ∀ test body scope mark completion stack machine,
    Follows ⟨.run (.nextTest test scope), .turn test body scope mark completion :: stack, machine⟩
      stack .completion steps (Eval.loop steps test body scope mark completion machine)

/-- Binding parameters cannot fail. -/
theorem bindParameters_ok (scope : ScopeId) (params : List String) (arguments : List Handle)
    (machine : Machine) :
    ∃ after, bindParameters scope params arguments machine = .ok () after := by
  induction params generalizing arguments machine with
  | nil => exact ⟨machine, rfl⟩
  | cons param params ih =>
    cases arguments with
    | nil =>
      rw [bindParameters]
      exact ih [] _
    | cons handle handles =>
      rw [bindParameters]
      exact ih handles _

theorem get_bind {α : Type} (rest : Machine → Eval α) (machine : Machine) :
    (get >>= rest) machine = rest machine machine :=
  rfl

/-- The body of a function is entered once its scope is open and its parameters are bound. -/
theorem enterBody_ok {closure : Closure} {this : Option Handle} {arguments : List Handle}
    {scope : ScopeId} {machine opened bound : Machine}
    (opens : openScope closure.scope .function this machine = .ok scope opened)
    (binds : bindParameters scope closure.params arguments opened = .ok () bound) :
    let entered := bound.record (.calling (closureName closure) (machine.callDepth + 1))
    enterBody closure this arguments machine =
      .ok (.run (.statements closure.body.statements scope),
          [.shallower, .close scope, .result])
        { entered with callDepth := entered.callDepth + 1 } := by
  rw [enterBody, get_bind]
  simp only [bind, EStateM.bind, opens, binds]
  rfl

theorem callClosure_succ (steps : Nat) (closure : Closure) (this : Option Handle)
    (arguments : List Handle) (span : Span) (machine : Machine) :
    callClosure (steps + 1) closure this arguments span machine =
      if !machine.scopes.isLive closure.scope then
        fail (.scopeExited (closureName closure) span) machine
      else if machine.config.maxCallDepth ≤ machine.callDepth then
        fail (.callDepthExceeded machine.config.maxCallDepth span) machine
      else
        (inScope closure.scope .function this (fun scope => do
          bindParameters scope closure.params arguments
          record (.calling (closureName closure) (machine.callDepth + 1))
          oneDeeper (executeAll steps closure.body.statements scope)) >>= orUndefined)
          machine := by
  rw [callClosure, get_bind]
  by_cases isLive : machine.scopes.isLive closure.scope
  · by_cases deepest : machine.config.maxCallDepth ≤ machine.callDepth
    · simp only [isLive, deepest, Bool.not_true, Bool.false_eq_true, ↓reduceIte, get_bind]
      rfl
    · simp only [isLive, deepest, Bool.not_true, Bool.false_eq_true, ↓reduceIte, get_bind]
  · simp only [isLive, Bool.not_false, ↓reduceIte]
    rfl

theorem cut_rest (statements : List Statement) (scope : ScopeId) (mark : Mark)
    (completion value : Option Handle) (stack : List Pending) (machine : Machine) :
    Follows ⟨.give (.completion value), .moreStatements statements scope mark completion :: stack,
        machine⟩ stack .completion 0
      ((latest mark completion value >>= executeRest 0 statements scope mark) machine) := by
  rw [bind_at]
  cases value with
  | none =>
    show Follows _ stack _ 0 (executeRest 0 statements scope mark completion machine)
    rw [executeRest.eq_def]
    trivial
  | some value =>
    show Follows _ stack _ 0 (executeRest 0 statements scope mark (some value) _)
    rw [executeRest.eq_def]
    trivial

section Steps

variable {steps : Nat} (agrees : Agrees steps)

include agrees

theorem performs_expression (expression : Expression) (scope : ScopeId) :
    Performs (steps + 1) (.expression expression scope) .handle
      (evaluate (steps + 1) expression scope) := by
  intro stack machine
  rw [evaluate.eq_def]
  refine .start rfl (.action (prompt_visit _ _) fun _ machine _ => ?_)
  cases expression with
  | literal info value => exact .last (prompt_alloc _)
  | identifier info name => exact .last (prompt_lookup _ _ _)
  | this info =>
    exact .action prompt_get fun _ _ _ => .last (ordinary_orUndefined _).elementary.prompt
  | member info object property =>
    refine .action prompt_rootMark fun mark machine _ => ?_
    refine .part (fun _ => rfl) (fun _ => rfl) (agrees.expression object scope _ machine) ?_
    intro target machine
    refine .step rfl (.action (prompt_protectAll [target]) fun _ machine _ => ?_)
    refine .part (fun _ => rfl) (fun _ => rfl) (agrees.key property scope _ machine) ?_
    intro key machine
    refine .step rfl ?_
    refine .action (ordinary_getProperty target key).elementary.prompt fun handle machine _ => ?_
    exact .action (prompt_release mark) fun _ _ _ => .refl _
  | call info callee arguments => exact agrees.call callee arguments info.span scope stack machine
  | assignment info operator target value =>
    exact agrees.assignment operator target value scope stack machine
  | object info properties =>
    refine .action prompt_rootMark fun mark machine _ => .releasing ?_
    refine .part (fun _ => rfl) (fun _ => rfl) (agrees.expressions _ scope _ machine) ?_
    exact fun handles machine => .step rfl (.last (prompt_alloc _))
  | array info elements =>
    refine .action prompt_rootMark fun mark machine _ => .releasing ?_
    refine .part (fun _ => rfl) (fun _ => rfl) (agrees.expressions elements scope _ machine) ?_
    exact fun handles machine => .step rfl (.last (prompt_alloc _))
  | sequence info expressions => exact agrees.sequence expressions scope none stack machine
  | unary info operator argument =>
    refine .part (fun _ => rfl) (fun _ => rfl) (agrees.expression argument scope _ machine) ?_
    exact fun handle machine => .step rfl
      (.action (prompt_deref handle) fun _ _ _ => .last (prompt_alloc _))
  | binary info operator left right =>
    refine .action prompt_rootMark fun mark machine _ => ?_
    refine .part (fun _ => rfl) (fun _ => rfl) (agrees.expression left scope _ machine) ?_
    intro left machine
    refine .step rfl (.action (prompt_protectAll [left]) fun _ machine _ => ?_)
    refine .finishedPart (fun _ => rfl) (fun _ => rfl) (agrees.expression right scope _ machine) ?_
    intro right machine
    exact .step rfl (.last (ordinary_applyBinary operator left right).elementary.prompt)
  | logical info operator left right =>
    refine .part (fun _ => rfl) (fun _ => rfl) (agrees.expression left scope _ machine) ?_
    intro left machine
    refine .step rfl (.action (prompt_deref left) fun value machine _ => ?_)
    by_cases decided : value.isTruthy == (operator == .or)
    · simp only [decided, ↓reduceIte]
      exact .refl _
    · simp only [decided]
      exact agrees.expression right scope stack machine
  | function info name params body => exact .last (Elementary.makeFunction _ _ _ _ _).prompt

theorem performs_expressions (expressions : List Expression) (scope : ScopeId) :
    Performs (steps + 1) (.expressions expressions scope) .handles
      (evaluateAll (steps + 1) expressions scope) := by
  intro stack machine
  cases expressions with
  | nil => exact .start rfl (.refl _)
  | cons expression rest =>
    rw [evaluateAll]
    refine .start rfl (.part (fun _ => rfl) (fun _ => rfl)
      (agrees.expression expression scope _ machine) ?_)
    intro handle machine
    refine .step rfl (.action (prompt_protectAll [handle]) fun _ machine _ => ?_)
    refine .part (fun _ => rfl) (fun _ => rfl) (agrees.expressions rest scope _ machine) ?_
    exact fun handles machine => .step rfl (.refl _)

theorem performs_sequence (expressions : List Expression) (scope : ScopeId)
    (last : Option Handle) :
    Performs (steps + 1) (.sequence expressions scope last) .handle
      (evaluateSequence (steps + 1) expressions scope last) := by
  intro stack machine
  cases expressions with
  | nil => exact .start rfl (.last (ordinary_orUndefined last).elementary.prompt)
  | cons expression rest =>
    rw [evaluateSequence]
    refine .start rfl (.part (fun _ => rfl) (fun _ => rfl)
      (agrees.expression expression scope _ machine) ?_)
    exact fun handle machine => .step rfl (agrees.sequence rest scope (some handle) stack machine)

theorem performs_key (property : MemberProperty) (scope : ScopeId) :
    Performs (steps + 1) (.key property scope) .key (evaluateKey (steps + 1) property scope) := by
  intro stack machine
  cases property with
  | named name => exact .start rfl (.refl _)
  | computed expression =>
    rw [evaluateKey]
    refine .start rfl (.part (fun _ => rfl) (fun _ => rfl)
      (agrees.expression expression scope _ machine) ?_)
    intro handle machine
    exact .step rfl (.action (prompt_deref handle) fun value machine _ => .refl _)

theorem performs_assignment (operator : AssignmentOperator) (target value : Expression)
    (scope : ScopeId) :
    Performs (steps + 1) (.assignment operator target value scope) .handle
      (evaluateAssignment (steps + 1) operator target value scope) := by
  intro stack machine
  refine .start rfl ?_
  cases target with
  | identifier info name =>
    rw [evaluateAssignment]
    dsimp only [begin, beginAssignment]
    cases operator.binary? with
    | none =>
      refine .part (fun _ => rfl) (fun _ => rfl) (agrees.expression value scope _ machine) ?_
      exact fun handle machine => .step rfl (.refl _)
    | some operator =>
      refine .action prompt_rootMark fun mark machine _ => ?_
      refine .action (prompt_lookup _ _ _) fun current machine _ => ?_
      refine .action (prompt_protectAll [current]) fun _ machine _ => ?_
      refine .finishedPart (fun _ => rfl) (fun _ => rfl) (agrees.expression value scope _ machine)
        ?_
      intro right machine
      refine .step rfl ?_
      have applied := (ordinary_applyBinary operator current right).elementary.prompt
      exact .action applied fun _ _ _ => .refl _
  | member info object property =>
    rw [evaluateAssignment]
    refine .action prompt_rootMark fun mark machine _ => .releasing ?_
    refine .part (fun _ => rfl) (fun _ => rfl) (agrees.expression object scope _ machine) ?_
    intro target machine
    refine .step rfl (.action (prompt_protectAll [target]) fun _ machine _ => ?_)
    refine .part (fun _ => rfl) (fun _ => rfl) (agrees.key property scope _ machine) ?_
    intro key machine
    refine .step rfl ?_
    dsimp only [proceed]
    cases operator.binary? with
    | none =>
      refine .part (fun _ => rfl) (fun _ => rfl) (agrees.expression value scope _ machine) ?_
      intro handle machine
      refine .step rfl ?_
      exact .action (ordinary_setProperty target key handle).elementary.prompt fun _ _ _ => .refl _
    | some operator =>
      refine .action (ordinary_getProperty target key).elementary.prompt fun current machine _ => ?_
      refine .action (prompt_protectAll [current]) fun _ machine _ => ?_
      refine .part (fun _ => rfl) (fun _ => rfl) (agrees.expression value scope _ machine) ?_
      intro right machine
      refine .step rfl ?_
      have applied := (ordinary_applyBinary operator current right).elementary.prompt
      refine .action applied fun handle _ _ => ?_
      exact .action (ordinary_setProperty target key handle).elementary.prompt fun _ _ _ => .refl _
  | _ => rw [evaluateAssignment.eq_def]; exact .refl _

theorem performs_call (callee : Expression) (arguments : List Expression) (span : Span)
    (scope : ScopeId) :
    Performs (steps + 1) (.call callee arguments span scope) .handle
      (evaluateCall (steps + 1) callee arguments span scope) := by
  intro stack machine
  cases callee with
  | member info object property =>
    rw [evaluateCall]
    refine .start rfl (.action prompt_rootMark fun mark machine _ => ?_)
    refine .releasing ?_
    refine .part (fun _ => rfl) (fun _ => rfl) (agrees.expression object scope _ machine) ?_
    intro target machine
    refine .step rfl (.action (prompt_protectAll [target]) fun _ machine _ => ?_)
    refine .part (fun _ => rfl) (fun _ => rfl) (agrees.key property scope _ machine) ?_
    intro key machine
    refine .step rfl ?_
    refine .action (ordinary_getProperty target key).elementary.prompt fun function machine _ => ?_
    refine .action (prompt_protectAll [function]) fun _ machine _ => ?_
    refine .part (fun _ => rfl) (fun _ => rfl) (agrees.expressions arguments scope _ machine) ?_
    intro handles machine
    exact .step rfl (agrees.apply function (some target) handles span _ machine)
  | _ =>
    rw [evaluateCall.eq_def]
    refine .start rfl (.action prompt_rootMark fun mark machine _ => ?_)
    refine .releasing ?_
    refine .part (fun _ => rfl) (fun _ => rfl) (agrees.expression _ scope _ machine) ?_
    intro function machine
    refine .step rfl (.action (prompt_protectAll [function]) fun _ machine _ => ?_)
    refine .part (fun _ => rfl) (fun _ => rfl) (agrees.expressions arguments scope _ machine) ?_
    intro handles machine
    exact .step rfl (agrees.apply function none handles span _ machine)

theorem performs_apply (function : Handle) (this : Option Handle) (arguments : List Handle)
    (span : Span) :
    Performs (steps + 1) (.apply function this arguments span) .handle
      (Eval.call (steps + 1) function this arguments span) := by
  intro stack machine
  rw [Eval.call]
  refine .start rfl (.action (prompt_deref function) fun value machine _ => ?_)
  cases value with
  | function closure => exact agrees.body closure this arguments span stack machine
  | native name operation =>
    refine .action (prompt_record _) fun _ machine _ => ?_
    refine .part (fun _ => rfl) (fun _ => rfl) (agrees.native operation arguments _ machine) ?_
    intro result machine
    cases result with
    | ok handle => exact .step rfl (.refl _)
    | error message => exact .step rfl (.refl _)
  | _ => exact .refl _

theorem performs_body (closure : Closure) (this : Option Handle) (arguments : List Handle)
    (span : Span) :
    Performs (steps + 1) (.body closure this arguments span) .handle
      (callClosure (steps + 1) closure this arguments span) := by
  intro stack machine
  refine .start rfl ?_
  rw [callClosure_succ]
  dsimp only [begin, beginBody]
  by_cases isLive : machine.scopes.isLive closure.scope
  · by_cases deepest : machine.config.maxCallDepth ≤ machine.callDepth
    · simp only [isLive, deepest, Bool.not_true, Bool.false_eq_true, ↓reduceIte]
      exact .refl _
    · simp only [isLive, deepest, Bool.not_true, Bool.false_eq_true, ↓reduceIte]
      -- The scope is opened and filled before the machine in steps and the evaluation part.
      obtain ⟨scope, opened, opens⟩ :
        ∃ scope opened, openScope closure.scope .function this machine = .ok scope opened :=
        ⟨_, _, rfl⟩
      obtain ⟨bound, binds⟩ := bindParameters_ok scope closure.params arguments opened
      refine .part (fun _ => rfl) (fun _ => rfl)
        (?called : Follows _ (.result :: stack) .completion steps _) ?_
      case called =>
        rw [inScope_eq_leaving opens]
        refine .leaving (fun _ => rfl) (fun _ => rfl) ?_
        rw [enterBody_ok opens binds]
        simp only [bind, EStateM.bind, binds]
        exact .leaving (fun _ => rfl) (fun _ => rfl) (agrees.statements _ scope _ _)
      exact fun value after => .step rfl (.last (ordinary_orUndefined value).elementary.prompt)
  · simp only [isLive, Bool.not_false, ↓reduceIte]
    exact .refl _

theorem performs_native (operation : Native) (arguments : List Handle) :
    Performs (steps + 1) (.native operation arguments) .native
      (callNative (steps + 1) operation arguments) := by
  intro stack machine
  rw [callNative.eq_def]
  refine .start rfl ?_
  cases operation with
  | print => exact .last (ordinary_printNative arguments).elementary.prompt
  | typeName => exact .last (ordinary_typeNameNative arguments).elementary.prompt
  | toText => exact .last (ordinary_toTextNative arguments).elementary.prompt
  | toNumber => exact .last (ordinary_toNumberNative arguments).elementary.prompt
  | collect =>
    dsimp only [begin, beginNative, collectNative]
    refine .action prompt_collectNow fun freed machine _ => ?_
    rw [map_eq_pure_bind]
    exact .step rfl (.pure (.last (prompt_alloc _)))
  | sum => exact .last (ordinary_sumNative arguments).elementary.prompt
  | first =>
    dsimp only
    rw [map_eq_pure_bind]
    exact .pure (.last (ordinary_firstArgument arguments).elementary.prompt)
  | fail => exact .last (ordinary_failNative arguments).elementary.prompt
  | apply =>
    cases arguments with
    | nil => exact .refl _
    | cons function arguments =>
      dsimp only
      exact .attempt (agrees.host function arguments.head? arguments _ machine)

theorem performs_host (function : Handle) (this : Option Handle) (arguments : List Handle) :
    Performs (steps + 1) (.host function this arguments) .handle
      (callFromHost (steps + 1) function this arguments) := by
  intro stack machine
  rw [callFromHost]
  refine .start rfl (.action prompt_rootMark fun mark machine _ => ?_)
  refine .releasing ?_
  exact agrees.apply function this arguments ⟨0, 0⟩ (.release mark :: stack) _

theorem performs_statements (statements : List Statement) (scope : ScopeId) :
    Performs (steps + 1) (.statements statements scope) .completion
      (executeAll (steps + 1) statements scope) := by
  intro stack machine
  rw [executeAll]
  refine .start rfl (.action prompt_rootMark fun mark machine _ => ?_)
  exact .releasing (agrees.rest statements scope mark none none _ machine)

theorem follows_rest (statements : List Statement) (scope : ScopeId) (mark : Mark)
    (completion value : Option Handle) (stack : List Pending) (machine : Machine) :
    Follows ⟨.give (.completion value), .moreStatements statements scope mark completion :: stack,
        machine⟩ stack .completion (steps + 1)
      ((latest mark completion value >>= executeRest (steps + 1) statements scope mark)
        machine) := by
  cases statements with
  | nil => exact .start rfl (.action (prompt_latest mark completion value) fun _ _ _ => .refl _)
  | cons statement rest =>
    refine .start rfl (.action (prompt_latest mark completion value) fun completion machine _ => ?_)
    rw [executeRest, ← bind_assoc]
    refine .part (fun _ => rfl) (fun _ => rfl) (.step rfl
      (.action prompt_collectIfDue fun _ machine _ =>
        agrees.statement statement scope _ machine)) ?_
    intro value machine
    exact agrees.rest rest scope mark completion value stack machine

theorem performs_statement (statement : Statement) (scope : ScopeId) :
    Performs (steps + 1) (.statement statement scope) .completion
      (execute (steps + 1) statement scope) := by
  intro stack machine
  rw [execute.eq_def]
  refine .start rfl (.action (prompt_visit _ _) fun _ machine _ => ?_)
  cases statement with
  | declaration info kind declarations =>
    exact .pure (agrees.declarations declarations scope stack machine)
  | conditional info condition consequent alternate =>
    refine .part (fun _ => rfl) (fun _ => rfl) (agrees.expression condition scope _ machine) ?_
    intro handle machine
    refine .step rfl (.action (prompt_deref handle) fun test machine _ => ?_)
    by_cases isTruthy : test.isTruthy
    · simp only [isTruthy, ↓reduceIte]
      exact agrees.statement consequent scope stack machine
    · simp only [isTruthy, Bool.false_eq_true, ↓reduceIte]
      cases alternate with
      | none => exact .refl _
      | some alternate => exact agrees.statement alternate scope stack machine
  | «while» info test body =>
    refine .action prompt_rootMark fun mark machine _ => ?_
    exact .releasing (agrees.loop test body scope mark none _ machine)
  | expression info expression =>
    dsimp only
    rw [map_eq_pure_bind]
    refine .part (fun _ => rfl) (fun _ => rfl) (agrees.expression expression scope _ machine) ?_
    exact fun handle machine => .step rfl (.refl _)
  | block block =>
    obtain ⟨inner, opened, opens⟩ :
      ∃ inner opened, openScope scope .block none machine = .ok inner opened := ⟨_, _, rfl⟩
    simp only [bind, EStateM.bind, opens, inScope_eq_leaving opens]
    exact .leaving (fun _ => rfl) (fun _ => rfl) (agrees.statements _ inner _ opened)

theorem performs_declarations (declarators : List Declarator) (scope : ScopeId) :
    Performs (steps + 1) (.declarations declarators scope) (fun _ => .completion none)
      (declareAll (steps + 1) declarators scope) := by
  intro stack machine
  cases declarators with
  | nil => exact .start rfl (.refl _)
  | cons declarator rest =>
    rw [declareAll]
    refine .start rfl (.action (prompt_visit _ _) fun _ machine _ => ?_)
    cases declarator.init with
    | some init =>
      refine .part (fun _ => rfl) (fun _ => rfl) (agrees.expression init scope _ machine) ?_
      intro handle machine
      exact .step rfl (.action (prompt_declare scope declarator.name handle) fun _ machine _ =>
        agrees.declarations rest scope stack machine)
    | none =>
      refine .action (prompt_alloc _) fun handle machine _ => ?_
      refine .action (prompt_declare scope declarator.name handle) fun _ machine _ => ?_
      exact agrees.declarations rest scope stack machine

theorem follows_loop (test : Expression) (body : Statement) (scope : ScopeId) (mark : Mark)
    (completion : Option Handle) (stack : List Pending) (machine : Machine) :
    Follows ⟨.run (.nextTest test scope), .turn test body scope mark completion :: stack, machine⟩
      stack .completion (steps + 1)
      (Eval.loop (steps + 1) test body scope mark completion machine) := by
  rw [Eval.loop, ← bind_assoc]
  refine .start rfl (.part (fun _ => rfl) (fun _ => rfl) (.action prompt_collectIfDue
    fun _ machine _ => agrees.expression test scope _ machine) ?_)
  intro handle machine
  refine .step rfl (.action (prompt_deref handle) fun condition machine _ => ?_)
  by_cases isTruthy : condition.isTruthy
  · simp only [isTruthy, ↓reduceIte]
    refine .part (fun _ => rfl) (fun _ => rfl) (agrees.statement body scope _ machine) ?_
    intro value machine
    refine .step rfl (.action (prompt_latest mark completion value) fun completion machine _ => ?_)
    exact agrees.loop test body scope mark completion stack machine
  · simp only [isTruthy, Bool.false_eq_true, ↓reduceIte]
    exact .refl _

end Steps

/-- The run of every task follows its evaluation, however many steps are allowed. -/
theorem agrees (steps : Nat) : Agrees steps := by
  induction steps with
  | zero =>
    constructor
    case rest => exact cut_rest
    case loop =>
      intros
      rw [Eval.loop.eq_def]
      trivial
    all_goals intros; intro stack machine
    · rw [evaluate.eq_def]; trivial
    · rw [evaluateAll.eq_def]; trivial
    · rw [evaluateSequence.eq_def]; trivial
    · rw [evaluateKey.eq_def]; trivial
    · rw [evaluateAssignment.eq_def]; trivial
    · rw [evaluateCall.eq_def]; trivial
    · rw [Eval.call.eq_def]; trivial
    · rw [callClosure.eq_def]; trivial
    · rw [callNative.eq_def]; trivial
    · rw [callFromHost.eq_def]; trivial
    · rw [executeAll.eq_def]; trivial
    · rw [execute.eq_def]; trivial
    · rw [declareAll.eq_def]; trivial
  | succ steps ih =>
    exact {
      expression := performs_expression ih
      expressions := performs_expressions ih
      sequence := performs_sequence ih
      key := performs_key ih
      assignment := performs_assignment ih
      call := performs_call ih
      apply := performs_apply ih
      body := performs_body ih
      native := performs_native ih
      host := performs_host ih
      statements := performs_statements ih
      rest := follows_rest ih
      statement := performs_statement ih
      declarations := performs_declarations ih
      loop := follows_loop ih }

/-- A run follows the evaluation that it was started for. -/
theorem Entry.follows (entry : Entry) (machine : Machine) (steps : Nat) :
    Follows (entry.start machine) [] .handle steps (entry.evaluate steps machine) := by
  cases entry with
  | call function this arguments => exact (agrees steps).host function this arguments [] machine
  | program code scope =>
    refine .step rfl (.action prompt_rootMark fun mark machine _ => ?_)
    refine .finishedPart (fun _ => rfl) (fun _ => rfl)
      ((agrees steps).statements code.body.statements scope [.program mark] _) ?_
    intro completion machine
    exact .step rfl (.last (ordinary_orUndefined completion).elementary.prompt)

/-- If a run comes to an end, the evaluation that it follows has the same result with enough
steps. -/
theorem exists_result_of_follows {α : Type} {first last : State} {answer : α → Answer}
    {results : Nat → EStateM.Result Stop Machine α}
    (follows : ∀ steps, Follows first [] answer steps (results steps))
    (reached : Reaches first last) (halted : step last = none) :
    ∃ steps, (∃ value after, results steps = .ok value after ∧
        last = ⟨.give (answer value), [], after⟩) ∨
      ∃ stop after, stop ≠ .exhausted ∧ results steps = .error stop after ∧
        last = ⟨.stop stop, [], after⟩ := by
  obtain ⟨count, after_eq⟩ := reached
  refine ⟨count + 1, ?_⟩
  have follows := follows (count + 1)
  cases outcome : results (count + 1) with
  | ok value after =>
    rw [outcome] at follows
    exact .inl ⟨value, after, rfl, Reaches.unique ⟨count, after_eq⟩ follows halted rfl⟩
  | error stop after =>
    rw [outcome] at follows
    cases stop with
    | exhausted =>
      have going := Takes.isSome_step follows
      rw [after_eq, halted] at going
      exact absurd going Bool.false_ne_true
    | error error =>
      exact .inr ⟨.error error, after, nofun, rfl,
        Reaches.unique ⟨count, after_eq⟩ follows halted rfl⟩
    | freeSlot access handle =>
      exact .inr ⟨.freeSlot access handle, after, nofun, rfl,
        Reaches.unique ⟨count, after_eq⟩ follows halted rfl⟩

/-- If a run comes to an end, the evaluation does so with the same result. -/
theorem Entry.evaluates_of_reaches {entry : Entry} {machine : Machine} {last : State}
    (reached : Reaches (entry.start machine) last) (halted : step last = none) :
    ∃ steps, (∃ handle after, entry.evaluate steps machine = .ok handle after ∧
        last = ⟨.give (.handle handle), [], after⟩) ∨
      ∃ stop after, stop ≠ .exhausted ∧ entry.evaluate steps machine = .error stop after ∧
        last = ⟨.stop stop, [], after⟩ :=
  exists_result_of_follows (entry.follows machine) reached halted

/-- A run comes to a handle exactly if the evaluation does, with enough steps. -/
theorem Entry.reaches_handle_iff (entry : Entry) (machine : Machine) (handle : Handle)
    (after : Machine) :
    Reaches (entry.start machine) ⟨.give (.handle handle), [], after⟩ ↔
      ∃ steps, entry.evaluate steps machine = .ok handle after := by
  constructor
  · intro reached
    obtain ⟨steps, ⟨found, last, outcome, same⟩ | ⟨stop, last, _, _, same⟩⟩ :=
      evaluates_of_reaches reached rfl
    · cases same
      exact ⟨steps, outcome⟩
    · cases same
  · rintro ⟨steps, outcome⟩
    have follows := entry.follows machine steps
    rw [outcome] at follows
    exact follows

/-- A run comes to a stop exactly if the evaluation does, with enough steps. -/
theorem Entry.reaches_stop_iff (entry : Entry) (machine : Machine) {stop : Stop}
    (uncut : stop ≠ .exhausted) (after : Machine) :
    Reaches (entry.start machine) ⟨.stop stop, [], after⟩ ↔
      ∃ steps, entry.evaluate steps machine = .error stop after := by
  constructor
  · intro reached
    obtain ⟨steps, ⟨found, last, _, same⟩ | ⟨found, last, _, outcome, same⟩⟩ :=
      evaluates_of_reaches reached rfl
    · cases same
    · cases same
      exact ⟨steps, outcome⟩
  · rintro ⟨steps, outcome⟩
    have follows := entry.follows machine steps
    rw [outcome] at follows
    cases stop with
    | exhausted => exact absurd rfl uncut
    | error error => exact follows
    | freeSlot access handle => exact follows

end Scriptlet.Run
