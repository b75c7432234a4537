import Scriptlet.Machine.Run

set_option autoImplicit false

/-!
Runs in single steps. A state holds everything that the rest of a run depends on: what is done next,
what is pending, and the machine. So every handle that is still to be used is in the state, and each
point of a run is a state of it.
-/
namespace Scriptlet.Run

/-- What is done next. -/
inductive Task where
  | program (program : Program) (scope : ScopeId)
  | expression (expression : Expression) (scope : ScopeId)
  | expressions (expressions : List Expression) (scope : ScopeId)
  | sequence (expressions : List Expression) (scope : ScopeId) (last : Option Handle)
  | key (property : MemberProperty) (scope : ScopeId)
  | assignment (operator : AssignmentOperator) (target value : Expression) (scope : ScopeId)
  | call (callee : Expression) (arguments : List Expression) (span : Span) (scope : ScopeId)
  | apply (function : Handle) (this : Option Handle) (arguments : List Handle) (span : Span)
  | body (closure : Closure) (this : Option Handle) (arguments : List Handle) (span : Span)
  | native (operation : Native) (arguments : List Handle)
  | host (function : Handle) (this : Option Handle) (arguments : List Handle)
  | tally (freed : Nat)
  | statements (statements : List Statement) (scope : ScopeId)
  | statement (statement : Statement) (scope : ScopeId)
  | declarations (declarators : List Declarator) (scope : ScopeId)
  | nextStatement (statement : Statement) (scope : ScopeId)
  | nextTest (test : Expression) (scope : ScopeId)

/-- What a finished task gives. -/
inductive Answer where
  | handle (handle : Handle)
  | handles (handles : List Handle)
  | key (key : PropertyKey)
  | native (result : NativeResult)
  | completion (value : Option Handle)

/-- What waits for an answer. A mark is the one that the evaluation which waits has made. -/
inductive Pending where
  | program (mark : Mark)
  | release (mark : Mark)
  | memberKey (property : MemberProperty) (scope : ScopeId) (mark : Mark)
  | memberRead (target : Handle) (mark : Mark)
  | object (properties : List ObjectProperty)
  | array
  | unary (operator : UnaryOperator)
  | rightOperand (operator : BinaryOperator) (right : Expression) (scope : ScopeId) (mark : Mark)
  | binary (operator : BinaryOperator) (left : Handle) (mark : Mark)
  | logical (operator : LogicalOperator) (right : Expression) (scope : ScopeId)
  | moreExpressions (rest : List Expression) (scope : ScopeId)
  | before (handle : Handle)
  | moreSequence (rest : List Expression) (scope : ScopeId)
  | selector
  | assign (name : String) (scope : ScopeId)
  | storeKey (operator : AssignmentOperator) (property : MemberProperty) (value : Expression)
      (scope : ScopeId)
  | storeValue (operator : AssignmentOperator) (target : Handle) (value : Expression)
      (scope : ScopeId)
  | store (target : Handle) (key : PropertyKey)
  | compoundName (operator : BinaryOperator) (current : Handle) (name : String) (scope : ScopeId)
      (mark : Mark)
  | compoundProperty (operator : BinaryOperator) (current target : Handle) (key : PropertyKey)
  | calleeKey (property : MemberProperty) (arguments : List Expression) (span : Span)
      (scope : ScopeId)
  | calleeRead (target : Handle) (arguments : List Expression) (span : Span) (scope : ScopeId)
  | arguments (arguments : List Expression) (span : Span) (scope : ScopeId)
  | apply (function : Handle) (this : Option Handle) (span : Span)
  | nativeResult (name : String) (span : Span)
  | attempt
  | shallower
  | close (scope : ScopeId)
  | result
  | moreStatements (rest : List Statement) (scope : ScopeId) (mark : Mark)
      (completion : Option Handle)
  | branch (consequent : Statement) (alternate : Option Statement) (scope : ScopeId)
  | value
  | declare (name : String) (rest : List Declarator) (scope : ScopeId)
  | turn (test : Expression) (body : Statement) (scope : ScopeId) (mark : Mark)
      (completion : Option Handle)
  | nextTurn (test : Expression) (body : Statement) (scope : ScopeId) (mark : Mark)
      (completion : Option Handle)

/-- A task is done, an answer is given to what is pending, or the run is stopping. -/
inductive Control where
  | run (task : Task)
  | give (answer : Answer)
  | stop (stop : Stop)

/-- One point of a run. What is pending is listed from the innermost on. -/
structure State where
  control : Control
  stack : List Pending
  machine : Machine

/-- What is done next, and what becomes pending meanwhile. -/
abbrev Next : Type :=
  Control × List Pending

open Eval

/-- Gives an answer, which goes to what is pending now. -/
def resume (answer : Answer) (pending : List Pending) : Eval Next :=
  return (.give answer, pending)

def give (answer : Answer) : Eval Next :=
  resume answer []

def giveHandle (handle : Handle) : Eval Next :=
  give (.handle handle)

/-- Goes on with a task, while something waits for its answer. -/
def goOn (task : Task) (pending : List Pending) : Eval Next :=
  return (.run task, pending)

def openScope (parent : ScopeId) (kind : ScopeKind) (this : Option Handle) : Eval ScopeId :=
  fun machine =>
    let (scope, scopes) := machine.scopes.push parent kind this
    .ok scope ({ machine with scopes }.record (.scopePushed scope parent kind))

/-- Counts a call that has begun. -/
def deepen : Eval Unit :=
  modify fun machine => { machine with callDepth := machine.callDepth + 1 }

/-- What becomes of the machine when the wait is over, with an answer or without one. -/
def Pending.leave : Pending → Machine → Machine
  | .program mark, machine => (machine.release mark).recordUsage
  | .release mark, machine | .binary _ _ mark, machine | .compoundName _ _ _ _ mark, machine =>
    machine.release mark
  | .shallower, machine => { machine with callDepth := machine.callDepth - 1 }
  | .close scope, machine => machine.closeScope scope
  | _, machine => machine

/-- What happens when a run that is stopping comes to something pending. Only the call of a
function by `apply` lasts no longer than that. -/
def Pending.interrupt : Pending → Stop → Control
  | .attempt, .error error => .give (.native (.error error.summary))
  | _, stop => .stop stop

def beginExpression (expression : Expression) (scope : ScopeId) : Eval Next := do
  visit expression.info expression.nodeKind
  match expression with
  | .literal _ value => giveHandle (← alloc (.ofLiteral value))
  | .identifier info name => giveHandle (← lookup scope name info.span)
  | .this _ => giveHandle (← orUndefined ((← get).scopes.this? scope))
  | .member _ object property =>
    let mark ← rootMark
    goOn (.expression object scope) [.memberKey property scope mark]
  | .call info callee arguments => goOn (.call callee arguments info.span scope) []
  | .assignment _ operator target value => goOn (.assignment operator target value scope) []
  | .object _ properties =>
    let mark ← rootMark
    goOn (.expressions (properties.map ObjectProperty.value) scope)
      [.object properties, .release mark]
  | .array _ elements =>
    let mark ← rootMark
    goOn (.expressions elements scope) [.array, .release mark]
  | .sequence _ expressions => goOn (.sequence expressions scope none) []
  | .unary _ operator argument => goOn (.expression argument scope) [.unary operator]
  | .binary _ operator left right =>
    let mark ← rootMark
    goOn (.expression left scope) [.rightOperand operator right scope mark]
  | .logical _ operator left right =>
    goOn (.expression left scope) [.logical operator right scope]
  | .function info name params body => giveHandle (← makeFunction info.id name params body scope)

def beginAssignment (operator : AssignmentOperator) (target value : Expression)
    (scope : ScopeId) : Eval Next :=
  match target with
  | .identifier info name =>
    match operator.binary? with
    | none => goOn (.expression value scope) [.assign name scope]
    | some operator => do
      let mark ← rootMark
      let current ← lookup scope name info.span
      protect current
      goOn (.expression value scope) [.compoundName operator current name scope mark]
  | .member _ object property => do
    let mark ← rootMark
    goOn (.expression object scope) [.storeKey operator property value scope, .release mark]
  | target => fail (.invalidTarget target.nodeKind target.span)

def beginCall (callee : Expression) (arguments : List Expression) (span : Span)
    (scope : ScopeId) : Eval Next := do
  let mark ← rootMark
  match callee with
  | .member _ object property =>
    goOn (.expression object scope) [.calleeKey property arguments span scope, .release mark]
  | callee => goOn (.expression callee scope) [.arguments arguments span scope, .release mark]

def beginApply (function : Handle) (this : Option Handle) (arguments : List Handle)
    (span : Span) : Eval Next := do
  match ← deref function with
  | .function closure => goOn (.body closure this arguments span) []
  | .native name operation =>
    record (.callingNative name arguments.length)
    goOn (.native operation arguments) [.nativeResult name span]
  | other => fail (.notCallable other.kind span)

def enterBody (closure : Closure) (this : Option Handle) (arguments : List Handle) : Eval Next := do
  let depth := (← get).callDepth
  let scope ← openScope closure.scope .function this
  bindParameters scope closure.params arguments
  record (.calling (closureName closure) (depth + 1))
  deepen
  goOn (.statements closure.body.statements scope) [.shallower, .close scope, .result]

/-- Begins the body of a function, if the scope it was made in is open and the limit of the calls
is not reached. -/
def beginBody (closure : Closure) (this : Option Handle) (arguments : List Handle)
    (span : Span) : Eval Next := fun machine =>
  let limit := machine.config.maxCallDepth
  if !machine.scopes.isLive closure.scope then
    fail (.scopeExited (closureName closure) span) machine
  else if limit ≤ machine.callDepth then
    fail (.callDepthExceeded limit span) machine
  else enterBody closure this arguments machine

def beginNative (operation : Native) (arguments : List Handle) : Eval Next := do
  match operation with
  | .print => give (.native (← printNative arguments))
  | .typeName => give (.native (← typeNameNative arguments))
  | .toText => give (.native (← toTextNative arguments))
  | .toNumber => give (.native (← toNumberNative arguments))
  | .collect => goOn (.tally (← collectNow)) []
  | .sum => give (.native (← sumNative arguments))
  | .first => give (.native (.ok (← firstArgument arguments)))
  | .fail => give (.native (← failNative arguments))
  | .apply =>
    match arguments with
    | [] => give (.native (.error "nothing to apply"))
    | function :: arguments => goOn (.host function arguments.head? arguments) [.attempt]

def beginStatement (statement : Statement) (scope : ScopeId) : Eval Next := do
  visit statement.info statement.nodeKind
  match statement with
  | .declaration _ _ declarations => goOn (.declarations declarations scope) []
  | .conditional _ condition consequent alternate =>
    goOn (.expression condition scope) [.branch consequent alternate scope]
  | .while _ test body =>
    let mark ← rootMark
    goOn (.nextTest test scope) [.turn test body scope mark none, .release mark]
  | .expression _ expression => goOn (.expression expression scope) [.value]
  | .block block =>
    let inner ← openScope scope .block none
    goOn (.statements block.statements inner) [.close inner]

def begin : Task → Eval Next
  | .program program scope => do
    let mark ← rootMark
    visit ⟨program.id, ⟨0, 0⟩⟩ .program
    visit ⟨program.body.id, ⟨0, 0⟩⟩ .body
    goOn (.statements program.body.statements scope) [.program mark]
  | .expression expression scope => beginExpression expression scope
  | .expressions [] _ => give (.handles [])
  | .expressions (expression :: rest) scope =>
    goOn (.expression expression scope) [.moreExpressions rest scope]
  | .sequence [] _ last => do giveHandle (← orUndefined last)
  | .sequence (expression :: rest) scope _ =>
    goOn (.expression expression scope) [.moreSequence rest scope]
  | .key (.named name) _ => give (.key (.ofName name))
  | .key (.computed expression) scope => goOn (.expression expression scope) [.selector]
  | .assignment operator target value scope => beginAssignment operator target value scope
  | .call callee arguments span scope => beginCall callee arguments span scope
  | .apply function this arguments span => beginApply function this arguments span
  | .body closure this arguments span => beginBody closure this arguments span
  | .native operation arguments => beginNative operation arguments
  | .host function this arguments => do
    let mark ← rootMark
    protectAll (function :: (this.toList ++ arguments))
    goOn (.apply function this arguments ⟨0, 0⟩) [.release mark]
  | .tally freed => do give (.native (.ok (← alloc (.number (Float.ofNat freed)))))
  | .statements statements scope => do
    let mark ← rootMark
    resume (.completion none) [.moreStatements statements scope mark none, .release mark]
  | .statement statement scope => beginStatement statement scope
  | .declarations [] _ => give (.completion none)
  | .declarations (declarator :: rest) scope => do
    visit declarator.info .declarator
    match declarator.init with
    | some init => goOn (.expression init scope) [.declare declarator.name rest scope]
    | none =>
      let handle ← alloc .undefined
      declare scope declarator.name handle
      goOn (.declarations rest scope) []
  | .nextStatement statement scope => do
    collectIfDue
    goOn (.statement statement scope) []
  | .nextTest test scope => do
    collectIfDue
    goOn (.expression test scope) []

/-- Goes on with what is pending when its answer is there. Nothing waits for an answer of another
kind than it gets; such an answer would be passed on. -/
def proceed : Pending → Answer → Eval Next
  | .program _, .completion value => do giveHandle (← orUndefined value)
  | .memberKey property scope mark, .handle target => do
    protect target
    goOn (.key property scope) [.memberRead target mark]
  | .memberRead target mark, .key key => do
    let handle ← getProperty target key
    release mark
    giveHandle handle
  | .object properties, .handles handles => do
    giveHandle (← alloc (.object (tableOf properties handles)))
  | .array, .handles handles => do giveHandle (← alloc (.array handles.toArray .empty))
  | .unary operator, .handle handle => do
    let value ← deref handle
    giveHandle (← alloc (value.applyUnary operator))
  | .rightOperand operator right scope mark, .handle left => do
    protect left
    goOn (.expression right scope) [.binary operator left mark]
  | .binary operator left _, .handle right => do giveHandle (← applyBinary operator left right)
  | .logical operator right scope, .handle left => do
    let isTruthy := (← deref left).isTruthy
    if isTruthy == (operator == .or) then giveHandle left else goOn (.expression right scope) []
  | .moreExpressions rest scope, .handle handle => do
    protect handle
    goOn (.expressions rest scope) [.before handle]
  | .before handle, .handles handles => give (.handles (handle :: handles))
  | .moreSequence rest scope, .handle handle => goOn (.sequence rest scope (some handle)) []
  | .selector, .handle handle => do
    let value ← deref handle
    give (.key (.ofValue (← get).heap value))
  | .assign name scope, .handle handle => do
    assign scope name handle
    giveHandle handle
  | .storeKey operator property value scope, .handle target => do
    protect target
    goOn (.key property scope) [.storeValue operator target value scope]
  | .storeValue operator target value scope, .key key =>
    match operator.binary? with
    | none => goOn (.expression value scope) [.store target key]
    | some operator => do
      let current ← getProperty target key
      protect current
      goOn (.expression value scope) [.compoundProperty operator current target key]
  | .store target key, .handle handle => do
    setProperty target key handle
    giveHandle handle
  | .compoundName operator current name scope _, .handle right => do
    let handle ← applyBinary operator current right
    assign scope name handle
    giveHandle handle
  | .compoundProperty operator current target key, .handle right => do
    let handle ← applyBinary operator current right
    setProperty target key handle
    giveHandle handle
  | .calleeKey property arguments span scope, .handle target => do
    protect target
    goOn (.key property scope) [.calleeRead target arguments span scope]
  | .calleeRead target arguments span scope, .key key => do
    let function ← getProperty target key
    protect function
    goOn (.expressions arguments scope) [.apply function (some target) span]
  | .arguments arguments span scope, .handle function => do
    protect function
    goOn (.expressions arguments scope) [.apply function none span]
  | .apply function this span, .handles handles => goOn (.apply function this handles span) []
  | .nativeResult _ _, .native (.ok handle) => giveHandle handle
  | .nativeResult name span, .native (.error message) => fail (.native name message span)
  | .attempt, .handle handle => give (.native (.ok handle))
  | .result, .completion value => do giveHandle (← orUndefined value)
  | .moreStatements statements scope mark completion, .completion value => do
    let completion ← latest mark completion value
    match statements with
    | [] => give (.completion completion)
    | statement :: rest =>
      goOn (.nextStatement statement scope) [.moreStatements rest scope mark completion]
  | .branch consequent alternate scope, .handle handle => do
    let test ← deref handle
    if test.isTruthy then goOn (.statement consequent scope) []
    else match alternate with
      | some alternate => goOn (.statement alternate scope) []
      | none => give (.completion none)
  | .value, .handle handle => give (.completion (some handle))
  | .declare name rest scope, .handle handle => do
    declare scope name handle
    goOn (.declarations rest scope) []
  | .turn test body scope mark completion, .handle handle => do
    let condition ← deref handle
    if condition.isTruthy then
      goOn (.statement body scope) [.nextTurn test body scope mark completion]
    else give (.completion completion)
  | .nextTurn test body scope mark completion, .completion value => do
    let completion ← latest mark completion value
    goOn (.nextTest test scope) [.turn test body scope mark completion]
  | _, answer => give answer

/-- The state after some work, above what was pending already. -/
def settle (stack : List Pending) : EStateM.Result Stop Machine Next → State
  | .ok (control, pending) machine => ⟨control, pending ++ stack, machine⟩
  | .error stop machine => ⟨.stop stop, stack, machine⟩

/-- The next state, unless the run is over. -/
def step : State → Option State
  | ⟨.run task, stack, machine⟩ => some (settle stack (begin task machine))
  | ⟨.give answer, pending :: stack, machine⟩ =>
    some (settle stack (proceed pending answer (pending.leave machine)))
  | ⟨.stop stop, pending :: stack, machine⟩ =>
    some ⟨pending.interrupt stop, stack, pending.leave machine⟩
  | ⟨_, [], _⟩ => none

/-- The state after a number of steps. A state in which the run is over stays. -/
def State.after : Nat → State → State
  | 0, state => state
  | count + 1, state => ((step state).getD state).after count

/-- What starts a run: a program in a scope, or a call from outside. -/
inductive Entry where
  | program (program : Program) (scope : ScopeId)
  | call (function : Handle) (this : Option Handle) (arguments : List Handle)

namespace Entry

def evaluate (steps : Nat) : Entry → Eval Handle
  | .program code scope => executeProgram steps code scope
  | .call function this arguments => callFromHost steps function this arguments

def task : Entry → Task
  | .program code scope => .program code scope
  | .call function this arguments => .host function this arguments

def start (entry : Entry) (machine : Machine) : State :=
  ⟨.run entry.task, [], machine⟩

end Entry
end Scriptlet.Run
