import Scriptlet.Machine.Native

set_option autoImplicit false

/-!
Evaluation of expressions and statements. Every function takes a number of steps that it may use,
and gives one fewer to the functions it goes on with; it stops as `exhausted` when none are left.
Between two statements, and before each turn of a loop, a collection may take place: what is needed
later is a temporary root then.
-/
namespace Scriptlet.Eval

def tableOf (properties : List ObjectProperty) (handles : List Handle) : PropertyMap :=
  .ofList ((properties.map ObjectProperty.key).zip handles)

def closureName (closure : Closure) : String :=
  closure.name.getD "<anonymous>"

/-- Makes a function. Its name is bound in the scope that it is made in. -/
def makeFunction (node : NodeId) (name : Option String) (params : List String) (body : Block)
    (scope : ScopeId) : Eval Handle := do
  let handle ← alloc (.function ⟨name, params, body, scope, node⟩)
  match name with
  | some name => declare scope name handle
  | none => pure ()
  return handle

/-- Binds parameters to arguments. A parameter without an argument is undefined, and an argument
without a parameter is dropped. -/
def bindParameters (scope : ScopeId) : List String → List Handle → Eval Unit
  | [], _ => return
  | param :: params, handle :: handles => do
    declare scope param handle
    bindParameters scope params handles
  | param :: params, [] => do
    let handle ← alloc .undefined
    declare scope param handle
    bindParameters scope params []

def orUndefined : Option Handle → Eval Handle
  | some handle => pure handle
  | none => alloc .undefined

/-- The later one of two values, if it is there, and then as the only temporary root above a
mark. -/
def latest (mark : Mark) (completion : Option Handle) : Option Handle → Eval (Option Handle)
  | some value => do
    release mark
    protect value
    return some value
  | none => return completion

mutual

/-- Evaluates an expression to the handle of its value. The handle is not held as a root. -/
def evaluate : Nat → Expression → ScopeId → Eval Handle
  | 0, _, _ => throw .exhausted
  | steps + 1, expression, scope => do
    visit expression.info expression.nodeKind
    match expression with
    | .literal _ value => alloc (.ofLiteral value)
    | .identifier info name => lookup scope name info.span
    | .this _ => orUndefined ((← get).scopes.this? scope)
    | .member _ object property =>
      let mark ← rootMark
      let target ← evaluate steps object scope
      protect target
      let key ← evaluateKey steps property scope
      let handle ← getProperty target key
      release mark
      return handle
    | .call info callee arguments => evaluateCall steps callee arguments info.span scope
    | .assignment _ operator target value => evaluateAssignment steps operator target value scope
    | .object _ properties =>
      let mark ← rootMark
      releasing mark do
        let handles ← evaluateAll steps (properties.map ObjectProperty.value) scope
        alloc (.object (tableOf properties handles))
    | .array _ elements =>
      let mark ← rootMark
      releasing mark do
        let handles ← evaluateAll steps elements scope
        alloc (.array handles.toArray .empty)
    | .sequence _ expressions => evaluateSequence steps expressions scope none
    | .unary _ operator argument =>
      let value ← deref (← evaluate steps argument scope)
      alloc (value.applyUnary operator)
    | .binary _ operator left right =>
      let mark ← rootMark
      let left ← evaluate steps left scope
      protect left
      let right ← releasing mark (evaluate steps right scope)
      applyBinary operator left right
    | .logical _ operator left right =>
      let handle ← evaluate steps left scope
      let isTruthy := (← deref handle).isTruthy
      if isTruthy == (operator == .or) then return handle else evaluate steps right scope
    | .function info name params body => makeFunction info.id name params body scope

/-- Evaluates expressions from left to right. Their values are temporary roots afterwards. -/
def evaluateAll : Nat → List Expression → ScopeId → Eval (List Handle)
  | 0, _, _ => throw .exhausted
  | _ + 1, [], _ => return []
  | steps + 1, expression :: rest, scope => do
    let handle ← evaluate steps expression scope
    protect handle
    let handles ← evaluateAll steps rest scope
    return handle :: handles

/-- Evaluates expressions from left to right to the value of the last one. -/
def evaluateSequence : Nat → List Expression → ScopeId → Option Handle → Eval Handle
  | 0, _, _, _ => throw .exhausted
  | _ + 1, [], _, last => orUndefined last
  | steps + 1, expression :: rest, scope, _ => do
    let handle ← evaluate steps expression scope
    evaluateSequence steps rest scope (some handle)

def evaluateKey : Nat → MemberProperty → ScopeId → Eval PropertyKey
  | 0, _, _ => throw .exhausted
  | _ + 1, .named name, _ => return .ofName name
  | steps + 1, .computed expression, scope => do
    let value ← deref (← evaluate steps expression scope)
    return .ofValue (← get).heap value

def evaluateAssignment : Nat → AssignmentOperator → Expression → Expression → ScopeId → Eval Handle
  | 0, _, _, _, _ => throw .exhausted
  | steps + 1, operator, .identifier info name, value, scope => do
    let handle ←
      match operator.binary? with
      | none => evaluate steps value scope
      | some operator =>
        let mark ← rootMark
        let current ← lookup scope name info.span
        protect current
        let right ← releasing mark (evaluate steps value scope)
        applyBinary operator current right
    assign scope name handle
    return handle
  | steps + 1, operator, .member _ object property, value, scope => do
    let mark ← rootMark
    releasing mark do
      let target ← evaluate steps object scope
      protect target
      let key ← evaluateKey steps property scope
      let handle ←
        match operator.binary? with
        | none => evaluate steps value scope
        | some operator =>
          let current ← getProperty target key
          protect current
          let right ← evaluate steps value scope
          applyBinary operator current right
      setProperty target key handle
      return handle
  | _ + 1, _, target, _, _ => fail (.invalidTarget target.nodeKind target.span)

/-- Evaluates a call. The receiver of a call of a property is the object it is a property of. -/
def evaluateCall : Nat → Expression → List Expression → Span → ScopeId → Eval Handle
  | 0, _, _, _, _ => throw .exhausted
  | steps + 1, .member _ object property, arguments, span, scope => do
    let mark ← rootMark
    releasing mark do
      let target ← evaluate steps object scope
      protect target
      let key ← evaluateKey steps property scope
      let function ← getProperty target key
      protect function
      let handles ← evaluateAll steps arguments scope
      call steps function (some target) handles span
  | steps + 1, callee, arguments, span, scope => do
    let mark ← rootMark
    releasing mark do
      let function ← evaluate steps callee scope
      protect function
      let handles ← evaluateAll steps arguments scope
      call steps function none handles span

/-- Calls the function of a handle. The handles given are temporary roots already. -/
def call : Nat → Handle → Option Handle → List Handle → Span → Eval Handle
  | 0, _, _, _, _ => throw .exhausted
  | steps + 1, function, this, arguments, span => do
    match ← deref function with
    | .function closure => callClosure steps closure this arguments span
    | .native name operation =>
      record (.callingNative name arguments.length)
      match ← callNative steps operation arguments with
      | .ok handle => return handle
      | .error message => fail (.native name message span)
    | other => fail (.notCallable other.kind span)

/-- Runs the body of a function in a new scope inside the one that it was made in. -/
def callClosure : Nat → Closure → Option Handle → List Handle → Span → Eval Handle
  | 0, _, _, _, _ => throw .exhausted
  | steps + 1, closure, this, arguments, span => do
    let name := closureName closure
    let isLive := (← get).scopes.isLive closure.scope
    if !isLive then
      fail (.scopeExited name span)
    let depth := (← get).callDepth
    let limit := (← get).config.maxCallDepth
    if limit ≤ depth then
      fail (.callDepthExceeded limit span)
    let result ← inScope closure.scope .function this fun scope => do
      bindParameters scope closure.params arguments
      record (.calling name (depth + 1))
      oneDeeper (executeAll steps closure.body.statements scope)
    orUndefined result

/-- Runs a native. An error of the function that `apply` calls becomes an error of `apply`. -/
def callNative : Nat → Native → List Handle → Eval NativeResult
  | 0, _, _ => throw .exhausted
  | steps + 1, operation, arguments => do
    match operation with
    | .print => printNative arguments
    | .typeName => typeNameNative arguments
    | .toText => toTextNative arguments
    | .toNumber => toNumberNative arguments
    | .collect => collectNative
    | .sum => sumNative arguments
    | .first => .ok <$> firstArgument arguments
    | .fail => failNative arguments
    | .apply =>
      match arguments with
      | [] => return .error "nothing to apply"
      | function :: arguments =>
        tryCatch (.ok <$> callFromHost steps function arguments.head? arguments) fun
          | .error error => return .error error.summary
          | stop => throw stop

/-- Calls a function from outside the program. -/
def callFromHost : Nat → Handle → Option Handle → List Handle → Eval Handle
  | 0, _, _, _ => throw .exhausted
  | steps + 1, function, this, arguments => do
    let mark ← rootMark
    releasing mark do
      protectAll (function :: (this.toList ++ arguments))
      call steps function this arguments ⟨0, 0⟩

/-- Executes statements in order: the value of the last expression statement, if there was one. -/
def executeAll : Nat → List Statement → ScopeId → Eval (Option Handle)
  | 0, _, _ => throw .exhausted
  | steps + 1, statements, scope => do
    let mark ← rootMark
    releasing mark (executeRest steps statements scope mark none)

/-- Executes the rest of some statements. The value of the last expression statement so far is the
one temporary root above a mark. -/
def executeRest : Nat → List Statement → ScopeId → Mark → Option Handle → Eval (Option Handle)
  | 0, _, _, _, _ => throw .exhausted
  | _ + 1, [], _, _, completion => return completion
  | steps + 1, statement :: rest, scope, mark, completion => do
    collectIfDue
    let value ← execute steps statement scope
    executeRest steps rest scope mark (← latest mark completion value)

/-- Executes a statement: the value of the last expression statement in it, if there was one. -/
def execute : Nat → Statement → ScopeId → Eval (Option Handle)
  | 0, _, _ => throw .exhausted
  | steps + 1, statement, scope => do
    visit statement.info statement.nodeKind
    match statement with
    | .declaration _ _ declarations =>
      declareAll steps declarations scope
      return none
    | .conditional _ condition consequent alternate =>
      let test ← deref (← evaluate steps condition scope)
      if test.isTruthy then execute steps consequent scope
      else match alternate with
        | some alternate => execute steps alternate scope
        | none => return none
    | .while _ test body =>
      let mark ← rootMark
      releasing mark (loop steps test body scope mark none)
    | .expression _ expression => some <$> evaluate steps expression scope
    | .block block =>
      inScope scope .block none fun inner => executeAll steps block.statements inner

/-- Declares names in order. A name without an initial value is undefined. -/
def declareAll : Nat → List Declarator → ScopeId → Eval Unit
  | 0, _, _ => throw .exhausted
  | _ + 1, [], _ => return
  | steps + 1, declarator :: rest, scope => do
    visit declarator.info .declarator
    let handle ←
      match declarator.init with
      | some init => evaluate steps init scope
      | none => alloc .undefined
    declare scope declarator.name handle
    declareAll steps rest scope

/-- Executes a statement as long as a test is true. The value of the last turn that had one is the
one temporary root above a mark. -/
def loop : Nat → Expression → Statement → ScopeId → Mark → Option Handle → Eval (Option Handle)
  | 0, _, _, _, _, _ => throw .exhausted
  | steps + 1, test, body, scope, mark, completion => do
    collectIfDue
    let condition ← deref (← evaluate steps test scope)
    if condition.isTruthy then
      let value ← execute steps body scope
      loop steps test body scope mark (← latest mark completion value)
    else return completion

end

end Scriptlet.Eval
