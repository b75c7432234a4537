import Scriptlet.Proofs.Run.Quiet
import Scriptlet.Proofs.Run.Step

set_option autoImplicit false

/-!
The moves of a run. What a step comes to is listed once, for each task and for whatever is pending,
and beside that a step does ordinary things only. So what every step keeps is a matter of the list.
Only three tasks are not on it: a function expression makes a function, and a block and the body of
a function are executed in scopes of their own.
-/
namespace Scriptlet.Run

open Eval

/-- What the work of a step comes to. -/
inductive Move where
  | give (answer : Answer) (pending : List Pending)
  | fail (error : RuntimeError)
  | goOn (task : Task) (pending : List Pending)

/-- The work of a move that nothing else belongs to. -/
def Move.work : Move → Eval Next
  | give answer pending => resume answer pending
  | fail error => Eval.fail error
  | goOn task pending => Run.goOn task pending

/-- Work that begins with some temporary roots, does ordinary things, may look up names on the way,
and comes to one of the moves that it may make. At most the move itself changes the roots. -/
inductive Leads (may : List Handle → Move → Prop) (roots : List Handle) : Eval Next → Prop where
  | make {move : Move} {work : Eval Next} {held : List Handle} (made : may held move)
      (settles : ∀ machine, machine.roots = roots →
        work machine = move.work { machine with roots := held }) : Leads may roots work
  | after {α : Type} {action : Eval α} {rest : α → Eval Next} (ordinary : Ordinary action)
      (others : ∀ value, Leads may roots (rest value)) : Leads may roots (action >>= rest)
  | get {rest : Machine → Eval Next} (others : ∀ machine, Leads may roots (rest machine)) :
      Leads may roots (get >>= rest)
  | lookup {scope : ScopeId} {name : String} {span : Span} {rest : Handle → Eval Next}
      (made : may roots (.fail (.undefinedReference name span)))
      (others : ∀ handle, Leads may roots (rest handle)) :
      Leads may roots (lookup scope name span >>= rest)
  | mark {rest : Mark → Eval Next} (others : Leads may roots (rest ⟨roots.length⟩)) :
      Leads may roots (rootMark >>= rest)

section Leads

variable {may : List Handle → Move → Prop} {roots : List Handle}

theorem Leads.give {answer : Answer} (made : may roots (.give answer [])) :
    Leads may roots (give answer) :=
  .make made fun machine same => by subst same; rfl

theorem Leads.fail {error : RuntimeError} (made : may roots (.fail error)) :
    Leads may roots (Eval.fail error) :=
  .make made fun machine same => by subst same; rfl

theorem Leads.goOn {task : Task} {pending : List Pending} (made : may roots (.goOn task pending)) :
    Leads may roots (goOn task pending) :=
  .make made fun machine same => by subst same; rfl

theorem Leads.protect {handle : Handle} {task : Task} {pending : List Pending}
    (made : may (handle :: roots) (.goOn task pending)) :
    Leads may roots (protect handle >>= fun _ => Run.goOn task pending) :=
  .make made fun machine same => by subst same; rfl

theorem Leads.released {mark : Mark} {answer : Answer}
    (made : may (mark.cut roots) (.give answer [])) :
    Leads may roots (release mark >>= fun _ => Run.give answer) :=
  .make made fun machine same => by subst same; rfl

/-- What comes after the choice of the later one of two values. -/
theorem Leads.latest {mark : Mark} {completion value : Option Handle} (move : Option Handle → Move)
    (kept : may roots (move completion))
    (renewed : ∀ handle, may (handle :: mark.cut roots) (move (some handle))) :
    Leads may roots (latest mark completion value >>= fun last => (move last).work) := by
  cases value with
  | none => exact .make kept fun machine same => by subst same; rfl
  | some handle => exact .make (renewed handle) fun machine same => by subst same; rfl

/-- What the work of a step does: quiet things, and then a move, unless it stops at a free slot. -/
inductive Makes (may : List Handle → Move → Prop) (machine : Machine) :
    EStateM.Result Stop Machine Next → Prop where
  | move {move : Move} {held : List Handle} {middle : Machine} (made : may held move)
      (quiet : Quiet machine middle) :
      Makes may machine (move.work { middle with roots := held })
  | freeSlot {access : Access} {handle : Handle} {after : Machine} (quiet : Quiet machine after) :
      Makes may machine (.error (.freeSlot access handle) after)

theorem Makes.after {first middle : Machine} {result : EStateM.Result Stop Machine Next}
    (quiet : Quiet first middle) (makes : Makes may middle result) : Makes may first result := by
  cases makes with
  | move made rest => exact .move made (quiet.trans rest)
  | freeSlot rest => exact .freeSlot (quiet.trans rest)

theorem Leads.makes {work : Eval Next} (leads : Leads may roots work) {machine : Machine}
    (same : machine.roots = roots) : Makes may machine (work machine) := by
  induction leads generalizing machine with
  | make made settles =>
    rw [settles machine same]
    exact .move made (.refl machine)
  | @after α action rest ordinary _ ih =>
    simp only [bind, EStateM.bind]
    cases outcome : action machine with
    | ok value middle =>
      have quiet := ordinary.quiet_ok outcome
      exact (ih value (quiet.roots.trans same)).after quiet
    | error stop middle =>
      obtain ⟨access, handle, rfl⟩ := ordinary.stop_eq outcome
      exact .freeSlot (ordinary.quiet_error outcome)
  | get _ ih => exact ih machine same
  | @lookup scope name span rest made _ ih =>
    simp only [bind, EStateM.bind, Eval.lookup]
    cases machine.scopes.lookup? scope name with
    | some handle => exact ih handle same
    | none =>
      subst same
      exact .move made (.refl machine)
  | mark _ ih =>
    subst same
    exact ih rfl

end Leads

def isBlock : Statement → Bool
  | .block _ => true
  | _ => false

/-- A task that opens no scope and makes no function itself. -/
def Task.Plain : Task → Prop
  | .expression value _ => value.isFunction = false
  | .statement inner _ => isBlock inner = false
  | .body .. => False
  | _ => True

/-- A task that is not plain is a function expression, a block, or the body of a function. -/
theorem Task.plainCases {motive : Task → Prop} (plain : ∀ task, task.Plain → motive task)
    (function : ∀ info name params body scope,
      motive (.expression (.function info name params body) scope))
    (block : ∀ block scope, motive (.statement (.block block) scope))
    (body : ∀ closure this arguments span, motive (.body closure this arguments span))
    (task : Task) : motive task := by
  cases task with
  | expression expression scope =>
    cases expression with
    | function => exact function ..
    | _ => exact plain _ rfl
  | statement statement scope =>
    cases statement with
    | block => exact block ..
    | _ => exact plain _ rfl
  | body => exact body ..
  | _ => exact plain _ trivial

inductive Task.Moves (roots : List Handle) : Task → List Handle → Move → Prop where
  | program {code scope} :
    Moves roots (.program code scope) roots 
      (.goOn (.statements code.body.statements scope) [.program ⟨roots.length⟩])
  | literal {info value scope handle} :
    Moves roots (.expression (.literal info value) scope) roots (.give (.handle handle) [])
  | name {info name scope handle} :
    Moves roots (.expression (.identifier info name) scope) roots (.give (.handle handle) [])
  | nameUnbound {info name scope} :
    Moves roots (.expression (.identifier info name) scope) roots
      (.fail (.undefinedReference name info.span))
  | this {info scope handle} :
    Moves roots (.expression (.this info) scope) roots (.give (.handle handle) [])
  | member {info object property scope} :
    Moves roots (.expression (.member info object property) scope) roots
      (.goOn (.expression object scope) [.memberKey property scope ⟨roots.length⟩])
  | callExpression {info callee arguments scope} :
    Moves roots (.expression (.call info callee arguments) scope) roots
      (.goOn (.call callee arguments info.span scope) [])
  | assignmentExpression {info operator target value scope} :
    Moves roots (.expression (.assignment info operator target value) scope) roots
      (.goOn (.assignment operator target value scope) [])
  | object {info properties scope} :
    Moves roots (.expression (.object info properties) scope) roots
      (.goOn (.expressions (properties.map ObjectProperty.value) scope)
        [.object properties, .release ⟨roots.length⟩])
  | array {info elements scope} :
    Moves roots (.expression (.array info elements) scope) roots
      (.goOn (.expressions elements scope) [.array, .release ⟨roots.length⟩])
  | sequenceExpression {info expressions scope} :
    Moves roots (.expression (.sequence info expressions) scope) roots
      (.goOn (.sequence expressions scope none) [])
  | unary {info operator argument scope} :
    Moves roots (.expression (.unary info operator argument) scope) roots
      (.goOn (.expression argument scope) [.unary operator])
  | binary {info operator left right scope} :
    Moves roots (.expression (.binary info operator left right) scope) roots
      (.goOn (.expression left scope) [.rightOperand operator right scope ⟨roots.length⟩])
  | logical {info operator left right scope} :
    Moves roots (.expression (.logical info operator left right) scope) roots
      (.goOn (.expression left scope) [.logical operator right scope])
  | expressionsOver {scope} : Moves roots (.expressions [] scope) roots (.give (.handles []) [])
  | expressions {expression rest scope} :
    Moves roots (.expressions (expression :: rest) scope) roots
      (.goOn (.expression expression scope) [.moreExpressions rest scope])
  | sequenceOver {scope last handle} :
    Moves roots (.sequence [] scope last) roots (.give (.handle handle) [])
  | sequence {expression rest scope last} :
    Moves roots (.sequence (expression :: rest) scope last) roots
      (.goOn (.expression expression scope) [.moreSequence rest scope])
  | keyNamed {name scope} :
    Moves roots (.key (.named name) scope) roots (.give (.key (.ofName name)) [])
  | keyComputed {expression scope} :
    Moves roots (.key (.computed expression) scope) roots
      (.goOn (.expression expression scope) [.selector])
  | assignName {operator info name value scope} :
    Moves roots (.assignment operator (.identifier info name) value scope) roots
      (.goOn (.expression value scope) [.assign name scope])
  | assignUnbound {operator info name value scope} :
    Moves roots (.assignment operator (.identifier info name) value scope) roots
      (.fail (.undefinedReference name info.span))
  | assignCompound {operator info name value scope binary current} :
    Moves roots (.assignment operator (.identifier info name) value scope) (current :: roots)
      (.goOn (.expression value scope) [.compoundName binary current name scope ⟨roots.length⟩])
  | assignMember {operator info object property value scope} :
    Moves roots (.assignment operator (.member info object property) value scope) roots
      (.goOn (.expression object scope)
        [.storeKey operator property value scope, .release ⟨roots.length⟩])
  | assignInvalid {operator target value scope} (invalid : target.isAssignable = false) :
    Moves roots (.assignment operator target value scope) roots
      (.fail (.invalidTarget target.nodeKind target.span))
  | callMember {info object property arguments span scope} :
    Moves roots (.call (.member info object property) arguments span scope) roots
      (.goOn (.expression object scope)
        [.calleeKey property arguments span scope, .release ⟨roots.length⟩])
  | call {callee arguments span scope} :
    Moves roots (.call callee arguments span scope) roots
      (.goOn (.expression callee scope)
        [.arguments arguments span scope, .release ⟨roots.length⟩])
  | applyFunction {function this arguments span closure} :
    Moves roots (.apply function this arguments span) roots
      (.goOn (.body closure this arguments span) [])
  | applyNative {function this arguments span name operation} :
    Moves roots (.apply function this arguments span) roots
      (.goOn (.native operation arguments) [.nativeResult name span])
  | applyOther {function this arguments span kind} :
    Moves roots (.apply function this arguments span) roots (.fail (.notCallable kind span))
  | native {operation arguments result} :
    Moves roots (.native operation arguments) roots (.give (.native result) [])
  | nativeCollect {arguments freed} :
    Moves roots (.native .collect arguments) roots (.goOn (.tally freed) [])
  | nativeApply {function arguments} :
    Moves roots (.native .apply (function :: arguments)) roots
      (.goOn (.host function arguments.head? arguments) [.attempt])
  | host {function this arguments} :
    Moves roots (.host function this arguments)
      ((function :: (this.toList ++ arguments)).reverse ++ roots)
      (.goOn (.apply function this arguments ⟨0, 0⟩) [.release ⟨roots.length⟩])
  | tally {freed result} : Moves roots (.tally freed) roots (.give (.native result) [])
  | statements {statements scope} :
    Moves roots (.statements statements scope) roots
      (.give (.completion none)
        [.moreStatements statements scope ⟨roots.length⟩ none, .release ⟨roots.length⟩])
  | declaration {info kind declarators scope} :
    Moves roots (.statement (.declaration info kind declarators) scope) roots
      (.goOn (.declarations declarators scope) [])
  | conditional {info condition consequent alternate scope} :
    Moves roots (.statement (.conditional info condition consequent alternate) scope) roots
      (.goOn (.expression condition scope) [.branch consequent alternate scope])
  | loopStatement {info test inner scope} :
    Moves roots (.statement (.while info test inner) scope) roots
      (.goOn (.nextTest test scope)
        [.turn test inner scope ⟨roots.length⟩ none, .release ⟨roots.length⟩])
  | expressionStatement {info expression scope} :
    Moves roots (.statement (.expression info expression) scope) roots
      (.goOn (.expression expression scope) [.value])
  | declarationsOver {scope} :
    Moves roots (.declarations [] scope) roots (.give (.completion none) [])
  | declare {info name init rest scope} :
    Moves roots (.declarations (.mk info name (some init) :: rest) scope) roots
      (.goOn (.expression init scope) [.declare name rest scope])
  | declareUndefined {info name rest scope} :
    Moves roots (.declarations (.mk info name none :: rest) scope) roots
      (.goOn (.declarations rest scope) [])
  | nextStatement {statement scope} :
    Moves roots (.nextStatement statement scope) roots (.goOn (.statement statement scope) [])
  | nextTest {test scope} :
    Moves roots (.nextTest test scope) roots (.goOn (.expression test scope) [])

/-- The moves that are made when a wait is over, with the temporary roots after them. -/
inductive Pending.Moves (roots : List Handle) : Pending → List Handle → Move → Prop where
  | give {pending answer} : Moves roots pending roots (.give answer [])
  | memberKey {property scope mark target} :
    Moves roots (.memberKey property scope mark) (target :: roots)
      (.goOn (.key property scope) [.memberRead target mark])
  | memberRead {target mark handle} :
    Moves roots (.memberRead target mark) (mark.cut roots) (.give (.handle handle) [])
  | rightOperand {operator right scope mark left} :
    Moves roots (.rightOperand operator right scope mark) (left :: roots)
      (.goOn (.expression right scope) [.binary operator left mark])
  | logical {operator right scope} :
    Moves roots (.logical operator right scope) roots (.goOn (.expression right scope) [])
  | moreExpressions {rest scope handle} :
    Moves roots (.moreExpressions rest scope) (handle :: roots)
      (.goOn (.expressions rest scope) [.before handle])
  | moreSequence {rest scope handle} :
    Moves roots (.moreSequence rest scope) roots (.goOn (.sequence rest scope (some handle)) [])
  | storeKey {operator property value scope target} :
    Moves roots (.storeKey operator property value scope) (target :: roots)
      (.goOn (.key property scope) [.storeValue operator target value scope])
  | storeValue {operator target value scope key} :
    Moves roots (.storeValue operator target value scope) roots
      (.goOn (.expression value scope) [.store target key])
  | storeCompound {operator target value scope key binary current} :
    Moves roots (.storeValue operator target value scope) (current :: roots)
      (.goOn (.expression value scope) [.compoundProperty binary current target key])
  | calleeKey {property arguments span scope target} :
    Moves roots (.calleeKey property arguments span scope) (target :: roots)
      (.goOn (.key property scope) [.calleeRead target arguments span scope])
  | calleeRead {target arguments span scope function} :
    Moves roots (.calleeRead target arguments span scope) (function :: roots)
      (.goOn (.expressions arguments scope) [.apply function (some target) span])
  | arguments {arguments span scope function} :
    Moves roots (.arguments arguments span scope) (function :: roots)
      (.goOn (.expressions arguments scope) [.apply function none span])
  | apply {function this span handles} :
    Moves roots (.apply function this span) roots (.goOn (.apply function this handles span) [])
  | nativeFailed {name span message} :
    Moves roots (.nativeResult name span) roots (.fail (.native name message span))
  | statementsOver {scope mark completion} :
    Moves roots (.moreStatements [] scope mark completion) roots (.give (.completion completion) [])
  | statementsOverRenewed {scope mark completion handle} :
    Moves roots (.moreStatements [] scope mark completion) (handle :: mark.cut roots)
      (.give (.completion (some handle)) [])
  | moreStatements {statement rest scope mark completion} :
    Moves roots (.moreStatements (statement :: rest) scope mark completion) roots
      (.goOn (.nextStatement statement scope) [.moreStatements rest scope mark completion])
  | moreStatementsRenewed {statement rest scope mark completion handle} :
    Moves roots (.moreStatements (statement :: rest) scope mark completion)
      (handle :: mark.cut roots)
      (.goOn (.nextStatement statement scope) [.moreStatements rest scope mark (some handle)])
  | consequent {consequent alternate scope} :
    Moves roots (.branch consequent alternate scope) roots (.goOn (.statement consequent scope) [])
  | alternate {consequent alternate scope} :
    Moves roots (.branch consequent (some alternate) scope) roots
      (.goOn (.statement alternate scope) [])
  | declare {name rest scope} :
    Moves roots (.declare name rest scope) roots (.goOn (.declarations rest scope) [])
  | turn {test inner scope mark completion} :
    Moves roots (.turn test inner scope mark completion) roots
      (.goOn (.statement inner scope) [.nextTurn test inner scope mark completion])
  | nextTurn {test inner scope mark completion} :
    Moves roots (.nextTurn test inner scope mark completion) roots
      (.goOn (.nextTest test scope) [.turn test inner scope mark completion])
  | nextTurnRenewed {test inner scope mark completion handle} :
    Moves roots (.nextTurn test inner scope mark completion) (handle :: mark.cut roots)
      (.goOn (.nextTest test scope) [.turn test inner scope mark (some handle)])

variable {roots : List Handle}

theorem beginExpression_leads {expression : Expression} (other : expression.isFunction = false)
    (scope : ScopeId) :
    Leads ((Task.expression expression scope).Moves roots) roots
      (beginExpression expression scope) := by
  apply Leads.after (ordinary_visit _ _)
  intro _
  cases expression with
  | literal info value =>
    have made : Ordinary (alloc (.ofLiteral value)) :=
      ordinary_allocPlain (Value.wellKinded_ofLiteral value) (Value.isReference_ofLiteral value)
    exact .after made fun _ => .give .literal
  | identifier info name => exact .lookup .nameUnbound fun _ => .give .name
  | this info => exact .get fun _ => .after (ordinary_orUndefined _) fun _ => .give .this
  | member => exact .mark (.goOn .member)
  | call => exact .goOn .callExpression
  | assignment => exact .goOn .assignmentExpression
  | object => exact .mark (.goOn .object)
  | array => exact .mark (.goOn .array)
  | sequence => exact .goOn .sequenceExpression
  | unary => exact .goOn .unary
  | binary => exact .mark (.goOn .binary)
  | logical => exact .goOn .logical
  | function => cases other

theorem beginAssignment_leads (operator : AssignmentOperator) (target value : Expression)
    (scope : ScopeId) :
    Leads ((Task.assignment operator target value scope).Moves roots) roots
      (beginAssignment operator target value scope) := by
  cases target with
  | identifier info name =>
    dsimp only [beginAssignment]
    cases operator.binary? with
    | none => exact .goOn .assignName
    | some operator => exact .mark (.lookup .assignUnbound fun _ => .protect .assignCompound)
  | member => exact .mark (.goOn .assignMember)
  | _ => exact .fail (.assignInvalid rfl)

theorem beginApply_leads (function : Handle) (this : Option Handle) (arguments : List Handle)
    (span : Span) :
    Leads ((Task.apply function this arguments span).Moves roots) roots
      (beginApply function this arguments span) := by
  apply Leads.after (ordinary_deref function)
  intro value
  cases value with
  | function closure => exact .goOn .applyFunction
  | native name operation => exact .after (ordinary_record _) fun _ => .goOn .applyNative
  | _ => exact .fail .applyOther

theorem beginNative_leads (operation : Native) (arguments : List Handle) :
    Leads ((Task.native operation arguments).Moves roots) roots
      (beginNative operation arguments) := by
  cases operation with
  | print => exact .after (ordinary_printNative arguments) fun _ => .give .native
  | typeName => exact .after (ordinary_typeNameNative arguments) fun _ => .give .native
  | toText => exact .after (ordinary_toTextNative arguments) fun _ => .give .native
  | toNumber => exact .after (ordinary_toNumberNative arguments) fun _ => .give .native
  | collect => exact .after ordinary_collectNow fun _ => .goOn .nativeCollect
  | sum => exact .after (ordinary_sumNative arguments) fun _ => .give .native
  | first => exact .after (ordinary_firstArgument arguments) fun _ => .give .native
  | fail => exact .after (ordinary_failNative arguments) fun _ => .give .native
  | apply =>
    cases arguments with
    | nil => exact .give .native
    | cons function arguments => exact .goOn .nativeApply

theorem beginStatement_leads {statement : Statement} (other : isBlock statement = false)
    (scope : ScopeId) :
    Leads ((Task.statement statement scope).Moves roots) roots
      (beginStatement statement scope) := by
  apply Leads.after (ordinary_visit _ _)
  intro _
  cases statement with
  | declaration => exact .goOn .declaration
  | conditional => exact .goOn .conditional
  | «while» => exact .mark (.goOn .loopStatement)
  | expression => exact .goOn .expressionStatement
  | block => cases other

/-- A plain task makes its moves only. -/
theorem begin_leads {task : Task} (plain : task.Plain) : 
    Leads (task.Moves roots) roots (begin task) := by
  cases task with
  | program code scope =>
    exact .mark (.after (ordinary_visit _ _) fun _ => .after (ordinary_visit _ _) fun _ =>
      .goOn .program)
  | expression expression scope => exact beginExpression_leads plain scope
  | expressions expressions scope =>
    cases expressions with
    | nil => exact .give .expressionsOver
    | cons expression rest => exact .goOn .expressions
  | sequence expressions scope last =>
    cases expressions with
    | nil => exact .after (ordinary_orUndefined last) fun _ => .give .sequenceOver
    | cons expression rest => exact .goOn .sequence
  | key property scope =>
    cases property with
    | named name => exact .give .keyNamed
    | computed expression => exact .goOn .keyComputed
  | assignment operator target value scope =>
    exact beginAssignment_leads operator target value scope
  | call callee arguments span scope =>
    cases callee with
    | member => exact .mark (.goOn .callMember)
    | _ => exact .mark (.goOn .call)
  | apply function this arguments span => exact beginApply_leads function this arguments span
  | body => exact plain.elim
  | native operation arguments => exact beginNative_leads operation arguments
  | host function this arguments =>
    exact .mark (.make .host fun machine same => by subst same; rfl)
  | tally freed => exact .after (ordinary_ofNat freed) fun _ => .give .tally
  | statements statements scope =>
    exact .mark (.make .statements fun machine same => by subst same; rfl)
  | statement statement scope => exact beginStatement_leads plain scope
  | declarations declarators scope =>
    cases declarators with
    | nil => exact .give .declarationsOver
    | cons declarator rest =>
      apply Leads.after (ordinary_visit _ _)
      intro _
      obtain ⟨info, name, init⟩ := declarator
      cases init with
      | some init => exact .goOn .declare
      | none =>
        exact .after ordinary_undefined fun handle =>
          .after (ordinary_declare scope name handle) fun _ => .goOn .declareUndefined
  | nextStatement => exact .after ordinary_collectIfDue fun _ => .goOn .nextStatement
  | nextTest => exact .after ordinary_collectIfDue fun _ => .goOn .nextTest

theorem proceed_handle_leads (pending : Pending) (handle : Handle) :
    Leads (pending.Moves roots) roots (proceed pending (.handle handle)) := by
  cases pending with
  | memberKey => exact .protect .memberKey
  | rightOperand => exact .protect .rightOperand
  | moreExpressions => exact .protect .moreExpressions
  | storeKey => exact .protect .storeKey
  | calleeKey => exact .protect .calleeKey
  | arguments => exact .protect .arguments
  | moreSequence => exact .goOn .moreSequence
  | unary operator =>
    apply Leads.after (ordinary_deref handle)
    intro value
    have made : Ordinary (alloc (value.applyUnary operator)) :=
      ordinary_allocPlain (Value.wellKinded_applyUnary operator value)
        (value.isReference_applyUnary operator)
    exact .after made fun _ => .give .give
  | binary operator left mark =>
    exact .after (ordinary_applyBinary operator left handle) fun _ => .give .give
  | logical operator right scope =>
    apply Leads.after (ordinary_deref handle)
    intro value
    dsimp only
    split
    · exact .give .give
    · exact .goOn .logical
  | selector => exact .after (ordinary_deref handle) fun _ => .get fun _ => .give .give
  | assign name scope => exact .after (ordinary_assign scope name handle) fun _ => .give .give
  | store target key =>
    exact .after (ordinary_setProperty target key handle) fun _ => .give .give
  | compoundName operator current name scope mark =>
    exact .after (ordinary_applyBinary operator current handle) fun value =>
      .after (ordinary_assign scope name value) fun _ => .give .give
  | compoundProperty operator current target key =>
    exact .after (ordinary_applyBinary operator current handle) fun value =>
      .after (ordinary_setProperty target key value) fun _ => .give .give
  | branch consequent alternate scope =>
    apply Leads.after (ordinary_deref handle)
    intro value
    split
    · exact .goOn .consequent
    · cases alternate with
      | some alternate => exact .goOn .alternate
      | none => exact .give .give
  | declare name rest scope =>
    exact .after (ordinary_declare scope name handle) fun _ => .goOn .declare
  | turn test inner scope mark completion =>
    apply Leads.after (ordinary_deref handle)
    intro value
    split
    · exact .goOn .turn
    · exact .give .give
  | _ => exact .give .give

theorem proceed_key_leads (pending : Pending) (key : PropertyKey) :
    Leads (pending.Moves roots) roots (proceed pending (.key key)) := by
  cases pending with
  | memberRead target mark =>
    exact .after (ordinary_getProperty target key) fun _ => .released .memberRead
  | storeValue operator target value scope =>
    dsimp only [proceed]
    cases operator.binary? with
    | none => exact .goOn .storeValue
    | some operator =>
      exact .after (ordinary_getProperty target key) fun _ => .protect .storeCompound
  | calleeRead target arguments span scope =>
    exact .after (ordinary_getProperty target key) fun _ => .protect .calleeRead
  | _ => exact .give .give

/-- When a wait is over, the moves of what was pending are made only. -/
theorem proceed_leads (pending : Pending) (answer : Answer) :
    Leads (pending.Moves roots) roots (proceed pending answer) := by
  cases answer with
  | handle handle => exact proceed_handle_leads pending handle
  | key key => exact proceed_key_leads pending key
  | handles handles =>
    cases pending with
    | object | array => exact .after (ordinary_allocOther rfl rfl) fun _ => .give .give
    | apply => exact .goOn .apply
    | _ => exact .give .give
  | native result =>
    cases pending with
    | nativeResult name span =>
      cases result with
      | ok handle => exact .give .give
      | error message => exact .fail .nativeFailed
    | _ => exact .give .give
  | completion value =>
    cases pending with
    | program | result => exact .after (ordinary_orUndefined value) fun _ => .give .give
    | moreStatements statements scope mark completion =>
      cases statements with
      | nil =>
        exact .latest (fun last => .give (.completion last) []) .statementsOver fun _ =>
          .statementsOverRenewed
      | cons statement rest =>
        exact .latest (.goOn (.nextStatement statement scope) [.moreStatements rest scope mark ·])
          .moreStatements fun _ => .moreStatementsRenewed
    | nextTurn test inner scope mark completion =>
      exact .latest (.goOn (.nextTest test scope) [.turn test inner scope mark ·])
        .nextTurn fun _ => .nextTurnRenewed
    | _ => exact .give .give

end Scriptlet.Run
