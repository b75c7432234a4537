import Scriptlet.Heap.Collect
import Scriptlet.Machine.Error
import Scriptlet.Value.Operator

set_option autoImplicit false

/-!
The state of a running program, and the steps that evaluation is made of. A handle that is needed
after something else has been evaluated is made a temporary root before, because a statement inside
may start a collection. The temporary roots are a stack: whoever needs some more notes how many
there are, and drops those above later on. What stops may leave some behind; they are dropped
further out.
-/
namespace Scriptlet

/-- What can be chosen before a machine starts. -/
structure Config where
  /-- Note every node that is evaluated. -/
  trace : Bool := false
  /-- Never free a slot. -/
  disableGc : Bool := false
  /-- Note the usage of the heap after each collection and at the end of a run. -/
  reportUsage : Bool := false
  /-- The number of allocations between collections. -/
  gcThreshold : UInt64 := defaultThreshold
  /-- The number of calls that may run inside one another. -/
  maxCallDepth : Nat := 512
  deriving DecidableEq, Repr

inductive Event where
  | nodeCreated (id : NodeId) (kind : NodeKind)
  | parsed (nodes : Nat)
  | evaluating (node : NodeId) (kind : NodeKind) (offset : Nat)
  | scopePushed (scope parent : ScopeId) (kind : ScopeKind)
  | scopePopped (scope : ScopeId)
  | calling (name : String) (depth : Nat)
  | callingNative (name : String) (arguments : Nat)
  | collected (report : Report)
  | collectionSkipped
  | usage (usage : Usage)

/-- How many temporary roots there are at some point. -/
structure Mark where
  height : Nat
  deriving DecidableEq, Repr

def Mark.cut (mark : Mark) (roots : List Handle) : List Handle :=
  roots.drop (roots.length - mark.height)

/-- The heap, the open scopes, the temporary roots with the last one first, and what has been
printed. Events are kept only for an observer. -/
structure Machine where
  config : Config
  heap : Heap
  scopes : ScopeChain
  roots : List Handle
  callDepth : Nat
  output : String
  observed : Bool
  events : Array Event

/-- A computation on a machine. The machine is kept also when it stops. -/
abbrev Eval (α : Type) : Type :=
  EStateM Stop Machine α

namespace Machine

def record (machine : Machine) (event : Event) : Machine :=
  if machine.observed then { machine with events := machine.events.push event } else machine

/-- Tells an observer how full the heap is, if the configuration asks for it. -/
def recordUsage (machine : Machine) : Machine :=
  if machine.config.reportUsage then machine.record (.usage machine.heap.usage) else machine

def collect (machine : Machine) : Option Report × Machine :=
  if machine.config.disableGc then (none, machine.record .collectionSkipped)
  else
    let roots := machine.scopes.roots ++ machine.roots
    let (report, heap) := machine.heap.collect roots
    (some report, ({ machine with heap }.record (.collected report)).recordUsage)

def collectIfDue (machine : Machine) : Machine :=
  if machine.heap.shouldCollect then machine.collect.2 else machine

/-- Drops the temporary roots above a mark. -/
def release (machine : Machine) (mark : Mark) : Machine :=
  { machine with roots := mark.cut machine.roots }

def closeScope (machine : Machine) (scope : ScopeId) : Machine :=
  if machine.scopes.canPop scope then
    { machine with scopes := machine.scopes.pop scope }.record (.scopePopped scope)
  else machine

end Machine

namespace Eval

def fail {α : Type} (error : RuntimeError) : Eval α :=
  throw (.error error)

def record (event : Event) : Eval Unit :=
  modify fun machine => machine.record event

/-- Tells an observer of a node, if the configuration asks for it. -/
def visit (info : NodeInfo) (kind : NodeKind) : Eval Unit :=
  modify fun machine =>
    if machine.config.trace then machine.record (.evaluating info.id kind info.span.start)
    else machine

def alloc (value : Value) : Eval Handle := fun machine =>
  let (handle, heap) := machine.heap.alloc value
  .ok handle { machine with heap }

def deref (handle : Handle) : Eval Value := fun machine =>
  match machine.heap.get? handle with
  | some value => .ok value machine
  | none => .error (.freeSlot .read handle) machine

def update (handle : Handle) (change : Value → Value) : Eval Unit := fun machine =>
  if machine.heap.isLive handle then
    .ok () { machine with heap := machine.heap.modify handle change }
  else .error (.freeSlot .write handle) machine

def textOf (handle : Handle) : Eval (Option String) := do
  let value ← deref handle
  return value.text? (← get).heap

def lookup (scope : ScopeId) (name : String) (span : Span) : Eval Handle := fun machine =>
  match machine.scopes.lookup? scope name with
  | some handle => .ok handle machine
  | none => .error (.error (.undefinedReference name span)) machine

def declare (scope : ScopeId) (name : String) (handle : Handle) : Eval Unit :=
  modify fun machine => { machine with scopes := machine.scopes.declare scope name handle }

/-- Binds a name anew where it is bound, or in the global scope if it is bound nowhere. -/
def assign (scope : ScopeId) (name : String) (handle : Handle) : Eval Unit :=
  modify fun machine =>
    { machine with
      scopes := (machine.scopes.assign? scope name handle).getD
        (machine.scopes.declare ScopeChain.global name handle) }

/-- Makes handles temporary roots, the last one on top. -/
def protectAll (handles : List Handle) : Eval Unit :=
  modify fun machine => { machine with roots := handles.reverse ++ machine.roots }

def protect (handle : Handle) : Eval Unit :=
  protectAll [handle]

def rootMark : Eval Mark :=
  return ⟨(← get).roots.length⟩

/-- Drops the temporary roots above a mark. -/
def release (mark : Mark) : Eval Unit :=
  modify fun machine => machine.release mark

@[inline]
def afterwards {α : Type} (finish : Machine → Machine) (action : Eval α) : Eval α := fun machine =>
  match action machine with
  | .ok value machine => .ok value (finish machine)
  | .error stop machine => .error stop (finish machine)

/-- Evaluates, and drops the temporary roots above a mark afterwards. -/
@[inline]
def releasing {α : Type} (mark : Mark) (action : Eval α) : Eval α :=
  afterwards (·.release mark) action

@[inline]
def inScope {α : Type} (parent : ScopeId) (kind : ScopeKind) (this : Option Handle)
    (action : ScopeId → Eval α) : Eval α := fun machine =>
  let (scope, scopes) := machine.scopes.push parent kind this
  let machine := { machine with scopes }.record (.scopePushed scope parent kind)
  afterwards (·.closeScope scope) (action scope) machine

@[inline]
def oneDeeper {α : Type} (action : Eval α) : Eval α := fun machine =>
  afterwards (fun machine => { machine with callDepth := machine.callDepth - 1 }) action
    { machine with callDepth := machine.callDepth + 1 }

def collectIfDue : Eval Unit :=
  modify Machine.collectIfDue

def printLine (line : String) : Eval Unit :=
  modify fun machine => { machine with output := machine.output ++ line ++ "\n" }

def applyBinary (operator : BinaryOperator) (left right : Handle) : Eval Handle := do
  let l ← deref left
  let r ← deref right
  alloc (Value.applyBinary (← get).heap operator (left, l) (right, r))

end Eval
end Scriptlet
