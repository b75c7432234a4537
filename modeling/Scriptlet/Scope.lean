import Scriptlet.Value.Basic

set_option autoImplicit false

/-!
Scopes. Frames are opened and closed like a stack, and each names the frame around it. The name of
a closed frame stays invalid for good, also when a new frame takes its place.
-/
namespace Scriptlet

inductive ScopeKind where
  | global | function | block
  deriving DecidableEq, Repr

def ScopeKind.name : ScopeKind → String
  | .global => "Global"
  | .function => "Function"
  | .block => "Block"

/-- Names with the handles they are bound to. Every name occurs at most once. -/
structure Bindings where
  entries : List (String × Handle) := []

namespace Bindings

def get? (bindings : Bindings) (name : String) : Option Handle :=
  bindings.entries.lookup name

def setEntry (name : String) (handle : Handle) : List (String × Handle) → List (String × Handle)
  | [] => [(name, handle)]
  | entry :: rest =>
    if entry.1 == name then (name, handle) :: rest else entry :: setEntry name handle rest

def set (bindings : Bindings) (name : String) (handle : Handle) : Bindings :=
  ⟨setEntry name handle bindings.entries⟩

def size (bindings : Bindings) : Nat :=
  bindings.entries.length

def handles (bindings : Bindings) : List Handle :=
  bindings.entries.map Prod.snd

end Bindings

/-- One frame: its bindings, the frame around it, and the receiver of the call it was opened for. -/
structure Frame where
  kind : ScopeKind
  parent : Option ScopeId
  this : Option Handle
  generation : UInt32
  bindings : Bindings := {}

def Frame.handles (frame : Frame) : List Handle :=
  frame.bindings.handles ++ frame.this.toList

structure ScopeChain where
  frames : Array Frame
  nextGeneration : UInt32

def undefinedMessage (name : String) : String :=
  "`" ++ name ++ "` is not defined"

namespace ScopeChain

def initial : ScopeChain where
  frames := #[{ kind := .global, parent := none, this := none, generation := 0 }]
  nextGeneration := 1

def global : ScopeId :=
  ⟨0, 0⟩

def depth (chain : ScopeChain) : Nat :=
  chain.frames.size

def frame? (chain : ScopeChain) (id : ScopeId) : Option Frame :=
  chain.frames[id.index]?.filter fun frame => frame.generation == id.generation

def isLive (chain : ScopeChain) (id : ScopeId) : Bool :=
  (chain.frame? id).isSome

def push (chain : ScopeChain) (parent : ScopeId) (kind : ScopeKind) (this : Option Handle) :
    ScopeId × ScopeChain :=
  let generation := chain.nextGeneration
  let frame := { kind, parent := some parent, this, generation }
  (⟨chain.frames.size, generation⟩, ⟨chain.frames.push frame, generation + 1⟩)

/-- Whether closing a frame changes anything: it is open and not the global one. -/
def canPop (chain : ScopeChain) (id : ScopeId) : Bool :=
  id.index != 0 && chain.isLive id

/-- Closes a frame and every frame opened after it. The global frame is never closed. -/
def pop (chain : ScopeChain) (id : ScopeId) : ScopeChain :=
  if chain.canPop id then { chain with frames := chain.frames.shrink id.index } else chain

/-- The open frames met on the way outward from a name, at most a number of them. -/
def pathWithin (chain : ScopeChain) : Nat → ScopeId → List (ScopeId × Frame)
  | 0, _ => []
  | count + 1, id =>
    match chain.frame? id with
    | none => []
    | some frame =>
      (id, frame) :: match frame.parent with
        | none => []
        | some parent => chain.pathWithin count parent

/-- The open frames met on the way outward from a name. -/
def path (chain : ScopeChain) (id : ScopeId) : List (ScopeId × Frame) :=
  chain.pathWithin chain.depth id

/-- The nearest frame outward that binds a name, and the handle it is bound to. -/
def resolve? (chain : ScopeChain) (id : ScopeId) (name : String) : Option (ScopeId × Handle) :=
  (chain.path id).findSome? fun (owner, frame) =>
    (frame.bindings.get? name).map fun handle => (owner, handle)

def lookup? (chain : ScopeChain) (id : ScopeId) (name : String) : Option Handle :=
  (chain.resolve? id name).map Prod.snd

def bindAt (chain : ScopeChain) (index : Nat) (name : String) (handle : Handle) : ScopeChain :=
  { chain with
    frames := chain.frames.modify index fun frame =>
      { frame with bindings := frame.bindings.set name handle } }

/-- Binds a name in a frame itself, if it is open. -/
def declare (chain : ScopeChain) (id : ScopeId) (name : String) (handle : Handle) : ScopeChain :=
  if chain.isLive id then chain.bindAt id.index name handle else chain

/-- Binds a name in a frame itself. Nothing is changed if the frame is closed. -/
def declare? (chain : ScopeChain) (id : ScopeId) (name : String) (handle : Handle) :
    Option ScopeChain :=
  if chain.isLive id then some (chain.bindAt id.index name handle) else none

theorem declare_eq_getD (chain : ScopeChain) (id : ScopeId) (name : String) (handle : Handle) :
    chain.declare id name handle = (chain.declare? id name handle).getD chain := by
  unfold declare declare?
  split <;> rfl

/-- Binds a name anew in the nearest frame outward that binds it, if there is one. -/
def assign? (chain : ScopeChain) (id : ScopeId) (name : String) (handle : Handle) :
    Option ScopeChain :=
  (chain.resolve? id name).map fun (owner, _) => chain.bindAt owner.index name handle

/-- The receiver of the nearest call outward. -/
def this? (chain : ScopeChain) (id : ScopeId) : Option Handle :=
  ((chain.path id).find? fun (_, frame) => frame.kind != .block).bind fun (_, frame) => frame.this

/-- The open frames that name a frame as the one around them, in order. -/
def children (chain : ScopeChain) (id : ScopeId) : List ScopeId :=
  (chain.frames.toList.zipIdx.filter fun (frame, _) => frame.parent == some id).map
    fun (frame, index) => ⟨index, frame.generation⟩

/-- Every handle that an open frame keeps alive. -/
def roots (chain : ScopeChain) : List Handle :=
  chain.frames.toList.flatMap Frame.handles

end ScopeChain
end Scriptlet
