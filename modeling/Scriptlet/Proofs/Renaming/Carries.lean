import Scriptlet.Machine.Evaluate
import Scriptlet.Proofs.Renaming.Value

set_option autoImplicit false

/-!
Data that handles occur in, with other names for them. Only the names of the handles that occur
matter, and for a mark how many roots the other machine has besides.
-/
namespace Scriptlet

/-- How the data of one machine goes over to another one: the other names, the handles that have
one, and the temporary roots that the other machine has besides, below all others. -/
structure Naming where
  name : Handle → Handle
  inView : Handle → Prop
  extra : List Handle

namespace Naming

/-- All that is in occupied slots, under its own name. -/
def self (heap : Heap) : Naming :=
  ⟨id, fun handle => heap.isLive handle, []⟩

/-- A naming with less in view. -/
def narrow (n : Naming) (isKept : Handle → Prop) : Naming :=
  { n with inView := fun handle => n.inView handle ∧ isKept handle }

/-- All occupied slots are in view. -/
def Complete (n : Naming) (heap : Heap) : Prop :=
  ∀ handle, heap.isLive handle → n.inView handle

end Naming

/-- Data that handles occur in. -/
class Carries (α : Type) where
  handles : α → List Handle
  rename : Naming → α → α
  rename_congr : ∀ {n m : Naming} {data : α}, n.extra = m.extra →
    (∀ handle ∈ handles data, n.name handle = m.name handle) → rename n data = rename m data

/-- Data that no handles occur in. -/
@[reducible]
def Carries.plain (α : Type) : Carries α where
  handles _ := []
  rename _ data := data
  rename_congr _ _ := rfl

instance : Carries Unit := .plain Unit

instance : Carries Nat := .plain Nat

instance : Carries PropertyKey := .plain PropertyKey

instance : Carries ScopeId := .plain ScopeId

instance : Carries (Option String) := .plain (Option String)

instance : Carries (List String) := .plain (List String)

instance : Carries (Option Float) := .plain (Option Float)

instance : Carries Mark where
  handles _ := []
  rename n mark := ⟨mark.height + n.extra.length⟩
  rename_congr extra _ := by rw [extra]

instance : Carries Handle where
  handles handle := [handle]
  rename n handle := n.name handle
  rename_congr _ same := same _ (List.mem_singleton_self _)

instance : Carries (Option Handle) where
  handles := Option.toList
  rename n := Option.map n.name
  rename_congr _ same := Option.map_congr fun handle found =>
    same handle (Option.mem_toList.mpr found)

instance : Carries (List Handle) where
  handles := id
  rename n := List.map n.name
  rename_congr _ same := List.map_congr_left same

instance : Carries (Array Handle) where
  handles := Array.toList
  rename n := Array.map n.name
  rename_congr _ same := Array.map_congr_left fun handle member =>
    same handle (Array.mem_toList_iff.mpr member)

instance : Carries Value where
  handles := Value.children
  rename n := Value.rename n.name
  rename_congr _ := Value.rename_congr

instance : Carries Reading where
  handles := Reading.handles
  rename n := Reading.rename n.name
  rename_congr {_ _ reading} _ same :=
    match reading with
    | .found handle => congrArg Reading.found (same handle (List.mem_singleton_self handle))
    | .fresh _ => congrArg Reading.fresh (Value.rename_congr same)

def NativeResult.handles : NativeResult → List Handle
  | .ok handle => [handle]
  | .error _ => []

/-- What a native comes to, with another name for its handle. -/
def NativeResult.rename (f : Handle → Handle) : NativeResult → NativeResult
  | .ok handle => .ok (f handle)
  | .error message => .error message

instance : Carries NativeResult where
  handles := NativeResult.handles
  rename n := NativeResult.rename n.name
  rename_congr {_ _ result} _ same :=
    match result with
    | .ok handle => congrArg Except.ok (same handle (List.mem_singleton_self handle))
    | .error _ => rfl

end Scriptlet
