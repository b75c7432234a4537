import Std.Data.HashMap

set_option autoImplicit false

/-!
Property tables: names with handles, in the order in which the names came. An index from names to
positions makes look-ups fast.
-/
namespace Scriptlet

/-- A number is cut to its lowest 32 bits where a word is expected. -/
instance coeNatWord : Coe Nat UInt32 :=
  ⟨Nat.toUInt32⟩

/-- The number of a heap slot, in one word. -/
structure Handle where
  word : UInt32
  deriving DecidableEq, Repr, Inhabited

/-- The place of the slot that a handle names. -/
def Handle.index (handle : Handle) : Nat :=
  handle.word.toNat

@[simp] theorem Handle.mk_index (handle : Handle) : ⟨handle.index⟩ = handle := by
  simp [index]

theorem Handle.eq_of_index {left right : Handle} (same : left.index = right.index) :
    left = right := by
  rw [← left.mk_index, same, right.mk_index]

def Handle.text (handle : Handle) : String :=
  "#" ++ toString handle.index

/-- Names with handles, in the order of their first insertion. -/
structure PropertyMap where
  entries : Array (String × Handle) := #[]
  positions : Std.HashMap String Nat := ∅

namespace PropertyMap

def empty : PropertyMap := {}

def get? (map : PropertyMap) (key : String) : Option Handle := do
  let position ← map.positions[key]?
  let entry ← map.entries[position]?
  return entry.2

def contains (map : PropertyMap) (key : String) : Bool :=
  map.positions.contains key

/-- Gives a name a handle. A name that is there already keeps its place. -/
def insert (map : PropertyMap) (key : String) (handle : Handle) : PropertyMap :=
  match map.positions[key]? with
  | some position =>
    { map with entries := map.entries.modify position fun entry => (entry.1, handle) }
  | none =>
    let position := map.entries.size
    { entries := map.entries.push (key, handle), positions := map.positions.insert key position }

def size (map : PropertyMap) : Nat :=
  map.entries.size

def isEmpty (map : PropertyMap) : Bool :=
  map.entries.isEmpty

/-- The names with their handles, in order. -/
def toList (map : PropertyMap) : List (String × Handle) :=
  map.entries.toList

def handles (map : PropertyMap) : List Handle :=
  map.toList.map Prod.snd

def ofList (insertions : List (String × Handle)) : PropertyMap :=
  insertions.foldl (fun map entry => map.insert entry.1 entry.2) empty

end PropertyMap
end Scriptlet
