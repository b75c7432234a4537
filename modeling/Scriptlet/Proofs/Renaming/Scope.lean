import Scriptlet.Proofs.Renaming.Value
import Scriptlet.Scope

set_option autoImplicit false

/-!
Scopes with other names for the handles in them. Names are looked up and bound in the same frames.
-/
namespace Scriptlet

namespace Bindings

def rename (f : Handle → Handle) (bindings : Bindings) : Bindings :=
  ⟨bindings.entries.map fun entry => (entry.1, f entry.2)⟩

theorem get?_rename (f : Handle → Handle) (bindings : Bindings) (name : String) :
    (bindings.rename f).get? name = (bindings.get? name).map f := by
  simp only [get?, rename]
  induction bindings.entries with
  | nil => rfl
  | cons entry rest ih =>
    rw [List.map_cons, List.lookup_cons, List.lookup_cons, ih]
    split <;> rfl

theorem set_rename (f : Handle → Handle) (bindings : Bindings) (name : String) (handle : Handle) :
    (bindings.set name handle).rename f = (bindings.rename f).set name (f handle) := by
  simp only [set, rename, mk.injEq]
  induction bindings.entries with
  | nil => rfl
  | cons entry rest ih =>
    simp only [setEntry, List.map_cons]
    split
    · rfl
    · rw [List.map_cons, ih]

theorem mem_handles_of_get? {bindings : Bindings} {name : String} {handle : Handle}
    (found : bindings.get? name = some handle) : handle ∈ bindings.handles := by
  obtain ⟨entries⟩ := bindings
  simp only [get?, handles] at found ⊢
  induction entries with
  | nil => cases found
  | cons entry rest ih =>
    rw [List.lookup_cons] at found
    split at found
    · cases found
      exact List.mem_cons_self
    · exact List.mem_cons_of_mem _ (ih found)

theorem mem_handles_set {bindings : Bindings} {name : String} {handle other : Handle}
    (member : other ∈ (bindings.set name handle).handles) :
    other = handle ∨ other ∈ bindings.handles := by
  obtain ⟨entries⟩ := bindings
  simp only [set, handles] at member ⊢
  induction entries with
  | nil => exact .inl (List.mem_singleton.mp member)
  | cons entry rest ih =>
    rw [setEntry] at member
    split at member
    · exact (List.mem_cons.mp member).imp_right (List.mem_cons_of_mem _)
    · rcases List.mem_cons.mp member with here | later
      · exact .inr (here ▸ List.mem_cons_self)
      · exact (ih later).imp_right (List.mem_cons_of_mem _)

end Bindings

def Frame.rename (f : Handle → Handle) (frame : Frame) : Frame :=
  { frame with this := frame.this.map f, bindings := frame.bindings.rename f }

theorem Frame.rename_congr {f g : Handle → Handle} {frame : Frame}
    (same : ∀ handle ∈ frame.handles, f handle = g handle) : frame.rename f = frame.rename g := by
  have this_eq : frame.this.map f = frame.this.map g :=
    Option.map_congr fun handle receiver =>
      same handle (List.mem_append_right _ (Option.mem_toList.mpr receiver))
  have bindings_eq : frame.bindings.rename f = frame.bindings.rename g := by
    simp only [Bindings.rename, Bindings.mk.injEq]
    apply List.map_congr_left
    intro entry member
    rw [same entry.2 (List.mem_append_left _ (List.mem_map_of_mem member))]
  simp only [rename, this_eq, bindings_eq]

theorem Frame.handles_rename (f : Handle → Handle) (frame : Frame) :
    (frame.rename f).handles = frame.handles.map f := by
  simp [handles, rename, Bindings.handles, Bindings.rename, Option.toList_map]

theorem Frame.rename_id (frame : Frame) : frame.rename id = frame := by
  simp [rename, Bindings.rename]

namespace ScopeChain

def rename (f : Handle → Handle) (chain : ScopeChain) : ScopeChain :=
  { chain with frames := chain.frames.map (Frame.rename f) }

variable (f : Handle → Handle) (chain : ScopeChain)

theorem rename_id : chain.rename id = chain := by
  have frame_eq : Frame.rename id = id := funext Frame.rename_id
  simp [rename, frame_eq]

theorem roots_rename : (chain.rename f).roots = chain.roots.map f := by
  simp [roots, rename, List.flatMap_map, List.map_flatMap, Frame.handles_rename]

theorem frame?_rename (id : ScopeId) :
    (chain.rename f).frame? id = (chain.frame? id).map (Frame.rename f) := by
  simp only [frame?, rename, Array.getElem?_map, Option.filter_map]
  rfl

theorem isLive_rename (id : ScopeId) : (chain.rename f).isLive id = chain.isLive id := by
  rw [isLive, frame?_rename, Option.isSome_map, isLive]

theorem path_rename (id : ScopeId) :
    (chain.rename f).path id = (chain.path id).map fun entry => (entry.1, entry.2.rename f) := by
  have within (count : Nat) (id : ScopeId) : (chain.rename f).pathWithin count id =
      (chain.pathWithin count id).map fun entry => (entry.1, entry.2.rename f) := by
    induction count generalizing id with
    | zero => rfl
    | succ count ih =>
      rw [pathWithin, pathWithin, frame?_rename]
      cases chain.frame? id with
      | none => rfl
      | some frame =>
        have parent_eq : (frame.rename f).parent = frame.parent := rfl
        simp only [Option.map_some, List.map_cons, parent_eq]
        cases frame.parent with
        | none => rfl
        | some parent => exact congrArg _ (ih parent)
  have depth_eq : (chain.rename f).depth = chain.depth := Array.size_map
  rw [path, path, depth_eq, within]

theorem resolve?_rename (id : ScopeId) (name : String) :
    (chain.rename f).resolve? id name =
      (chain.resolve? id name).map fun found => (found.1, f found.2) := by
  rw [resolve?, resolve?, path_rename]
  induction chain.path id with
  | nil => rfl
  | cons entry rest ih =>
    simp only [List.map_cons, List.findSome?_cons, Frame.rename, Bindings.get?_rename]
    cases entry.2.bindings.get? name with
    | none => exact ih
    | some handle => rfl

theorem lookup?_rename (id : ScopeId) (name : String) :
    (chain.rename f).lookup? id name = (chain.lookup? id name).map f := by
  rw [lookup?, lookup?, resolve?_rename]
  cases chain.resolve? id name <;> rfl

theorem this?_rename (id : ScopeId) : (chain.rename f).this? id = (chain.this? id).map f := by
  rw [this?, this?, path_rename]
  induction chain.path id with
  | nil => rfl
  | cons entry rest ih =>
    have kind_eq : (entry.2.rename f).kind = entry.2.kind := rfl
    simp only [List.map_cons, List.find?_cons, kind_eq]
    split
    · rfl
    · exact ih

theorem bindAt_rename (index : Nat) (name : String) (handle : Handle) :
    (chain.bindAt index name handle).rename f = (chain.rename f).bindAt index name (f handle) := by
  simp only [bindAt, rename, mk.injEq, and_true]
  apply Array.ext_getElem?
  intro place
  simp only [Array.getElem?_map, Array.getElem?_modify]
  split
  · simp only [Option.map_map]
    congr 1
    funext frame
    simp only [Function.comp, Frame.rename, Bindings.set_rename]
  · rfl

theorem declare_rename (id : ScopeId) (name : String) (handle : Handle) :
    (chain.declare id name handle).rename f = (chain.rename f).declare id name (f handle) := by
  rw [declare, declare, isLive_rename]
  split
  · exact bindAt_rename f chain id.index name handle
  · rfl

/-- Binding a name anew where it is bound, or else in the global frame. -/
theorem assign_rename (id : ScopeId) (name : String) (handle : Handle) :
    ((chain.assign? id name handle).getD (chain.declare global name handle)).rename f =
      ((chain.rename f).assign? id name (f handle)).getD
        ((chain.rename f).declare global name (f handle)) := by
  rw [assign?, assign?, resolve?_rename]
  cases chain.resolve? id name with
  | none => exact declare_rename f chain global name handle
  | some owner => exact bindAt_rename f chain owner.1.index name handle

theorem push_rename (parent : ScopeId) (kind : ScopeKind) (this : Option Handle) :
    (chain.rename f).push parent kind (this.map f) =
      ((chain.push parent kind this).1, (chain.push parent kind this).2.rename f) := by
  simp [push, rename, Frame.rename, Bindings.rename]

theorem canPop_rename (id : ScopeId) : (chain.rename f).canPop id = chain.canPop id := by
  rw [canPop, canPop, isLive_rename]

theorem pop_rename (id : ScopeId) : (chain.rename f).pop id = (chain.pop id).rename f := by
  rw [pop, pop, canPop_rename]
  split
  · simp [rename]
  · rfl

variable {f chain}

theorem handles_subset_roots {id : ScopeId} {frame : Frame} (found : chain.frame? id = some frame) :
    frame.handles ⊆ chain.roots := by
  obtain ⟨place, _⟩ := Option.filter_eq_some_iff.mp found
  intro handle member
  exact List.mem_flatMap.mpr
    ⟨frame, Array.mem_toList_iff.mpr (Array.mem_of_getElem? place), member⟩

theorem handles_subset_roots_of_mem_path {id : ScopeId} {entry : ScopeId × Frame}
    (member : entry ∈ chain.path id) : entry.2.handles ⊆ chain.roots := by
  have within (count : Nat) (id : ScopeId) :
      entry ∈ chain.pathWithin count id → entry.2.handles ⊆ chain.roots := by
    induction count generalizing id with
    | zero => nofun
    | succ count ih =>
      intro member
      rw [pathWithin] at member
      cases found : chain.frame? id with
      | none => simp [found] at member
      | some frame =>
        rw [found] at member
        rcases List.mem_cons.mp member with rfl | outer
        · exact handles_subset_roots found
        · cases parent_eq : frame.parent with
          | none => simp [parent_eq] at outer
          | some parent =>
            rw [parent_eq] at outer
            exact ih parent outer
  exact within chain.depth id member

theorem mem_roots_of_lookup? {id : ScopeId} {name : String} {handle : Handle}
    (found : chain.lookup? id name = some handle) : handle ∈ chain.roots := by
  obtain ⟨⟨owner, bound⟩, resolved, rfl⟩ := Option.map_eq_some_iff.mp found
  obtain ⟨entry, member, entry_eq⟩ := List.exists_of_findSome?_eq_some resolved
  obtain ⟨handle, bound_eq, same⟩ := Option.map_eq_some_iff.mp entry_eq
  cases same
  apply handles_subset_roots_of_mem_path member
  exact List.mem_append_left _ (Bindings.mem_handles_of_get? bound_eq)

theorem mem_roots_of_this? {id : ScopeId} {handle : Handle}
    (found : chain.this? id = some handle) : handle ∈ chain.roots := by
  obtain ⟨entry, nearest, this_eq⟩ := Option.bind_eq_some_iff.mp found
  apply handles_subset_roots_of_mem_path (List.mem_of_find?_eq_some nearest)
  exact List.mem_append_right _ (Option.mem_toList.mpr this_eq)

theorem mem_roots_bindAt {index : Nat} {name : String} {handle other : Handle}
    (member : other ∈ (chain.bindAt index name handle).roots) :
    other = handle ∨ other ∈ chain.roots := by
  obtain ⟨frame, place, held⟩ := List.mem_flatMap.mp member
  obtain ⟨place, found⟩ := Array.mem_iff_getElem?.mp (Array.mem_toList_iff.mp place)
  rw [bindAt, Array.getElem?_modify] at found
  have before {frame : Frame} (found : chain.frames[place]? = some frame)
      (held : other ∈ frame.handles) : other ∈ chain.roots :=
    List.mem_flatMap.mpr ⟨frame, Array.mem_toList_iff.mpr (Array.mem_of_getElem? found), held⟩
  split at found
  · obtain ⟨former, former_eq, rfl⟩ := Option.map_eq_some_iff.mp found
    rcases List.mem_append.mp held with bound | receiver
    · rcases Bindings.mem_handles_set bound with rfl | bound
      · exact .inl rfl
      · exact .inr (before former_eq (List.mem_append_left _ bound))
    · exact .inr (before former_eq (List.mem_append_right _ receiver))
  · exact .inr (before found held)

theorem mem_roots_declare {id : ScopeId} {name : String} {handle other : Handle}
    (member : other ∈ (chain.declare id name handle).roots) :
    other = handle ∨ other ∈ chain.roots := by
  rw [declare] at member
  split at member
  · exact mem_roots_bindAt member
  · exact .inr member

theorem mem_roots_assign {id : ScopeId} {name : String} {handle other : Handle}
    (member : other ∈
      ((chain.assign? id name handle).getD (chain.declare global name handle)).roots) :
    other = handle ∨ other ∈ chain.roots := by
  rw [assign?] at member
  cases found : chain.resolve? id name with
  | none =>
    rw [found] at member
    exact mem_roots_declare member
  | some owner =>
    rw [found] at member
    exact mem_roots_bindAt member

theorem mem_roots_push {parent : ScopeId} {kind : ScopeKind} {this : Option Handle} {other : Handle}
    (member : other ∈ (chain.push parent kind this).2.roots) :
    other ∈ this.toList ∨ other ∈ chain.roots := by
  simp only [push, roots, Array.toList_push, List.flatMap_append, List.mem_append] at member
  rcases member with before | added
  · exact .inr before
  · exact .inl (by simpa [Frame.handles, Bindings.handles] using added)

theorem roots_pop_subset (id : ScopeId) : (chain.pop id).roots ⊆ chain.roots := by
  rw [pop]
  split
  · intro handle member
    obtain ⟨frame, place, held⟩ := List.mem_flatMap.mp member
    refine List.mem_flatMap.mpr ⟨frame, ?_, held⟩
    rw [Array.toList_shrink] at place
    exact List.mem_of_mem_take place
  · exact List.Subset.refl _

theorem rename_congr {g : Handle → Handle} (same : ∀ handle ∈ chain.roots, f handle = g handle) :
    chain.rename f = chain.rename g := by
  simp only [rename, mk.injEq, and_true]
  apply Array.map_congr_left
  intro frame member
  apply Frame.rename_congr
  intro handle held
  exact same handle (List.mem_flatMap.mpr ⟨frame, Array.mem_toList_iff.mpr member, held⟩)

end ScopeChain

end Scriptlet
