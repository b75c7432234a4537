import Scriptlet.Scope

set_option autoImplicit false

/-!
The open frames apart from what is bound in them. Binding names does not change them, so which names
are valid, and which frames a walk outward meets, is a matter of the outlines alone.
-/
namespace Scriptlet

/-- A frame without what is bound in it. -/
def Frame.outline (frame : Frame) : Frame :=
  { frame with bindings := {} }

def frameIn? (frames : List Frame) (id : ScopeId) : Option Frame :=
  frames[id.index]?.filter fun frame => frame.generation == id.generation

theorem frameIn?_eq_some_iff {frames : List Frame} {id : ScopeId} {frame : Frame} :
    frameIn? frames id = some frame ↔
      frames[id.index]? = some frame ∧ frame.generation = id.generation := by
  simp [frameIn?, Option.filter_eq_some_iff]

theorem index_lt_of_frameIn? {frames : List Frame} {id : ScopeId} {frame : Frame}
    (found : frameIn? frames id = some frame) : id.index < frames.length := by
  obtain ⟨inside, _⟩ := List.getElem?_eq_some_iff.mp (frameIn?_eq_some_iff.mp found).1
  exact inside

/-- A new innermost frame hides none of the others. -/
theorem frameIn?_concat (frames : List Frame) (frame : Frame) (id : ScopeId) :
    frameIn? (frames ++ [frame]) id =
      if id = ⟨frames.length, frame.generation⟩ then some frame else frameIn? frames id := by
  obtain ⟨index, generation⟩ := id
  by_cases inside : index < frames.length
  · have other : index ≠ frames.length := by omega
    simp [frameIn?, List.getElem?_append_left inside, other]
  · by_cases last : index = frames.length
    · subst last
      by_cases same : frame.generation = generation
      · simp [frameIn?, same]
      · have differs : ¬ generation = frame.generation := fun equal => same equal.symm
        simp [frameIn?, same, differs]
    · have beyond : (frames ++ [frame])[index]? = none := by
        rw [List.getElem?_eq_none_iff, List.length_append, List.length_singleton]
        omega
      have outside : frames[index]? = none := List.getElem?_eq_none (by omega)
      simp [frameIn?, last, outside, beyond]

theorem frameIn?_concat_of_ne {frames : List Frame} {frame : Frame} {id : ScopeId}
    (other : id ≠ ⟨frames.length, frame.generation⟩) :
    frameIn? (frames ++ [frame]) id = frameIn? frames id := by
  rw [frameIn?_concat, if_neg other]

/-- A frame that is found stays when more frames are opened. -/
theorem frameIn?_concat_of_some {frames : List Frame} {id : ScopeId} {found : Frame}
    (place : frameIn? frames id = some found) (frame : Frame) :
    frameIn? (frames ++ [frame]) id = some found := by
  have inside := index_lt_of_frameIn? place
  rw [frameIn?_concat_of_ne, place]
  intro same
  rw [same] at inside
  simp at inside

/-- Only a frame that was opened before is found without the innermost one. -/
theorem frameIn?_of_concat {frames : List Frame} {frame found : Frame} {id : ScopeId}
    (place : frameIn? (frames ++ [frame]) id = some found) (inside : id.index < frames.length) :
    frameIn? frames id = some found := by
  rwa [frameIn?_concat_of_ne] at place
  intro same
  rw [same] at inside
  simp at inside

namespace ScopeChain

/-- The open frames without what is bound in them. -/
def outline (chain : ScopeChain) : List Frame :=
  chain.frames.toList.map Frame.outline

theorem outline_bindAt (chain : ScopeChain) (index : Nat) (name : String)
    (handle : Handle) : (chain.bindAt index name handle).outline = chain.outline := by
  apply List.ext_getElem?
  intro place
  simp only [outline, bindAt, List.getElem?_map, Array.getElem?_toList, Array.getElem?_modify]
  split
  · rw [Option.map_map]
    rfl
  · rfl

theorem outline_declare (chain : ScopeChain) (id : ScopeId) (name : String)
    (handle : Handle) : (chain.declare id name handle).outline = chain.outline := by
  unfold declare
  split
  · exact outline_bindAt ..
  · rfl

theorem outline_of_assign? {chain after : ScopeChain} {id : ScopeId} {name : String}
    {handle : Handle} (assigned : chain.assign? id name handle = some after) :
    after.outline = chain.outline := by
  obtain ⟨owner, _, rfl⟩ := Option.map_eq_some_iff.mp assigned
  exact outline_bindAt ..

theorem outline_assign (chain : ScopeChain) (id : ScopeId) (name : String)
    (handle : Handle) :
    ((chain.assign? id name handle).getD (chain.declare global name handle)).outline =
      chain.outline := by
  cases assigned : chain.assign? id name handle with
  | none => exact outline_declare ..
  | some after => exact outline_of_assign? assigned

theorem nextGeneration_declare (chain : ScopeChain) (id : ScopeId) (name : String)
    (handle : Handle) :
    (chain.declare id name handle).nextGeneration = chain.nextGeneration := by
  unfold declare
  split <;> rfl

theorem nextGeneration_of_assign? {chain after : ScopeChain} {id : ScopeId} {name : String}
    {handle : Handle} (assigned : chain.assign? id name handle = some after) :
    after.nextGeneration = chain.nextGeneration := by
  obtain ⟨owner, _, rfl⟩ := Option.map_eq_some_iff.mp assigned
  rfl

/-- Which frames are open does not depend on what is bound in them. -/
theorem isLive_eq_outline (chain : ScopeChain) (id : ScopeId) :
    chain.isLive id = chain.outline[id.index]?.any (·.generation == id.generation) := by
  simp only [isLive, frame?, outline, List.getElem?_map, Array.getElem?_toList]
  cases chain.frames[id.index]? with
  | none => rfl
  | some frame =>
    simp only [Option.filter_some, Option.map_some, Option.any_some, Frame.outline]
    split
    · simp_all
    · simp_all

/-- A name's frame and its outline are found together. -/
theorem outline_frame? (chain : ScopeChain) (id : ScopeId) :
    (chain.frame? id).map Frame.outline = frameIn? chain.outline id := by
  simp only [frame?, frameIn?, outline, List.getElem?_map, Array.getElem?_toList]
  cases chain.frames[id.index]? with
  | none => rfl
  | some frame =>
    by_cases same : frame.generation = id.generation
    · simp only [Option.filter_some, Option.map_some, Frame.outline, same, beq_self_eq_true,
        ↓reduceIte]
    · have differs : (frame.generation == id.generation) = false := beq_false_of_ne same
      simp only [Option.filter_some, Option.map_some, Frame.outline, differs, Bool.false_eq_true,
        ↓reduceIte, Option.map_none]

theorem isLive_eq_isSome (chain : ScopeChain) (id : ScopeId) :
    chain.isLive id = (frameIn? chain.outline id).isSome := by
  rw [← outline_frame?, isLive, Option.isSome_map]

theorem frame?_eq_none_iff (chain : ScopeChain) (id : ScopeId) :
    chain.frame? id = none ↔ chain.isLive id = false := by
  rw [isLive]
  cases chain.frame? id with
  | none => simp
  | some frame => simp

theorem length_outline (chain : ScopeChain) : chain.outline.length = chain.depth := by
  simp [outline, depth]

theorem outline_initial :
    initial.outline = [{ kind := .global, parent := none, this := none, generation := 0 }] :=
  rfl

/-- A frame that is opened becomes the innermost one. -/
theorem outline_push (chain : ScopeChain) (parent : ScopeId) (kind : ScopeKind)
    (this : Option Handle) :
    (chain.push parent kind this).2.outline =
      chain.outline ++
        [{ kind, parent := some parent, this, generation := chain.nextGeneration }] := by
  simp [outline, push, Frame.outline]

theorem id_push (chain : ScopeChain) (parent : ScopeId) (kind : ScopeKind)
    (this : Option Handle) :
    (chain.push parent kind this).1 = ⟨chain.outline.length, chain.nextGeneration⟩ := by
  rw [length_outline]
  rfl

/-- Closing a frame leaves those that were opened before it. -/
theorem outline_pop {chain : ScopeChain} {id : ScopeId} (canPop : chain.canPop id) :
    (chain.pop id).outline = chain.outline.take id.index := by
  rw [pop, if_pos canPop]
  simp [outline, List.map_take]

theorem nextGeneration_pop (chain : ScopeChain) (id : ScopeId) :
    (chain.pop id).nextGeneration = chain.nextGeneration := by
  unfold pop
  split <;> rfl

/-- The frame of the last place is the innermost one. -/
theorem innermost_eq {chain : ScopeChain} {id : ScopeId} (isLive : chain.isLive id)
    (innermost : id.index + 1 = chain.depth) :
    ∃ outer frame, chain.outline = outer ++ [frame] ∧ id = ⟨outer.length, frame.generation⟩ := by
  rw [isLive_eq_isSome] at isLive
  obtain ⟨frame, found⟩ := Option.isSome_iff_exists.mp isLive
  obtain ⟨place, same⟩ := frameIn?_eq_some_iff.mp found
  have length_eq : chain.outline.length = id.index + 1 := by rw [length_outline, innermost]
  have outline_eq : chain.outline = chain.outline.take id.index ++ [frame] := by
    have last := List.take_succ_eq_append_getElem (l := chain.outline) (i := id.index) (by omega)
    rw [List.getElem?_eq_getElem (by omega), Option.some.injEq] at place
    rwa [place, List.take_of_length_le (by omega)] at last
  refine ⟨chain.outline.take id.index, frame, outline_eq, ?_⟩
  obtain ⟨index, generation⟩ := id
  simp only at length_eq same
  simp [length_eq, same]

end ScopeChain
end Scriptlet
