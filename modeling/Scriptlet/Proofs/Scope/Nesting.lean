import Scriptlet.Proofs.Scope.Identity

set_option autoImplicit false

/-!
How scopes are nested. The way outward from a scope comes to the global frame, through open frames
of certain kinds; it stays the same while inner frames are opened and closed.
-/
namespace Scriptlet

theorem frameIn?_mono {frames later : List Frame} {id : ScopeId} {frame : Frame}
    (extends_frames : frames <+: later) (found : frameIn? frames id = some frame) :
    frameIn? later id = some frame := by
  obtain ⟨inner, rfl⟩ := extends_frames
  obtain ⟨place, same⟩ := frameIn?_eq_some_iff.mp found
  refine frameIn?_eq_some_iff.mpr ⟨?_, same⟩
  rw [List.getElem?_append_left (index_lt_of_frameIn? found), place]

/-- From a scope outward all frames are open, each further out than the one before, up to the global
frame. Their kinds are listed without that of the global frame. -/
inductive Enclosed (frames : List Frame) : ScopeId → List ScopeKind → Prop where
  | global {frame : Frame} (found : frameIn? frames ScopeChain.global = some frame)
      (kind_eq : frame.kind = .global) (outermost : frame.parent = none) :
      Enclosed frames ScopeChain.global []
  | inside {id parent : ScopeId} {frame : Frame} {kinds : List ScopeKind}
      (found : frameIn? frames id = some frame) (parent_eq : frame.parent = some parent)
      (further : parent.index < id.index) (outward : Enclosed frames parent kinds) :
      Enclosed frames id (frame.kind :: kinds)

namespace Enclosed

variable {frames : List Frame} {id : ScopeId} {kinds : List ScopeKind}

theorem isSome (enclosed : Enclosed frames id kinds) : (frameIn? frames id).isSome := by
  cases enclosed with
  | global found => rw [found]; rfl
  | inside found => rw [found]; rfl

/-- Frames that are opened further in change nothing. -/
theorem mono {later : List Frame} (extends_frames : frames <+: later)
    (enclosed : Enclosed frames id kinds) : Enclosed later id kinds := by
  induction enclosed with
  | global found kind_eq outermost =>
    exact .global (frameIn?_mono extends_frames found) kind_eq outermost
  | inside found parent_eq further _ ih =>
    exact .inside (frameIn?_mono extends_frames found) parent_eq further ih

/-- Closing the innermost frame changes nothing for the others. -/
theorem of_concat {frame : Frame} (enclosed : Enclosed (frames ++ [frame]) id kinds)
    (inside : id.index < frames.length) : Enclosed frames id kinds := by
  induction enclosed with
  | global found kind_eq outermost =>
    exact .global (frameIn?_of_concat found inside) kind_eq outermost
  | inside found parent_eq further _ ih =>
    exact .inside (frameIn?_of_concat found inside) parent_eq further
      (ih (Nat.lt_trans further inside))

theorem of_concat_of_ne {frame : Frame} (enclosed : Enclosed (frames ++ [frame]) id kinds)
    (other : id ≠ ⟨frames.length, frame.generation⟩) : Enclosed frames id kinds := by
  obtain ⟨found, place⟩ := Option.isSome_iff_exists.mp enclosed.isSome
  rw [frameIn?_concat_of_ne other] at place
  exact enclosed.of_concat (index_lt_of_frameIn? place)

/-- A frame that is opened inside a scope adds its kind. -/
theorem opened (enclosed : Enclosed frames id kinds) (frame : Frame)
    (parent_eq : frame.parent = some id) :
    Enclosed (frames ++ [frame]) ⟨frames.length, frame.generation⟩ (frame.kind :: kinds) := by
  obtain ⟨outer, found⟩ := Option.isSome_iff_exists.mp enclosed.isSome
  refine .inside ?_ parent_eq (index_lt_of_frameIn? found)
    (enclosed.mono (List.prefix_append frames [frame]))
  rw [frameIn?_concat, if_pos rfl]

end Enclosed

/-- The walk outward from a scope meets open frames up to the global frame, the last one. The others
have certain kinds. -/
structure ScopeChain.Nested (chain : ScopeChain) (scope : ScopeId) (kinds : List ScopeKind) :
    Prop where
  walk : chain.Walk (some scope) (chain.path scope)
  live : ∀ entry ∈ chain.path scope, chain.isLive entry.1
  kinds_eq : (chain.path scope).map (fun entry => entry.2.kind) = kinds ++ [.global]
  last : ∃ frame, (chain.path scope).getLast? = some (ScopeChain.global, frame) ∧
    frame.parent = none

theorem Enclosed.exists_walk {chain : ScopeChain} {scope : ScopeId} {kinds : List ScopeKind}
    (enclosed : Enclosed chain.outline scope kinds) :
    ∃ entries, chain.Walk (some scope) entries ∧ entries.length ≤ scope.index + 1 ∧
      (∀ entry ∈ entries, chain.isLive entry.1) ∧
      entries.map (fun entry => entry.2.kind) = kinds ++ [.global] ∧
      ∃ frame, entries.getLast? = some (ScopeChain.global, frame) ∧ frame.parent = none := by
  have frame_eq {id : ScopeId} {outline : Frame}
      (found : frameIn? chain.outline id = some outline) :
      ∃ frame, chain.frame? id = some frame ∧ frame.kind = outline.kind ∧
        frame.parent = outline.parent ∧ chain.isLive id := by
    rw [← ScopeChain.outline_frame?] at found
    obtain ⟨frame, place, rfl⟩ := Option.map_eq_some_iff.mp found
    exact ⟨frame, place, rfl, rfl, by rw [ScopeChain.isLive, place]; rfl⟩
  induction enclosed with
  | global found kind_eq outermost =>
    obtain ⟨frame, place, kind, parent, isLive⟩ := frame_eq found
    have ends : frame.parent = none := parent.trans outermost
    refine ⟨[(ScopeChain.global, frame)], .onward place (ends ▸ .outside), ?_, ?_, ?_, ?_⟩
    · simp
    · rintro entry member
      rwa [List.mem_singleton.mp member]
    · simp [kind, kind_eq]
    · exact ⟨frame, rfl, ends⟩
  | @inside id outer outline kinds found parent_eq further _ ih =>
    obtain ⟨frame, place, kind, parent, isLive⟩ := frame_eq found
    obtain ⟨entries, walk, length_le, live, kinds_eq, last, last_eq, ends⟩ := ih
    have onward : frame.parent = some outer := parent.trans parent_eq
    refine ⟨(id, frame) :: entries, .onward place (onward ▸ walk), ?_, ?_, ?_, last, ?_, ends⟩
    · simp only [List.length_cons]
      omega
    · exact List.forall_mem_cons.mpr ⟨isLive, live⟩
    · simp [kind, kinds_eq]
    · rw [List.getLast?_cons, last_eq]
      rfl

theorem Enclosed.nested {chain : ScopeChain} {scope : ScopeId} {kinds : List ScopeKind}
    (enclosed : Enclosed chain.outline scope kinds) : chain.Nested scope kinds := by
  obtain ⟨entries, walk, length_le, live, kinds_eq, last⟩ := enclosed.exists_walk
  obtain ⟨frame, found⟩ := Option.isSome_iff_exists.mp enclosed.isSome
  have inside := index_lt_of_frameIn? found
  rw [ScopeChain.length_outline] at inside
  have path_eq : chain.path scope = entries := walk.pathWithin_eq (by omega)
  subst path_eq
  exact ⟨walk, live, kinds_eq, last⟩

namespace ScopeHistory

/-- What is known of the names that were given, when more has happened: they stay given, a closed
frame stays closed, and an open one is closed, or is what it was, inside the same frames. -/
structure Succeeds (before after : ScopeHistory) : Prop where
  issued : before.issued ⊆ after.issued
  closed : before.closed ⊆ after.closed
  kept : ∀ id ∈ before.issued, id ∈ after.closed ∨
    frameIn? after.chain.outline id = frameIn? before.chain.outline id
  enclosed : ∀ id kinds, Enclosed before.chain.outline id kinds →
    id ∈ after.closed ∨ Enclosed after.chain.outline id kinds

variable {history : ScopeHistory}

theorem succeeds_rebind {chain : ScopeChain} (outline_eq : chain.outline = history.chain.outline) :
    Succeeds history (history.rebind chain) where
  issued := List.Subset.refl _
  closed := List.Subset.refl _
  kept id _ := .inr (congrArg (frameIn? · id) outline_eq)
  enclosed id kinds enclosed := by
    right
    rw [← outline_eq] at enclosed
    exact enclosed

theorem Lawful.succeeds_push (lawful : Lawful history) (few : history.opened.length + 1 < 2 ^ 32)
    (parent : ScopeId) (kind : ScopeKind) (this : Option Handle) :
    Succeeds history (history.push parent kind this) where
  issued := List.subset_cons_self _ _
  closed := List.Subset.refl _
  kept id known := .inr (lawful.frameIn?_push few known parent kind this)
  enclosed id kinds enclosed := by
    right
    refine enclosed.mono ?_
    show history.chain.outline <+: (history.chain.push parent kind this).2.outline
    rw [ScopeChain.outline_push]
    exact List.prefix_append _ _

theorem succeeds_pop {id : ScopeId} (isLive : history.chain.isLive id)
    (innermost : id.index + 1 = history.chain.depth) : Succeeds history (history.pop id) := by
  by_cases canPop : history.chain.canPop id
  · obtain ⟨outer, frame, outline_eq, id_eq⟩ := ScopeChain.innermost_eq isLive innermost
    have popped : (history.chain.pop id).outline = outer := by
      rw [ScopeChain.outline_pop canPop, outline_eq, id_eq]
      simp
    rw [ScopeHistory.pop, if_pos canPop]
    exact {
      issued := List.Subset.refl _
      closed := List.subset_cons_self _ _
      kept := by
        intro other _
        by_cases same : other = id
        · exact .inl (same ▸ List.mem_cons_self)
        · right
          rw [popped, outline_eq, frameIn?_concat_of_ne (id_eq ▸ same)]
      enclosed := by
        intro other kinds enclosed
        by_cases same : other = id
        · exact .inl (same ▸ List.mem_cons_self)
        · right
          rw [popped]
          rw [outline_eq] at enclosed
          exact enclosed.of_concat_of_ne (id_eq ▸ same) }
  · rw [ScopeHistory.pop, if_neg canPop]
    exact succeeds_rebind rfl

end ScopeHistory
end Scriptlet
