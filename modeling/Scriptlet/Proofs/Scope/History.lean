import Mathlib.Algebra.GroupWithZero.Nat
import Scriptlet.Proofs.Scope.Outline

set_option autoImplicit false

/-!
Histories of the open frames. A chain of scopes that grows from the global frame by opening frames,
closing the innermost one and binding names never names two frames alike, as long as its counter of
generations has not come round. So the name of a closed frame stays invalid, and a walk outward
meets each frame once.
-/
namespace Scriptlet

/-- A frame that was opened: its name, the name of the frame around it, and whether that one was
open. -/
structure Opening where
  id : ScopeId
  parent : ScopeId
  inside : Bool

/-- What holds of a frame that was opened, as long as it is open: its parent is the one it was
given, further out, and open if it was so then; else it is never open. -/
def Opening.Stands (frames : List Frame) (opening : Opening) : Prop :=
  ∀ frame, frameIn? frames opening.id = some frame →
    frame.parent = some opening.parent ∧
      if opening.inside then
        (frameIn? frames opening.parent).isSome ∧ opening.parent.index < opening.id.index
      else frameIn? frames opening.parent = none

/-- The open frames and how they came about: the frames that were opened, the last one first, and
the names of those that were closed. -/
structure ScopeHistory where
  chain : ScopeChain
  opened : List Opening
  closed : List ScopeId

namespace ScopeHistory

/-- The global frame alone. -/
def initial : ScopeHistory :=
  ⟨.initial, [], []⟩

/-- All names that frames were given, the global frame's at the end. -/
def issued (history : ScopeHistory) : List ScopeId :=
  history.opened.map Opening.id ++ [ScopeChain.global]

/-- Opens a frame. -/
def push (history : ScopeHistory) (parent : ScopeId) (kind : ScopeKind) (this : Option Handle) :
    ScopeHistory :=
  let (id, chain) := history.chain.push parent kind this
  ⟨chain, ⟨id, parent, history.chain.isLive parent⟩ :: history.opened, history.closed⟩

/-- Closes a frame, unless it is the global one. -/
def pop (history : ScopeHistory) (id : ScopeId) : ScopeHistory :=
  if history.chain.canPop id then
    ⟨history.chain.pop id, history.opened, id :: history.closed⟩
  else history

/-- The same frames with other bindings. -/
def rebind (history : ScopeHistory) (chain : ScopeChain) : ScopeHistory :=
  { history with chain }

/-- The histories from the global frame on. A frame is opened inside one that was opened earlier,
whether that one is still open or not, and only the innermost frame is closed. -/
inductive Reached : ScopeHistory → Prop where
  | initial : Reached .initial
  | push {history : ScopeHistory} (reached : Reached history) {parent : ScopeId}
      (known : parent ∈ history.issued) (kind : ScopeKind) (this : Option Handle) :
      Reached (history.push parent kind this)
  | pop {history : ScopeHistory} (reached : Reached history) {id : ScopeId}
      (isLive : history.chain.isLive id) (innermost : id.index + 1 = history.chain.depth) :
      Reached (history.pop id)
  | declare {history : ScopeHistory} (reached : Reached history) (id : ScopeId) (name : String)
      (handle : Handle) : Reached (history.rebind (history.chain.declare id name handle))
  | assign {history : ScopeHistory} (reached : Reached history) (id : ScopeId) (name : String)
      (handle : Handle) :
      Reached (history.rebind ((history.chain.assign? id name handle).getD history.chain))

/-- The invariant of histories: the generations of the frames that were opened count up from one,
the open frames are among them, and the closed ones are not open. -/
structure Lawful (history : ScopeHistory) : Prop where
  next : history.chain.nextGeneration = UInt32.ofNat (history.opened.length + 1)
  old : ∀ id ∈ history.issued, id.generation.toNat ≤ history.opened.length
  nodup : history.issued.Nodup
  known : ∀ opening ∈ history.opened, opening.parent ∈ history.issued
  live : ∀ id frame, frameIn? history.chain.outline id = some frame → id ∈ history.issued
  root : ∃ frame, frameIn? history.chain.outline ScopeChain.global = some frame ∧
    frame.parent = none
  gone : ∀ id ∈ history.closed, id ∈ history.issued ∧ frameIn? history.chain.outline id = none
  remains : ∀ id ∈ history.issued,
    id ∈ history.closed ∨ (frameIn? history.chain.outline id).isSome
  stands : ∀ opening ∈ history.opened, opening.Stands history.chain.outline

theorem lawful_initial : Lawful .initial where
  next := rfl
  old := by decide
  nodup := by decide
  known := nofun
  live id frame found := by
    obtain ⟨place, same⟩ := frameIn?_eq_some_iff.mp found
    obtain ⟨index, generation⟩ := id
    have first : index = 0 := by
      have inside := index_lt_of_frameIn? found
      simp only [initial, ScopeChain.outline_initial, List.length_singleton] at inside
      omega
    subst first
    simp only [initial, ScopeChain.outline_initial, List.getElem?_cons_zero,
      Option.some.injEq] at place
    subst place
    subst same
    exact List.mem_singleton_self _
  root := ⟨_, rfl, rfl⟩
  gone := nofun
  remains := by decide
  stands := nofun

section Lawful

variable {history : ScopeHistory} (lawful : Lawful history)

include lawful

/-- The next name differs from all that were issued. -/
theorem Lawful.fresh (few : history.opened.length + 1 < 2 ^ 32) (parent : ScopeId)
    (kind : ScopeKind) (this : Option Handle) :
    (history.chain.push parent kind this).1.generation.toNat = history.opened.length + 1 ∧
      (history.chain.push parent kind this).1 ∉ history.issued := by
  have count :
      (history.chain.push parent kind this).1.generation.toNat = history.opened.length + 1 := by
    rw [ScopeChain.id_push]
    simp only [lawful.next, UInt32.toNat_ofNat']
    omega
  refine ⟨count, fun member => ?_⟩
  have bound := lawful.old _ member
  omega

/-- Every name that was issued before has the frame that it had when another frame is opened. -/
theorem Lawful.frameIn?_push (few : history.opened.length + 1 < 2 ^ 32) {id : ScopeId}
    (known : id ∈ history.issued) (parent : ScopeId) (kind : ScopeKind) (this : Option Handle) :
    frameIn? (history.chain.push parent kind this).2.outline id =
      frameIn? history.chain.outline id := by
  rw [history.chain.outline_push parent kind this]
  apply frameIn?_concat_of_ne
  intro same
  rw [same, ← history.chain.id_push parent kind this] at known
  exact (lawful.fresh few parent kind this).2 known

theorem Lawful.push (few : history.opened.length + 1 < 2 ^ 32) {parent : ScopeId}
    (parent_known : parent ∈ history.issued) (kind : ScopeKind) (this : Option Handle) :
    Lawful (history.push parent kind this) := by
  obtain ⟨count, fresh⟩ := lawful.fresh few parent kind this
  have id_eq := history.chain.id_push parent kind this
  have outline_eq := history.chain.outline_push parent kind this
  have kept {other : ScopeId} (member : other ∈ history.issued) :=
    lawful.frameIn?_push few member parent kind this
  have placed : frameIn? (history.chain.push parent kind this).2.outline
      (history.chain.push parent kind this).1 =
        some ⟨kind, some parent, this, history.chain.nextGeneration, {}⟩ := by
    rw [outline_eq, frameIn?_concat, if_pos id_eq]
  exact {
    next := by
      show history.chain.nextGeneration + 1 = UInt32.ofNat (history.opened.length + 1 + 1)
      rw [lawful.next, UInt32.ofNat_add (history.opened.length + 1) 1]
      rfl
    old := by
      intro other member
      show other.generation.toNat ≤ history.opened.length + 1
      rcases List.mem_cons.mp member with rfl | member
      · exact Nat.le_of_eq count
      · have bound := lawful.old other member
        omega
    nodup := List.nodup_cons.mpr ⟨fresh, lawful.nodup⟩
    known := by
      intro opening member
      rcases List.mem_cons.mp member with rfl | member
      · exact List.mem_cons_of_mem _ parent_known
      · exact List.mem_cons_of_mem _ (lawful.known opening member)
    live := by
      intro other frame found
      by_cases same : other = (history.chain.push parent kind this).1
      · exact same ▸ List.mem_cons_self
      · have before : frameIn? history.chain.outline other = some frame := by
          have placed : frameIn? (history.chain.push parent kind this).2.outline other =
              some frame := found
          rw [id_eq] at same
          rwa [outline_eq, frameIn?_concat_of_ne same] at placed
        exact List.mem_cons_of_mem _ (lawful.live other frame before)
    root := by
      have member : ScopeChain.global ∈ history.issued := by simp [issued]
      obtain ⟨frame, found, outermost⟩ := lawful.root
      exact ⟨frame, (kept member).trans found, outermost⟩
    gone := by
      intro other member
      obtain ⟨other_issued, absent⟩ := lawful.gone other member
      exact ⟨List.mem_cons_of_mem _ other_issued, (kept other_issued).trans absent⟩
    remains := by
      intro other member
      rcases List.mem_cons.mp member with rfl | member
      · right
        exact Option.isSome_iff_exists.mpr ⟨_, placed⟩
      · rcases lawful.remains other member with closed | found
        · exact .inl closed
        · exact .inr ((congrArg Option.isSome (kept member)).trans found)
    stands := by
      intro opening member frame found
      rcases List.mem_cons.mp member with rfl | member
      · obtain rfl := Option.some.inj (placed.symm.trans found)
        refine ⟨rfl, ?_⟩
        show if history.chain.isLive parent then
            (frameIn? (history.chain.push parent kind this).2.outline parent).isSome ∧
              parent.index < (history.chain.push parent kind this).1.index
          else frameIn? (history.chain.push parent kind this).2.outline parent = none
        rw [kept parent_known, ScopeChain.isLive_eq_isSome, id_eq]
        cases around : frameIn? history.chain.outline parent with
        | none => simp
        | some outer =>
          have further := index_lt_of_frameIn? around
          simp [further]
      · have before : frameIn? history.chain.outline opening.id = some frame := by
          rw [← kept (List.mem_append_left _ (List.mem_map_of_mem member))]
          exact found
        have stood := lawful.stands opening member frame before
        show frame.parent = some opening.parent ∧
          if opening.inside then
            (frameIn? (history.chain.push parent kind this).2.outline opening.parent).isSome ∧
              opening.parent.index < opening.id.index
          else frameIn? (history.chain.push parent kind this).2.outline opening.parent = none
        rw [kept (lawful.known opening member)]
        exact stood }

theorem Lawful.pop {id : ScopeId} (isLive : history.chain.isLive id)
    (innermost : id.index + 1 = history.chain.depth) : Lawful (history.pop id) := by
  by_cases canPop : history.chain.canPop id
  · obtain ⟨outer, frame, outline_eq, id_eq⟩ := ScopeChain.innermost_eq isLive innermost
    have popped : (history.chain.pop id).outline = outer := by
      rw [ScopeChain.outline_pop canPop, outline_eq, id_eq]
      simp
    have not_global : ScopeChain.global ≠ id := by
      rintro rfl
      simp [ScopeChain.canPop, ScopeChain.global] at canPop
    have found_id : frameIn? history.chain.outline id = some frame := by
      rw [outline_eq, frameIn?_concat, if_pos id_eq]
    -- Another name has the frame that it had, and the one that is closed has none.
    have kept {other : ScopeId} (differs : other ≠ id) :
        frameIn? outer other = frameIn? history.chain.outline other := by
      rw [outline_eq, frameIn?_concat_of_ne (id_eq ▸ differs)]
    have inside {other : ScopeId} {place : Frame} (found : frameIn? outer other = some place) :
        other.index < outer.length ∧ frameIn? history.chain.outline other = some place := by
      refine ⟨index_lt_of_frameIn? found, ?_⟩
      rw [outline_eq]
      exact frameIn?_concat_of_some found frame
    have lost {other : ScopeId} (absent : frameIn? history.chain.outline other = none) :
        frameIn? outer other = none := by
      rw [kept, absent]
      rintro rfl
      rw [found_id] at absent
      cases absent
    rw [ScopeHistory.pop, if_pos canPop]
    exact {
      next := (ScopeChain.nextGeneration_pop ..).trans lawful.next
      old := lawful.old
      nodup := lawful.nodup
      known := lawful.known
      live := by
        intro other place found
        rw [popped] at found
        exact lawful.live other place (inside found).2
      root := by
        rw [popped, kept not_global]
        exact lawful.root
      gone := by
        intro other member
        rw [popped]
        rcases List.mem_cons.mp member with rfl | member
        · refine ⟨lawful.live other frame found_id, ?_⟩
          cases place : frameIn? outer other with
          | none => rfl
          | some found =>
            have bound := (inside place).1
            rw [id_eq] at bound
            simp at bound
        · obtain ⟨other_issued, absent⟩ := lawful.gone other member
          exact ⟨other_issued, lost absent⟩
      remains := by
        intro other member
        rw [popped]
        by_cases same : other = id
        · exact .inl (same ▸ List.mem_cons_self)
        · rcases lawful.remains other member with closed | found
          · exact .inl (List.mem_cons_of_mem _ closed)
          · exact .inr ((congrArg Option.isSome (kept same)).trans found)
      stands := by
        intro opening member place found
        rw [popped] at found ⊢
        obtain ⟨within, before⟩ := inside found
        obtain ⟨parent_eq, stood⟩ := lawful.stands opening member place before
        refine ⟨parent_eq, ?_⟩
        by_cases was_inside : opening.inside
        · simp only [was_inside, ↓reduceIte] at stood ⊢
          refine ⟨?_, stood.2⟩
          rw [kept]
          · exact stood.1
          · rintro rfl
            have further := stood.2
            rw [id_eq] at further
            simp only at further
            omega
        · simp only [was_inside, Bool.false_eq_true, ↓reduceIte] at stood ⊢
          exact lost stood }
  · rw [ScopeHistory.pop, if_neg canPop]
    exact lawful

/-- The invariant does not depend on what is bound. -/
theorem Lawful.rebind {chain : ScopeChain} (outline_eq : chain.outline = history.chain.outline)
    (next_eq : chain.nextGeneration = history.chain.nextGeneration) :
    Lawful (history.rebind chain) where
  next := next_eq.trans lawful.next
  old := lawful.old
  nodup := lawful.nodup
  known := lawful.known
  live := by
    show ∀ id frame, frameIn? chain.outline id = some frame → id ∈ history.issued
    rw [outline_eq]
    exact lawful.live
  root := by
    show ∃ frame, frameIn? chain.outline ScopeChain.global = some frame ∧ frame.parent = none
    rw [outline_eq]
    exact lawful.root
  gone := by
    show ∀ id ∈ history.closed, id ∈ history.issued ∧ frameIn? chain.outline id = none
    rw [outline_eq]
    exact lawful.gone
  remains := by
    show ∀ id ∈ history.issued, id ∈ history.closed ∨ (frameIn? chain.outline id).isSome
    rw [outline_eq]
    exact lawful.remains
  stands := by
    show ∀ opening ∈ history.opened, opening.Stands chain.outline
    rw [outline_eq]
    exact lawful.stands

end Lawful

/-- Every history with fewer than `2 ^ 32` openings keeps the invariant. -/
theorem Reached.lawful {history : ScopeHistory} (reached : Reached history)
    (few : history.opened.length < 2 ^ 32) : Lawful history := by
  induction reached with
  | initial => exact lawful_initial
  | push reached known kind this ih =>
    have before := ih (Nat.lt_of_succ_lt few)
    exact before.push few known kind this
  | @pop history reached id isLive innermost ih =>
    have same : (history.pop id).opened = history.opened := by
      unfold ScopeHistory.pop
      split <;> rfl
    rw [same] at few
    exact (ih few).pop isLive innermost
  | declare reached id name handle ih =>
    exact (ih few).rebind (ScopeChain.outline_declare ..) (ScopeChain.nextGeneration_declare ..)
  | @assign history reached id name handle ih =>
    apply (ih few).rebind
    · cases rebound : history.chain.assign? id name handle with
      | none => rfl
      | some chain => exact ScopeChain.outline_of_assign? rebound
    · cases rebound : history.chain.assign? id name handle with
      | none => rfl
      | some chain => exact ScopeChain.nextGeneration_of_assign? rebound

end ScopeHistory
end Scriptlet
