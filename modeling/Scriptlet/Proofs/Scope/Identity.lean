import Scriptlet.Proofs.Scope.History

set_option autoImplicit false

/-!
The names of frames. In every history of a chain with fewer than `2 ^ 32` openings a name denotes
one frame, a closed frame is gone for good, and the walk outward from any name that was ever given
comes to its end.
-/
namespace Scriptlet

namespace ScopeChain

/-- The walk outward from a place and the frames that it meets. It ends outside the frame that has
no parent, or at the name of a frame that is gone; nothing else bounds it. -/
inductive Walk (chain : ScopeChain) : Option ScopeId → List (ScopeId × Frame) → Prop where
  | outside : Walk chain none []
  | gone {id : ScopeId} (absent : chain.frame? id = none) : Walk chain (some id) []
  | onward {id : ScopeId} {frame : Frame} {rest : List (ScopeId × Frame)}
      (found : chain.frame? id = some frame) (outward : Walk chain frame.parent rest) :
      Walk chain (some id) ((id, frame) :: rest)

/-- A walk meets the frames of the path, if the path is not cut short. -/
theorem Walk.pathWithin_eq {chain : ScopeChain} {start : Option ScopeId}
    {entries : List (ScopeId × Frame)} (walk : Walk chain start entries) {count : Nat}
    (enough : entries.length ≤ count) : start.elim [] (chain.pathWithin count) = entries := by
  induction walk generalizing count with
  | outside => rfl
  | gone absent =>
    cases count with
    | zero => rfl
    | succ count => simp only [Option.elim_some, pathWithin, absent]
  | @onward id frame rest found outward ih =>
    cases count with
    | zero => simp at enough
    | succ count =>
      have shorter : rest.length ≤ count := by simpa using enough
      simp only [Option.elim_some, pathWithin, found]
      have onward := ih shorter
      cases parent_eq : frame.parent with
      | none => rw [← onward, parent_eq]; rfl
      | some parent => rw [← onward, parent_eq]; rfl

theorem path_of_gone {chain : ScopeChain} {id : ScopeId} (absent : chain.frame? id = none) :
    chain.path id = [] :=
  Walk.pathWithin_eq (.gone absent) (Nat.zero_le _)

/-- Everything that can be done with the name of a frame finds that it is gone, and leaves the chain
as it is. -/
structure Gone (chain : ScopeChain) (id : ScopeId) : Prop where
  isLive : chain.isLive id = false
  frame : chain.frame? id = none
  declare : ∀ name handle,
    chain.declare? id name handle = none ∧ chain.declare id name handle = chain
  assign : ∀ name handle, chain.assign? id name handle = none
  resolve : ∀ name, chain.resolve? id name = none
  this : chain.this? id = none

theorem gone_of_frame? {chain : ScopeChain} {id : ScopeId} (absent : chain.frame? id = none) :
    Gone chain id := by
  have closed : chain.isLive id = false := (chain.frame?_eq_none_iff id).mp absent
  have unresolved (name : String) : chain.resolve? id name = none := by
    rw [resolve?, path_of_gone absent, List.findSome?_nil]
  have undeclared (name : String) (handle : Handle) : chain.declare? id name handle = none := by
    simp [declare?, closed]
  exact {
    isLive := closed
    frame := absent
    declare := by
      intro name handle
      refine ⟨undeclared name handle, ?_⟩
      rw [declare_eq_getD, undeclared, Option.getD_none]
    assign := by
      intro name handle
      rw [assign?, unresolved, Option.map_none]
    resolve := unresolved
    this := by
      rw [this?, path_of_gone absent]
      rfl }

end ScopeChain

namespace ScopeHistory

open ScopeChain (Walk Gone)

/-- The walk outward from a name that was given comes to its end, each frame further out than the
one before. -/
theorem Lawful.exists_walk {history : ScopeHistory} (lawful : Lawful history) {id : ScopeId}
    (known : id ∈ history.issued) :
    ∃ entries, Walk history.chain (some id) entries ∧ entries.length ≤ id.index + 1 ∧
      (∀ entry ∈ entries, entry.1.index ≤ id.index) ∧
      entries.Pairwise fun inner outer => outer.1.index < inner.1.index := by
  induction place : id.index using Nat.strongRecOn generalizing id with
  | ind index ih =>
    subst place
    cases found : history.chain.frame? id with
    | none => exact ⟨[], .gone found, by simp, nofun, .nil⟩
    | some frame =>
      have outline_found : frameIn? history.chain.outline id = some frame.outline := by
        rw [← ScopeChain.outline_frame?, found, Option.map_some]
      -- The walk ends here if the parent's frame is missing, or goes on from there.
      have ends (last : Walk history.chain frame.parent []) :
          ∃ entries, Walk history.chain (some id) entries ∧ entries.length ≤ id.index + 1 ∧
            (∀ entry ∈ entries, entry.1.index ≤ id.index) ∧
            entries.Pairwise fun inner outer => outer.1.index < inner.1.index := by
        refine ⟨[(id, frame)], .onward found last, ?_, ?_, List.pairwise_singleton _ _⟩
        · simp
        · intro entry member
          obtain rfl := List.mem_singleton.mp member
          exact Nat.le_refl _
      rcases List.mem_append.mp known with opened | outermost
      · obtain ⟨opening, member, rfl⟩ := List.mem_map.mp opened
        obtain ⟨parent_eq, stood⟩ := lawful.stands opening member _ outline_found
        have parent_eq : frame.parent = some opening.parent := parent_eq
        by_cases inside : opening.inside
        · simp only [inside, ↓reduceIte] at stood
          obtain ⟨entries, walk, length_le, bounded, descending⟩ :=
            ih opening.parent.index stood.2 (lawful.known opening member) rfl
          refine ⟨(opening.id, frame) :: entries, .onward found (parent_eq ▸ walk), ?_, ?_, ?_⟩
          · have further := stood.2
            simp only [List.length_cons]
            omega
          · intro entry entry_member
            rcases List.mem_cons.mp entry_member with rfl | later
            · exact Nat.le_refl _
            · have bound := bounded entry later
              have further := stood.2
              omega
          · refine List.pairwise_cons.mpr ⟨fun entry later => ?_, descending⟩
            have bound := bounded entry later
            have further := stood.2
            simp only
            omega
        · simp only [inside, Bool.false_eq_true, ↓reduceIte] at stood
          apply ends
          rw [parent_eq]
          refine .gone ?_
          rw [← Option.map_eq_none_iff, ScopeChain.outline_frame?, stood]
      · obtain rfl := List.mem_singleton.mp outermost
        obtain ⟨global, global_eq, parent_eq⟩ := lawful.root
        rw [outline_found, Option.some.injEq] at global_eq
        apply ends
        have parent_none : frame.parent = none := by
          rw [← global_eq] at parent_eq
          exact parent_eq
        rw [parent_none]
        exact .outside

theorem Lawful.walk_path {history : ScopeHistory} (lawful : Lawful history) {id : ScopeId}
    (known : id ∈ history.issued) :
    Walk history.chain (some id) (history.chain.path id) ∧
      ((history.chain.path id).map Prod.fst).Nodup := by
  obtain ⟨entries, walk, length_le, _, descending⟩ := lawful.exists_walk known
  have enough : entries.length ≤ history.chain.depth := by
    cases walk with
    | gone => simp
    | @onward _ frame rest found outward =>
      have outline_found : frameIn? history.chain.outline id = some frame.outline := by
        rw [← ScopeChain.outline_frame?, found, Option.map_some]
      have inside := index_lt_of_frameIn? outline_found
      rw [ScopeChain.length_outline] at inside
      omega
  have path_eq : history.chain.path id = entries := walk.pathWithin_eq enough
  rw [path_eq]
  refine ⟨walk, ?_⟩
  rw [List.Nodup, List.pairwise_map]
  refine descending.imp fun {inner outer} further same => ?_
  rw [same] at further
  omega

/-- In every history with fewer than `2 ^ 32` openings: no two frames were given one name; a frame
that was closed is gone; the open frames are those that were opened and not closed, and one that was
opened inside an open frame is still inside it, further in; and from every name that was given the
walk outward ends, and meets no frame twice. -/
theorem names_lawful {history : ScopeHistory} (reached : Reached history)
    (few : history.opened.length < 2 ^ 32) :
    history.issued.Nodup ∧
    (∀ id ∈ history.closed, Gone history.chain id) ∧
    (∀ id, history.chain.isLive id ↔ id ∈ history.issued ∧ id ∉ history.closed) ∧
    (∀ opening ∈ history.opened, opening.inside → history.chain.isLive opening.id →
      (history.chain.frame? opening.id).map Frame.parent = some (some opening.parent) ∧
        history.chain.isLive opening.parent ∧ opening.parent.index < opening.id.index) ∧
    ∀ id ∈ history.issued, Walk history.chain (some id) (history.chain.path id) ∧
      ((history.chain.path id).map Prod.fst).Nodup := by
  have lawful := reached.lawful few
  refine ⟨lawful.nodup, ?_, ?_, ?_, fun id known => lawful.walk_path known⟩
  · intro id member
    have absent := (lawful.gone id member).2
    rw [← ScopeChain.outline_frame?, Option.map_eq_none_iff] at absent
    exact ScopeChain.gone_of_frame? absent
  · intro id
    rw [ScopeChain.isLive_eq_isSome]
    constructor
    · intro isLive
      obtain ⟨frame, found⟩ := Option.isSome_iff_exists.mp isLive
      refine ⟨lawful.live id frame found, fun closed => ?_⟩
      rw [(lawful.gone id closed).2] at found
      cases found
    · rintro ⟨known, not_closed⟩
      exact (lawful.remains id known).resolve_left not_closed
  · intro opening member inside isLive
    obtain ⟨frame, found⟩ := Option.isSome_iff_exists.mp isLive
    have outline_found : frameIn? history.chain.outline opening.id = some frame.outline := by
      rw [← ScopeChain.outline_frame?, found, Option.map_some]
    obtain ⟨parent_eq, stood⟩ := lawful.stands opening member _ outline_found
    simp only [inside, ↓reduceIte] at stood
    rw [found, ScopeChain.isLive_eq_isSome]
    exact ⟨congrArg some parent_eq, stood⟩

/-- A frame is opened and closed, another one takes its place, and a third is opened inside the one
that is gone. -/
def reusedPlace : ScopeHistory :=
  (((initial.push ScopeChain.global .block none).pop ⟨1, 1⟩).push
    ScopeChain.global .block none).push ⟨1, 1⟩ .function none

theorem names_lawful_reusedPlace :
    Reached reusedPlace ∧ reusedPlace.opened.length < 2 ^ 32 ∧
      reusedPlace.issued = [⟨2, 3⟩, ⟨1, 2⟩, ⟨1, 1⟩, ⟨0, 0⟩] ∧ reusedPlace.issued.Nodup ∧
      Gone reusedPlace.chain ⟨1, 1⟩ ∧
      Walk reusedPlace.chain (some ⟨2, 3⟩) (reusedPlace.chain.path ⟨2, 3⟩) := by
  have first : Reached (initial.push ScopeChain.global .block none) :=
    .push .initial (by decide) _ _
  have second : Reached ((initial.push ScopeChain.global .block none).pop ⟨1, 1⟩) :=
    .pop first (by decide) (by decide)
  have third : Reached (((initial.push ScopeChain.global .block none).pop ⟨1, 1⟩).push
      ScopeChain.global .block none) := .push second (by decide) _ _
  have reached : Reached reusedPlace := Reached.push third (by decide) .function none
  have few : reusedPlace.opened.length < 2 ^ 32 := by decide
  have lawful := names_lawful reached few
  exact ⟨reached, few, rfl, lawful.1, lawful.2.1 ⟨1, 1⟩ (by decide),
    (lawful.2.2.2.2 ⟨2, 3⟩ (by decide)).1⟩

end ScopeHistory
end Scriptlet
