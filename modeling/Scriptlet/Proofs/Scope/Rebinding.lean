import Scriptlet.Proofs.Scope.Identity

set_option autoImplicit false

/-!
What binding a name changes. A scope sees the new binding if its walk outward comes to the frame of
it before it meets another frame that binds the name. For every other scope, and for every other
name, all is as it was.
-/
namespace Scriptlet

namespace Bindings

theorem lookup_cons_eq (entry : String × Handle) (rest : List (String × Handle)) (name : String) :
    (entry :: rest).lookup name = if name = entry.1 then some entry.2 else rest.lookup name := by
  rw [List.lookup_cons]
  by_cases same : name = entry.1
  · rw [if_pos same, beq_iff_eq.mpr same]
  · rw [if_neg same, beq_false_of_ne same]

theorem get?_set (bindings : Bindings) (name other : String) (handle : Handle) :
    (bindings.set name handle).get? other =
      if other = name then some handle else bindings.get? other := by
  obtain ⟨entries⟩ := bindings
  simp only [get?, set]
  induction entries with
  | nil => rw [setEntry, lookup_cons_eq]
  | cons entry rest ih =>
    rw [setEntry, lookup_cons_eq]
    by_cases here : entry.1 = name
    · subst here
      rw [if_pos (beq_self_eq_true _), lookup_cons_eq]
      split <;> rfl
    · rw [if_neg (by simpa using here), lookup_cons_eq, ih]
      by_cases first : other = entry.1
      · have apart : other ≠ name := fun same => here (first.symm.trans same)
        rw [if_pos first, if_neg apart, if_pos first]
      · rw [if_neg first, if_neg first]

end Bindings

/-- An entry of a walk when a name has been bound in one of the frames. -/
def reboundEntry (owner : ScopeId) (name : String) (handle : Handle)
    (entry : ScopeId × Frame) : ScopeId × Frame :=
  (entry.1, if entry.1 = owner then
    { entry.2 with bindings := entry.2.bindings.set name handle } else entry.2)

/-- Whether a frame is among those of a walk, and none before it binds a name. -/
def MeetsFirst (owner : ScopeId) (name : String) : List (ScopeId × Frame) → Prop
  | [] => False
  | entry :: rest =>
    entry.1 = owner ∨ entry.2.bindings.get? name = none ∧ MeetsFirst owner name rest

section Entries

variable {owner : ScopeId} {name : String} {entries : List (ScopeId × Frame)}

theorem meetsFirst_iff : MeetsFirst owner name entries ↔
    ∃ before frame after, entries = before ++ (owner, frame) :: after ∧
      ∀ entry ∈ before, entry.2.bindings.get? name = none := by
  induction entries with
  | nil => simp [MeetsFirst]
  | cons entry rest ih =>
    rw [MeetsFirst, ih]
    constructor
    · rintro (rfl | ⟨unbound, before, frame, after, rfl, unbound_before⟩)
      · exact ⟨[], entry.2, rest, rfl, nofun⟩
      · exact ⟨entry :: before, frame, after, rfl, List.forall_mem_cons.mpr
          ⟨unbound, unbound_before⟩⟩
    · rintro ⟨before, frame, after, split, unbound⟩
      cases before with
      | nil =>
        cases split
        exact .inl rfl
      | cons first before =>
        cases split
        obtain ⟨here, later⟩ := List.forall_mem_cons.mp unbound
        exact .inr ⟨here, before, frame, after, rfl, later⟩

theorem findSome?_rebound_of_ne {other : String} (apart : other ≠ name) (handle : Handle) :
    (entries.map (reboundEntry owner name handle)).findSome? (·.2.bindings.get? other) =
      entries.findSome? (·.2.bindings.get? other) := by
  have same (entry : ScopeId × Frame) :
      (reboundEntry owner name handle entry).2.bindings.get? other =
        entry.2.bindings.get? other := by
    unfold reboundEntry
    split
    · rw [Bindings.get?_set, if_neg apart]
    · rfl
  rw [List.findSome?_map]
  congr 1
  funext entry
  exact same entry

theorem findSome?_rebound_of_meetsFirst (meets : MeetsFirst owner name entries)
    (handle : Handle) :
    (entries.map (reboundEntry owner name handle)).findSome? (·.2.bindings.get? name) =
      some handle := by
  induction entries with
  | nil => exact meets.elim
  | cons entry rest ih =>
    rw [List.map_cons, List.findSome?_cons]
    by_cases here : entry.1 = owner
    · simp only [reboundEntry, here, ↓reduceIte, Bindings.get?_set]
    · obtain ⟨unbound, later⟩ := meets.resolve_left here
      simp only [reboundEntry, here, ↓reduceIte, unbound]
      exact ih later

theorem findSome?_rebound_of_not (misses : ¬ MeetsFirst owner name entries) (handle : Handle) :
    (entries.map (reboundEntry owner name handle)).findSome? (·.2.bindings.get? name) =
      entries.findSome? (·.2.bindings.get? name) := by
  induction entries with
  | nil => rfl
  | cons entry rest ih =>
    rw [MeetsFirst, not_or, not_and] at misses
    obtain ⟨elsewhere, later⟩ := misses
    rw [List.map_cons, List.findSome?_cons, List.findSome?_cons]
    simp only [reboundEntry, elsewhere, ↓reduceIte]
    cases bound : entry.2.bindings.get? name with
    | none => exact ih (later bound)
    | some old => rfl

/-- A frame that binds a name is the nearest one that does so if it is met before all others. -/
theorem meetsFirst_iff_of_bound
    (bound : ∀ entry ∈ entries, entry.1 = owner → entry.2.bindings.get? name ≠ none) :
    MeetsFirst owner name entries ↔
      (entries.findSome? fun (id, frame) =>
        (frame.bindings.get? name).map fun handle => (id, handle)).map Prod.fst = some owner := by
  induction entries with
  | nil => simp [MeetsFirst]
  | cons entry rest ih =>
    obtain ⟨bound_here, bound_later⟩ := List.forall_mem_cons.mp bound
    obtain ⟨id, frame⟩ := entry
    rw [MeetsFirst, ih bound_later]
    cases here : frame.bindings.get? name with
    | none =>
      have elsewhere : id ≠ owner := fun same => bound_here same here
      simp only [elsewhere, here, true_and, false_or, List.findSome?_cons, Option.map_none]
    | some old => simp [here]

end Entries

namespace ScopeChain

variable {chain : ScopeChain}

/-- The walk outward from a place comes to a frame before it meets another one that binds a name. -/
def Reveals (chain : ScopeChain) (observer owner : ScopeId) (name : String) : Prop :=
  ∃ before frame after, chain.Walk (some observer) (before ++ (owner, frame) :: after) ∧
    ∀ entry ∈ before, entry.2.bindings.get? name = none

/-- There is one walk from a place. -/
theorem Walk.unique {start : Option ScopeId} {entries others : List (ScopeId × Frame)}
    (walk : chain.Walk start entries) (other : chain.Walk start others) : entries = others := by
  rw [← walk.pathWithin_eq (Nat.le_max_left entries.length others.length),
    other.pathWithin_eq (Nat.le_max_right entries.length others.length)]

theorem Walk.frame?_eq {start : Option ScopeId} {entries : List (ScopeId × Frame)}
    (walk : chain.Walk start entries) :
    ∀ entry ∈ entries, chain.frame? entry.1 = some entry.2 := by
  induction walk with
  | outside => nofun
  | gone => nofun
  | onward found _ ih => exact List.forall_mem_cons.mpr ⟨found, ih⟩

theorem Walk.reveals_iff {observer owner : ScopeId} {name : String}
    {entries : List (ScopeId × Frame)} (walk : chain.Walk (some observer) entries) :
    chain.Reveals observer owner name ↔ MeetsFirst owner name entries := by
  rw [meetsFirst_iff]
  constructor
  · rintro ⟨before, frame, after, other, unbound⟩
    exact ⟨before, frame, after, walk.unique other, unbound⟩
  · rintro ⟨before, frame, after, rfl, unbound⟩
    exact ⟨before, frame, after, walk, unbound⟩

theorem lookup?_eq (chain : ScopeChain) (id : ScopeId) (name : String) :
    chain.lookup? id name = (chain.path id).findSome? (·.2.bindings.get? name) := by
  rw [lookup?, resolve?]
  induction chain.path id with
  | nil => rfl
  | cons entry rest ih =>
    obtain ⟨owner, frame⟩ := entry
    rw [List.findSome?_cons, List.findSome?_cons]
    cases bound : frame.bindings.get? name with
    | none => simpa only [bound, Option.map_none] using ih
    | some handle => simp only [bound, Option.map_some]

section Bound

variable {owner : ScopeId} (isLive : chain.isLive owner) (name : String) (handle : Handle)

include isLive

theorem frame?_bindAt (id : ScopeId) :
    (chain.bindAt owner.index name handle).frame? id =
      (chain.frame? id).map fun frame => (reboundEntry owner name handle (id, frame)).2 := by
  simp only [frame?, bindAt, Array.getElem?_modify]
  by_cases place : owner.index = id.index
  · rw [if_pos place]
    cases found : chain.frames[id.index]? with
    | none => rfl
    | some frame =>
      have owner_generation : frame.generation = owner.generation := by
        obtain ⟨same, same_eq⟩ := Option.isSome_iff_exists.mp isLive
        obtain ⟨same_place, generation_eq⟩ := Option.filter_eq_some_iff.mp same_eq
        rw [place, found, Option.some.injEq] at same_place
        rw [same_place]
        exact beq_iff_eq.mp generation_eq
      by_cases generation_eq : frame.generation = id.generation
      · have same : id = owner := by
          obtain ⟨index, generation⟩ := id
          obtain ⟨owner_index, owner_gen⟩ := owner
          simp_all
        simp [Option.filter_some, reboundEntry, same, owner_generation]
      · simp [Option.filter_some, generation_eq]
  · have elsewhere : id ≠ owner := fun same => place (congrArg ScopeId.index same.symm)
    rw [if_neg place]
    simp only [reboundEntry, elsewhere, ↓reduceIte]
    exact Option.map_id'.symm

theorem path_bindAt (id : ScopeId) :
    (chain.bindAt owner.index name handle).path id =
      (chain.path id).map (reboundEntry owner name handle) := by
  have within (count : Nat) (id : ScopeId) :
      (chain.bindAt owner.index name handle).pathWithin count id =
        (chain.pathWithin count id).map (reboundEntry owner name handle) := by
    induction count generalizing id with
    | zero => rfl
    | succ count ih =>
      rw [pathWithin, pathWithin, frame?_bindAt isLive]
      cases chain.frame? id with
      | none => rfl
      | some frame =>
        have parent_eq : (reboundEntry owner name handle (id, frame)).2.parent = frame.parent := by
          unfold reboundEntry
          split <;> rfl
        simp only [Option.map_some, List.map_cons, parent_eq]
        cases frame.parent with
        | none => rfl
        | some parent => exact congrArg (_ :: ·) (ih parent)
  have depth_eq : (chain.bindAt owner.index name handle).depth = chain.depth :=
    Array.size_modify ..
  rw [path, path, depth_eq, within]

theorem lookup?_bindAt (observer : ScopeId) (other : String) :
    (chain.bindAt owner.index name handle).lookup? observer other =
      ((chain.path observer).map (reboundEntry owner name handle)).findSome?
        (·.2.bindings.get? other) := by
  rw [lookup?_eq, path_bindAt isLive]

end Bound

/-- Between two chains one name gets another handle for some of the observers. For the others, and
for every other name, nothing changes. -/
structure Rebinds (chain after : ScopeChain) (observers : List ScopeId) (name : String)
    (handle : Handle) (sees : ScopeId → Prop) : Prop where
  seen : ∀ observer ∈ observers, sees observer → after.lookup? observer name = some handle
  unseen : ∀ observer ∈ observers, ¬ sees observer →
    after.lookup? observer name = chain.lookup? observer name
  others : ∀ observer ∈ observers, ∀ other, other ≠ name →
    after.lookup? observer other = chain.lookup? observer other

/-- A name that is bound in an open frame is bound anew for the scopes whose walks come to the frame
first. -/
theorem rebinds_bindAt {owner : ScopeId} (isLive : chain.isLive owner) (name : String)
    (handle : Handle) {observers : List ScopeId}
    (walks : ∀ observer ∈ observers, chain.Walk (some observer) (chain.path observer)) :
    chain.Rebinds (chain.bindAt owner.index name handle) observers name handle
      (chain.Reveals · owner name) where
  seen observer member reveals := by
    rw [lookup?_bindAt isLive]
    exact findSome?_rebound_of_meetsFirst ((walks observer member).reveals_iff.mp reveals) handle
  unseen observer member hidden := by
    rw [lookup?_bindAt isLive, lookup?_eq]
    rw [(walks observer member).reveals_iff] at hidden
    exact findSome?_rebound_of_not hidden handle
  others observer _ other apart := by
    rw [lookup?_bindAt isLive, lookup?_eq]
    exact findSome?_rebound_of_ne apart handle

/-- The nearest frame that binds a name is open and binds it. -/
theorem Walk.frame?_of_resolve? {scope owner : ScopeId} {name : String} {old : Handle}
    (walk : chain.Walk (some scope) (chain.path scope))
    (resolved : chain.resolve? scope name = some (owner, old)) :
    ∃ frame, chain.frame? owner = some frame ∧ frame.bindings.get? name = some old := by
  obtain ⟨⟨id, frame⟩, member, bound⟩ := List.exists_of_findSome?_eq_some resolved
  obtain ⟨handle, handle_eq, same⟩ := Option.map_eq_some_iff.mp bound
  cases same
  exact ⟨frame, walk.frame?_eq _ member, handle_eq⟩

/-- The scopes whose walks come to the frame that binds a name first are those that find the name
there. -/
theorem Walk.reveals_iff_resolve? {observer owner : ScopeId} {name : String} {frame : Frame}
    {old : Handle} (walk : chain.Walk (some observer) (chain.path observer))
    (found : chain.frame? owner = some frame) (bound : frame.bindings.get? name = some old) :
    chain.Reveals observer owner name ↔
      (chain.resolve? observer name).map Prod.fst = some owner := by
  rw [walk.reveals_iff]
  refine meetsFirst_iff_of_bound fun entry member here unbound => ?_
  have same := walk.frame?_eq entry member
  rw [here, found, Option.some.injEq] at same
  rw [← same, bound] at unbound
  cases unbound

end ScopeChain

namespace ScopeHistory

open ScopeChain (Reveals Rebinds)

/-- In every history with fewer than `2 ^ 32` openings, from every scope whose name was given:
assigning to a name that is not found changes nothing; assigning to one that is found in a frame
binds it anew for the scopes that find it in the same frame; and declaring one in an open frame
binds it for the scopes whose walks outward come to the frame before another that binds it. For all
other scopes, and for all other names, what is found stays the same. -/
theorem rebinding_exact {history : ScopeHistory} (reached : Reached history)
    (few : history.opened.length < 2 ^ 32) {scope : ScopeId} (known : scope ∈ history.issued)
    (name : String) (handle : Handle) :
    (history.chain.resolve? scope name = none →
      history.chain.assign? scope name handle = none ∧
        (history.chain.assign? scope name handle).getD history.chain = history.chain) ∧
    (∀ owner old, history.chain.resolve? scope name = some (owner, old) →
      ∃ after, history.chain.assign? scope name handle = some after ∧
        history.chain.Rebinds after history.issued name handle fun observer =>
          (history.chain.resolve? observer name).map Prod.fst = some owner) ∧
    (history.chain.isLive scope →
      ∃ after, history.chain.declare? scope name handle = some after ∧
        history.chain.Rebinds after history.issued name handle
          (history.chain.Reveals · scope name)) := by
  have lawful := reached.lawful few
  have walks (observer : ScopeId) (member : observer ∈ history.issued) :=
    (lawful.walk_path member).1
  refine ⟨fun missing => ?_, fun owner old resolved => ?_, fun isLive => ?_⟩
  · have unassigned : history.chain.assign? scope name handle = none := by
      rw [ScopeChain.assign?, missing, Option.map_none]
    exact ⟨unassigned, by rw [unassigned, Option.getD_none]⟩
  · obtain ⟨frame, found, bound⟩ := (walks scope known).frame?_of_resolve? resolved
    have isLive : history.chain.isLive owner := Option.isSome_iff_exists.mpr ⟨frame, found⟩
    have rebinds := ScopeChain.rebinds_bindAt isLive name handle walks
    have same (observer : ScopeId) (member : observer ∈ history.issued) :=
      (walks observer member).reveals_iff_resolve? found bound
    refine ⟨history.chain.bindAt owner.index name handle, ?_, ?_, ?_, rebinds.others⟩
    · rw [ScopeChain.assign?, resolved, Option.map_some]
    · intro observer member sees
      exact rebinds.seen observer member ((same observer member).mpr sees)
    · intro observer member misses
      exact rebinds.unseen observer member (mt (same observer member).mp misses)
  · refine ⟨history.chain.bindAt scope.index name handle, ?_, ?_⟩
    · rw [ScopeChain.declare?, if_pos isLive]
    · exact ScopeChain.rebinds_bindAt isLive name handle walks

/-- A name is bound in the global frame and again in a block inside it, and a function is opened
inside the block. -/
def shadowedName : ScopeHistory :=
  let outer := initial.rebind (initial.chain.declare ScopeChain.global "x" ⟨1⟩)
  let block := outer.push ScopeChain.global .block none
  let bound := block.rebind (block.chain.declare ⟨1, 1⟩ "x" ⟨2⟩)
  bound.push ⟨1, 1⟩ .function none

theorem rebinding_exact_shadowedName :
    Reached shadowedName ∧ shadowedName.opened.length < 2 ^ 32 ∧
      (⟨2, 2⟩ : ScopeId) ∈ shadowedName.issued ∧
      shadowedName.chain.resolve? ⟨2, 2⟩ "x" = some (⟨1, 1⟩, ⟨2⟩) ∧
      ∃ after, shadowedName.chain.assign? ⟨2, 2⟩ "x" ⟨3⟩ = some after ∧
        after.lookup? ⟨2, 2⟩ "x" = some ⟨3⟩ ∧ after.lookup? ⟨1, 1⟩ "x" = some ⟨3⟩ ∧
        after.lookup? ⟨0, 0⟩ "x" = shadowedName.chain.lookup? ⟨0, 0⟩ "x" := by
  have reached : Reached shadowedName :=
    .push (.declare (.push (.declare .initial _ _ _) (by decide) _ _) _ _ _) (by decide) _ _
  have few : shadowedName.opened.length < 2 ^ 32 := by decide
  have known : (⟨2, 2⟩ : ScopeId) ∈ shadowedName.issued := by decide
  have resolved : shadowedName.chain.resolve? ⟨2, 2⟩ "x" = some (⟨1, 1⟩, ⟨2⟩) := by decide
  obtain ⟨after, assigned, rebinds⟩ :=
    (rebinding_exact reached few known "x" ⟨3⟩).2.1 _ _ resolved
  exact ⟨reached, few, known, resolved, after, assigned,
    rebinds.seen _ known (by decide), rebinds.seen _ (by decide) (by decide),
    rebinds.unseen _ (by decide) (by decide)⟩

end ScopeHistory
end Scriptlet
