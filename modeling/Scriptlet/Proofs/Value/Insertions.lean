import Mathlib.Data.Finset.Card
import Scriptlet.Proofs.Value.Properties

set_option autoImplicit false

/-!
Property tables as lists of insertions. A table lists every name once, in the order of the first
insertions, with the handle of the last one. Its entries, inserted into another table in any order,
give a table that answers look-ups alike.
-/
namespace Scriptlet.PropertyMap

def latest? (insertions : List (String × Handle)) (key : String) : Option Handle :=
  insertions.reverse.lookup key

theorem latest?_concat (insertions : List (String × Handle)) (entry : String × Handle)
    (key : String) : latest? (insertions ++ [entry]) key =
      if key = entry.1 then some entry.2 else latest? insertions key := by
  rw [latest?, List.reverse_append, List.reverse_singleton, List.singleton_append, List.lookup_cons]
  by_cases same : key = entry.1
  · rw [if_pos same, beq_iff_eq.mpr same]
  · rw [if_neg same, beq_eq_false_iff_ne.mpr same]
    rfl

theorem ofList_concat (insertions : List (String × Handle)) (entry : String × Handle) :
    ofList (insertions ++ [entry]) = (ofList insertions).insert entry.1 entry.2 := by
  rw [ofList, List.foldl_append]
  rfl

/-- If names are inserted only once, every insertion is the last one of its name. -/
theorem latest?_eq_some_iff {insertions : List (String × Handle)}
    (once : (insertions.map Prod.fst).Nodup) (key : String) (handle : Handle) :
    latest? insertions key = some handle ↔ (key, handle) ∈ insertions := by
  rw [latest?, List.lookup_eq_some_iff]
  constructor
  · rintro ⟨later, earlier, split, _⟩
    rw [← List.mem_reverse, split]
    exact List.mem_append_right later List.mem_cons_self
  · intro member
    obtain ⟨later, earlier, split⟩ := List.append_of_mem (List.mem_reverse.mpr member)
    refine ⟨later, earlier, split, fun other inLater => ?_⟩
    have apart : ((later ++ (key, handle) :: earlier).map Prod.fst).Nodup := by
      rw [← split, List.map_reverse, List.nodup_reverse]
      exact once
    rw [List.map_append, List.nodup_append] at apart
    rw [bne_iff_ne]
    exact (apart.2.2 other.1 (List.mem_map_of_mem inLater) key List.mem_cons_self).symm

section Indexed

variable {map : PropertyMap} (indexed : map.Indexed)

include indexed

/-- A position leads to an entry of its name, so no look-up leaves the entries. -/
theorem Indexed.exists_entry {key : String} {position : Nat}
    (found : map.positions[key]? = some position) :
    ∃ handle, map.entries[position]? = some (key, handle) := by
  have named := (indexed key position).mp found
  obtain ⟨entry, entry_eq, rfl⟩ := Option.map_eq_some_iff.mp named
  exact ⟨entry.2, entry_eq⟩

theorem Indexed.get?_eq_some_iff (key : String) (handle : Handle) :
    map.get? key = some handle ↔ (key, handle) ∈ map.toList := by
  rw [toList, Array.mem_toList_iff, Array.mem_iff_getElem?]
  constructor
  · intro found
    cases position_eq : map.positions[key]? with
    | none => simp [get?, position_eq] at found
    | some position =>
      obtain ⟨other, entry_eq⟩ := indexed.exists_entry position_eq
      simp only [get?, position_eq, entry_eq, Option.bind_eq_bind, Option.bind_some,
        Option.pure_def, Option.some.injEq] at found
      exact ⟨position, found ▸ entry_eq⟩
  · rintro ⟨position, entry_eq⟩
    have position_eq := (indexed key position).mpr (by rw [entry_eq]; rfl)
    simp [get?, position_eq, entry_eq]

theorem Indexed.isSome_get? (key : String) : (map.get? key).isSome = map.contains key := by
  rw [contains, Std.HashMap.contains_eq_isSome_getElem?]
  cases position_eq : map.positions[key]? with
  | none => simp [get?, position_eq]
  | some position =>
    obtain ⟨handle, entry_eq⟩ := indexed.exists_entry position_eq
    simp [get?, position_eq, entry_eq]

theorem Indexed.contains_iff (key : String) : map.contains key ↔ key ∈ map.names := by
  rw [← indexed.isSome_get?, Option.isSome_iff_exists, names, List.mem_map]
  simp only [indexed.get?_eq_some_iff, Prod.exists, exists_and_right, exists_eq_right]

/-- Two entries with one name would share their position. -/
theorem Indexed.nodup_names : map.names.Nodup := by
  rw [List.nodup_iff_getElem?_ne_getElem?]
  intro first second before inside same
  have named (position : Nat) : map.names[position]? = map.entries[position]?.map Prod.fst := by
    rw [names, toList, List.getElem?_map, Array.getElem?_toList]
  obtain ⟨key, second_eq⟩ : ∃ key, map.names[second]? = some key :=
    ⟨_, List.getElem?_eq_getElem inside⟩
  have foundFirst := (indexed key first).mpr ((named first).symm.trans (same.trans second_eq))
  have foundSecond := (indexed key second).mpr ((named second).symm.trans second_eq)
  rw [foundFirst] at foundSecond
  have equal := Option.some.inj foundSecond
  omega

/-- A table lists its names with the handles that look-ups give. -/
theorem Indexed.map_toList :
    map.toList.map (fun entry => (entry.1, some entry.2)) =
      map.names.map fun key => (key, map.get? key) := by
  rw [names, List.map_map, List.map_inj_left]
  intro entry member
  have found := (indexed.get?_eq_some_iff entry.1 entry.2).mpr member
  simp [found]

end Indexed

/-- A table refines a list of insertions. It lists every name once, in the order of the first
insertions and with the handle of the last one; its index leads to these entries; and its entries in
any order make a table that answers alike. -/
structure Refines (map : PropertyMap) (insertions : List (String × Handle)) : Prop where
  nodup : map.names.Nodup
  position : ∀ (key : String) (position : Nat), map.positions[key]? = some position ↔
    map.entries[position]?.map Prod.fst = some key
  within : ∀ {key : String} {position : Nat}, map.positions[key]? = some position →
    position < map.entries.size
  get : ∀ key, map.get? key = latest? insertions key
  contains : ∀ key, map.contains key ↔ key ∈ insertions.map Prod.fst
  listed : map.toList.map (fun entry => (entry.1, some entry.2)) =
    (insertions.map Prod.fst).eraseDups.map fun key => (key, latest? insertions key)
  size : map.size = (insertions.map Prod.fst).toFinset.card
  getRebuilt : ∀ entries, entries.Perm map.toList → ∀ key,
    (ofList entries).get? key = map.get? key
  containsRebuilt : ∀ entries, entries.Perm map.toList → ∀ key,
    (ofList entries).contains key = map.contains key

section OfList

variable (insertions : List (String × Handle))

/-- A look-up gives the handle of the last insertion. -/
theorem get?_ofList (key : String) : (ofList insertions).get? key = latest? insertions key := by
  induction insertions using List.reverseRecOn with
  | nil => simp [ofList, empty, get?, latest?]
  | append_singleton insertions entry ih =>
    rw [ofList_concat, (indexed_ofList insertions).get?_insert, latest?_concat, ih]

/-- The names come in the order of their first insertions. -/
theorem names_ofList : (ofList insertions).names = (insertions.map Prod.fst).eraseDups := by
  induction insertions using List.reverseRecOn with
  | nil => rfl
  | append_singleton insertions entry ih =>
    have known : (ofList insertions).contains entry.1 ↔ entry.1 ∈ insertions.map Prod.fst := by
      rw [(indexed_ofList insertions).contains_iff, ih, List.mem_eraseDups]
    rw [ofList_concat, names_insert, ih, List.map_append, List.eraseDups_append]
    by_cases old : entry.1 ∈ insertions.map Prod.fst
    · rw [if_pos (known.mpr old)]
      simp [List.removeAll, old]
    · rw [if_neg (mt known.mp old)]
      simp [List.removeAll, old, List.eraseDups_cons]

/-- There are as many entries as different names. -/
theorem size_ofList : (ofList insertions).size = (insertions.map Prod.fst).toFinset.card := by
  have nodup := (indexed_ofList insertions).nodup_names
  have same : (insertions.map Prod.fst).toFinset = (ofList insertions).names.toFinset := by
    ext key
    rw [List.mem_toFinset, List.mem_toFinset, names_ofList, List.mem_eraseDups]
  rw [same, List.toFinset_card_of_nodup nodup, names, List.length_map]
  rfl

/-- The entries of a table, inserted in any order, make a table with the same answers. -/
theorem Indexed.get?_ofList_perm {map : PropertyMap} (indexed : map.Indexed)
    {entries : List (String × Handle)} (reordered : entries.Perm map.toList) (key : String) :
    (ofList entries).get? key = map.get? key := by
  have once : (entries.map Prod.fst).Nodup :=
    (reordered.map Prod.fst).nodup_iff.mpr indexed.nodup_names
  apply Option.ext
  intro handle
  rw [get?_ofList, latest?_eq_some_iff once, indexed.get?_eq_some_iff, reordered.mem_iff]

/-- A table built by insertions refines their list. -/
theorem refines_ofList : (ofList insertions).Refines insertions := by
  have indexed := indexed_ofList insertions
  refine ⟨indexed.nodup_names, indexed, indexed.lt_size, get?_ofList insertions, fun key => ?_,
    ?_, size_ofList insertions, fun _ => indexed.get?_ofList_perm,
    fun entries reordered key => ?_⟩
  · rw [indexed.contains_iff, names_ofList, List.mem_eraseDups]
  · rw [indexed.map_toList, names_ofList]
    simp only [get?_ofList]
  · rw [← (indexed_ofList entries).isSome_get?, ← indexed.isSome_get?,
      indexed.get?_ofList_perm reordered key]

end OfList

/-- Three insertions of two names. -/
def overwritten : List (String × Handle) :=
  [("b", ⟨1⟩), ("a", ⟨2⟩), ("b", ⟨3⟩)]

theorem refines_ofList_overwritten :
    (ofList overwritten).toList.map (fun entry => (entry.1, some entry.2)) =
        [("b", some ⟨3⟩), ("a", some ⟨2⟩)] ∧
      (ofList overwritten).size = 2 ∧ (ofList overwritten).get? "b" = some ⟨3⟩ ∧
      ∀ key, (ofList (ofList overwritten).toList.reverse).get? key =
        (ofList overwritten).get? key := by
  have refines := refines_ofList overwritten
  exact ⟨refines.listed, refines.size, refines.get "b",
    refines.getRebuilt _ (List.reverse_perm _)⟩

end Scriptlet.PropertyMap
