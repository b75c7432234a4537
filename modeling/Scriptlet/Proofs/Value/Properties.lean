import Scriptlet.Value.Properties

set_option autoImplicit false

/-!
Property tables whose index is right. Insertions keep it so, and a look-up then finds the handle
that was inserted last for a name.
-/
namespace Scriptlet.PropertyMap

/-- The index gives a name the position of its entry, and no other name a position. -/
def Indexed (map : PropertyMap) : Prop :=
  ∀ (key : String) (position : Nat),
    map.positions[key]? = some position ↔ map.entries[position]?.map Prod.fst = some key

theorem indexed_empty : empty.Indexed := by
  intro key position
  simp [empty]

theorem Indexed.lt_size {map : PropertyMap} (indexed : map.Indexed) {key : String}
    {position : Nat} (found : map.positions[key]? = some position) :
    position < map.entries.size := by
  have named := (indexed key position).mp found
  by_cases inside : position < map.entries.size
  · exact inside
  · simp [inside] at named

/-- A position is that of one name. -/
theorem Indexed.key_eq {map : PropertyMap} (indexed : map.Indexed) {key other : String}
    {position : Nat} (found : map.positions[key]? = some position)
    (foundOther : map.positions[other]? = some position) : other = key := by
  have named := (indexed key position).mp found
  have namedOther := (indexed other position).mp foundOther
  rw [named] at namedOther
  exact (Option.some.inj namedOther).symm

theorem Indexed.insert {map : PropertyMap} (indexed : map.Indexed) (key : String)
    (handle : Handle) : (map.insert key handle).Indexed := by
  intro other position
  unfold PropertyMap.insert
  split
  · rename_i kept found
    have same : (map.entries[position]?.map fun entry => (entry.1, handle)).map Prod.fst =
        map.entries[position]?.map Prod.fst := by
      rw [Option.map_map]
      rfl
    rw [indexed other position, Array.getElem?_modify]
    split
    · rw [same]
    · rfl
  · rename_i missing
    have fresh (place : Nat) : map.entries[place]?.map Prod.fst ≠ some key := by
      intro named
      have found := (indexed key place).mpr named
      rw [missing] at found
      cases found
    by_cases new : other = key
    · subst new
      by_cases last : position = map.entries.size
      · simp [last]
      · have elsewhere := fresh position
        rw [Std.HashMap.getElem?_insert_self, Array.getElem?_push, if_neg last]
        simp [elsewhere, Ne.symm last]
    · have before := indexed other position
      rw [Std.HashMap.getElem?_insert, if_neg (by simpa using Ne.symm new), Array.getElem?_push]
      by_cases last : position = map.entries.size
      · rw [if_pos last]
        simpa [last, Ne.symm new] using before
      · rw [if_neg last]
        exact before

/-- After an insertion a name has the handle inserted, and every other name its former one. -/
theorem Indexed.get?_insert {map : PropertyMap} (indexed : map.Indexed) (key : String)
    (handle : Handle) (other : String) :
    (map.insert key handle).get? other = if other = key then some handle else map.get? other := by
  unfold PropertyMap.insert get?
  split
  · rename_i kept found
    have inside := indexed.lt_size found
    by_cases same : other = key
    · subst same
      simp [found, Array.getElem?_modify, inside]
    · cases foundOther : map.positions[other]? with
      | none => simp [same]
      | some position =>
        have apart : kept ≠ position := by
          intro equal
          subst equal
          exact same (indexed.key_eq found foundOther)
        simp [same, Array.getElem?_modify, apart]
  · rename_i missing
    by_cases same : other = key
    · subst same
      simp
    · cases foundOther : map.positions[other]? with
      | none => simp [same, Ne.symm same, foundOther, Std.HashMap.getElem?_insert]
      | some position =>
        have inside := indexed.lt_size foundOther
        have apart : position ≠ map.entries.size := by omega
        simp [same, Ne.symm same, foundOther, Std.HashMap.getElem?_insert,
          Array.getElem?_push, apart]

def names (map : PropertyMap) : List String :=
  map.toList.map Prod.fst

/-- A new name comes last, and no insertion changes the order of the others. -/
theorem names_insert (map : PropertyMap) (key : String) (handle : Handle) :
    (map.insert key handle).names = if map.contains key then map.names else map.names ++ [key] := by
  unfold PropertyMap.insert contains names toList
  split
  · rename_i position found
    have old : map.positions.contains key := by
      rw [Std.HashMap.contains_eq_isSome_getElem?, found]
      rfl
    rw [if_pos old]
    apply List.ext_getElem?
    intro place
    simp only [Array.toList_modify, List.getElem?_map, List.getElem?_modify]
    cases map.entries.toList[place]? with
    | none => rfl
    | some entry => by_cases same : position = place <;> simp [same]
  · rename_i missing
    have new : key ∉ map.positions := by simpa using missing
    simp [new]

/-- Every table that is built by insertions has a right index. -/
theorem indexed_ofList (insertions : List (String × Handle)) : (ofList insertions).Indexed := by
  refine List.foldlRecOn insertions _ indexed_empty ?_
  intro map indexed entry _
  exact indexed.insert entry.1 entry.2

end Scriptlet.PropertyMap
