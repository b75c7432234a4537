import Mathlib.Data.Finset.Card
import Mathlib.Logic.Relation
import Scriptlet.Proofs.Renaming.Heap
import Scriptlet.Proofs.Value.Properties
import Scriptlet.Proofs.Value.Unfolding

set_option autoImplicit false

/-!
The values that have a text. A value is written down to the values that show in it, each inside
those before; that comes to an end, and gives a text for those values that unfold to a tree.
-/
namespace Scriptlet

namespace Heap

/-- One handle shows in the value of another. -/
def Displays (heap : Heap) (outer inner : Handle) : Prop :=
  ∃ value, heap.get? outer = some value ∧ inner ∈ value.displayed

/-- What shows in a value, at any depth. -/
def ReachedFrom (heap : Heap) (value : Value) (handle : Handle) : Prop :=
  ∃ first ∈ value.displayed, Relation.ReflTransGen heap.Displays first handle

/-- Nothing that shows in a value is missing, and nothing of it shows in itself. -/
def FiniteFrom (heap : Heap) (value : Value) : Prop :=
  ∀ handle, heap.ReachedFrom value handle →
    heap.isLive handle ∧ ¬ Relation.TransGen heap.Displays handle handle

/-- Values that are being written, each with the handles it is inside of: the second is written for
the sake of the first. -/
def Enters (heap : Heap) (outer inner : List Handle × Value) : Prop :=
  ∃ handle ∈ outer.2.displayed, handle ∉ outer.1 ∧
    heap.get? handle = some inner.2 ∧ inner.1 = handle :: outer.1

/-- The slots whose values are not being written. -/
def unvisited (heap : Heap) (visiting : List Handle) : Finset Nat :=
  (Finset.range heap.slotCount).filter fun index => (⟨index⟩ : Handle) ∉ visiting

variable {heap : Heap} {visiting : List Handle} {handle : Handle} {value inner : Value}

theorem mem_unvisited (found : heap.get? handle = some value) (fresh : handle ∉ visiting) :
    handle.index ∈ heap.unvisited visiting := by
  have inside := Finset.mem_range.mpr (lt_size_of_isLive (isLive_of_get? found))
  refine Finset.mem_filter.mpr ⟨inside, ?_⟩
  rwa [Handle.mk_index]

theorem card_unvisited_lt (found : heap.get? handle = some value) (fresh : handle ∉ visiting) :
    (heap.unvisited (handle :: visiting)).card < (heap.unvisited visiting).card := by
  apply Finset.card_lt_card
  refine (Finset.ssubset_iff_of_subset ?_).mpr ⟨handle.index, mem_unvisited found fresh, ?_⟩
  · intro index member
    obtain ⟨inside, other⟩ := Finset.mem_filter.mp member
    exact Finset.mem_filter.mpr ⟨inside, fun visited => other (List.mem_cons_of_mem _ visited)⟩
  · intro member
    have other := (Finset.mem_filter.mp member).2
    rw [Handle.mk_index] at other
    exact other List.mem_cons_self

theorem card_unvisited_le (heap : Heap) (visiting : List Handle) :
    (heap.unvisited visiting).card ≤ heap.slotCount := by
  have fewer := Finset.card_filter_le (Finset.range heap.slotCount)
    fun index => (⟨index⟩ : Handle) ∉ visiting
  rwa [Finset.card_range] at fewer

/-- Writing a value comes to an end. -/
theorem wellFounded_enters (heap : Heap) :
    WellFounded fun inner outer : List Handle × Value => heap.Enters outer inner := by
  refine Subrelation.wf ?_ (measure fun config => (heap.unvisited config.1).card).wf
  rintro ⟨visiting, value⟩ outer ⟨handle, _, fresh, found, rfl⟩
  exact card_unvisited_lt found fresh

/-- What shows in a value that shows in another shows in that one, too. -/
theorem ReachedFrom.of_displayed {target : Handle} (member : handle ∈ value.displayed)
    (found : heap.get? handle = some inner) (reached : heap.ReachedFrom inner target) :
    heap.ReachedFrom value target := by
  obtain ⟨first, shown, path⟩ := reached
  exact ⟨handle, member, .head ⟨inner, found, shown⟩ path⟩

theorem FiniteFrom.of_displayed (finite : heap.FiniteFrom value) (member : handle ∈ value.displayed)
    (found : heap.get? handle = some inner) : heap.FiniteFrom inner :=
  fun target reached => finite target (reached.of_displayed member found)

end Heap

namespace ValueTree

variable {heap : Heap} {tree : ValueTree} {value : Value} {handle : Handle}

/-- What shows in a value that has a tree has one of the trees inside. -/
theorem Unfolds.exists_child (unfolds : tree.Unfolds heap value)
    (member : handle ∈ value.displayed) : ∃ inner ∈ tree.children, UnfoldsAt heap inner handle := by
  have each := unfolds.each
  generalize value.displayed = handles at each member
  generalize tree.children = trees at each
  induction each with
  | nil => cases member
  | @cons first _ trees _ unfoldsFirst _ ih =>
    rcases List.mem_cons.mp member with rfl | later
    · exact ⟨first, List.mem_cons_self, unfoldsFirst⟩
    · obtain ⟨inner, inside, innerUnfolds⟩ := ih later
      exact ⟨inner, List.mem_cons_of_mem first inside, innerUnfolds⟩

theorem UnfoldsAt.of_reached {target : Handle} (unfolds : tree.UnfoldsAt heap handle)
    (path : Relation.ReflTransGen heap.Displays handle target) :
    ∃ other : ValueTree, other.UnfoldsAt heap target := by
  induction path with
  | refl => exact ⟨tree, unfolds⟩
  | tail _ shows ih =>
    obtain ⟨outer, value, found, unfolds⟩ := ih
    obtain ⟨_, same, member⟩ := shows
    obtain rfl : value = _ := Option.some.inj (found.symm.trans same)
    obtain ⟨inner, _, innerUnfolds⟩ := unfolds.exists_child member
    exact ⟨inner, innerUnfolds⟩

theorem UnfoldsAt.not_displays_self (unfolds : tree.UnfoldsAt heap handle) :
    ¬ Relation.TransGen heap.Displays handle handle := by
  -- A way back to the handle would be a way back to one of a smaller tree.
  induction tree using ValueTree.induction generalizing handle with
  | each tree ih =>
    intro path
    obtain ⟨value, found, unfolds⟩ := unfolds
    obtain ⟨child, shows, back⟩ := Relation.TransGen.head'_iff.mp path
    obtain ⟨_, same, member⟩ := id shows
    obtain rfl : value = _ := Option.some.inj (found.symm.trans same)
    obtain ⟨inner, inside, innerUnfolds⟩ := unfolds.exists_child member
    exact ih inner inside innerUnfolds (Relation.TransGen.tail' back shows)

theorem Unfolds.finiteFrom (unfolds : tree.Unfolds heap value) : heap.FiniteFrom value := by
  rintro target ⟨first, member, path⟩
  obtain ⟨inner, _, innerUnfolds⟩ := unfolds.exists_child member
  obtain ⟨other, otherUnfolds⟩ := innerUnfolds.of_reached path
  obtain ⟨content, found, _⟩ := id otherUnfolds
  exact ⟨Heap.isLive_of_get? found, otherUnfolds.not_displays_self⟩

end ValueTree

namespace Value

theorem isSome_mapM_iff {α β : Type} {f : α → Option β} {entries : List α} :
    (entries.mapM f).isSome ↔ ∀ entry ∈ entries, (f entry).isSome := by
  induction entries with
  | nil => simp
  | cons first rest ih =>
    rw [List.forall_mem_cons, ← ih, List.mapM_cons]
    cases f first <;> cases rest.mapM f <;> simp

theorem isSome_textWith_iff {value : Value} {child : Handle → Option String} :
    (value.textWith child).isSome ↔ ∀ handle ∈ value.displayed, (child handle).isSome := by
  cases value with
  | array elements properties => rw [textWith, Option.isSome_map, isSome_mapM_iff]; rfl
  | object properties =>
    rw [textWith]
    split
    · rename_i empty
      have none_listed : properties.toList = [] := by
        simpa [PropertyMap.isEmpty, PropertyMap.toList] using empty
      simp [displayed, PropertyMap.handles, none_listed]
    · simp only [Option.isSome_map, isSome_mapM_iff, displayed, PropertyMap.handles,
        List.forall_mem_map]
  | _ => simp [textWith, displayed]

def spelled (heap : Heap) (visiting : List Handle) (value : Value) : Option String :=
  value.textWith fun handle =>
    if _visited : handle ∈ visiting then none
    else
      match _found : heap.get? handle with
      | none => none
      | some inner => spelled heap (handle :: visiting) inner
termination_by (heap.unvisited visiting).card
decreasing_by exact Heap.card_unvisited_lt ‹_› ‹_›

variable {heap : Heap} {visiting : List Handle} {value : Value}

theorem spelled_eq : spelled heap visiting value = value.textWith fun handle =>
    if visiting.contains handle then none
    else (heap.get? handle).bind (spelled heap (handle :: visiting)) := by
  rw [spelled]
  apply textWith_congr
  intro handle _
  by_cases visited : handle ∈ visiting
  · rw [dif_pos visited, if_pos (List.contains_iff_mem.mpr visited)]
  · rw [dif_neg visited, if_neg (by simpa using visited)]
    cases heap.get? handle <;> rfl

theorem isSome_spelled_iff : (spelled heap visiting value).isSome ↔
    ∀ handle ∈ value.displayed, handle ∉ visiting ∧ ∃ inner, heap.get? handle = some inner ∧
      (spelled heap (handle :: visiting) inner).isSome := by
  rw [spelled_eq, isSome_textWith_iff]
  refine forall₂_congr fun handle _ => ?_
  by_cases visited : handle ∈ visiting
  · simp [visited]
  · cases heap.get? handle <;> simp [visited]

/-- Looking for a text no deeper than there are slots whose values are not being written makes no
difference. -/
theorem textWithin_eq_spelled {depth : Nat} (deep : (heap.unvisited visiting).card ≤ depth) :
    textWithin heap depth visiting value = spelled heap visiting value := by
  induction depth generalizing visiting value with
  | zero =>
    rw [textWithin, spelled_eq]
    apply textWith_congr
    intro handle _
    by_cases visited : handle ∈ visiting
    · rw [if_pos (List.contains_iff_mem.mpr visited)]
    · cases found : heap.get? handle with
      | none => rw [Option.bind_none, ite_self]
      | some inner =>
        have left := Finset.card_pos.mpr ⟨_, Heap.mem_unvisited found visited⟩
        omega
  | succ depth ih =>
    rw [textWithin, spelled_eq]
    apply textWith_congr
    intro handle _
    by_cases visited : handle ∈ visiting
    · rw [if_pos (List.contains_iff_mem.mpr visited), if_pos (List.contains_iff_mem.mpr visited)]
    · rw [if_neg (by simpa using visited), if_neg (by simpa using visited)]
      cases found : heap.get? handle with
      | none => rfl
      | some inner =>
        have fewer := Heap.card_unvisited_lt found visited
        exact ih (by omega)

theorem exists_unfolds (finished : (spelled heap visiting value).isSome) :
    ∃ tree : ValueTree, tree.Unfolds heap value := by
  induction visiting, value using spelled.induct heap with
  | case1 visiting value ih =>
    apply ValueTree.exists_unfolds
    intro handle member
    obtain ⟨fresh, inner, found, innerFinished⟩ := isSome_spelled_iff.mp finished handle member
    obtain ⟨tree, unfolds⟩ := ih handle fresh inner found innerFinished
    exact ⟨tree, inner, found, unfolds⟩

theorem isSome_spelled (finite : heap.FiniteFrom value)
    (path : ∀ outer ∈ visiting, ∀ handle ∈ value.displayed,
      Relation.TransGen heap.Displays outer handle) :
    (spelled heap visiting value).isSome := by
  induction visiting, value using spelled.induct heap with
  | case1 visiting value ih =>
    rw [isSome_spelled_iff]
    intro handle member
    obtain ⟨live, endless⟩ := finite handle ⟨handle, member, .refl⟩
    obtain ⟨inner, found⟩ := (heap.isLive_iff handle).mp live
    have fresh : handle ∉ visiting := fun visited => endless (path handle visited handle member)
    refine ⟨fresh, inner, found, ih handle fresh inner found (finite.of_displayed member found) ?_⟩
    intro outer listed child shown
    have shows : heap.Displays handle child := ⟨inner, found, shown⟩
    rcases List.mem_cons.mp listed with rfl | before
    · exact .single shows
    · exact (path outer before handle member).tail shows

end Value

/-- A value with a tree has the text of the tree. -/
theorem ValueTree.Unfolds.spelled_eq {heap : Heap} {tree : ValueTree} {visiting : List Handle}
    {value : Value} (unfolds : tree.Unfolds heap value)
    (apart : ∀ handle ∈ visiting, ¬ heap.ReachedFrom value handle) :
    value.spelled heap visiting = some tree.text := by
  induction tree using ValueTree.induction generalizing visiting value with
  | each tree ih =>
    rw [Value.spelled_eq]
    apply unfolds.textWith_eq
    rintro inner inside handle member ⟨content, found, innerUnfolds⟩
    have fresh : handle ∉ visiting := fun visited =>
      apart handle visited ⟨handle, member, .refl⟩
    rw [if_neg (by simpa using fresh), found, Option.bind_some]
    apply ih inner inside innerUnfolds
    intro outer listed reached
    rcases List.mem_cons.mp listed with rfl | before
    · obtain ⟨first, shown, path⟩ := reached
      exact (unfolds.finiteFrom outer ⟨outer, member, .refl⟩).2
        (.head' ⟨content, found, shown⟩ path)
    · exact apart outer before (reached.of_displayed member found)

namespace Value

/-- Writing a value always comes to an end, at no greater depth than there are slots. It gives a
text if and only if all that shows in the value is there and nothing of it shows in itself; the text
is then that of the tree which the value unfolds to. Fields of a tree have the order of an object's
properties, to which an insertion adds a new name at the end. -/
theorem text?_exact (heap : Heap) (value : Value) :
    (WellFounded fun inner outer : List Handle × Value => heap.Enters outer inner) ∧
    (∀ depth, heap.slotCount ≤ depth → value.text? heap = textWithin heap depth [] value) ∧
    ((value.text? heap).isSome ↔ ∀ handle, heap.ReachedFrom value handle →
      heap.isLive handle ∧ ¬ Relation.TransGen heap.Displays handle handle) ∧
    (∀ text, value.text? heap = some text ↔
      ∃ tree : ValueTree, tree.Unfolds heap value ∧ tree.text = text) ∧
    ∀ (map : PropertyMap) (key : String) (handle : Handle), (map.insert key handle).names =
      if map.contains key then map.names else map.names ++ [key] := by
  have enough : (heap.unvisited []).card ≤ heap.slotCount := heap.card_unvisited_le []
  have text_eq : value.text? heap = spelled heap [] value := textWithin_eq_spelled enough
  refine ⟨heap.wellFounded_enters, ?_, ?_, ?_, PropertyMap.names_insert⟩
  · intro depth deep
    rw [text_eq, textWithin_eq_spelled (enough.trans deep)]
  · rw [text_eq]
    refine ⟨fun finished => ?_, fun finite => isSome_spelled finite (List.forall_mem_nil _)⟩
    obtain ⟨tree, unfolds⟩ := exists_unfolds finished
    exact unfolds.finiteFrom
  · intro text
    rw [text_eq]
    constructor
    · intro finished
      obtain ⟨tree, unfolds⟩ := exists_unfolds (Option.isSome_of_eq_some finished)
      rw [unfolds.spelled_eq (List.forall_mem_nil _)] at finished
      exact ⟨tree, unfolds, Option.some.inj finished⟩
    · rintro ⟨tree, unfolds, rfl⟩
      exact unfolds.spelled_eq (List.forall_mem_nil _)

/-- What shows twice is written twice. -/
example : (Value.array #[⟨0⟩, ⟨0⟩] .empty).text?
    { Heap.empty with slots := #[some ⟨.null, false⟩] } = some "[ null, null ]" := by
  decide

end Value
end Scriptlet
