import Mathlib.Tactic.Tauto
import Scriptlet.Machine.Native
import Scriptlet.Proofs.Value.Plain

set_option autoImplicit false

/-!
Values with other names for the handles in them. All that an operation does with a value commutes
with renaming, except that values are compared by handle.
-/
namespace Scriptlet

namespace PropertyMap

/-- A table with other names for its handles. -/
def rename (f : Handle → Handle) (map : PropertyMap) : PropertyMap :=
  { map with entries := map.entries.map fun entry => (entry.1, f entry.2) }

theorem get?_rename (f : Handle → Handle) (map : PropertyMap) (key : String) :
    (map.rename f).get? key = (map.get? key).map f := by
  simp only [get?, rename, Array.getElem?_map, bind, pure]
  cases map.positions[key]? with
  | none => rfl
  | some position => cases found : map.entries[position]? <;> simp [found]

theorem insert_rename (f : Handle → Handle) (map : PropertyMap) (key : String) (handle : Handle) :
    (map.insert key handle).rename f = (map.rename f).insert key (f handle) := by
  unfold insert
  have positions : (map.rename f).positions = map.positions := rfl
  rw [positions]
  cases map.positions[key]? with
  | none => simp only [rename, Array.map_push, Array.size_map]
  | some position =>
    simp only [rename, mk.injEq, and_true]
    apply Array.ext_getElem?
    intro place
    simp only [Array.getElem?_map, Array.getElem?_modify]
    split
    · simp only [Option.map_map]
      rfl
    · rfl

theorem ofList_rename (f : Handle → Handle) (insertions : List (String × Handle)) :
    (ofList insertions).rename f = ofList (insertions.map fun entry => (entry.1, f entry.2)) := by
  have general (map : PropertyMap) :
      (insertions.foldl (fun map entry => map.insert entry.1 entry.2) map).rename f =
        (insertions.map fun entry => (entry.1, f entry.2)).foldl
          (fun map entry => map.insert entry.1 entry.2) (map.rename f) := by
    induction insertions generalizing map with
    | nil => rfl
    | cons entry rest ih =>
      rw [List.foldl_cons, ih, insert_rename]
      rfl
  have none_there : empty.rename f = empty := by simp [rename, empty]
  rw [ofList, general, none_there, ofList]

theorem handles_rename (f : Handle → Handle) (map : PropertyMap) :
    (map.rename f).handles = map.handles.map f := by
  simp [handles, toList, rename]

theorem rename_congr {f g : Handle → Handle} {map : PropertyMap}
    (same : ∀ handle ∈ map.handles, f handle = g handle) : map.rename f = map.rename g := by
  simp only [rename, mk.injEq, and_true]
  apply Array.map_congr_left
  intro entry member
  rw [same entry.2 (List.mem_map_of_mem (Array.mem_toList_iff.mpr member))]

theorem rename_id (map : PropertyMap) : map.rename id = map := by
  simp [rename]

theorem mem_handles_of_get? {map : PropertyMap} {key : String} {handle : Handle}
    (found : map.get? key = some handle) : handle ∈ map.handles := by
  simp only [get?, bind, Option.bind_eq_some_iff, pure, Option.some.injEq] at found
  obtain ⟨position, _, entry, entry_eq, rfl⟩ := found
  exact List.mem_map_of_mem (Array.mem_toList_iff.mpr (Array.mem_of_getElem? entry_eq))

theorem mem_handles_insert {map : PropertyMap} {key : String} {handle other : Handle}
    (member : other ∈ (map.insert key handle).handles) : other = handle ∨ other ∈ map.handles := by
  simp only [handles, toList, List.mem_map, Array.mem_toList_iff] at member ⊢
  obtain ⟨entry, member, rfl⟩ := member
  unfold insert at member
  split at member
  · rw [Array.mem_iff_getElem?] at member
    obtain ⟨place, entry_eq⟩ := member
    rw [Array.getElem?_modify] at entry_eq
    split at entry_eq
    · obtain ⟨before, _, rfl⟩ := Option.map_eq_some_iff.mp entry_eq
      exact .inl rfl
    · exact .inr ⟨entry, Array.mem_of_getElem? entry_eq, rfl⟩
  · rcases Array.mem_push.mp member with before | rfl
    · exact .inr ⟨entry, before, rfl⟩
    · exact .inl rfl

theorem mem_handles_ofList {insertions : List (String × Handle)} {handle : Handle}
    (member : handle ∈ (ofList insertions).handles) : handle ∈ insertions.map Prod.snd := by
  have general (map : PropertyMap) :
      handle ∈ (insertions.foldl (fun map entry => map.insert entry.1 entry.2) map).handles →
        handle ∈ map.handles ∨ handle ∈ insertions.map Prod.snd := by
    clear member
    induction insertions generalizing map with
    | nil => exact .inl
    | cons entry rest ih =>
      intro member
      rw [List.map_cons, List.mem_cons]
      rcases ih _ member with before | later
      · rcases mem_handles_insert before with rfl | before
        · exact .inr (.inl rfl)
        · exact .inl before
      · exact .inr (.inr later)
  rcases general empty member with none | inserted
  · exact absurd none (by simp [handles, toList, empty])
  · exact inserted

end PropertyMap

namespace Value

def rename (f : Handle → Handle) : Value → Value
  | .array elements properties => .array (elements.map f) (properties.rename f)
  | .object properties => .object (properties.rename f)
  | value => value

variable (f : Handle → Handle) (value : Value)

theorem rename_id : value.rename id = value := by
  cases value <;> simp [rename, PropertyMap.rename_id]

theorem children_rename : (value.rename f).children = value.children.map f := by
  cases value <;> simp [rename, children, PropertyMap.handles_rename]

@[simp]
theorem kind_rename : (value.rename f).kind = value.kind := by
  cases value <;> rfl

@[simp]
theorem toNumber?_rename : (value.rename f).toNumber? = value.toNumber? := by
  cases value <;> rfl

@[simp]
theorem isTruthy_rename : (value.rename f).isTruthy = value.isTruthy := by
  cases value <;> rfl

theorem applyUnary_rename (operator : UnaryOperator) :
    (value.rename f).applyUnary operator = value.applyUnary operator := by
  simp only [applyUnary, isTruthy_rename, toNumber?_rename]

theorem arithmetic_rename (operation : Float → Float → Float) (left right : Value) :
    arithmetic operation (left.rename f) (right.rename f) = arithmetic operation left right := by
  simp only [arithmetic, toNumber?_rename]

theorem bitwise_rename (operation : Int32 → Int32 → Int) (left right : Value) :
    bitwise operation (left.rename f) (right.rename f) = bitwise operation left right := by
  simp only [bitwise, toNumber?_rename]

theorem relate_rename (operator : BinaryOperator) (left right : Value) :
    relate operator (left.rename f) (right.rename f) = relate operator left right := by
  cases left <;> cases right <;> simp [relate, rename, toNumber?]

theorem textWith_rename (child : Handle → Option String) :
    (value.rename f).textWith child = value.textWith fun handle => child (f handle) := by
  cases value <;> simp [rename, textWith, PropertyMap.isEmpty, PropertyMap.toList,
    PropertyMap.rename, List.mapM_map, Function.comp_def]

variable {f value}

theorem rename_congr {g : Handle → Handle} (same : ∀ handle ∈ value.children, f handle = g handle) :
    value.rename f = value.rename g := by
  cases value with
  | array elements properties =>
    have elements_eq : elements.map f = elements.map g :=
      Array.map_congr_left fun handle member =>
        same handle (List.mem_append_left _ (Array.mem_toList_iff.mpr member))
    have properties_eq : properties.rename f = properties.rename g :=
      PropertyMap.rename_congr fun handle member => same handle (List.mem_append_right _ member)
    simp only [rename, elements_eq, properties_eq]
  | object properties => simp only [rename, PropertyMap.rename_congr same]
  | _ => rfl

theorem mapM_congr {α β : Type} {entries : List α} {child other : α → Option β}
    (same : ∀ entry ∈ entries, child entry = other entry) :
    entries.mapM child = entries.mapM other := by
  induction entries with
  | nil => rfl
  | cons entry rest ih =>
    rw [List.mapM_cons, List.mapM_cons, same entry List.mem_cons_self,
      ih fun entry member => same entry (List.mem_cons_of_mem _ member)]

theorem textWith_congr {child other : Handle → Option String}
    (same : ∀ handle ∈ value.children, child handle = other handle) :
    value.textWith child = value.textWith other := by
  cases value with
  | array elements properties =>
    simp only [textWith]
    rw [mapM_congr fun handle member => same handle (List.mem_append_left _ member)]
  | object properties =>
    simp only [textWith]
    rw [mapM_congr fun entry member => by rw [same entry.2 (List.mem_map_of_mem member)]]
  | _ => rfl

/-- A value without children is its own copy. -/
theorem rename_eq_self (childless : value.children = []) : value.rename f = value := by
  conv => rhs; rw [← rename_id value]
  exact rename_congr fun handle member => absurd member (by simp [childless])

end Value

def Reading.rename (f : Handle → Handle) : Reading → Reading
  | .found handle => .found (f handle)
  | .fresh value => .fresh (value.rename f)

def Reading.handles : Reading → List Handle
  | .found handle => [handle]
  | .fresh value => value.children

namespace Value

variable (f : Handle → Handle) (value : Value)

theorem property_rename (key : PropertyKey) :
    (value.rename f).property key = (value.property key).rename f := by
  cases value with
  | array elements properties =>
    cases key with
    | index index =>
      cases found : elements[index]? <;> simp [rename, property, found, Reading.rename]
    | name name =>
      simp only [rename, property, PropertyMap.get?_rename, Array.size_map]
      split
      · rfl
      · cases properties.get? name <;> rfl
  | object properties =>
    simp only [rename, property, PropertyMap.get?_rename]
    cases properties.get? key.text <;> rfl
  | string text =>
    cases key with
    | index index =>
      cases found : text.toList[index]? <;> simp [rename, property, found, Reading.rename]
    | name name =>
      simp only [rename, property]
      split <;> rfl
  | _ => rfl

/-- Reading a property gives a child, or a value without children. -/
theorem handles_property (key : PropertyKey) : (value.property key).handles ⊆ value.children := by
  cases value with
  | array elements properties =>
    cases key with
    | index index =>
      simp only [property]
      cases found : elements[index]? with
      | none => exact List.nil_subset _
      | some handle =>
        refine List.cons_subset.mpr ⟨List.mem_append_left _ ?_, List.nil_subset _⟩
        exact Array.mem_toList_iff.mpr (Array.mem_of_getElem? found)
    | name name =>
      simp only [property]
      split
      · exact List.nil_subset _
      · cases found : properties.get? name with
        | none => exact List.nil_subset _
        | some handle =>
          refine List.cons_subset.mpr ⟨List.mem_append_right _ ?_, List.nil_subset _⟩
          exact PropertyMap.mem_handles_of_get? found
  | object properties =>
    simp only [property]
    cases found : properties.get? key.text with
    | none => exact List.nil_subset _
    | some handle =>
      exact List.cons_subset.mpr ⟨PropertyMap.mem_handles_of_get? found, List.nil_subset _⟩
  | string text =>
    cases key with
    | index index =>
      cases found : text.toList[index]? <;> simp [property, found, Reading.handles, children]
    | name name =>
      simp only [property]
      split <;> exact List.nil_subset _
  | _ => exact List.nil_subset _

theorem writing_rename (key : PropertyKey) : (value.rename f).writing key = value.writing key := by
  cases value with
  | array elements properties => cases key <;> simp [rename, writing]
  | _ => rfl

theorem setElement_rename (index : Nat) (handle : Handle) :
    (value.setElement index handle).rename f = (value.rename f).setElement index (f handle) := by
  cases value with
  | array elements properties => simp [setElement, rename, Array.map_setIfInBounds]
  | _ => rfl

theorem append_rename (handles : Array Handle) :
    (value.append handles).rename f = (value.rename f).append (handles.map f) := by
  cases value with
  | array elements properties => simp [append, rename]
  | _ => rfl

theorem setNamed_rename (name : String) (handle : Handle) :
    (value.setNamed name handle).rename f = (value.rename f).setNamed name (f handle) := by
  cases value <;> simp [setNamed, rename, PropertyMap.insert_rename]

variable {value}

theorem mem_children_setElement {index : Nat} {handle child : Handle}
    (member : child ∈ (value.setElement index handle).children) :
    child = handle ∨ child ∈ value.children := by
  cases value with
  | array elements properties =>
    rcases List.mem_append.mp member with element | property
    · have listed := Array.mem_toList_iff.mp element
      rcases Array.mem_or_eq_of_mem_setIfInBounds listed with before | same
      · exact .inr (List.mem_append_left _ (Array.mem_toList_iff.mpr before))
      · exact .inl same
    · exact .inr (List.mem_append_right _ property)
  | _ => exact .inr member

theorem mem_children_append {handles : Array Handle} {child : Handle}
    (member : child ∈ (value.append handles).children) :
    child ∈ handles ∨ child ∈ value.children := by
  cases value with
  | array elements properties =>
    simp only [append, children, Array.toList_append, List.mem_append,
      Array.mem_toList_iff] at member ⊢
    tauto
  | _ => exact .inr member

theorem mem_children_setNamed {name : String} {handle child : Handle}
    (member : child ∈ (value.setNamed name handle).children) :
    child = handle ∨ child ∈ value.children := by
  cases value with
  | array elements properties =>
    rcases List.mem_append.mp member with element | property
    · exact .inr (List.mem_append_left _ element)
    · exact (PropertyMap.mem_handles_insert property).imp_right (List.mem_append_right _)
  | object properties => exact PropertyMap.mem_handles_insert member
  | _ => exact .inr member

end Value

end Scriptlet
