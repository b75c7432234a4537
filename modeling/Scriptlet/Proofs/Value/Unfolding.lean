import Mathlib.Data.List.Forall2
import Scriptlet.Value.Text

set_option autoImplicit false

/-!
Values written out as trees. An array or object of the heap unfolds to a tree with the trees of its
elements or properties in place of their handles, so that what is shared stands in several places.
-/
namespace Scriptlet

/-- What shows of a value that is neither an array nor an object. -/
inductive Leaf where
  | undefined
  | null
  | boolean (value : Bool)
  | number (value : Float)
  | string (value : String)
  | nan
  | function (name : Option String)
  | native (name : String)
  deriving Inhabited

def Leaf.text : Leaf → String
  | .undefined => "undefined"
  | .null => "null"
  | .boolean value => toString value
  | .number value => Numeral.displayText value
  | .string value => value
  | .nan => "NaN"
  | .function name => "function " ++ name.getD "" ++ "() " ++ Text.inBraces "[code]"
  | .native name => "function " ++ name ++ "() " ++ Text.inBraces "[native code]"

/-- Values without handles. -/
inductive ValueTree where
  | leaf (shown : Leaf)
  | array (elements : List ValueTree)
  | object (fields : List (String × ValueTree))
  deriving Inhabited

namespace ValueTree

def children : ValueTree → List ValueTree
  | .leaf _ => []
  | .array elements => elements
  | .object fields => fields.map Prod.snd

theorem sizeOf_lt_of_mem_children {tree child : ValueTree} (member : child ∈ tree.children) :
    sizeOf child < sizeOf tree := by
  cases tree with
  | leaf => cases member
  | array elements =>
    have smaller : sizeOf child < sizeOf elements := List.sizeOf_lt_of_mem member
    simp only [array.sizeOf_spec]
    omega
  | object fields =>
    obtain ⟨⟨key, inner⟩, listed, rfl⟩ := List.mem_map.mp member
    have smaller := List.sizeOf_lt_of_mem listed
    simp only [Prod.mk.sizeOf_spec] at smaller
    simp only [object.sizeOf_spec]
    omega

/-- What follows for a tree from all trees inside it holds of every tree. -/
theorem induction {motive : ValueTree → Prop}
    (each : ∀ tree : ValueTree, (∀ child ∈ tree.children, motive child) → motive tree)
    (tree : ValueTree) : motive tree :=
  each tree fun child _ => induction each child
termination_by sizeOf tree
decreasing_by exact sizeOf_lt_of_mem_children ‹_›

mutual

def text : ValueTree → String
  | .leaf shown => shown.text
  | .array elements => "[ " ++ Text.commaSeparated (elementTexts elements) ++ " ]"
  | .object [] => "\x7b\x7d"
  | .object (field :: fields) =>
    Text.inBraces (Text.commaSeparated (fieldTexts (field :: fields)))

def elementTexts : List ValueTree → List String
  | [] => []
  | element :: elements => element.text :: elementTexts elements

def fieldTexts : List (String × ValueTree) → List String
  | [] => []
  | (key, field) :: fields => (key ++ ": " ++ field.text) :: fieldTexts fields

end

end ValueTree

namespace Value

/-- What shows of a value that is neither an array nor an object. -/
def leaf? : Value → Option Leaf
  | .undefined => some .undefined
  | .null => some .null
  | .boolean value => some (.boolean value)
  | .number value => some (.number value)
  | .string value => some (.string value)
  | .nan => some .nan
  | .array .. => none
  | .object _ => none
  | .function closure => some (.function closure.name)
  | .native name _ => some (.native name)

/-- The handles that show in a value, in order: the elements of an array and the properties of an
object. The named properties of an array do not show. -/
def displayed : Value → List Handle
  | .array elements _ => elements.toList
  | .object properties => properties.handles
  | _ => []

end Value

namespace ValueTree

variable {heap : Heap}

mutual

def Unfolds (heap : Heap) : ValueTree → Value → Prop
  | .leaf shown, value => value.leaf? = some shown
  | .array trees, value =>
    ∃ elements properties, value = .array elements properties ∧
      UnfoldEach heap trees elements.toList
  | .object fields, value =>
    ∃ properties, value = .object properties ∧ UnfoldFields heap fields properties.toList

def UnfoldEach (heap : Heap) : List ValueTree → List Handle → Prop
  | tree :: trees, handle :: handles =>
    (∃ value, heap.get? handle = some value ∧ tree.Unfolds heap value) ∧
      UnfoldEach heap trees handles
  | [], [] => True
  | _, _ => False

def UnfoldFields (heap : Heap) : List (String × ValueTree) → List (String × Handle) → Prop
  | (key, tree) :: fields, (name, handle) :: entries =>
    (key = name ∧ ∃ value, heap.get? handle = some value ∧ tree.Unfolds heap value) ∧
      UnfoldFields heap fields entries
  | [], [] => True
  | _, _ => False

end

def UnfoldsAt (heap : Heap) (tree : ValueTree) (handle : Handle) : Prop :=
  ∃ value, heap.get? handle = some value ∧ tree.Unfolds heap value

theorem unfoldEach_iff (trees : List ValueTree) (handles : List Handle) :
    UnfoldEach heap trees handles ↔ List.Forall₂ (UnfoldsAt heap) trees handles := by
  induction trees generalizing handles with
  | nil => cases handles <;> simp [UnfoldEach]
  | cons tree trees ih => cases handles <;> simp [UnfoldEach, UnfoldsAt, ih]

theorem unfoldFields_iff (fields : List (String × ValueTree)) (entries : List (String × Handle)) :
    UnfoldFields heap fields entries ↔
      List.Forall₂ (fun field entry => field.1 = entry.1 ∧ UnfoldsAt heap field.2 entry.2)
        fields entries := by
  induction fields generalizing entries with
  | nil => cases entries <;> simp [UnfoldFields]
  | cons field fields ih => cases entries <;> simp [UnfoldFields, UnfoldsAt, ih]

theorem elementTexts_eq_map (elements : List ValueTree) :
    elementTexts elements = elements.map text := by
  induction elements with
  | nil => rfl
  | cons element elements ih => rw [elementTexts, ih, List.map_cons]

theorem fieldTexts_eq_map (fields : List (String × ValueTree)) :
    fieldTexts fields = fields.map fun field => field.1 ++ ": " ++ field.2.text := by
  induction fields with
  | nil => rfl
  | cons field fields ih => rw [fieldTexts, ih, List.map_cons]

/-- The trees inside a tree are the values of what shows, one by one. -/
theorem Unfolds.each {tree : ValueTree} {value : Value} (unfolds : tree.Unfolds heap value) :
    List.Forall₂ (UnfoldsAt heap) tree.children value.displayed := by
  cases tree with
  | leaf shown =>
    rw [Unfolds] at unfolds
    cases value <;> first | exact .nil | cases unfolds
  | array trees =>
    obtain ⟨elements, properties, rfl, each⟩ := unfolds
    exact (unfoldEach_iff trees elements.toList).mp each
  | object fields =>
    obtain ⟨properties, rfl, each⟩ := unfolds
    rw [unfoldFields_iff] at each
    rw [children, Value.displayed, PropertyMap.handles, List.forall₂_map_left_iff,
      List.forall₂_map_right_iff]
    exact each.imp fun _ _ => And.right

/-- A value has a tree if all that shows in it has. -/
theorem exists_unfolds {value : Value}
    (each : ∀ handle ∈ value.displayed, ∃ tree, UnfoldsAt heap tree handle) :
    ∃ tree : ValueTree, tree.Unfolds heap value := by
  choose! treeOf unfolds using each
  cases value with
  | array elements properties =>
    refine ⟨.array (elements.toList.map treeOf), elements, properties, rfl, ?_⟩
    rw [unfoldEach_iff, List.forall₂_map_left_iff, List.forall₂_same]
    exact unfolds
  | object properties =>
    refine ⟨.object (properties.toList.map fun entry => (entry.1, treeOf entry.2)), properties, rfl,
      ?_⟩
    rw [unfoldFields_iff, List.forall₂_map_left_iff, List.forall₂_same]
    exact fun entry member => ⟨rfl, unfolds entry.2 (List.mem_map_of_mem member)⟩
  | _ => exact ⟨.leaf _, rfl⟩

theorem mapM_eq_some_map {α β γ : Type} {R : β → α → Prop} {f : α → Option γ} {g : β → γ}
    {one : List β} {two : List α} (each : List.Forall₂ R one two)
    (same : ∀ b ∈ one, ∀ a ∈ two, R b a → f a = some (g b)) :
    two.mapM f = some (one.map g) := by
  induction each with
  | nil => rfl
  | @cons b a one two related _ ih =>
    have first := same b List.mem_cons_self a List.mem_cons_self related
    have rest := ih fun c left d right =>
      same c (List.mem_cons_of_mem b left) d (List.mem_cons_of_mem a right)
    simp [List.mapM_cons, first, rest]

/-- The text of a value is that of its tree, if the texts of what shows are those of the trees
inside. -/
theorem Unfolds.textWith_eq {tree : ValueTree} {value : Value} (unfolds : tree.Unfolds heap value)
    {child : Handle → Option String}
    (same : ∀ inner ∈ tree.children, ∀ handle ∈ value.displayed, UnfoldsAt heap inner handle →
      child handle = some inner.text) :
    value.textWith child = some tree.text := by
  cases tree with
  | leaf shown =>
    rw [Unfolds] at unfolds
    cases value <;> cases unfolds <;> rfl
  | array trees =>
    obtain ⟨elements, properties, rfl, each⟩ := unfolds
    rw [Value.textWith, mapM_eq_some_map ((unfoldEach_iff trees elements.toList).mp each) same,
      text, elementTexts_eq_map, Option.map_some]
  | object fields =>
    obtain ⟨properties, rfl, each⟩ := unfolds
    rw [unfoldFields_iff] at each
    have texts : (properties.toList.mapM fun entry =>
        (child entry.2).map fun text => entry.1 ++ ": " ++ text) =
        some (fields.map fun field => field.1 ++ ": " ++ field.2.text) := by
      refine mapM_eq_some_map each ?_
      rintro field fieldMember entry entryMember ⟨key, inner⟩
      rw [same field.2 (List.mem_map_of_mem fieldMember) entry.2 (List.mem_map_of_mem entryMember)
        inner, key, Option.map_some]
    have empty : properties.isEmpty = fields.isEmpty := by
      have count : fields.length = properties.entries.toList.length := each.length_eq
      rw [PropertyMap.isEmpty, ← Array.isEmpty_toList, Bool.eq_iff_iff,
        List.isEmpty_iff_length_eq_zero, List.isEmpty_iff_length_eq_zero, count]
    rw [Value.textWith, texts, empty]
    cases fields with
    | nil => rfl
    | cons field fields => rw [text, fieldTexts_eq_map]; rfl

end ValueTree
end Scriptlet
