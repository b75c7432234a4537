import Scriptlet.Machine.Property
import Scriptlet.Proofs.Numeral.Digits

set_option autoImplicit false

/-!
Property keys stand for names. Every name has one key, which tells the name, and the key of a value
is that of its text, whether it is found from the text or from a number directly.
-/
namespace Scriptlet.PropertyKey

/-- The key of a name tells the name. -/
theorem text_ofName (name : String) : (ofName name).text = name := by
  cases spelled : Numeral.indexText? name with
  | none =>
    rw [ofName, spelled]
    rfl
  | some index =>
    rw [ofName, spelled]
    exact ((Numeral.indexText?_eq_some_iff name index).mp spelled).1.symm

theorem ofName_injective : Function.Injective ofName :=
  Function.LeftInverse.injective text_ofName

/-- The key of a small natural's digits is an index. -/
theorem ofName_toString {index : Nat} (small : index ≤ Numeral.largestIndex) :
    ofName (toString index) = .index index := by
  rw [ofName, (Numeral.indexText?_eq_some_iff _ index).mpr ⟨rfl, small⟩]
  rfl

/-- The key of a number is that of the text it is shown with. -/
theorem ofNumber_eq (x : Float) : ofNumber x = ofName (Numeral.displayText x) := by
  cases found : Numeral.toIndex? x with
  | none =>
    rw [ofNumber, found]
    rfl
  | some index =>
    have small := Numeral.le_largestIndex_of_toIndex? found
    rw [Numeral.displayText_of_toIndex? found, ofName_toString small, ofNumber, found]
    rfl

theorem ofValue_of_text? {heap : Heap} {value : Value} {text : String}
    (shown : value.text? heap = some text) : ofValue heap value = ofName text := by
  cases value with
  | number x =>
    have shown_eq : (Value.number x).text? heap = some (Numeral.displayText x) := by
      unfold Value.text?
      cases heap.slotCount <;> rfl
    rw [shown_eq] at shown
    cases shown
    exact ofNumber_eq x
  | _ =>
    rw [ofValue, shown]
    · rfl
    · exact fun _ => nofun

/-- The key of a name tells the name, so names with one key are the same, and a value that has a
text has the key of the text. -/
theorem keys_canonical :
    (∀ name, (ofName name).text = name) ∧
    (∀ one two, ofName one = ofName two ↔ one = two) ∧
    ∀ (heap : Heap) (value : Value) (text : String), value.text? heap = some text →
      ofValue heap value = ofName text :=
  ⟨text_ofName, fun _ _ => ofName_injective.eq_iff, fun _ _ _ => ofValue_of_text?⟩

theorem keys_canonical_zero :
    (Value.number (-0.0)).text? .empty = some "0" ∧
      ofValue .empty (.number (-0.0)) = ofName "0" ∧ ofName "0" = .index 0 ∧
      ofName "00" ≠ ofName "0" := by
  have shown : (Value.number (-0.0)).text? .empty = some "0" := by decide +kernel
  obtain ⟨_, same_iff, ofText⟩ := keys_canonical
  refine ⟨shown, ofText .empty (.number (-0.0)) "0" shown, by decide +kernel, ?_⟩
  rw [ne_eq, same_iff]
  decide

/-- The largest index, and what lies next to it. -/
example : ofValue .empty (.number 4294967295.0) = .index 4294967295 ∧
    ofValue .empty (.number 4294967296.0) = .name "4294967296" ∧
    ofValue .empty (.string "01") = .name "01" := by
  decide +kernel

end Scriptlet.PropertyKey
