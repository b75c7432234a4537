import Mathlib.Data.List.Induction
import Scriptlet.Text.Basic

set_option autoImplicit false

/-!
The line that an offset stands in. Counting line feeds up to the offset and taking the text apart
into lines agree on it, but there is no line behind a line feed that ends the text.
-/
namespace Scriptlet.Text

/-- Whether the characters up to some point leave off at the start of a line. -/
def StartsLine (before : List Char) : Prop :=
  before = [] ∨ ∃ earlier, before = earlier ++ ['\n']

/-- The line of a text in which an offset stands, with what is before it, and what is after it from
the line feed on that ends it. -/
structure LineAt (text : List Char) (offset : Nat) (before line after : List Char) : Prop where
  split : text = before ++ line ++ after
  starts : StartsLine before
  unbroken : '\n' ∉ line
  ends : after = [] ∨ ∃ later, after = '\n' :: later
  le : before.length ≤ offset
  inside : offset ≤ before.length + line.length

/-- A line as it is shown, without the carriage return of its ending. -/
def shown (line after : List Char) : List Char :=
  if after = [] then line else dropCarriageReturn line

theorem exists_startsLine (text : List Char) :
    ∃ before part, text = before ++ part ∧ StartsLine before ∧ '\n' ∉ part := by
  induction text using List.reverseRecOn with
  | nil => exact ⟨[], [], rfl, .inl rfl, List.not_mem_nil⟩
  | append_singleton text c inductive_hypothesis =>
    by_cases breaks : c = '\n'
    · exact ⟨text ++ [c], [], (List.append_nil _).symm, .inr ⟨text, by rw [breaks]⟩,
        List.not_mem_nil⟩
    · obtain ⟨before, part, rfl, starts, unbroken⟩ := inductive_hypothesis
      refine ⟨before, part ++ [c], List.append_assoc .., starts, fun member => ?_⟩
      rcases List.mem_append.mp member with inside | last
      · exact unbroken inside
      · exact breaks (List.mem_singleton.mp last).symm

theorem exists_endOfLine (text : List Char) :
    ∃ part after, text = part ++ after ∧ '\n' ∉ part ∧
      (after = [] ∨ ∃ later, after = '\n' :: later) := by
  induction text with
  | nil => exact ⟨[], [], rfl, List.not_mem_nil, .inl rfl⟩
  | cons c text inductive_hypothesis =>
    by_cases breaks : c = '\n'
    · exact ⟨[], c :: text, rfl, List.not_mem_nil, .inr ⟨text, by rw [breaks]⟩⟩
    · obtain ⟨part, after, rfl, unbroken, ends⟩ := inductive_hypothesis
      refine ⟨c :: part, after, rfl, fun member => ?_, ends⟩
      rcases List.mem_cons.mp member with first | inside
      · exact breaks first.symm
      · exact unbroken inside

/-- Every offset up to the end of a text stands in a line. -/
theorem exists_lineAt {text : List Char} {offset : Nat} (bound : offset ≤ text.length) :
    ∃ before line after, LineAt text offset before line after := by
  obtain ⟨before, left, left_eq, starts, left_unbroken⟩ := exists_startsLine (text.take offset)
  obtain ⟨right, after, right_eq, right_unbroken, ends⟩ := exists_endOfLine (text.drop offset)
  have length_eq : before.length + left.length = offset := by
    rw [← List.length_append, ← left_eq, List.length_take]
    omega
  refine ⟨before, left ++ right, after, ?_, starts, ?_, ends, ?_, ?_⟩
  · calc text
      _ = text.take offset ++ text.drop offset := (List.take_append_drop offset text).symm
      _ = before ++ (left ++ right) ++ after := by
        rw [left_eq, right_eq]
        simp only [List.append_assoc]
  · exact fun member => (List.mem_append.mp member).elim left_unbroken right_unbroken
  · omega
  · rw [List.length_append]
    omega

/-- A text without a line feed is a single line. -/
theorem LineAt.single {text before line after : List Char} {offset : Nat}
    (stands : LineAt text offset before line after) (unbroken : '\n' ∉ text) :
    before = [] ∧ line = text ∧ after = [] := by
  obtain ⟨rfl, starts, _, ends, _, _⟩ := stands
  simp only [List.mem_append, not_or] at unbroken
  rcases starts with rfl | ⟨earlier, rfl⟩
  · rcases ends with rfl | ⟨later, rfl⟩
    · exact ⟨rfl, by rw [List.nil_append, List.append_nil], rfl⟩
    · exact absurd List.mem_cons_self unbroken.2
  · exact absurd List.mem_concat_self unbroken.1.1

theorem foldl_advance_of_unbroken {part : List Char} (unbroken : '\n' ∉ part)
    (position : Nat × Nat) :
    part.foldl advance position = (position.1, position.2 + part.length) := by
  induction part generalizing position with
  | nil => rfl
  | cons c part inductive_hypothesis =>
    obtain ⟨first, rest⟩ := not_or.mp (mt List.mem_cons.mpr unbroken)
    rw [List.foldl_cons, inductive_hypothesis rest, advance, if_neg (Ne.symm first),
      List.length_cons, Nat.add_right_comm, Nat.add_assoc]

theorem foldl_advance_fst (text : List Char) (position : Nat × Nat) :
    (text.foldl advance position).1 = position.1 + text.count '\n' := by
  induction text generalizing position with
  | nil => rfl
  | cons c text inductive_hypothesis =>
    rw [List.foldl_cons, inductive_hypothesis, advance, List.count_cons]
    by_cases breaks : c = '\n'
    · simp [breaks, Nat.add_right_comm, Nat.add_assoc]
    · simp [breaks]

/-- At the start of a line the column is zero. -/
theorem foldl_advance_of_startsLine {before : List Char} (starts : StartsLine before) :
    before.foldl advance (1, 0) = (1 + before.count '\n', 0) := by
  rcases starts with rfl | ⟨earlier, rfl⟩
  · rfl
  · have row := foldl_advance_fst earlier (1, 0)
    rw [List.foldl_append, List.foldl_cons, List.foldl_nil, advance, if_pos rfl, row,
      List.count_append]
    rfl

/-- The row is one more than the number of line feeds before the line, and the column is the
distance from its start. -/
theorem LineAt.lineColumn {text : String} {offset : Nat} {before line after : List Char}
    (stands : LineAt text.toList offset before line after) :
    lineColumn text offset = (1 + before.count '\n', offset - before.length) := by
  obtain ⟨split, starts, unbroken, _, le, inside⟩ := stands
  have taken : text.toList.take offset = before ++ line.take (offset - before.length) := by
    rw [split, List.append_assoc, List.take_append, List.take_of_length_le le,
      List.take_append_of_le_length (by omega)]
  have part : '\n' ∉ line.take (offset - before.length) :=
    fun member => unbroken (List.mem_of_mem_take member)
  rw [Text.lineColumn, taken, List.foldl_append, foldl_advance_of_startsLine starts,
    foldl_advance_of_unbroken part, List.length_take]
  congr 1
  omega

theorem linesFrom_of_unbroken {part : List Char} (unbroken : '\n' ∉ part) (reversed : List Char) :
    linesFrom reversed part =
      if reversed.reverse ++ part = [] then [] else [reversed.reverse ++ part] := by
  induction part generalizing reversed with
  | nil => simp [linesFrom, List.isEmpty_iff]
  | cons c part inductive_hypothesis =>
    obtain ⟨first, rest⟩ := not_or.mp (mt List.mem_cons.mpr unbroken)
    rw [linesFrom, if_neg (Ne.symm first), inductive_hypothesis rest]
    simp

theorem linesFrom_append_break {part : List Char} (unbroken : '\n' ∉ part)
    (reversed rest : List Char) :
    linesFrom reversed (part ++ '\n' :: rest) =
      dropCarriageReturn (reversed.reverse ++ part) :: linesFrom [] rest := by
  induction part generalizing reversed with
  | nil => simp [linesFrom]
  | cons c part inductive_hypothesis =>
    obtain ⟨first, others⟩ := not_or.mp (mt List.mem_cons.mpr unbroken)
    rw [List.cons_append, linesFrom, if_neg (Ne.symm first), inductive_hypothesis others]
    simp

theorem getElem?_linesFrom_append (earlier reversed rest : List Char) (index : Nat) :
    (linesFrom reversed (earlier ++ '\n' :: rest))[earlier.count '\n' + 1 + index]? =
      (linesFrom [] rest)[index]? := by
  induction earlier generalizing reversed with
  | nil =>
    rw [List.nil_append, linesFrom, if_pos rfl, List.count_nil, Nat.zero_add, Nat.add_comm,
      List.getElem?_cons_succ]
  | cons c earlier inductive_hypothesis =>
    rw [List.cons_append, linesFrom, List.count_cons]
    by_cases breaks : c = '\n'
    · rw [if_pos breaks, if_pos (beq_iff_eq.mpr breaks),
        show earlier.count '\n' + 1 + 1 + index = earlier.count '\n' + 1 + index + 1 by omega,
        List.getElem?_cons_succ, inductive_hypothesis]
    · rw [if_neg breaks, if_neg (mt beq_iff_eq.mp breaks)]
      exact inductive_hypothesis (c :: reversed)

/-- The lines from the start of one on come after as many as there are line feeds before it. -/
theorem getElem?_linesFrom {before : List Char} (starts : StartsLine before) (rest : List Char)
    (index : Nat) :
    (linesFrom [] (before ++ rest))[before.count '\n' + index]? = (linesFrom [] rest)[index]? := by
  rcases starts with rfl | ⟨earlier, rfl⟩
  · rw [List.nil_append, List.count_nil, Nat.zero_add]
  · rw [List.append_assoc, List.count_append]
    exact getElem?_linesFrom_append earlier [] rest index

/-- A text has the line that an offset stands in, unless it ends just before that, with nothing on
the line. -/
theorem LineAt.getElem?_lines {text : String} {offset : Nat} {before line after : List Char}
    (stands : LineAt text.toList offset before line after) :
    (lines text)[before.count '\n']? =
      if line = [] ∧ after = [] then none else some (String.ofList (shown line after)) := by
  obtain ⟨split, starts, unbroken, ends, _, _⟩ := stands
  have found := getElem?_linesFrom starts (line ++ after) 0
  rw [Nat.add_zero, ← List.append_assoc, ← split] at found
  rw [lines, List.getElem?_map, found]
  rcases ends with rfl | ⟨later, rfl⟩
  · rw [List.append_nil, linesFrom_of_unbroken unbroken, shown, if_pos rfl]
    by_cases empty : line = []
    · simp [empty]
    · simp [empty]
  · rw [linesFrom_append_break unbroken, shown, if_neg (List.cons_ne_nil _ _)]
    simp

end Scriptlet.Text
