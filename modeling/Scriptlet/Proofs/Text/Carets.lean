import Mathlib
import Scriptlet.Proofs.Grammar.Location

set_option autoImplicit false

/-!
How many carets a report has. Their number is cut off at the length of the line, not at what is left
of the line behind the first of them. So they mark the reported characters of the line when the
report ends on it, but for a report that goes on behind it there are mostly too many of them.
-/
namespace Scriptlet

namespace Text

variable {text : List Char} {offset : Nat} {before line after : List Char}

/-- Only the carriage return of its ending is not shown of a line. -/
theorem line_eq_of_length_shown_lt (shorter : (shown line after).length < line.length) :
    line = shown line after ++ ['\r'] ∧ after ≠ [] := by
  unfold shown dropCarriageReturn at shorter ⊢
  split at shorter
  · omega
  · rename_i more
    split at shorter
    · rename_i last
      rw [if_neg more, if_pos last]
      exact ⟨(List.dropLast_append_getLast? '\r' last).symm, more⟩
    · omega

/-- An offset on a line is at most at the end of what is shown of it, unless it is that of a line
feed behind a carriage return. -/
theorem LineAt.column_le (stands : LineAt text offset before line after) :
    offset - before.length ≤ (shown line after).length ∨
      offset - before.length = (shown line after).length + 1 ∧
        ∃ later, text = before ++ shown line after ++ '\r' :: '\n' :: later := by
  obtain ⟨split, _, _, ends, le, inside⟩ := stands
  by_cases shorter : (shown line after).length < line.length
  · obtain ⟨line_eq, more⟩ := line_eq_of_length_shown_lt shorter
    have length_eq := congrArg List.length line_eq
    rw [List.length_append, List.length_singleton] at length_eq
    by_cases last : offset - before.length = line.length
    · right
      obtain ⟨later, rfl⟩ := ends.resolve_left more
      refine ⟨by omega, later, ?_⟩
      rw [split]
      conv_lhs => rw [line_eq]
      simp only [List.append_assoc, List.singleton_append]
    · left
      omega
  · left
    omega

end Text

namespace Diagnostic

/-- The number of characters of a row that a span has, when the row starts at an offset. -/
def coverage (span : Span) (first : Nat) (row : String) : Nat :=
  (Finset.Ico span.start span.stop ∩ Finset.Ico first (first + row.length)).card

section Coverage

variable {span : Span} {first column : Nat} {row : String}

theorem coverage_eq (start_eq : first + column = span.start) :
    coverage span first row = min span.length (row.length - column) := by
  rw [coverage, Finset.Ico_inter_Ico, Nat.card_Ico, Span.length]
  omega

theorem caretRow_snd : (caretRow span column row).2 = max 1 (min span.length row.length) := by
  unfold caretRow
  dsimp only
  omega

/-- When the span ends on the row, there is a caret for each of its characters, and they stay on the
row. -/
theorem carets_of_inside (start_eq : first + column = span.start)
    (inside : span.stop ≤ first + row.length) :
    (caretRow span column row).2 = max 1 (coverage span first row) ∧
      (caretRow span column row).1 + (caretRow span column row).2 ≤ row.length + 1 := by
  have length_le : span.length ≤ row.length - column := by
    rw [Span.length]
    omega
  have indent_eq : (caretRow span column row).1 = min column row.length := rfl
  rw [coverage_eq start_eq, indent_eq, caretRow_snd]
  omega

/-- When the span goes on behind the row, there are as many carets as characters of the row only if
it starts the row, or if there is nothing to choose from. -/
theorem carets_iff_of_beyond (start_eq : first + column = span.start)
    (beyond : first + row.length < span.stop) :
    (caretRow span column row).2 = max 1 (coverage span first row) ↔
      column = 0 ∨ row.length ≤ 1 ∨ span.length ≤ 1 := by
  have length_lt : row.length < column + span.length := by
    rw [Span.length]
    omega
  rw [coverage_eq start_eq, caretRow_snd]
  omega

end Coverage

/-- A report that starts in a line of a text is drawn like one without a place, with that line put
in and below it carets from the first reported character on, or from just behind the line when that
character is the line feed behind a carriage return. When the report ends on the line there is a
caret for each of its characters there, and one if it has none. When it goes on behind the line,
there are as many carets as it has characters, at most as many as the line has; these are more than
its characters on the line, unless it starts the line or there is one caret at most. -/
theorem render_carets (report : Diagnostic) (palette : Palette) (file : Option String)
    {text : String} {span : Span} (span_eq : report.span = some span)
    (bound : span.start ≤ text.length) {number column : Nat} {row : String}
    (place : Text.lineColumn text span.start = (number, column))
    (found : (Text.lines text)[number - 1]? = some row) :
    ∃ before line after, Text.LineAt text.toList span.start before line after ∧
      row.toList = Text.shown line after ∧ number = 1 + before.count '\n' ∧
      before.length + column = span.start ∧
      ∃ above below indent carets,
        report.unplaced.render palette (some text) file = above ++ below ∧
        report.render palette (some text) file =
          above ++ rows palette number row indent carets ++ below ∧
        (column ≤ row.length ∧ indent = column ∨
          column = row.length + 1 ∧ indent = row.length ∧
            ∃ later, text.toList = before ++ row.toList ++ '\r' :: '\n' :: later) ∧
        (span.stop ≤ before.length + row.length →
          carets = max 1 (coverage span before.length row) ∧
            indent + carets ≤ row.length + 1) ∧
        (before.length + row.length < span.stop →
          carets = max 1 (min span.length row.length) ∧
            (carets = max 1 (coverage span before.length row) ↔
              column = 0 ∨ row.length ≤ 1 ∨ span.length ≤ 1)) := by
  rw [← String.length_toList] at bound
  obtain ⟨before, line, after, stands⟩ := Text.exists_lineAt bound
  obtain ⟨above, below, placed, unplaced⟩ := report.exists_render_eq palette file
  have le := stands.le
  have place_eq := stands.lineColumn
  rw [place, Prod.mk.injEq] at place_eq
  obtain ⟨rfl, rfl⟩ := place_eq
  have found_eq := stands.getElem?_lines
  rw [Nat.add_sub_cancel_left] at found
  rw [found] at found_eq
  have excerpt := excerpt?_eq stands palette
  have start_eq : before.length + (span.start - before.length) = span.start := by omega
  by_cases nothing : line = [] ∧ after = []
  · -- Behind the last line there is no row.
    rw [if_pos nothing] at found_eq
    cases found_eq
  · rw [if_neg nothing] at found_eq excerpt
    obtain rfl := Option.some.inj found_eq
    have located : report.location palette (some text) =
        (excerpt? palette text span).getD "" := by
      simp only [location, span_eq]
    rw [excerpt, Option.getD_some] at located
    have length_eq : (String.ofList (Text.shown line after)).length =
        (Text.shown line after).length := String.length_ofList
    have column_le := stands.column_le
    rw [← length_eq] at column_le
    refine ⟨before, line, after, stands, String.toList_ofList, rfl, start_eq, above, below, _, _,
      unplaced _, by rw [placed, located], ?_, fun inside => carets_of_inside start_eq inside,
      fun beyond => ⟨caretRow_snd, carets_iff_of_beyond start_eq beyond⟩⟩
    rcases column_le with on_row | ⟨behind, later⟩
    · exact .inl ⟨on_row, Nat.min_eq_left on_row⟩
    · refine .inr ⟨behind, Nat.min_eq_right (by omega), ?_⟩
      rwa [String.toList_ofList]

/-- A call whose arguments go on behind the line has a caret for each of its characters, four more
than it has on the line. -/
theorem render_carets_call :
    let call : Diagnostic := { title := "NOT CALLABLE", span := some ⟨11, 17⟩ }
    Text.lineColumn "var a = 1; a(\n1\n);" 11 = (1, 11) ∧
      (Text.lines "var a = 1; a(\n1\n);")[0]? = some "var a = 1; a(" ∧
      coverage ⟨11, 17⟩ 0 "var a = 1; a(" = 2 ∧
      ∃ above below, call.render .plain (some "var a = 1; a(\n1\n);") none =
        above ++ rows .plain 1 "var a = 1; a(" 11 6 ++ below := by
  intro call
  have place : Text.lineColumn "var a = 1; a(\n1\n);" 11 = (1, 11) := by decide +kernel
  have found : (Text.lines "var a = 1; a(\n1\n);")[1 - 1]? = some "var a = 1; a(" := by
    decide +kernel
  have marked : coverage ⟨11, 17⟩ 0 "var a = 1; a(" = 2 := by decide +kernel
  obtain ⟨before, line, after, _, _, _, start_eq, above, below, indent, carets, _, drawn, indented,
    _, beyond⟩ := render_carets call .plain none rfl (by decide +kernel) place found
  have length_eq : "var a = 1; a(".length = 13 := by decide +kernel
  have first : before.length = 0 := by
    have : before.length + 11 = 11 := start_eq
    omega
  rw [length_eq, first] at beyond
  obtain ⟨rfl, _⟩ := beyond (by decide)
  rw [length_eq] at indented
  obtain rfl : indent = 11 := by omega
  exact ⟨place, found, marked, above, below, drawn⟩

end Diagnostic
end Scriptlet
