import Mathlib
import Scriptlet.Proofs.Grammar.Report
import Scriptlet.Proofs.Text.Lines

set_option autoImplicit false

/-!
Where the report of a text that is no program says it is. It shows the line, with carets under it,
unless it is about the end of a text that ends with a line feed: then it shows no place at all.
-/
namespace Scriptlet

namespace Diagnostic

def rows (palette : Palette) (number : Nat) (line : String) (indent carets : Nat) : String :=
  "\n" ++ toString number ++ " | " ++ line ++ "\n" ++ repeated (toString number).length ' ' ++
    " | " ++ repeated indent ' ' ++ palette.paint (repeated carets '^')

/-- The same report without a place. -/
def unplaced (report : Diagnostic) : Diagnostic :=
  { report with span := none }

section Render

variable (report : Diagnostic) (palette : Palette) (file : Option String)

/-- The place stands between the message and the hints, and nothing else depends on it. -/
theorem exists_render_eq :
    ∃ above below,
      (∀ source, report.render palette source file =
        above ++ report.location palette source ++ below) ∧
      ∀ source, report.unplaced.render palette source file = above ++ below := by
  refine ⟨_, _, fun source => rfl, fun source => ?_⟩
  have nowhere : report.unplaced.location palette source = "" := rfl
  simp only [render, nowhere, String.append_empty]
  rfl

end Render

/-- The excerpt of a text is the row of the line that the report starts in, with a row of carets. -/
theorem excerpt?_eq {text : String} {span : Span} {before line after : List Char}
    (stands : Text.LineAt text.toList span.start before line after) (palette : Palette) :
    excerpt? palette text span =
      if line = [] ∧ after = [] then none
      else
        let row := String.ofList (Text.shown line after)
        let marks := caretRow span (span.start - before.length) row
        some (rows palette (1 + before.count '\n') row marks.1 marks.2) := by
  have found := stands.getElem?_lines
  unfold excerpt?
  rw [stands.lineColumn]
  simp only [Nat.add_sub_cancel_left, found]
  split <;> rfl

theorem one_le_carets (span : Span) (column : Nat) (line : String) :
    1 ≤ (caretRow span column line).2 :=
  Nat.le_max_left ..

end Diagnostic

/-- A text that is no program is not empty. -/
theorem Program.ofText_empty : ofText "" = .ok ⟨⟨1⟩, ⟨⟨0⟩, []⟩⟩ := by
  cbv

/-- Whether an offset is at the end of a text that ends with a line feed. -/
def Text.IsBehindLastLine (text : String) (offset : Nat) : Prop :=
  offset = text.length ∧ text.toList.getLast? = some '\n'

theorem Text.LineAt.isBehindLastLine {text : String} {offset : Nat} {before line after : List Char}
    (stands : LineAt text.toList offset before line after) (nonempty : text.toList ≠ [])
    (nothing : line = [] ∧ after = []) : IsBehindLastLine text offset := by
  obtain ⟨split, starts, _, _, le, inside⟩ := stands
  obtain ⟨rfl, rfl⟩ := nothing
  rw [List.append_nil, List.append_nil] at split
  rcases starts with rfl | ⟨earlier, rfl⟩
  · exact absurd split nonempty
  · have length_eq := congrArg List.length split
    rw [String.length_toList] at length_eq
    refine ⟨?_, by rw [split, List.getLast?_concat]⟩
    rw [List.length_nil] at inside
    omega

/-- Behind the last line there is nothing. -/
theorem Text.LineAt.nothing {text : String} {offset : Nat} {before line after : List Char}
    (stands : LineAt text.toList offset before line after)
    (behind : IsBehindLastLine text offset) : line = [] ∧ after = [] := by
  obtain ⟨split, starts, unbroken, ends, le, inside⟩ := stands
  obtain ⟨rfl, last⟩ := behind
  have length_eq := congrArg List.length split
  simp only [List.length_append, String.length_toList] at length_eq
  obtain rfl : after = [] := List.eq_nil_of_length_eq_zero (by omega)
  refine ⟨?_, rfl⟩
  rw [List.append_nil] at split
  cases found : line.getLast? with
  | none => exact List.getLast?_eq_none_iff.mp found
  | some c =>
    -- The last character of the line would be the line feed.
    rw [split, List.getLast?_append, found] at last
    obtain rfl : c = '\n' := by simpa using last
    exact absurd (List.mem_of_getLast? found) unbroken

/-- The report of a text that is no program starts in a line of it, and shows that line with its
number, and a row of at least one caret below its first character. Only if it starts behind the last
line, it shows nothing: it is drawn like a report without a place. -/
theorem Program.report_located (text : String) (palette : Diagnostic.Palette) (file : Option String)
    {failure : Grammar.Failure} (failed : ofText text = .error failure) :
    ∃ span, failure.toDiagnostic.span = some span ∧
      (¬ Text.IsBehindLastLine text span.start →
        ∃ before line after, Text.LineAt text.toList span.start before line after ∧
          ∃ row, row = String.ofList (Text.shown line after) ∧
            ∃ above below carets, 1 ≤ carets ∧
              failure.toDiagnostic.render palette (some text) file =
                above ++ Diagnostic.rows palette (1 + before.count '\n') row
                  (min (span.start - before.length) row.length) carets ++ below) ∧
      (Text.IsBehindLastLine text span.start →
        failure.toDiagnostic.render palette (some text) file =
          failure.toDiagnostic.unplaced.render palette (some text) file) := by
  obtain ⟨span, span_eq, forward, stops⟩ := within_of_ofText failed
  have bound : span.start ≤ text.toList.length := by
    rw [String.length_toList]
    exact Nat.le_trans forward stops
  obtain ⟨before, line, after, stands⟩ := Text.exists_lineAt bound
  obtain ⟨above, below, placed, unplaced⟩ :=
    failure.toDiagnostic.exists_render_eq palette file
  have located : failure.toDiagnostic.location palette (some text) =
      (Diagnostic.excerpt? palette text span).getD "" := by
    simp only [Diagnostic.location, span_eq]
  have excerpt := Diagnostic.excerpt?_eq stands palette
  refine ⟨span, span_eq, fun shows => ⟨before, line, after, stands, ?_⟩, fun behind => ?_⟩
  · have nonempty : text.toList ≠ [] := by
      intro empty
      rw [String.toList_eq_nil_iff.mp empty, ofText_empty] at failed
      cases failed
    have something : ¬ (line = [] ∧ after = []) :=
      fun nothing => shows (stands.isBehindLastLine nonempty nothing)
    rw [if_neg something] at excerpt
    let row := String.ofList (Text.shown line after)
    refine ⟨row, rfl, above, below, _,
      Diagnostic.one_le_carets span (span.start - before.length) row, ?_⟩
    rw [placed, located, excerpt, Option.getD_some]
    rfl
  · rw [if_pos (stands.nothing behind)] at excerpt
    rw [placed, unplaced, located, excerpt, Option.getD_none, String.append_empty]
/-- The report of an open parenthesis with nothing behind it is about the end of the text. It shows
the line of the parenthesis, but no place if that line ends with a line feed. -/
theorem Program.report_located_parenthesis :
    (∃ failure, ofText "(" = .error failure ∧ ∃ above below carets, 1 ≤ carets ∧
      failure.toDiagnostic.render .plain (some "(") none =
        above ++ Diagnostic.rows .plain 1 "(" 1 carets ++ below) ∧
    ∃ failure, ofText "(\n" = .error failure ∧
      failure.toDiagnostic.render .plain (some "(\n") none =
        failure.toDiagnostic.unplaced.render .plain (some "(\n") none := by
  have open_end : ofText "(" =
      .error (.rejected (.unexpectedToken .expression .endOfSource ⟨1, 1⟩)) := by cbv
  have fed_end : ofText "(\n" =
      .error (.rejected (.unexpectedToken .expression .endOfSource ⟨2, 2⟩)) := by cbv
  refine ⟨⟨_, open_end, ?_⟩, ⟨_, fed_end, ?_⟩⟩
  · obtain ⟨span, span_eq, shows, _⟩ := report_located "(" .plain none open_end
    cases span_eq
    obtain ⟨before, line, after, stands, row, row_eq, above, below, carets, some_caret, drawn⟩ :=
      shows (fun behind => by cases behind.2)
    obtain ⟨rfl, rfl, rfl⟩ := stands.single (by decide)
    obtain rfl : row = "(" := row_eq
    exact ⟨above, below, carets, some_caret, drawn⟩
  · obtain ⟨span, span_eq, _, hides⟩ := report_located "(\n" .plain none fed_end
    cases span_eq
    exact hides ⟨rfl, rfl⟩

end Scriptlet
