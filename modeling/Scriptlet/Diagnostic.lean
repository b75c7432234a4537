import Scriptlet.Span
import Scriptlet.Text.Basic

set_option autoImplicit false

/-!
Reports about program text. A report names a range by character offsets; the line is looked up when
it is drawn against a text.
-/
namespace Scriptlet

inductive Severity where
  | error
  | warning
  deriving DecidableEq, Repr

/-- A report: a title, and what is known beside it. -/
structure Diagnostic where
  title : String
  severity : Severity := .error
  code : Option String := none
  message : Option String := none
  file : Option String := none
  span : Option Span := none
  hints : List String := []
  deriving DecidableEq, Repr

namespace Diagnostic

def offset (report : Diagnostic) : Option Nat :=
  report.span.map Span.start

def summary (report : Diagnostic) : String :=
  let code := report.code.elim "" fun code => "[" ++ code ++ "] "
  let message := report.message.elim "" fun message => ": " ++ message
  let place := report.offset.elim "" fun offset => " (at offset " ++ toString offset ++ ")"
  code ++ report.title ++ message ++ place

/-- Whether a drawn report marks its title and its carets by color. -/
inductive Palette where
  | plain
  | colored
  deriving DecidableEq, Repr

def Palette.paint (palette : Palette) (text : String) : String :=
  match palette with
  | .plain => text
  | .colored => "\x1b[33m" ++ text ++ "\x1b[0m"

def repeated (count : Nat) (c : Char) : String :=
  String.ofList (List.replicate count c)

/-- The column of the first caret, and the number of carets, under a line. There is at least one
caret, and never more than the line has characters, if it has any. -/
def caretRow (span : Span) (column : Nat) (line : String) : Nat × Nat :=
  (min column line.length, max 1 (min span.length (max line.length 1)))

/-- The reported line with its number, and a row of carets under it, if the text has the line. -/
def excerpt? (palette : Palette) (text : String) (span : Span) : Option String := do
  let (row, column) := Text.lineColumn text span.start
  let line ← (Text.lines text)[row - 1]?
  let number := toString row
  let (indent, carets) := caretRow span column line
  return "\n" ++ number ++ " | " ++ line ++ "\n" ++ repeated number.length ' ' ++ " | " ++
    repeated indent ' ' ++ palette.paint (repeated carets '^')

/-- Where the report is: the line, when the program text is given, else the offset. -/
def location (report : Diagnostic) (palette : Palette) (source : Option String) : String :=
  match report.span, source with
  | some span, some text => (excerpt? palette text span).getD ""
  | some span, none => "\nat offset " ++ toString span.start
  | none, _ => ""

/-- The report with the line it is about, its file name falling back to a given one. -/
def render (report : Diagnostic) (palette : Palette) (source file : Option String) : String :=
  let file := (report.file <|> file).getD "<unknown>"
  let code := report.code.getD "E000"
  let heading := "-- " ++ report.title ++ " -- " ++ file ++ " -- [" ++ code ++ "]\n"
  let message := report.message.elim "" fun message => "\n" ++ message ++ "\n"
  let hints := String.join (report.hints.map fun hint => "\nHint: " ++ hint)
  palette.paint heading ++ message ++ report.location palette source ++
    (if report.hints.isEmpty then "" else "\n" ++ hints)

/-- Several reports about one text, a blank line between two. -/
def renderAll (palette : Palette) (source file : Option String) (reports : List Diagnostic) :
    String :=
  "\n\n".intercalate (reports.map fun report => report.render palette source file)

theorem renderAll_append (palette : Palette) (source file : Option String)
    {front back : List Diagnostic} (front_some : front ≠ []) (back_some : back ≠ []) :
    renderAll palette source file (front ++ back) =
      renderAll palette source file front ++ "\n\n" ++ renderAll palette source file back := by
  unfold renderAll
  rw [List.map_append]
  apply String.intercalate_append_of_ne_nil
  · exact mt List.map_eq_nil_iff.mp front_some
  · exact mt List.map_eq_nil_iff.mp back_some

end Diagnostic
end Scriptlet
