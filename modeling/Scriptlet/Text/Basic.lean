set_option autoImplicit false

/-!
Characters and lines of texts, and how texts are put together. `isBlank` is the Unicode property
White_Space; `isLineBreak` is the subset that ends a line of program text. For reports a line ends
at a line feed only; a carriage return just before it belongs to the ending, and a text that ends
with a line feed has no empty line after it.
-/
namespace Scriptlet.Text

/-- Whether the code point of a character lies in one of the ranges, ends included. -/
def inRanges (ranges : Array (Nat × Nat)) (c : Char) : Bool :=
  ranges.any fun range => range.1 ≤ c.toNat && c.toNat ≤ range.2

def isBlank (c : Char) : Bool :=
  let code := c.toNat
  (9 ≤ code && code ≤ 13) || code == 0x20 || code == 0x85 || code == 0xA0 || code == 0x1680 ||
    (0x2000 ≤ code && code ≤ 0x200A) || code == 0x2028 || code == 0x2029 || code == 0x202F ||
    code == 0x205F || code == 0x3000

def isLineBreak (c : Char) : Bool :=
  c == '\n' || c == '\r' || c == '\u2028' || c == '\u2029'

theorem isBlank_of_isLineBreak {c : Char} (h : isLineBreak c = true) : isBlank c = true := by
  simp only [isLineBreak, Bool.or_eq_true, beq_iff_eq] at h
  rcases h with ((rfl | rfl) | rfl) | rfl <;> decide

/-- The characters without the white space at both ends. -/
def trim (cs : List Char) : List Char :=
  ((cs.dropWhile isBlank).reverse.dropWhile isBlank).reverse

def dropCarriageReturn (line : List Char) : List Char :=
  if line.getLast? = some '\r' then line.dropLast else line

/-- The lines that begin with the characters read so far, which are kept in reverse. -/
def linesFrom (reversed : List Char) : List Char → List (List Char)
  | [] => if reversed.isEmpty then [] else [reversed.reverse]
  | c :: rest =>
    if c = '\n' then dropCarriageReturn reversed.reverse :: linesFrom [] rest
    else linesFrom (c :: reversed) rest

def lines (text : String) : List String :=
  (linesFrom [] text.toList).map String.ofList

/-- The line, counted from one, and the column, counted from zero, after some characters. -/
def advance (position : Nat × Nat) (c : Char) : Nat × Nat :=
  if c = '\n' then (position.1 + 1, 0) else (position.1, position.2 + 1)

/-- The line and column of an offset. An offset beyond the text stands at its end. -/
def lineColumn (text : String) (offset : Nat) : Nat × Nat :=
  (text.toList.take offset).foldl advance (1, 0)

def commaSeparated (texts : List String) : String :=
  ", ".intercalate texts

def inBraces (text : String) : String :=
  "\x7b " ++ text ++ " \x7d"

end Scriptlet.Text
