import Scriptlet.Diagnostic
import Scriptlet.Numeral.Reading
import Scriptlet.Text.Alphabetic
import Scriptlet.Text.Numeric
import Scriptlet.Token.Basic

set_option autoImplicit false

/-!
Reading one token. `Cursor.scan` skips white space and comments and reads the lexeme that follows;
it says where it stopped also when there is none.
-/
namespace Scriptlet

def isWordHead (c : Char) : Bool :=
  c == '_' || c == '$' || Text.isAlphabetic c

def isWordPart (c : Char) : Bool :=
  isWordHead c || Text.isNumeric c

inductive NumberFault where
  | exponentWithoutDigits
  | wordAfterNumber
  deriving DecidableEq, Repr

inductive LexicalCause where
  | unterminatedString (quote : Char)
  | unexpectedCharacter (c : Char)
  | unterminatedComment
  | malformedNumber (fault : NumberFault)
  deriving DecidableEq, Repr

/-- Characters that are not a token, and where. -/
structure LexicalError where
  cause : LexicalCause
  span : Span
  deriving DecidableEq, Repr

def NumberFault.message : NumberFault → String
  | .exponentWithoutDigits => "exponent has no digits"
  | .wordAfterNumber => "identifier starts immediately after number"

def LexicalError.toDiagnostic (error : LexicalError) : Diagnostic :=
  match error.cause with
  | .unterminatedString quote =>
    { title := "UNTERMINATED STRING", code := some "E001", span := some error.span
      message := some ("string literal is missing its closing " ++ quote.toString) }
  | .unexpectedCharacter c =>
    { title := "UNEXPECTED CHARACTER", code := some "E002", span := some error.span
      message := some ("unrecognized character " ++ Text.quoteChar c) }
  | .unterminatedComment =>
    { title := "UNTERMINATED COMMENT", code := some "E003", span := some error.span
      message := some "block comment is never closed"
      hints := ["Add `*/` to close the comment."] }
  | .malformedNumber fault =>
    { title := "MALFORMED NUMBER", code := some "E004", span := some error.span
      message := some fault.message }

namespace Lexeme

/-- The character that an escape in a string stands for. -/
def unescape (c : Char) : Char :=
  if c = 'n' then '\n'
  else if c = 't' then '\t'
  else if c = 'r' then '\r'
  else if c = '0' then '\x00'
  else c

/-- The value of a string whose opening quote has been read, and the number of characters up to and
with its closing quote. Without one the value is missing, and the number is that of the characters
before the line break or the end; a backslash at the very end is not counted. -/
def readString (quote : Char) : List Char → Option (List Char) × Nat
  | [] => (none, 0)
  | '\\' :: next :: rest =>
    let (value, length) := readString quote rest
    (value.map (unescape next :: ·), length + 2)
  | c :: rest =>
    if c = quote then (some [], 1)
    else if c = '\\' ∨ Text.isLineBreak c then (none, 0)
    else
      let (value, length) := readString quote rest
      (value.map (c :: ·), length + 1)

/-- The digits after a point, if some follow it. -/
def fractionAt : List Char → List Char
  | '.' :: rest => Numeral.leadingDigits rest
  | _ => []

def readNumber (cs : List Char) : Except NumberFault Float × Nat :=
  let whole := Numeral.leadingDigits cs
  let cs := cs.drop whole.length
  let fraction := fractionAt cs
  let fractionLength := if fraction.isEmpty then 0 else fraction.length + 1
  let cs := cs.drop fractionLength
  let (exponent, exponentLength) := Numeral.exponentAt cs
  let length := whole.length + fractionLength + exponentLength
  match exponent with
  | none => (.error .exponentWithoutDigits, length)
  | some exponent =>
    if (cs.drop exponentLength).head?.any isWordHead then (.error .wordAfterNumber, length)
    else (.ok (Numeral.Decimal.toFloat ⟨whole, fraction, exponent⟩), length)

/-- Whether a number starts here: with a digit, or with a point and a digit. -/
def startsNumber : List Char → Bool
  | c :: next :: _ => c.isDigit || (c == '.' && next.isDigit)
  | [c] => c.isDigit
  | [] => false

def read (cs : List Char) : Except LexicalCause Lexeme × Nat :=
  match cs with
  | [] => (.ok .endOfSource, 0)
  | c :: rest =>
    if c = '"' ∨ c = '\'' then
      match readString c rest with
      | (some value, length) => (.ok (.string (String.ofList value)), length + 1)
      | (none, length) => (.error (.unterminatedString c), length + 1)
    else if startsNumber cs then
      match readNumber cs with
      | (.ok value, length) => (.ok (.number value), length)
      | (.error fault, length) => (.error (.malformedNumber fault), length)
    else if isWordHead c then
      let word := cs.takeWhile isWordPart
      (.ok (ofWord (String.ofList word)), word.length)
    else match Punctuator.longestAt? cs with
      | some sign => (.ok (.punctuator sign), sign.size)
      | none => (.error (.unexpectedCharacter c), 0)

end Lexeme

/-- Characters still to be read, and the offset of the first. -/
structure Cursor where
  rest : List Char
  offset : Nat
  deriving DecidableEq, Repr

namespace Cursor

def ofText (text : String) : Cursor :=
  ⟨text.toList, 0⟩

/-- The place a number of characters further on. -/
def advance (cursor : Cursor) (count : Nat) : Cursor :=
  ⟨cursor.rest.drop count, cursor.offset + count⟩

/-- What the next character between two tokens belongs to: nothing yet, a comment to the end of the
line, the star that opens a block comment, its inside, or the slash that closes it. A block comment
knows where it began. -/
inductive Gap where
  | blank
  | lineComment
  | opening (start : Nat)
  | blockComment (start : Nat)
  | closing
  deriving DecidableEq, Repr

/-- Skips white space and comments: whether a line break was among them and where they end, or where
the block comment began that is never closed. -/
def skipGap (gap : Gap) (newline : Bool) (offset : Nat) :
    List Char → Except Nat (Bool × Cursor)
  | [] =>
    match gap with
    | .opening start => .error start
    | .blockComment start => .error start
    | _ => .ok (newline, ⟨[], offset⟩)
  | c :: rest =>
    match gap with
    | .blank =>
      if Text.isLineBreak c then skipGap .blank true (offset + 1) rest
      else if Text.isBlank c then skipGap .blank newline (offset + 1) rest
      else if c = '/' ∧ rest.head? = some '/' then skipGap .lineComment newline (offset + 1) rest
      else if c = '/' ∧ rest.head? = some '*' then
        skipGap (.opening offset) newline (offset + 1) rest
      else .ok (newline, ⟨c :: rest, offset⟩)
    | .lineComment =>
      if Text.isLineBreak c then skipGap .blank true (offset + 1) rest
      else skipGap .lineComment newline (offset + 1) rest
    | .opening start => skipGap (.blockComment start) newline (offset + 1) rest
    | .blockComment start =>
      if c = '*' ∧ rest.head? = some '/' then skipGap .closing newline (offset + 1) rest
      else skipGap (.blockComment start) (newline || Text.isLineBreak c) (offset + 1) rest
    | .closing => skipGap .blank newline (offset + 1) rest

/-- The range that a report of a lexical error names: a character that starts no token stands for
itself, and an unclosed string or a faulty number for what was read of it. -/
def errorSpan (cause : LexicalCause) (start length : Nat) : Span :=
  match cause with
  | .unexpectedCharacter _ => ⟨start, start + 1⟩
  | .unterminatedComment => ⟨start, start + 2⟩
  | _ => ⟨start, start + length⟩

/-- Reads one token: the token or the error, and where reading goes on. -/
def scan (cursor : Cursor) : Except LexicalError Token × Cursor :=
  match skipGap .blank false cursor.offset cursor.rest with
  | .error start =>
    (.error ⟨.unterminatedComment, errorSpan .unterminatedComment start 2⟩,
      cursor.advance cursor.rest.length)
  | .ok (newline, start) =>
    match Lexeme.read start.rest with
    | (.ok lexeme, length) =>
      (.ok ⟨lexeme, ⟨start.offset, start.offset + length⟩, newline⟩, start.advance length)
    | (.error cause, length) =>
      (.error ⟨cause, errorSpan cause start.offset length⟩, start.advance length)

end Cursor
end Scriptlet
