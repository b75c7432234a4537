import Scriptlet.Text.Combining
import Scriptlet.Text.Unprintable

set_option autoImplicit false

/-!
Quoted text for reports and for printed trees. The enclosing quote, the backslash and the usual
control characters have short escapes; a character that would be drawn on its neighbour or has no
picture is written by its code point in hexadecimal.
-/
namespace Scriptlet.Text

/-- The lower-case hexadecimal digits of a number, without leading zeros. -/
def hexDigits (n : Nat) : List Char :=
  Nat.toDigits 16 n

def codeEscape (c : Char) : List Char :=
  ['\\', 'u', '\x7b'] ++ hexDigits c.toNat ++ ['\x7d']

/-- The written form of one character between two of the given quotes. -/
def escapeChar (quote c : Char) : List Char :=
  if c == '\x00' then ['\\', '0']
  else if c == '\t' then ['\\', 't']
  else if c == '\r' then ['\\', 'r']
  else if c == '\n' then ['\\', 'n']
  else if c == '\\' then ['\\', '\\']
  else if c == quote then ['\\', quote]
  else if isCombining c || isUnprintable c then codeEscape c
  else [c]

def quoteText (text : String) : String :=
  String.ofList ('"' :: text.toList.flatMap (escapeChar '"') ++ ['"'])

def quoteChar (c : Char) : String :=
  String.ofList ('\'' :: escapeChar '\'' c ++ ['\''])

end Scriptlet.Text
