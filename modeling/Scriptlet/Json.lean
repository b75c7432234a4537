set_option autoImplicit false

/-!
JSON documents. Numbers are held as their text, so that a document says exactly what is written.
-/
namespace Scriptlet

inductive Json where
  | null
  | boolean (value : Bool)
  | number (text : String)
  | string (value : String)
  | array (elements : List Json)
  | object (fields : List (String × Json))

namespace Json

def ofNat (n : Nat) : Json :=
  .number (toString n)

/-- A value that may be missing as a document. -/
def ofOption (value : Option Json) : Json :=
  value.getD .null

def hexDigit (n : Nat) : Char :=
  Nat.digitChar n

/-- The written form of one character of a string: quotes, backslashes and control characters are
escaped. -/
def escapeChar (c : Char) : List Char :=
  if c == '"' then ['\\', '"']
  else if c == '\\' then ['\\', '\\']
  else if c == '\x08' then ['\\', 'b']
  else if c == '\x0c' then ['\\', 'f']
  else if c == '\n' then ['\\', 'n']
  else if c == '\r' then ['\\', 'r']
  else if c == '\t' then ['\\', 't']
  else if c.toNat < 32 then
    ['\\', 'u', '0', '0', hexDigit (c.toNat / 16), hexDigit (c.toNat % 16)]
  else [c]

def quote (text : String) : String :=
  String.ofList ('"' :: text.toList.flatMap escapeChar ++ ['"'])

def newLine (depth : Nat) : String :=
  "\n" ++ String.ofList (List.replicate (2 * depth) ' ')

mutual

/-- A document over several lines, two spaces deeper for each level. Lists and objects without
contents stay on one line. -/
def prettyAt (depth : Nat) : Json → String
  | .null => "null"
  | .boolean value => toString value
  | .number text => text
  | .string value => quote value
  | .array elements =>
    if elements.isEmpty then "[]"
    else
      "[" ++ ",".intercalate (prettyElements (depth + 1) elements) ++ newLine depth ++ "]"
  | .object fields =>
    if fields.isEmpty then "\x7b\x7d"
    else
      "\x7b" ++ ",".intercalate (prettyFields (depth + 1) fields) ++ newLine depth ++ "\x7d"

def prettyElements (depth : Nat) : List Json → List String
  | [] => []
  | element :: rest => (newLine depth ++ prettyAt depth element) :: prettyElements depth rest

/-- The fields of an object, each on a line of its own. -/
def prettyFields (depth : Nat) : List (String × Json) → List String
  | [] => []
  | (name, value) :: rest =>
    (newLine depth ++ quote name ++ ": " ++ prettyAt depth value) :: prettyFields depth rest

end

def pretty (document : Json) : String :=
  document.prettyAt 0

end Json
end Scriptlet
