import Scriptlet.Numeral.Style
import Scriptlet.Span
import Scriptlet.Text.Quoted
import Scriptlet.Token.Word

set_option autoImplicit false

/-!
Tokens of program text.
-/
namespace Scriptlet

inductive Lexeme where
  | endOfSource
  | keyword (word : Keyword)
  | identifier (name : String)
  | boolean (value : Bool)
  | null
  | number (value : Float)
  | string (value : String)
  | punctuator (sign : Punctuator)
  deriving BEq, Repr, Inhabited

namespace Lexeme

inductive Kind where
  | endOfSource
  | keyword
  | identifier
  | booleanLiteral
  | nullLiteral
  | numericLiteral
  | stringLiteral
  | punctuator
  deriving DecidableEq, Repr

def kind : Lexeme → Kind
  | .endOfSource => .endOfSource
  | .keyword _ => .keyword
  | .identifier _ => .identifier
  | .boolean _ => .booleanLiteral
  | .null => .nullLiteral
  | .number _ => .numericLiteral
  | .string _ => .stringLiteral
  | .punctuator _ => .punctuator

def Kind.label : Kind → String
  | .endOfSource => "EOS"
  | .keyword => "KEYWORD"
  | .identifier => "IDENT"
  | .booleanLiteral => "BOOLEAN"
  | .nullLiteral => "NULL"
  | .numericLiteral => "NUMBER"
  | .stringLiteral => "STRING"
  | .punctuator => "PUNCT"

def text : Lexeme → String
  | .endOfSource => ""
  | .keyword word => word.spelling
  | .identifier name => name
  | .boolean value => toString value
  | .null => "null"
  | .number value => Numeral.plainText value
  | .string value => Text.quoteText value
  | .punctuator sign => sign.spelling

def describe : Lexeme → String
  | .endOfSource => "end of source"
  | .keyword word => "keyword `" ++ word.spelling ++ "`"
  | .identifier name => "identifier `" ++ name ++ "`"
  | .boolean value => "`" ++ toString value ++ "`"
  | .null => "`null`"
  | .number value => "number `" ++ Numeral.plainText value ++ "`"
  | .string value => "string " ++ Text.quoteText value
  | .punctuator sign => "`" ++ sign.spelling ++ "`"

def ofWord (word : String) : Lexeme :=
  if word == "true" then .boolean true
  else if word == "false" then .boolean false
  else if word == "null" then .null
  else match Keyword.ofSpelling? word with
    | some reserved => .keyword reserved
    | none => .identifier word

end Lexeme

/-- A lexeme at its place. `newlineBefore` says that a line break stands between it and the token
before. -/
structure Token where
  lexeme : Lexeme
  span : Span
  newlineBefore : Bool
  deriving BEq, Repr, Inhabited

namespace Token

def isEnd (token : Token) : Bool :=
  match token.lexeme with
  | .endOfSource => true
  | _ => false

def punctuator? (token : Token) : Option Punctuator :=
  match token.lexeme with
  | .punctuator sign => some sign
  | _ => none

/-- The reserved word of a token, if it is one. -/
def keyword? (token : Token) : Option Keyword :=
  match token.lexeme with
  | .keyword word => some word
  | _ => none

def identifier? (token : Token) : Option String :=
  match token.lexeme with
  | .identifier name => some name
  | _ => none

/-- The word of a token: an identifier, or a reserved or literal word. -/
def word? (token : Token) : Option String :=
  match token.lexeme with
  | .identifier name => some name
  | .keyword word => some word.spelling
  | .boolean value => some (toString value)
  | .null => some "null"
  | _ => none

def listing (token : Token) : String :=
  "Token(" ++ token.lexeme.kind.label ++ ", " ++ token.lexeme.text ++ ", " ++ token.span.text ++
    ")"

end Token
end Scriptlet
