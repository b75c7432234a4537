import Scriptlet.Token.Lexer
import Scriptlet.Tree.Basic

set_option autoImplicit false

/-!
Why a text is not a program. Reading stops at the first error.
-/
namespace Scriptlet

/-- What a rule of the grammar needed to see. -/
inductive Expectation where
  | punctuator (sign : Punctuator)
  | keyword (word : Keyword)
  | identifier
  | expression
  | statement
  | propertyName
  | propertyKey
  deriving DecidableEq, Repr

def Expectation.text : Expectation → String
  | .punctuator sign => "`" ++ sign.spelling ++ "`"
  | .keyword word => "keyword `" ++ word.spelling ++ "`"
  | .identifier => "an identifier"
  | .expression => "an expression"
  | .statement => "a statement"
  | .propertyName => "a property name"
  | .propertyKey => "a property key"

/-- The ways a text can fail to be a program. -/
inductive SourceError where
  | lexical (error : LexicalError)
  | unexpectedToken (expected : Expectation) (found : Lexeme) (span : Span)
  | missingSemicolon (found : Lexeme) (offset : Nat)
  | invalidTarget (kind : NodeKind) (span : Span)
  | unsupportedKeyword (word : Keyword) (span : Span)
  deriving BEq, Repr

def SourceError.toDiagnostic : SourceError → Diagnostic
  | .lexical error => error.toDiagnostic
  | .unexpectedToken expected found span =>
    { title := "UNEXPECTED TOKEN", code := some "E100", span := some span
      message := some ("expected " ++ expected.text ++ ", found " ++ found.describe) }
  | .missingSemicolon found offset =>
    { title := "MISSING SEMICOLON", code := some "E101", span := some (.point offset)
      message := some ("expected `;`, found " ++ found.describe)
      hints := ["Separate statements with `;` or a line break."] }
  | .invalidTarget kind span =>
    { title := "INVALID ASSIGNMENT TARGET", code := some "E102", span := some span
      message := some ("cannot assign to " ++ kind.name)
      hints := ["Only identifiers and member expressions can be assigned to."] }
  | .unsupportedKeyword word span =>
    { title := "UNSUPPORTED KEYWORD", code := some "E103", span := some span
      message := some ("`" ++ word.spelling ++ "` is reserved but not supported") }

end Scriptlet
