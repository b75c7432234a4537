import Scriptlet.Grammar.Error
import Scriptlet.Tree.Builder

set_option autoImplicit false

/-!
What the rules of the grammar work with: the tokens that are left, the end of the last token taken,
and the nodes made so far. All of it is kept when a rule fails.
-/
namespace Scriptlet.Grammar

/-- Why a rule gave no tree: the text is at fault, or the number of steps allowed was too small. -/
inductive Failure where
  | rejected (error : SourceError)
  | exhausted
  deriving BEq, Repr

/-- Where reading stands. `ending` is what comes after the tokens that are left. -/
structure State where
  tokens : List Token
  ending : Except LexicalError Token
  lastEnd : Nat
  builder : Builder

abbrev Rule (α : Type) : Type :=
  EStateM Failure State α

def reject {α : Type} (error : SourceError) : Rule α :=
  throw (.rejected error)

def State.next (state : State) : Except LexicalError Token :=
  match state.tokens with
  | token :: _ => .ok token
  | [] => state.ending

def peek : Rule Token := fun state =>
  match state.next with
  | .ok token => .ok token state
  | .error error => .error (.rejected (.lexical error)) state

def take : Rule Token := fun state =>
  match state.next with
  | .ok token => .ok token { state with tokens := state.tokens.tail, lastEnd := token.span.stop }
  | .error error => .error (.rejected (.lexical error)) state

def make {α : Type} (node : Builder → α × Builder) : Rule α := fun state =>
  let (value, builder) := node state.builder
  .ok value { state with builder }

/-- The range from an offset to the end of the last token taken. -/
def spanFrom (start : Nat) : Rule Span := do
  return ⟨start, max (← get).lastEnd start⟩

def unexpected {α : Type} (expected : Expectation) (found : Token) : Rule α :=
  reject (.unexpectedToken expected found.lexeme found.span)

def isAt (sign : Punctuator) : Rule Bool := do
  return (← peek).punctuator? == some sign

/-- Takes the next token if it is a sign, and says whether it was. -/
def accept (sign : Punctuator) : Rule Bool := do
  if ← isAt sign then
    discard take
    return true
  else
    return false

def expect (sign : Punctuator) : Rule Token := do
  let token ← take
  if token.punctuator? == some sign then
    return token
  else
    unexpected (.punctuator sign) token

def expectKeyword (word : Keyword) : Rule Token := do
  let token ← take
  if token.keyword? == some word then
    return token
  else
    unexpected (.keyword word) token

def expectIdentifier : Rule (String × Span) := do
  let token ← take
  match token.identifier? with
  | some name => return (name, token.span)
  | none => unexpected .identifier token

/-- Takes the name after a point, which may be a reserved or literal word. -/
def expectPropertyName : Rule String := do
  let token ← take
  match token.word? with
  | some name => return name
  | none => unexpected .propertyName token

/-- Takes a semicolon, which may be missing before a line break, a closing brace or the end. -/
def endStatement : Rule Unit := do
  if ← accept .semicolon then
    return
  let offset := (← get).lastEnd
  let token ← peek
  if token.newlineBefore || token.isEnd || token.punctuator? == some .rightBrace then
    return
  reject (.missingSemicolon token.lexeme offset)

end Scriptlet.Grammar
