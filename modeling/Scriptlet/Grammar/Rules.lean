import Scriptlet.Grammar.Basic

set_option autoImplicit false

/-!
The rules of the grammar, by recursive descent with one token of lookahead. Every rule takes a
number of steps that it may use; each step either takes a token or goes to a rule for a smaller
construct, so a few steps for each token are enough.
-/
namespace Scriptlet.Grammar

/-- The key of a property of an object: a word, a string or a number. -/
def propertyKey? (token : Token) : Option String :=
  match token.lexeme with
  | .number value => some (Numeral.displayText value)
  | .string value => some value
  | _ => token.word?

mutual

def expression : Nat → Rule Expression
  | 0 => throw .exhausted
  | steps + 1 => do
    let first ← assignment steps
    if ← isAt .comma then
      let rest ← sequenceRest steps
      let span ← spanFrom first.span.start
      make fun builder => builder.sequence (first :: rest) span
    else
      return first

def sequenceRest : Nat → Rule (List Expression)
  | 0 => throw .exhausted
  | steps + 1 => do
    if ← accept .comma then
      let first ← assignment steps
      return first :: (← sequenceRest steps)
    else
      return []

/-- An expression without a comma outside brackets. Assignments group to the right. -/
def assignment : Nat → Rule Expression
  | 0 => throw .exhausted
  | steps + 1 => do
    let target ← operation steps .logicalOr
    match (← peek).punctuator?.bind Punctuator.assignmentOperator? with
    | none => return target
    | some operator =>
      if target.isAssignable then
        discard take
        let value ← assignment steps
        make fun builder => builder.assignment operator target value
      else
        reject (.invalidTarget target.nodeKind target.span)

/-- Operands and the operators between them that bind at least as strongly as given. -/
def operation : Nat → Precedence → Rule Expression
  | 0, _ => throw .exhausted
  | steps + 1, least => do
    let left ← operand steps
    operationRest steps least left

/-- The operators after a left operand that bind at least as strongly as given. -/
def operationRest : Nat → Precedence → Expression → Rule Expression
  | 0, _, _ => throw .exhausted
  | steps + 1, least, left => do
    match (← peek).punctuator?.bind Punctuator.infixOperator? with
    | none => return left
    | some operator =>
      if operator.precedence < least then
        return left
      else
        discard take
        let right ← operation steps operator.rightPrecedence
        let whole ← make fun builder => builder.infixed operator left right
        operationRest steps least whole

def operand : Nat → Rule Expression
  | 0 => throw .exhausted
  | steps + 1 => do
    match (← peek).punctuator?.bind Punctuator.unaryOperator? with
    | none =>
      let inner ← primary steps
      selections steps inner
    | some operator =>
      let start := (← take).span.start
      let argument ← operand steps
      make fun builder => builder.unary operator argument ⟨start, argument.span.stop⟩

def selections : Nat → Expression → Rule Expression
  | 0, _ => throw .exhausted
  | steps + 1, inner => do
    match (← peek).punctuator? with
    | some .dot =>
      discard take
      let name ← expectPropertyName
      let span ← spanFrom inner.span.start
      let whole ← make fun builder => builder.member inner (.named name) span
      selections steps whole
    | some .leftBracket =>
      discard take
      let index ← expression steps
      discard (expect .rightBracket)
      let span ← spanFrom inner.span.start
      let whole ← make fun builder => builder.member inner (.computed index) span
      selections steps whole
    | some .leftParen =>
      discard take
      let arguments ← arguments steps
      let span ← spanFrom inner.span.start
      let whole ← make fun builder => builder.call inner arguments span
      selections steps whole
    | _ => return inner

/-- The arguments of a call after its opening parenthesis, with the closing one. -/
def arguments : Nat → Rule (List Expression)
  | 0 => throw .exhausted
  | steps + 1 => do
    if ← accept .rightParen then
      return []
    else
      let first ← assignment steps
      let rest ← sequenceRest steps
      discard (expect .rightParen)
      return first :: rest

/-- An expression that no operator is part of. -/
def primary : Nat → Rule Expression
  | 0 => throw .exhausted
  | steps + 1 => do
    let token ← take
    match token.lexeme with
    | .number value => make fun builder => builder.literal (.number value) token.span
    | .string value => make fun builder => builder.literal (.string value) token.span
    | .boolean value => make fun builder => builder.literal (.boolean value) token.span
    | .null => make fun builder => builder.literal .null token.span
    | .identifier name => make fun builder => builder.identifier name token.span
    | .keyword .thisWord => make fun builder => builder.this token.span
    | .keyword .functionWord => functionRest steps token.span.start
    | .punctuator .leftParen =>
      let inner ← expression steps
      discard (expect .rightParen)
      return inner
    | .punctuator .leftBracket =>
      let elements ← elements steps
      let span ← spanFrom token.span.start
      make fun builder => builder.array elements span
    | .punctuator .leftBrace =>
      let properties ← properties steps
      let span ← spanFrom token.span.start
      make fun builder => builder.object properties span
    | _ => unexpected .expression token

/-- The elements of an array after its opening bracket, with the closing one. A comma may stand
before it. -/
def elements : Nat → Rule (List Expression)
  | 0 => throw .exhausted
  | steps + 1 => do
    if ← accept .rightBracket then
      return []
    else
      let first ← assignment steps
      if ← accept .comma then
        return first :: (← elements steps)
      else
        discard (expect .rightBracket)
        return [first]

/-- The properties of an object after its opening brace, with the closing one. A comma may stand
before it. -/
def properties : Nat → Rule (List ObjectProperty)
  | 0 => throw .exhausted
  | steps + 1 => do
    if ← accept .rightBrace then
      return []
    else
      let token ← take
      match propertyKey? token with
      | none => unexpected .propertyKey token
      | some key =>
        discard (expect .colon)
        let value ← assignment steps
        let span ← spanFrom token.span.start
        let property := ObjectProperty.mk key value span
        if ← accept .comma then
          return property :: (← properties steps)
        else
          discard (expect .rightBrace)
          return [property]

/-- A function after its word, which starts at the given offset. -/
def functionRest : Nat → Nat → Rule Expression
  | 0, _ => throw .exhausted
  | steps + 1, start => do
    let isNamed := (← peek).identifier?.isSome
    let name ← if isNamed then (fun named => some named.1) <$> expectIdentifier else pure none
    discard (expect .leftParen)
    let params ←
      if ← accept .rightParen then
        pure []
      else
        let params ← parameters steps
        discard (expect .rightParen)
        pure params
    let body ← block steps
    let span ← spanFrom start
    make fun builder => builder.function name params body span

def parameters : Nat → Rule (List String)
  | 0 => throw .exhausted
  | steps + 1 => do
    let (name, _) ← expectIdentifier
    if ← accept .comma then
      return name :: (← parameters steps)
    else
      return [name]

def block : Nat → Rule Block
  | 0 => throw .exhausted
  | steps + 1 => do
    let start := (← expect .leftBrace).span.start
    let statements ← statements steps true
    discard (expect .rightBrace)
    let span ← spanFrom start
    make fun builder => builder.block statements span

/-- Statements up to the closing brace of a block, or else up to the end of the source. Semicolons
alone are skipped. -/
def statements : Nat → Bool → Rule (List Statement)
  | 0, _ => throw .exhausted
  | steps + 1, inBlock => do
    if ← accept .semicolon then
      statements steps inBlock
    else
      let token ← peek
      if inBlock && token.punctuator? == some .rightBrace then
        return []
      else if token.isEnd then
        if inBlock then
          unexpected (.punctuator .rightBrace) (← take)
        else
          return []
      else
        let first ← statement steps
        return first :: (← statements steps inBlock)

def statement : Nat → Rule Statement
  | 0 => throw .exhausted
  | steps + 1 => do
    let token ← peek
    match token.lexeme with
    | .punctuator .leftBrace => Statement.block <$> block steps
    | .keyword .varWord => declaration steps .var
    | .keyword .letWord => declaration steps .let
    | .keyword .constWord => declaration steps .const
    | .keyword .ifWord => conditional steps
    | .keyword .whileWord => loop steps
    | .keyword .functionWord => expressionStatement steps
    | .keyword .thisWord => expressionStatement steps
    | .keyword .elseWord => unexpected .statement (← take)
    | .keyword word => reject (.unsupportedKeyword word (← take).span)
    | _ => expressionStatement steps

def declaration : Nat → VariableKind → Rule Statement
  | 0, _ => throw .exhausted
  | steps + 1, kind => do
    let start := (← take).span.start
    let declarations ← declarators steps
    endStatement
    let span ← spanFrom start
    make fun builder => builder.declaration kind declarations span

/-- One or more declared names separated by commas. -/
def declarators : Nat → Rule (List Declarator)
  | 0 => throw .exhausted
  | steps + 1 => do
    let (name, place) ← expectIdentifier
    let init ← if ← accept .assign then some <$> assignment steps else pure none
    let span ← spanFrom place.start
    let declarator ← make fun builder => builder.declarator name init span
    if ← accept .comma then
      return declarator :: (← declarators steps)
    else
      return [declarator]

/-- A choice. A second statement belongs to the nearest choice that lacks one. -/
def conditional : Nat → Rule Statement
  | 0 => throw .exhausted
  | steps + 1 => do
    let start := (← expectKeyword .ifWord).span.start
    discard (expect .leftParen)
    let condition ← expression steps
    discard (expect .rightParen)
    let consequent ← statement steps
    let alternate ←
      if (← peek).keyword? == some .elseWord then
        discard take
        some <$> statement steps
      else
        pure none
    let span ← spanFrom start
    make fun builder => builder.conditional condition consequent alternate span

def loop : Nat → Rule Statement
  | 0 => throw .exhausted
  | steps + 1 => do
    let start := (← expectKeyword .whileWord).span.start
    discard (expect .leftParen)
    let test ← expression steps
    discard (expect .rightParen)
    let body ← statement steps
    let span ← spanFrom start
    make fun builder => builder.loop test body span

/-- An expression as a statement. A function ends with a brace, so it needs no semicolon. -/
def expressionStatement : Nat → Rule Statement
  | 0 => throw .exhausted
  | steps + 1 => do
    let inner ← expression steps
    if inner.isFunction then
      discard (accept .semicolon)
    else
      endStatement
    let span ← spanFrom inner.span.start
    make fun builder => builder.expression inner span

end

end Scriptlet.Grammar
