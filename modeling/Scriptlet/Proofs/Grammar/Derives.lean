import Scriptlet.Grammar.Program

set_option autoImplicit false

/-!
The grammar as a relation. `Derives` says which trees a rule can read from which tokens, without the
number of steps that the rule may use; the small rules that read no tree come first.
-/
namespace Scriptlet.Grammar

namespace State

def Sees (state : State) (property : Token → Prop) : Prop :=
  ∃ token, state.next = .ok token ∧ property token

def after (state : State) (token : Token) : State :=
  { state with tokens := state.tokens.tail, lastEnd := token.span.stop }

/-- The range from an offset to the end of the last token taken. -/
def spanSince (state : State) (start : Nat) : Span :=
  ⟨start, max state.lastEnd start⟩

def made {α : Type} (state : State) (node : Builder → α × Builder) : α × State :=
  ((node state.builder).1, { state with builder := (node state.builder).2 })

end State

/-- The next token is taken. -/
def Takes (state : State) (token : Token) (later : State) : Prop :=
  state.next = .ok token ∧ later = state.after token

def TakesSign (state : State) (sign : Punctuator) (later : State) : Prop :=
  ∃ token, Takes state token later ∧ token.punctuator? = some sign

def Accepts (state : State) (sign : Punctuator) (later : State) : Prop :=
  TakesSign state sign later ∨ state.Sees (·.punctuator? ≠ some sign) ∧ later = state

def EndsStatement (state later : State) : Prop :=
  TakesSign state .semicolon later ∨
    state.Sees (fun token => token.punctuator? ≠ some .semicolon ∧
      (token.newlineBefore = true ∨ token.isEnd = true ∨ token.punctuator? = some .rightBrace)) ∧
      later = state

/-- The name of a function, if it has one, is taken. -/
def TakesName (state : State) (name : Option String) (later : State) : Prop :=
  (∃ token word, Takes state token later ∧ token.identifier? = some word ∧ name = some word) ∨
    state.Sees (·.identifier? = none) ∧ name = none ∧ later = state

/-- Names with commas between them are taken. -/
inductive TakesParameters : State → List String → State → Prop where
  | last {state later : State} {token : Token} {name : String} (taken : Takes state token later)
    (name_eq : token.identifier? = some name) (other : later.Sees (·.punctuator? ≠ some .comma)) :
    TakesParameters state [name] later
  | more {state named between later : State} {token : Token} {name : String} {names : List String}
    (taken : Takes state token named) (name_eq : token.identifier? = some name)
    (comma : TakesSign named .comma between) (rest : TakesParameters between names later) :
    TakesParameters state (name :: names) later

/-- The parameters of a function and the parenthesis behind them are taken. -/
def TakesParameterList (state : State) (names : List String) (later : State) : Prop :=
  TakesSign state .rightParen later ∧ names = [] ∨
    state.Sees (·.punctuator? ≠ some .rightParen) ∧
      ∃ named, TakesParameters state names named ∧ TakesSign named .rightParen later

/-- The constant that a lexeme denotes. -/
def literal? : Lexeme → Option Literal
  | .number value => some (.number value)
  | .string value => some (.string value)
  | .boolean value => some (.boolean value)
  | .null => some .null
  | _ => none

def startsExpressionStatement : Lexeme → Bool
  | .punctuator .leftBrace => false
  | .keyword word => word == .functionWord || word == .thisWord
  | _ => true

/-- The rules that read trees, with what they read. -/
inductive Form : Type → Type where
  | expression : Form Expression
  | sequenceRest : Form (List Expression)
  | assignment : Form Expression
  | operation (least : Precedence) : Form Expression
  | operationRest (least : Precedence) (left : Expression) : Form Expression
  | operand : Form Expression
  | selections (inner : Expression) : Form Expression
  | arguments : Form (List Expression)
  | primary : Form Expression
  | elements : Form (List Expression)
  | properties : Form (List ObjectProperty)
  | functionRest (start : Nat) : Form Expression
  | block : Form Block
  | statements (inBlock : Bool) : Form (List Statement)
  | statement : Form Statement
  | declaration (kind : VariableKind) : Form Statement
  | initializer : Form (Option Expression)
  | declarators : Form (List Declarator)
  | alternate : Form (Option Statement)
  | conditional : Form Statement
  | loop : Form Statement
  | expressionStatement : Form Statement

/-- The trees that rules read: `Derives form state tree later` reads `tree` from the tokens at
`state` and stops at `later`. -/
inductive Derives : {α : Type} → Form α → State → α → State → Prop where
  | expression_single {s t : State} {first : Expression} (head : Derives .assignment s first t)
    (other : t.Sees (·.punctuator? ≠ some .comma)) : Derives .expression s first t
  | expression_several {s t u : State} {first : Expression} {rest : List Expression}
    (head : Derives .assignment s first t) (comma : t.Sees (·.punctuator? = some .comma))
    (tail : Derives .sequenceRest t rest u) :
    Derives .expression s
      (u.made (·.sequence (first :: rest) (u.spanSince first.span.start))).1
      (u.made (·.sequence (first :: rest) (u.spanSince first.span.start))).2
  | sequenceRest_nil {s : State} (other : s.Sees (·.punctuator? ≠ some .comma)) :
    Derives .sequenceRest s [] s
  | sequenceRest_cons {s t u v : State} {first : Expression} {rest : List Expression}
    (comma : TakesSign s .comma t) (head : Derives .assignment t first u)
    (tail : Derives .sequenceRest u rest v) : Derives .sequenceRest s (first :: rest) v
  | assignment_plain {s t : State} {target : Expression}
    (inner : Derives (.operation .logicalOr) s target t)
    (other : t.Sees (fun token => ∀ operator : AssignmentOperator,
      token.punctuator? ≠ some operator.sign)) : Derives .assignment s target t
  | assignment_some {s t u v : State} {token : Token} {operator : AssignmentOperator}
    {target value : Expression} (left : Derives (.operation .logicalOr) s target t)
    (taken : Takes t token u) (sign_eq : token.punctuator? = some operator.sign)
    (assignable : target.isAssignable = true) (right : Derives .assignment u value v) :
    Derives .assignment s (v.made (·.assignment operator target value)).1
      (v.made (·.assignment operator target value)).2
  | operation {s t u : State} {least : Precedence} {left whole : Expression}
    (head : Derives .operand s left t) (tail : Derives (.operationRest least left) t whole u) :
    Derives (.operation least) s whole u
  | operationRest_done {s : State} {least : Precedence} {left : Expression}
    (other : s.Sees (fun token => ∀ operator : InfixOperator,
      token.punctuator? = some operator.sign → operator.precedence < least)) :
    Derives (.operationRest least left) s left s
  | operationRest_more {s t u v : State} {least : Precedence} {left right whole : Expression}
    {token : Token} {operator : InfixOperator} (taken : Takes s token t)
    (sign_eq : token.punctuator? = some operator.sign)
    (strong : ¬ operator.precedence < least)
    (argument : Derives (.operation operator.rightPrecedence) t right u)
    (tail : Derives (.operationRest least (u.made (·.infixed operator left right)).1)
      (u.made (·.infixed operator left right)).2 whole v) :
    Derives (.operationRest least left) s whole v
  | operand_plain {s t u : State} {inner whole : Expression}
    (other : s.Sees (fun token => ∀ operator : UnaryOperator,
      token.punctuator? ≠ some operator.sign)) (head : Derives .primary s inner t)
    (tail : Derives (.selections inner) t whole u) : Derives .operand s whole u
  | operand_unary {s t u : State} {token : Token} {operator : UnaryOperator}
    {argument : Expression} (taken : Takes s token t)
    (sign_eq : token.punctuator? = some operator.sign) (inner : Derives .operand t argument u) :
    Derives .operand s
      (u.made (·.unary operator argument ⟨token.span.start, argument.span.stop⟩)).1
      (u.made (·.unary operator argument ⟨token.span.start, argument.span.stop⟩)).2
  | selections_done {s : State} {inner : Expression}
    (other : s.Sees (fun token => token.punctuator? ≠ some .dot ∧
      token.punctuator? ≠ some .leftBracket ∧ token.punctuator? ≠ some .leftParen)) :
    Derives (.selections inner) s inner s
  | selections_named {s t u v : State} {inner whole : Expression} {token : Token} {name : String}
    (dot : TakesSign s .dot t) (taken : Takes t token u) (name_eq : token.word? = some name)
    (tail : Derives (.selections
        (u.made (·.member inner (.named name) (u.spanSince inner.span.start))).1)
      (u.made (·.member inner (.named name) (u.spanSince inner.span.start))).2 whole v) :
    Derives (.selections inner) s whole v
  | selections_computed {s t u v w : State} {inner index whole : Expression}
    (opens : TakesSign s .leftBracket t) (inside : Derives .expression t index u)
    (closes : TakesSign u .rightBracket v)
    (tail : Derives (.selections
        (v.made (·.member inner (.computed index) (v.spanSince inner.span.start))).1)
      (v.made (·.member inner (.computed index) (v.spanSince inner.span.start))).2 whole w) :
    Derives (.selections inner) s whole w
  | selections_call {s t u v : State} {inner whole : Expression} {arguments : List Expression}
    (opens : TakesSign s .leftParen t) (inside : Derives .arguments t arguments u)
    (tail : Derives (.selections
        (u.made (·.call inner arguments (u.spanSince inner.span.start))).1)
      (u.made (·.call inner arguments (u.spanSince inner.span.start))).2 whole v) :
    Derives (.selections inner) s whole v
  | arguments_nil {s t : State} (closes : TakesSign s .rightParen t) : Derives .arguments s [] t
  | arguments_cons {s t u v : State} {first : Expression} {rest : List Expression}
    (other : s.Sees (·.punctuator? ≠ some .rightParen)) (head : Derives .assignment s first t)
    (tail : Derives .sequenceRest t rest u) (closes : TakesSign u .rightParen v) :
    Derives .arguments s (first :: rest) v
  | primary_literal {s t : State} {token : Token} {value : Literal} (taken : Takes s token t)
    (literal_eq : literal? token.lexeme = some value) :
    Derives .primary s (t.made (·.literal value token.span)).1
      (t.made (·.literal value token.span)).2
  | primary_identifier {s t : State} {token : Token} {name : String} (taken : Takes s token t)
    (lexeme_eq : token.lexeme = .identifier name) :
    Derives .primary s (t.made (·.identifier name token.span)).1
      (t.made (·.identifier name token.span)).2
  | primary_this {s t : State} {token : Token} (taken : Takes s token t)
    (lexeme_eq : token.lexeme = .keyword .thisWord) :
    Derives .primary s (t.made (·.this token.span)).1 (t.made (·.this token.span)).2
  | primary_function {s t u : State} {token : Token} {whole : Expression} (taken : Takes s token t)
    (lexeme_eq : token.lexeme = .keyword .functionWord)
    (tail : Derives (.functionRest token.span.start) t whole u) : Derives .primary s whole u
  | primary_parens {s t u v : State} {inner : Expression} (opens : TakesSign s .leftParen t)
    (inside : Derives .expression t inner u) (closes : TakesSign u .rightParen v) :
    Derives .primary s inner v
  | primary_array {s t u : State} {token : Token} {elements : List Expression}
    (taken : Takes s token t) (sign_eq : token.punctuator? = some .leftBracket)
    (inside : Derives .elements t elements u) :
    Derives .primary s (u.made (·.array elements (u.spanSince token.span.start))).1
      (u.made (·.array elements (u.spanSince token.span.start))).2
  | primary_object {s t u : State} {token : Token} {properties : List ObjectProperty}
    (taken : Takes s token t) (sign_eq : token.punctuator? = some .leftBrace)
    (inside : Derives .properties t properties u) :
    Derives .primary s (u.made (·.object properties (u.spanSince token.span.start))).1
      (u.made (·.object properties (u.spanSince token.span.start))).2
  | elements_nil {s t : State} (closes : TakesSign s .rightBracket t) : Derives .elements s [] t
  | elements_last {s t u : State} {first : Expression}
    (other : s.Sees (·.punctuator? ≠ some .rightBracket)) (head : Derives .assignment s first t)
    (closes : TakesSign t .rightBracket u) : Derives .elements s [first] u
  | elements_cons {s t u v : State} {first : Expression} {rest : List Expression}
    (other : s.Sees (·.punctuator? ≠ some .rightBracket)) (head : Derives .assignment s first t)
    (comma : TakesSign t .comma u) (tail : Derives .elements u rest v) :
    Derives .elements s (first :: rest) v
  | properties_nil {s t : State} (closes : TakesSign s .rightBrace t) : Derives .properties s [] t
  | properties_last {s t u v w : State} {token : Token} {key : String} {value : Expression}
    (other : s.Sees (·.punctuator? ≠ some .rightBrace)) (taken : Takes s token t)
    (key_eq : propertyKey? token = some key) (colon : TakesSign t .colon u)
    (head : Derives .assignment u value v) (closes : TakesSign v .rightBrace w) :
    Derives .properties s [.mk key value (v.spanSince token.span.start)] w
  | properties_cons {s t u v w x : State} {token : Token} {key : String} {value : Expression}
    {rest : List ObjectProperty} (other : s.Sees (·.punctuator? ≠ some .rightBrace))
    (taken : Takes s token t) (key_eq : propertyKey? token = some key)
    (colon : TakesSign t .colon u) (head : Derives .assignment u value v)
    (comma : TakesSign v .comma w) (tail : Derives .properties w rest x) :
    Derives .properties s (.mk key value (v.spanSince token.span.start) :: rest) x
  | functionRest {s t u v w : State} {start : Nat} {name : Option String} {params : List String}
    {body : Block} (named : TakesName s name t) (opens : TakesSign t .leftParen u)
    (listed : TakesParameterList u params v) (inside : Derives .block v body w) :
    Derives (.functionRest start) s (w.made (·.function name params body (w.spanSince start))).1
      (w.made (·.function name params body (w.spanSince start))).2
  | block {s t u v : State} {token : Token} {statements : List Statement} (taken : Takes s token t)
    (sign_eq : token.punctuator? = some .leftBrace)
    (inside : Derives (.statements true) t statements u) (closes : TakesSign u .rightBrace v) :
    Derives .block s (v.made (·.block statements (v.spanSince token.span.start))).1
      (v.made (·.block statements (v.spanSince token.span.start))).2
  | statements_skip {s t u : State} {inBlock : Bool} {statements : List Statement}
    (semicolon : TakesSign s .semicolon t)
    (tail : Derives (.statements inBlock) t statements u) :
    Derives (.statements inBlock) s statements u
  | statements_close {s : State} (closes : s.Sees (·.punctuator? = some .rightBrace)) :
    Derives (.statements true) s [] s
  | statements_end {s : State} (ends : s.Sees (·.isEnd = true)) : Derives (.statements false) s [] s
  | statements_cons {s t u : State} {inBlock : Bool} {first : Statement} {rest : List Statement}
    (other : s.Sees (fun token => token.punctuator? ≠ some .semicolon ∧ token.isEnd = false ∧
      (inBlock = true → token.punctuator? ≠ some .rightBrace)))
    (head : Derives .statement s first t) (tail : Derives (.statements inBlock) t rest u) :
    Derives (.statements inBlock) s (first :: rest) u
  | statement_block {s t : State} {inner : Block}
    (opens : s.Sees (·.punctuator? = some .leftBrace)) (inside : Derives .block s inner t) :
    Derives .statement s (.block inner) t
  | statement_declaration {s t : State} {kind : VariableKind} {whole : Statement}
    (opens : s.Sees (·.lexeme = .keyword kind.keyword))
    (inside : Derives (.declaration kind) s whole t) : Derives .statement s whole t
  | statement_conditional {s t : State} {whole : Statement}
    (opens : s.Sees (·.lexeme = .keyword .ifWord)) (inside : Derives .conditional s whole t) :
    Derives .statement s whole t
  | statement_loop {s t : State} {whole : Statement}
    (opens : s.Sees (·.lexeme = .keyword .whileWord)) (inside : Derives .loop s whole t) :
    Derives .statement s whole t
  | statement_expression {s t : State} {whole : Statement}
    (opens : s.Sees (startsExpressionStatement ·.lexeme = true))
    (inside : Derives .expressionStatement s whole t) : Derives .statement s whole t
  | declaration {s t u v : State} {token : Token} {kind : VariableKind}
    {declarations : List Declarator} (taken : Takes s token t)
    (inside : Derives .declarators t declarations u) (ends : EndsStatement u v) :
    Derives (.declaration kind) s
      (v.made (·.declaration kind declarations (v.spanSince token.span.start))).1
      (v.made (·.declaration kind declarations (v.spanSince token.span.start))).2
  | initializer_none {s : State} (other : s.Sees (·.punctuator? ≠ some .assign)) :
    Derives .initializer s none s
  | initializer_some {s t u : State} {value : Expression} (sign : TakesSign s .assign t)
    (inner : Derives .assignment t value u) : Derives .initializer s (some value) u
  | declarators_last {s t u : State} {token : Token} {name : String} {init : Option Expression}
    (taken : Takes s token t) (name_eq : token.identifier? = some name)
    (value : Derives .initializer t init u)
    (other : (u.made (·.declarator name init (u.spanSince token.span.start))).2.Sees
      (·.punctuator? ≠ some .comma)) :
    Derives .declarators s [(u.made (·.declarator name init (u.spanSince token.span.start))).1]
      (u.made (·.declarator name init (u.spanSince token.span.start))).2
  | declarators_cons {s t u v w : State} {token : Token} {name : String} {init : Option Expression}
    {rest : List Declarator} (taken : Takes s token t) (name_eq : token.identifier? = some name)
    (value : Derives .initializer t init u)
    (comma : TakesSign (u.made (·.declarator name init (u.spanSince token.span.start))).2 .comma v)
    (tail : Derives .declarators v rest w) :
    Derives .declarators s
      ((u.made (·.declarator name init (u.spanSince token.span.start))).1 :: rest) w
  | alternate_none {s : State} (other : s.Sees (·.keyword? ≠ some .elseWord)) :
    Derives .alternate s none s
  | alternate_some {s t u : State} {token : Token} {inner : Statement} (taken : Takes s token t)
    (word_eq : token.keyword? = some .elseWord) (inside : Derives .statement t inner u) :
    Derives .alternate s (some inner) u
  | conditional {s t u v w x y : State} {token : Token} {condition : Expression}
    {consequent : Statement} {alternate : Option Statement} (taken : Takes s token t)
    (word_eq : token.keyword? = some .ifWord) (opens : TakesSign t .leftParen u)
    (inside : Derives .expression u condition v) (closes : TakesSign v .rightParen w)
    (first : Derives .statement w consequent x) (second : Derives .alternate x alternate y) :
    Derives .conditional s
      (y.made (·.conditional condition consequent alternate (y.spanSince token.span.start))).1
      (y.made (·.conditional condition consequent alternate (y.spanSince token.span.start))).2
  | loop {s t u v w x : State} {token : Token} {test : Expression} {body : Statement}
    (taken : Takes s token t) (word_eq : token.keyword? = some .whileWord)
    (opens : TakesSign t .leftParen u) (inside : Derives .expression u test v)
    (closes : TakesSign v .rightParen w) (repeated : Derives .statement w body x) :
    Derives .loop s (x.made (·.loop test body (x.spanSince token.span.start))).1
      (x.made (·.loop test body (x.spanSince token.span.start))).2
  | expressionStatement {s t u : State} {inner : Expression}
    (inside : Derives .expression s inner t)
    (ends : if inner.isFunction then Accepts t .semicolon u else EndsStatement t u) :
    Derives .expressionStatement s (u.made (·.expression inner (u.spanSince inner.span.start))).1
      (u.made (·.expression inner (u.spanSince inner.span.start))).2

end Scriptlet.Grammar
