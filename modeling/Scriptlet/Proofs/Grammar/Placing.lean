import Scriptlet.Proofs.Grammar.Complete
import Scriptlet.Proofs.Token.Fault
import Scriptlet.Proofs.Tree.Children

set_option autoImplicit false

/-!
The ranges of what is read. Rules take tokens in the order of the text, so what a rule reads lies
between the last token taken before it and the last one taken by it.
-/
namespace Scriptlet

/-- Nodes whose ranges follow each other between two offsets. -/
def Laid (low high : Nat) : List Node → Prop
  | [] => low ≤ high
  | node :: rest => low ≤ node.span.start ∧ node.span.start ≤ node.span.stop ∧
    Laid node.span.stop high rest

theorem Laid.le {nodes : List Node} {low high : Nat} (laid : Laid low high nodes) :
    low ≤ high := by
  induction nodes generalizing low with
  | nil => exact laid
  | cons node rest ih =>
    obtain ⟨after, forward, later⟩ := laid
    have := ih later
    omega

theorem Laid.mono {nodes : List Node} {low high lower higher : Nat} (laid : Laid low high nodes)
    (below : lower ≤ low) (above : high ≤ higher) : Laid lower higher nodes := by
  induction nodes generalizing low lower with
  | nil => exact Nat.le_trans below (Nat.le_trans laid above)
  | cons node rest ih =>
    obtain ⟨after, forward, later⟩ := laid
    exact ⟨Nat.le_trans below after, forward, ih later (Nat.le_refl _)⟩

theorem Laid.append {front back : List Node} {low middle high : Nat}
    (first : Laid low middle front) (second : Laid middle high back) :
    Laid low high (front ++ back) := by
  induction front generalizing low with
  | nil => exact second.mono first (Nat.le_refl _)
  | cons node rest ih =>
    obtain ⟨after, forward, later⟩ := first
    exact ⟨after, forward, ih later⟩

theorem Laid.inside {nodes : List Node} {low high : Nat} (laid : Laid low high nodes)
    {node : Node} (member : node ∈ nodes) :
    low ≤ node.span.start ∧ node.span.stop ≤ high := by
  induction nodes generalizing low with
  | nil => cases member
  | cons first rest ih =>
    obtain ⟨after, forward, later⟩ := laid
    rcases List.mem_cons.mp member with rfl | below
    · exact ⟨after, later.le⟩
    · have := ih later below
      omega

theorem Laid.pairwise {nodes : List Node} {low high : Nat} (laid : Laid low high nodes) :
    nodes.Pairwise fun left right => left.span.stop ≤ right.span.start := by
  induction nodes generalizing low with
  | nil => exact .nil
  | cons first rest ih =>
    obtain ⟨after, forward, later⟩ := laid
    exact .cons (fun node member => (later.inside member).1) (ih later)

/-- Whether the nodes right below a node are laid within its range, which stops before a limit. -/
def Node.Placed (limit : Nat) (node : Node) : Prop :=
  node.span.stop ≤ limit ∧ Laid node.span.start node.span.stop node.children

namespace Grammar

/-- A state in which a stream is read: the tokens that are left are in order, and what comes after
them is what the stream ends with. -/
structure State.Placed (stream : TokenStream) (state : State) : Prop where
  tokens : InOrder stream.limit state.lastEnd state.tokens
  going : ∀ token ∈ state.tokens, token.isEnd = false
  ending : state.ending = stream.ending
  last : ∀ token, stream.ending = .ok token →
    token.span = .point stream.limit ∧ token.isEnd = true

section Small

variable {stream : TokenStream} {state later : State}

theorem State.Placed.le (placed : state.Placed stream) : state.lastEnd ≤ stream.limit :=
  placed.tokens.le

theorem State.Placed.closed (placed : state.Placed stream) : state.Closed := by
  intro token ending_eq
  rw [placed.ending] at ending_eq
  exact (placed.last token ending_eq).2

/-- The next token is behind the last one, and the state after it is placed. -/
theorem State.Placed.next (placed : state.Placed stream) {token : Token}
    (next_eq : state.next = .ok token) :
    state.lastEnd ≤ token.span.start ∧ token.span.start ≤ token.span.stop ∧
      token.span.stop ≤ stream.limit ∧ (state.after token).Placed stream := by
  obtain ⟨ordered, going, ending, last⟩ := placed
  unfold State.next at next_eq
  split at next_eq
  · rename_i rest tokens_eq
    cases next_eq
    rw [tokens_eq] at ordered
    obtain ⟨after, forward, later⟩ := ordered
    have tail_eq : (state.after token).tokens = rest := congrArg List.tail tokens_eq
    refine ⟨after, forward, later.le, tail_eq ▸ later, fun other member => ?_, ending, last⟩
    exact going other (List.mem_of_mem_tail member)
  · rename_i tokens_eq
    have span_eq := (last token (ending ▸ next_eq)).1
    have tail_eq : (state.after token).tokens = [] := congrArg List.tail tokens_eq
    have none_left : InOrder stream.limit token.span.stop (state.after token).tokens := by
      rw [tail_eq, span_eq]
      exact Nat.le_refl _
    rw [span_eq]
    exact ⟨ordered.le, Nat.le_refl _, Nat.le_refl _, none_left, by simp [tail_eq], ending, last⟩

theorem Takes.placed {token : Token} (taken : Takes state token later)
    (placed : state.Placed stream) :
    later.Placed stream ∧ state.lastEnd ≤ token.span.start ∧ token.span.start ≤ later.lastEnd := by
  obtain ⟨next_eq, rfl⟩ := taken
  obtain ⟨after, forward, _, later⟩ := placed.next next_eq
  exact ⟨later, after, forward⟩

theorem Takes.proceeds {token : Token} (taken : Takes state token later)
    (placed : state.Placed stream) : later.Placed stream ∧ state.lastEnd ≤ later.lastEnd := by
  obtain ⟨later_placed, after, forward⟩ := taken.placed placed
  exact ⟨later_placed, Nat.le_trans after forward⟩

theorem TakesSign.proceeds {sign : Punctuator} (taken : TakesSign state sign later)
    (placed : state.Placed stream) : later.Placed stream ∧ state.lastEnd ≤ later.lastEnd := by
  obtain ⟨token, taken, _⟩ := taken
  exact taken.proceeds placed

theorem EndsStatement.proceeds (ends : EndsStatement state later) (placed : state.Placed stream) :
    later.Placed stream ∧ state.lastEnd ≤ later.lastEnd := by
  rcases ends with taken | ⟨_, rfl⟩
  · exact taken.proceeds placed
  · exact ⟨placed, Nat.le_refl _⟩

theorem endsExpression_proceeds {inner : Expression}
    (ends : if inner.isFunction then Accepts state .semicolon later
      else EndsStatement state later) (placed : state.Placed stream) :
    later.Placed stream ∧ state.lastEnd ≤ later.lastEnd := by
  split at ends
  · rcases ends with taken | ⟨_, rfl⟩
    · exact taken.proceeds placed
    · exact ⟨placed, Nat.le_refl _⟩
  · exact ends.proceeds placed

theorem TakesName.proceeds {name : Option String} (named : TakesName state name later)
    (placed : state.Placed stream) : later.Placed stream ∧ state.lastEnd ≤ later.lastEnd := by
  rcases named with ⟨token, word, taken, _⟩ | ⟨_, _, rfl⟩
  · exact taken.proceeds placed
  · exact ⟨placed, Nat.le_refl _⟩

theorem TakesParameters.proceeds {names : List String} (listed : TakesParameters state names later)
    (placed : state.Placed stream) : later.Placed stream ∧ state.lastEnd ≤ later.lastEnd := by
  induction listed with
  | last taken _ _ => exact taken.proceeds placed
  | more taken _ comma _ inductive_hypothesis =>
    obtain ⟨named_placed, first⟩ := taken.proceeds placed
    obtain ⟨between_placed, second⟩ := comma.proceeds named_placed
    obtain ⟨later_placed, rest⟩ := inductive_hypothesis between_placed
    exact ⟨later_placed, by omega⟩

theorem TakesParameterList.proceeds {names : List String}
    (listed : TakesParameterList state names later) (placed : state.Placed stream) :
    later.Placed stream ∧ state.lastEnd ≤ later.lastEnd := by
  rcases listed with ⟨closes, _⟩ | ⟨_, named, taken, closes⟩
  · exact closes.proceeds placed
  · obtain ⟨named_placed, first⟩ := taken.proceeds placed
    obtain ⟨later_placed, second⟩ := closes.proceeds named_placed
    exact ⟨later_placed, Nat.le_trans first second⟩

/-- Making a node takes no token. -/
theorem State.Placed.made {α : Type} {build : Builder → α × Builder}
    (placed : state.Placed stream) : (state.made build).2.Placed stream :=
  ⟨placed.tokens, placed.going, placed.ending, placed.last⟩

theorem TakesSign.made_proceeds {α : Type} {sign : Punctuator} {build : Builder → α × Builder}
    (taken : TakesSign (state.made build).2 sign later) (placed : state.Placed stream) :
    later.Placed stream ∧ state.lastEnd ≤ later.lastEnd :=
  taken.proceeds placed.made

end Small

/-- The state in which a form has been read is placed. -/
theorem Derives.placed {α : Type} {form : Form α} {state later : State} {value : α}
    {stream : TokenStream} (derived : Derives form state value later)
    (placed : state.Placed stream) : later.Placed stream := by
  induction derived
  all_goals
    grind -ring -linarith [State.Placed.made, → Takes.proceeds, → TakesSign.proceeds,
      → TakesSign.made_proceeds, → endsExpression_proceeds, → EndsStatement.proceeds,
      → TakesName.proceeds, → TakesParameterList.proceeds]

def Form.nodes {α : Type} : Form α → α → List Node
  | .expression, value => [.expression value]
  | .sequenceRest, value => value.map .expression
  | .assignment, value => [.expression value]
  | .operation _, value => [.expression value]
  | .operationRest _ _, value => [.expression value]
  | .operand, value => [.expression value]
  | .selections _, value => [.expression value]
  | .arguments, value => value.map .expression
  | .primary, value => [.expression value]
  | .elements, value => value.map .expression
  | .properties, value => value.map .property
  | .functionRest _, value => [.expression value]
  | .block, value => [.body value]
  | .statements _, value => value.map .statement
  | .statement, value => [.statement value]
  | .declaration _, value => [.statement value]
  | .initializer, value => value.toList.map .expression
  | .declarators, value => value.map .declarator
  | .alternate, value => value.toList.map .statement
  | .conditional, value => [.statement value]
  | .loop, value => [.statement value]
  | .expressionStatement, value => [.statement value]

/-- Where what a form reads may start: where its first part is, if it was read before. -/
def Form.low {α : Type} (state : State) : Form α → Nat
  | .operationRest _ left => left.span.start
  | .selections inner => inner.span.start
  | .functionRest start => start
  | _ => state.lastEnd

/-- What was read before a form goes on. -/
def Form.given {α : Type} : Form α → List Node
  | .operationRest _ left => [.expression left]
  | .selections inner => [.expression inner]
  | _ => []

/-- Placed nodes that are laid between two offsets. -/
def Fits (limit low high : Nat) (nodes : List Node) : Prop :=
  Laid low high nodes ∧ ∀ node ∈ nodes, node.Every (Node.Placed limit)

section Nodes

variable {limit low middle high : Nat} {stream : TokenStream} {state : State}

theorem fits_nil (le : low ≤ high) : Fits limit low high [] :=
  ⟨le, nofun⟩

theorem fits_refl : Fits limit low low [] :=
  fits_nil (Nat.le_refl low)

theorem Fits.le {nodes : List Node} (fits : Fits limit low high nodes) : low ≤ high :=
  fits.1.le

theorem Fits.mono {nodes : List Node} {lower higher : Nat} (fits : Fits limit low high nodes)
    (below : lower ≤ low) (above : high ≤ higher) : Fits limit lower higher nodes :=
  ⟨fits.1.mono below above, fits.2⟩

theorem Fits.append {front back : List Node} (first : Fits limit low middle front)
    (second : Fits limit middle high back) : Fits limit low high (front ++ back) :=
  ⟨first.1.append second.1, List.forall_mem_append.mpr ⟨first.2, second.2⟩⟩

/-- A single node ends where its range does. -/
theorem Fits.upTo {node : Node} (fits : Fits limit low high [node]) :
    Fits limit node.span.start node.span.stop [node] ∧ low ≤ node.span.start ∧
      node.span.stop ≤ high := by
  obtain ⟨⟨after, forward, before⟩, every⟩ := fits
  exact ⟨⟨⟨Nat.le_refl _, forward, Nat.le_refl _⟩, every⟩, after, before⟩

/-- A node around nodes that are laid within its range. -/
theorem fits_node {node : Node} {start stop : Nat} (span_eq : node.span = ⟨start, stop⟩)
    (inner : Fits limit start stop node.children) (below : low ≤ start) (above : stop ≤ high)
    (bound : high ≤ limit) : Fits limit low high [node] := by
  have forward := inner.le
  have laid : Laid low high [node] := by
    simp only [Laid, span_eq]
    exact ⟨below, forward, above⟩
  have placed : node.Placed limit := by
    rw [Node.Placed, span_eq]
    exact ⟨Nat.le_trans above bound, inner.1⟩
  exact ⟨laid, List.forall_mem_singleton.mpr (Node.every_iff.mpr ⟨inner.2, placed⟩)⟩

/-- A node from a place before the last token taken to the end of that token. -/
theorem fits_since {node : Node} {start : Nat} (placed : state.Placed stream)
    (span_eq : node.span = state.spanSince start)
    (inner : Fits stream.limit start state.lastEnd node.children) (below : low ≤ start) :
    Fits stream.limit low state.lastEnd [node] := by
  have since : state.spanSince start = ⟨start, state.lastEnd⟩ := by
    rw [State.spanSince, Nat.max_eq_left inner.le]
  exact fits_node (span_eq.trans since) inner below (Nat.le_refl _) placed.le

theorem made_since {α : Type} {build : Builder → α × Builder} {node : Node} {start : Nat}
    (placed : state.Placed stream) (span_eq : node.span = state.spanSince start)
    (inner : Fits stream.limit start state.lastEnd node.children) (below : low ≤ start) :
    Fits stream.limit low (state.made build).2.lastEnd [node] := by
  have fits := fits_since placed span_eq inner below
  exact fits

/-- A node that is one token. -/
theorem made_token {α : Type} {build : Builder → α × Builder} {node : Node} {before : State}
    {token : Token} (taken : Takes before token state) (span_eq : node.span = token.span)
    (children_eq : node.children = []) (placed : before.Placed stream) :
    Fits stream.limit before.lastEnd (state.made build).2.lastEnd [node] := by
  obtain ⟨takenPlaced, after, inside⟩ := taken.placed placed
  have stop_eq : token.span.stop = state.lastEnd := by
    rw [taken.2]
    rfl
  have inner : Fits stream.limit token.span.start state.lastEnd node.children := by
    rw [children_eq]
    exact fits_nil inside
  have whole : node.span = ⟨token.span.start, state.lastEnd⟩ := by rw [span_eq, ← stop_eq]
  exact fits_node whole inner after (Nat.le_refl _) takenPlaced.le

/-- A node from the start of one node to the end of the next. -/
theorem fits_merge {node left right : Node} (span_eq : node.span = left.span.merge right.span)
    (children_eq : node.children = [left, right]) (first : Fits limit low middle [left])
    (second : Fits limit middle high [right]) (bound : high ≤ limit) :
    Fits limit low high [node] := by
  obtain ⟨leftFits, after, leftEnd⟩ := first.upTo
  obtain ⟨rightFits, between, before⟩ := second.upTo
  have leftForward := leftFits.le
  have rightForward := rightFits.le
  have merged : left.span.merge right.span = ⟨left.span.start, right.span.stop⟩ := by
    simp only [Span.merge, Span.mk.injEq]
    omega
  have inner : Fits limit left.span.start right.span.stop node.children := by
    rw [children_eq]
    exact leftFits.append (rightFits.mono (by omega) (Nat.le_refl _))
  exact fits_node (span_eq.trans merged) inner after before bound

theorem fits_infixed {left right : Expression} (builder : Builder) (operator : InfixOperator)
    (first : Fits limit low middle [.expression left])
    (second : Fits limit middle high [.expression right]) (bound : high ≤ limit) :
    Fits limit low high [.expression (builder.infixed operator left right).1] := by
  cases operator with
  | binary operator => exact fits_merge rfl rfl first second bound
  | logical operator => exact fits_merge rfl rfl first second bound

end Nodes

/-- What is derived lies between the last token taken before it and the last one taken by it, if
what it goes on from does. -/
def Derives.Lays {α : Type} {form : Form α} {state later : State} {value : α}
    (_ : Derives form state value later) (stream : TokenStream) : Prop :=
  state.Placed stream → Fits stream.limit (form.low state) state.lastEnd form.given →
    Fits stream.limit (form.low state) later.lastEnd (form.nodes value)

section Cases

variable {stream : TokenStream}

theorem expression_several_lays {s t u : State} {first : Expression} {rest : List Expression}
    (head : Derives .assignment s first t) (comma : t.Sees (·.punctuator? = some .comma))
    (tail : Derives .sequenceRest t rest u) (head_ih : head.Lays stream)
    (tail_ih : tail.Lays stream) : (Derives.expression_several head comma tail).Lays stream := by
  intro placed given
  have headPlaced := head.placed placed
  have headFits := head_ih placed given
  have tailPlaced := tail.placed headPlaced
  have tailFits := tail_ih headPlaced fits_refl
  obtain ⟨first, after, before⟩ := headFits.upTo
  have inner := first.append (tailFits.mono before (Nat.le_refl _))
  exact made_since tailPlaced rfl inner after

theorem assignment_some_lays {s t u v : State} {token : Token} {operator : AssignmentOperator}
    {target value : Expression} (left : Derives (.operation .logicalOr) s target t)
    (taken : Takes t token u) (sign_eq : token.punctuator? = some operator.sign)
    (assignable : target.isAssignable = true) (right : Derives .assignment u value v)
    (left_ih : left.Lays stream) (right_ih : right.Lays stream) :
    (Derives.assignment_some left taken sign_eq assignable right).Lays stream := by
  intro placed given
  have leftPlaced := left.placed placed
  have leftFits := left_ih placed given
  obtain ⟨takenPlaced, takenEnd⟩ := taken.proceeds leftPlaced
  have rightPlaced := right.placed takenPlaced
  have rightFits := right_ih takenPlaced fits_refl
  have rightLater := rightFits.mono takenEnd (Nat.le_refl _)
  exact fits_merge rfl rfl leftFits rightLater rightPlaced.le

theorem operationRest_more_lays {s t u v : State} {least : Precedence}
    {left right whole : Expression} {token : Token} {operator : InfixOperator}
    (taken : Takes s token t) (sign_eq : token.punctuator? = some operator.sign)
    (strong : ¬ operator.precedence < least)
    (argument : Derives (.operation operator.rightPrecedence) t right u)
    (tail : Derives (.operationRest least (u.made (·.infixed operator left right)).1)
      (u.made (·.infixed operator left right)).2 whole v)
    (argument_ih : argument.Lays stream) (tail_ih : tail.Lays stream) :
    (Derives.operationRest_more taken sign_eq strong argument tail).Lays stream := by
  intro placed given
  obtain ⟨takenPlaced, takenEnd⟩ := taken.proceeds placed
  have rightPlaced := argument.placed takenPlaced
  have rightFits := argument_ih takenPlaced fits_refl
  have rightLater := rightFits.mono takenEnd (Nat.le_refl _)
  have both := fits_infixed u.builder operator given rightLater rightPlaced.le
  obtain ⟨first, after, before⟩ := both.upTo
  have tailFits := tail_ih rightPlaced.made (first.mono (Nat.le_refl _) before)
  exact tailFits.mono after (Nat.le_refl _)

theorem properties_last_lays {s t u v w : State} {token : Token} {key : String} {value : Expression}
    (other : s.Sees (·.punctuator? ≠ some .rightBrace)) (taken : Takes s token t)
    (key_eq : propertyKey? token = some key) (colon : TakesSign t .colon u)
    (head : Derives .assignment u value v) (closes : TakesSign v .rightBrace w)
    (head_ih : head.Lays stream) :
    (Derives.properties_last other taken key_eq colon head closes).Lays stream := by
  intro placed given
  obtain ⟨takenPlaced, after, within⟩ := taken.placed placed
  obtain ⟨colonPlaced, colonEnd⟩ := colon.proceeds takenPlaced
  have headPlaced := head.placed colonPlaced
  have headFits := head_ih colonPlaced fits_refl
  obtain ⟨_, closesEnd⟩ := closes.proceeds headPlaced
  have property : Fits stream.limit s.lastEnd v.lastEnd
      [.property (.mk key value (v.spanSince token.span.start))] :=
    fits_since headPlaced rfl (headFits.mono (Nat.le_trans within colonEnd) (Nat.le_refl _)) after
  exact property.mono (Nat.le_refl _) closesEnd

theorem properties_cons_lays {s t u v w x : State} {token : Token} {key : String}
    {value : Expression} {rest : List ObjectProperty}
    (other : s.Sees (·.punctuator? ≠ some .rightBrace)) (taken : Takes s token t)
    (key_eq : propertyKey? token = some key) (colon : TakesSign t .colon u)
    (head : Derives .assignment u value v) (comma : TakesSign v .comma w)
    (tail : Derives .properties w rest x) (head_ih : head.Lays stream)
    (tail_ih : tail.Lays stream) :
    (Derives.properties_cons other taken key_eq colon head comma tail).Lays stream := by
  intro placed given
  obtain ⟨takenPlaced, after, within⟩ := taken.placed placed
  obtain ⟨colonPlaced, colonEnd⟩ := colon.proceeds takenPlaced
  have headPlaced := head.placed colonPlaced
  have headFits := head_ih colonPlaced fits_refl
  obtain ⟨commaPlaced, commaEnd⟩ := comma.proceeds headPlaced
  have tailFits := tail_ih commaPlaced fits_refl
  have property : Fits stream.limit s.lastEnd v.lastEnd
      [.property (.mk key value (v.spanSince token.span.start))] :=
    fits_since headPlaced rfl (headFits.mono (Nat.le_trans within colonEnd) (Nat.le_refl _)) after
  exact property.append (tailFits.mono commaEnd (Nat.le_refl _))

theorem functionRest_lays {s t u v w : State} {start : Nat} {name : Option String}
    {params : List String} {body : Block} (named : TakesName s name t)
    (opens : TakesSign t .leftParen u) (listed : TakesParameterList u params v)
    (inside : Derives .block v body w) (inside_ih : inside.Lays stream) :
    (Derives.functionRest named opens listed inside :
      Derives (.functionRest start) s _ _).Lays stream := by
  intro placed given
  obtain ⟨namedPlaced, namedEnd⟩ := named.proceeds placed
  obtain ⟨opensPlaced, opensEnd⟩ := opens.proceeds namedPlaced
  obtain ⟨listedPlaced, listedEnd⟩ := listed.proceeds opensPlaced
  have insidePlaced := inside.placed listedPlaced
  have insideFits := inside_ih listedPlaced fits_refl
  have before : start ≤ s.lastEnd := given.le
  have inner := insideFits.mono (show start ≤ v.lastEnd by omega) (Nat.le_refl _)
  exact made_since insidePlaced rfl inner (Nat.le_refl _)

theorem declarators_cons_lays {s t u v w : State} {token : Token} {name : String}
    {init : Option Expression} {rest : List Declarator} (taken : Takes s token t)
    (name_eq : token.identifier? = some name) (value : Derives .initializer t init u)
    (comma : TakesSign (u.made (·.declarator name init (u.spanSince token.span.start))).2 .comma v)
    (tail : Derives .declarators v rest w) (value_ih : value.Lays stream)
    (tail_ih : tail.Lays stream) :
    (Derives.declarators_cons taken name_eq value comma tail).Lays stream := by
  intro placed given
  obtain ⟨takenPlaced, after, within⟩ := taken.placed placed
  have valuePlaced := value.placed takenPlaced
  have valueFits := value_ih takenPlaced fits_refl
  have first : Fits stream.limit s.lastEnd u.lastEnd
      [.declarator (u.made (·.declarator name init (u.spanSince token.span.start))).1] :=
    fits_since valuePlaced rfl (valueFits.mono within (Nat.le_refl _)) after
  obtain ⟨commaPlaced, commaEnd⟩ := comma.proceeds valuePlaced.made
  have tailFits := tail_ih commaPlaced fits_refl
  exact first.append (tailFits.mono commaEnd (Nat.le_refl _))

theorem conditional_lays {s t u v w x y : State} {token : Token} {condition : Expression}
    {consequent : Statement} {alternate : Option Statement} (taken : Takes s token t)
    (word_eq : token.keyword? = some .ifWord) (opens : TakesSign t .leftParen u)
    (inside : Derives .expression u condition v) (closes : TakesSign v .rightParen w)
    (first : Derives .statement w consequent x) (second : Derives .alternate x alternate y)
    (inside_ih : inside.Lays stream) (first_ih : first.Lays stream)
    (second_ih : second.Lays stream) :
    (Derives.conditional taken word_eq opens inside closes first second).Lays stream := by
  intro placed given
  obtain ⟨takenPlaced, after, within⟩ := taken.placed placed
  obtain ⟨opensPlaced, opensEnd⟩ := opens.proceeds takenPlaced
  have insidePlaced := inside.placed opensPlaced
  have insideFits := inside_ih opensPlaced fits_refl
  obtain ⟨closesPlaced, closesEnd⟩ := closes.proceeds insidePlaced
  have firstPlaced := first.placed closesPlaced
  have firstFits := first_ih closesPlaced fits_refl
  have secondPlaced := second.placed firstPlaced
  have secondFits := second_ih firstPlaced fits_refl
  have condition := insideFits.mono (Nat.le_trans within opensEnd) closesEnd
  have inner := condition.append (firstFits.append secondFits)
  exact made_since secondPlaced rfl inner after

theorem loop_lays {s t u v w x : State} {token : Token} {test : Expression} {body : Statement}
    (taken : Takes s token t) (word_eq : token.keyword? = some .whileWord)
    (opens : TakesSign t .leftParen u) (inside : Derives .expression u test v)
    (closes : TakesSign v .rightParen w) (repeated : Derives .statement w body x)
    (inside_ih : inside.Lays stream) (repeated_ih : repeated.Lays stream) :
    (Derives.loop taken word_eq opens inside closes repeated).Lays stream := by
  intro placed given
  obtain ⟨takenPlaced, after, within⟩ := taken.placed placed
  obtain ⟨opensPlaced, opensEnd⟩ := opens.proceeds takenPlaced
  have insidePlaced := inside.placed opensPlaced
  have insideFits := inside_ih opensPlaced fits_refl
  obtain ⟨closesPlaced, closesEnd⟩ := closes.proceeds insidePlaced
  have repeatedPlaced := repeated.placed closesPlaced
  have repeatedFits := repeated_ih closesPlaced fits_refl
  have test := insideFits.mono (Nat.le_trans within opensEnd) closesEnd
  exact made_since repeatedPlaced rfl (test.append repeatedFits) after

end Cases

theorem Derives.fits {α : Type} {form : Form α} {state later : State} {value : α}
    {stream : TokenStream} (derived : Derives form state value later)
    (placed : state.Placed stream)
    (given : Fits stream.limit (form.low state) state.lastEnd form.given) :
    Fits stream.limit (form.low state) later.lastEnd (form.nodes value) := by
  induction derived with
  | expression_single head other head_ih => exact head_ih placed given
  | expression_several head comma tail head_ih tail_ih =>
    exact expression_several_lays head comma tail head_ih tail_ih placed given
  | sequenceRest_nil other => exact given
  | sequenceRest_cons comma head tail head_ih tail_ih =>
    obtain ⟨commaPlaced, commaEnd⟩ := comma.proceeds placed
    have headPlaced := head.placed commaPlaced
    have headFits := head_ih commaPlaced fits_refl
    have tailFits := tail_ih headPlaced fits_refl
    exact (headFits.append tailFits).mono commaEnd (Nat.le_refl _)
  | assignment_plain inner other inner_ih => exact inner_ih placed given
  | assignment_some left taken sign_eq assignable right left_ih right_ih =>
    exact assignment_some_lays left taken sign_eq assignable right left_ih right_ih placed given
  | operation head tail head_ih tail_ih =>
    have headPlaced := head.placed placed
    have headFits := head_ih placed given
    obtain ⟨first, after, before⟩ := headFits.upTo
    have tailFits := tail_ih headPlaced (first.mono (Nat.le_refl _) before)
    exact tailFits.mono after (Nat.le_refl _)
  | operationRest_done other => exact given
  | operationRest_more taken sign_eq strong argument tail argument_ih tail_ih =>
    exact operationRest_more_lays taken sign_eq strong argument tail argument_ih tail_ih placed
      given
  | operand_plain other head tail head_ih tail_ih =>
    have headPlaced := head.placed placed
    have headFits := head_ih placed given
    obtain ⟨first, after, before⟩ := headFits.upTo
    have tailFits := tail_ih headPlaced (first.mono (Nat.le_refl _) before)
    exact tailFits.mono after (Nat.le_refl _)
  | operand_unary taken sign_eq inner inner_ih =>
    obtain ⟨takenPlaced, after, inside⟩ := taken.placed placed
    have innerPlaced := inner.placed takenPlaced
    have innerFits := inner_ih takenPlaced fits_refl
    obtain ⟨argument, between, before⟩ := innerFits.upTo
    have enclosed := argument.mono (Nat.le_trans inside between) (Nat.le_refl _)
    exact fits_node rfl enclosed after before innerPlaced.le
  | selections_done other => exact given
  | selections_named dot taken name_eq tail tail_ih =>
    obtain ⟨dotPlaced, dotEnd⟩ := dot.proceeds placed
    obtain ⟨takenPlaced, takenEnd⟩ := taken.proceeds dotPlaced
    have inner := given.mono (Nat.le_refl _) (Nat.le_trans dotEnd takenEnd)
    exact tail_ih takenPlaced.made (made_since takenPlaced rfl inner (Nat.le_refl _))
  | selections_computed opens inside closes tail inside_ih tail_ih =>
    obtain ⟨opensPlaced, opensEnd⟩ := opens.proceeds placed
    have insidePlaced := inside.placed opensPlaced
    have insideFits := inside_ih opensPlaced fits_refl
    obtain ⟨closesPlaced, closesEnd⟩ := closes.proceeds insidePlaced
    have inner := given.append (insideFits.mono opensEnd closesEnd)
    exact tail_ih closesPlaced.made (made_since closesPlaced rfl inner (Nat.le_refl _))
  | selections_call opens inside tail inside_ih tail_ih =>
    obtain ⟨opensPlaced, opensEnd⟩ := opens.proceeds placed
    have insidePlaced := inside.placed opensPlaced
    have insideFits := inside_ih opensPlaced fits_refl
    have inner := given.append (insideFits.mono opensEnd (Nat.le_refl _))
    exact tail_ih insidePlaced.made (made_since insidePlaced rfl inner (Nat.le_refl _))
  | arguments_nil closes =>
    obtain ⟨_, closesEnd⟩ := closes.proceeds placed
    exact fits_nil closesEnd
  | arguments_cons other head tail closes head_ih tail_ih =>
    have headPlaced := head.placed placed
    have headFits := head_ih placed given
    have tailPlaced := tail.placed headPlaced
    have tailFits := tail_ih headPlaced fits_refl
    obtain ⟨_, closesEnd⟩ := closes.proceeds tailPlaced
    exact headFits.append (tailFits.mono (Nat.le_refl _) closesEnd)
  | primary_literal taken literal_eq =>
    exact made_token taken rfl rfl placed
  | primary_identifier taken lexeme_eq =>
    exact made_token taken rfl rfl placed
  | primary_this taken lexeme_eq =>
    exact made_token taken rfl rfl placed
  | primary_function taken lexeme_eq tail tail_ih =>
    obtain ⟨takenPlaced, after, inside⟩ := taken.placed placed
    have tailFits := tail_ih takenPlaced (fits_nil inside)
    exact tailFits.mono after (Nat.le_refl _)
  | primary_parens opens inside closes inside_ih =>
    obtain ⟨opensPlaced, opensEnd⟩ := opens.proceeds placed
    have insidePlaced := inside.placed opensPlaced
    have insideFits := inside_ih opensPlaced fits_refl
    obtain ⟨_, closesEnd⟩ := closes.proceeds insidePlaced
    exact insideFits.mono opensEnd closesEnd
  | primary_array taken sign_eq inside inside_ih =>
    obtain ⟨takenPlaced, after, within⟩ := taken.placed placed
    have insidePlaced := inside.placed takenPlaced
    have insideFits := inside_ih takenPlaced fits_refl
    have inner := insideFits.mono within (Nat.le_refl _)
    exact made_since insidePlaced rfl inner after
  | primary_object taken sign_eq inside inside_ih =>
    obtain ⟨takenPlaced, after, within⟩ := taken.placed placed
    have insidePlaced := inside.placed takenPlaced
    have insideFits := inside_ih takenPlaced fits_refl
    have inner := insideFits.mono within (Nat.le_refl _)
    exact made_since insidePlaced rfl inner after
  | elements_nil closes =>
    obtain ⟨_, closesEnd⟩ := closes.proceeds placed
    exact fits_nil closesEnd
  | elements_last other head closes head_ih =>
    have headPlaced := head.placed placed
    have headFits := head_ih placed given
    obtain ⟨_, closesEnd⟩ := closes.proceeds headPlaced
    exact headFits.mono (Nat.le_refl _) closesEnd
  | elements_cons other head comma tail head_ih tail_ih =>
    have headPlaced := head.placed placed
    have headFits := head_ih placed given
    obtain ⟨commaPlaced, commaEnd⟩ := comma.proceeds headPlaced
    have tailFits := tail_ih commaPlaced fits_refl
    exact headFits.append (tailFits.mono commaEnd (Nat.le_refl _))
  | properties_nil closes =>
    obtain ⟨_, closesEnd⟩ := closes.proceeds placed
    exact fits_nil closesEnd
  | properties_last other taken key_eq colon head closes head_ih =>
    exact properties_last_lays other taken key_eq colon head closes head_ih placed given
  | properties_cons other taken key_eq colon head comma tail head_ih tail_ih =>
    exact properties_cons_lays other taken key_eq colon head comma tail head_ih tail_ih placed given
  | functionRest named opens listed inside inside_ih =>
    exact functionRest_lays named opens listed inside inside_ih placed given
  | block taken sign_eq inside closes inside_ih =>
    obtain ⟨takenPlaced, after, within⟩ := taken.placed placed
    have insidePlaced := inside.placed takenPlaced
    have insideFits := inside_ih takenPlaced fits_refl
    obtain ⟨closesPlaced, closesEnd⟩ := closes.proceeds insidePlaced
    have inner := insideFits.mono within closesEnd
    exact made_since closesPlaced rfl inner after
  | statements_skip semicolon tail tail_ih =>
    obtain ⟨skippedPlaced, skippedEnd⟩ := semicolon.proceeds placed
    have tailFits := tail_ih skippedPlaced fits_refl
    exact tailFits.mono skippedEnd (Nat.le_refl _)
  | statements_close closes => exact given
  | statements_end ends => exact given
  | statements_cons other head tail head_ih tail_ih =>
    have headPlaced := head.placed placed
    have headFits := head_ih placed given
    have tailFits := tail_ih headPlaced fits_refl
    exact headFits.append tailFits
  | statement_block opens inside inside_ih =>
    obtain ⟨laid, every⟩ := inside_ih placed given
    have block := every _ (List.mem_singleton_self _)
    exact ⟨laid, List.forall_mem_singleton.mpr block⟩
  | statement_declaration opens inside inside_ih => exact inside_ih placed given
  | statement_conditional opens inside inside_ih => exact inside_ih placed given
  | statement_loop opens inside inside_ih => exact inside_ih placed given
  | statement_expression opens inside inside_ih => exact inside_ih placed given
  | declaration taken inside ends inside_ih =>
    obtain ⟨takenPlaced, after, within⟩ := taken.placed placed
    have insidePlaced := inside.placed takenPlaced
    have insideFits := inside_ih takenPlaced fits_refl
    obtain ⟨endsPlaced, endsEnd⟩ := ends.proceeds insidePlaced
    exact made_since endsPlaced rfl (insideFits.mono within endsEnd) after
  | initializer_none other => exact given
  | initializer_some sign inner inner_ih =>
    obtain ⟨signPlaced, signEnd⟩ := sign.proceeds placed
    have innerFits := inner_ih signPlaced fits_refl
    exact innerFits.mono signEnd (Nat.le_refl _)
  | declarators_last taken name_eq value other value_ih =>
    obtain ⟨takenPlaced, after, within⟩ := taken.placed placed
    have valuePlaced := value.placed takenPlaced
    have valueFits := value_ih takenPlaced fits_refl
    have inner := valueFits.mono within (Nat.le_refl _)
    exact made_since valuePlaced rfl inner after
  | declarators_cons taken name_eq value comma tail value_ih tail_ih =>
    exact declarators_cons_lays taken name_eq value comma tail value_ih tail_ih placed given
  | alternate_none other => exact given
  | alternate_some taken word_eq inside inside_ih =>
    obtain ⟨takenPlaced, takenEnd⟩ := taken.proceeds placed
    have insideFits := inside_ih takenPlaced fits_refl
    exact insideFits.mono takenEnd (Nat.le_refl _)
  | conditional taken word_eq opens inside closes first second inside_ih first_ih second_ih =>
    exact conditional_lays taken word_eq opens inside closes first second inside_ih first_ih
      second_ih placed given
  | loop taken word_eq opens inside closes repeated inside_ih repeated_ih =>
    exact loop_lays taken word_eq opens inside closes repeated inside_ih repeated_ih placed given
  | expressionStatement inside ends inside_ih =>
    have insidePlaced := inside.placed placed
    have insideFits := inside_ih placed given
    obtain ⟨endsPlaced, endsEnd⟩ := endsExpression_proceeds ends insidePlaced
    obtain ⟨value, after, before⟩ := insideFits.upTo
    have inner := value.mono (Nat.le_refl _) (Nat.le_trans before endsEnd)
    exact made_since endsPlaced rfl inner after

theorem State.placed_ofText (text : String) :
    (State.ofStream (.ofText text)).Placed (.ofText text) := by
  obtain ⟨tokens, _, ending, _⟩ := TokenStream.ordered_ofText text
  obtain ⟨going, ends⟩ := TokenStream.ofCursor_ends (.ofText text)
  exact ⟨tokens, going, rfl, fun token ending_eq => ⟨ending token ending_eq, ends token ending_eq⟩⟩

end Grammar
end Scriptlet
