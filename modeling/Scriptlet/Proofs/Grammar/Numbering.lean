import Scriptlet.Proofs.Grammar.Complete
import Scriptlet.Proofs.Token.Tiling
import Scriptlet.Proofs.Tree.Sites

set_option autoImplicit false

/-!
The numbers of the nodes of a tree that is read from a text. They count up in the order of the
sites, so a node stands at one site only.
-/
namespace Scriptlet

/-- The number of a node. A property of an object has none. -/
def Node.number? : Node → Option Nat
  | .expression value => some value.id.index
  | .property _ => none
  | .body block => some block.info.id.index
  | .declarator name => some name.info.id.index
  | .statement value => some value.info.id.index

def numbers (sites : List Site) : List Nat :=
  sites.filterMap (·.node.number?)

@[simp]
theorem numbers_nil : numbers [] = [] :=
  rfl

@[simp]
theorem numbers_append (first second : List Site) :
    numbers (first ++ second) = numbers first ++ numbers second :=
  List.filterMap_append

@[simp]
theorem numbers_cons (site : Site) (rest : List Site) :
    numbers (site :: rest) = site.node.number?.toList ++ numbers rest := by
  unfold numbers
  cases number_eq : site.node.number? with
  | none => simp [number_eq]
  | some number => simp [number_eq]

/-- The numbers from one number to another, which comes next. -/
def countUp (first next : Nat) : List Nat :=
  List.range' first (next - first)

theorem countUp_self (first : Nat) : countUp first first = [] := by
  simp [countUp]

theorem countUp_append {first middle next : Nat} (before : first ≤ middle)
    (after : middle ≤ next) : countUp first middle ++ countUp middle next = countUp first next := by
  have start : middle = first + (middle - first) := by omega
  have total : next - first = (middle - first) + (next - middle) := by omega
  rw [countUp, countUp, countUp, total, ← List.range'_append_1, ← start]

theorem singleton_eq_countUp (first : Nat) : [first] = countUp first (first + 1) := by
  simp [countUp]

/-- Among sites without a number that comes twice, a node with a number stands at one site. -/
theorem eq_of_numbers_nodup {sites : List Site} (nodup : (numbers sites).Nodup) {one two : Site}
    (one_mem : one ∈ sites) (two_mem : two ∈ sites) {number : Nat}
    (one_eq : one.node.number? = some number) (two_eq : two.node.number? = some number) :
    one = two := by
  induction sites with
  | nil => cases one_mem
  | cons site rest inductive_hypothesis =>
    rw [numbers_cons, List.nodup_append] at nodup
    obtain ⟨_, rest_nodup, apart⟩ := nodup
    -- The first site has another number than those after it.
    have alone (first_eq : site.node.number? = some number) {other : Site} (member : other ∈ rest)
        (other_eq : other.node.number? = some number) : False := by
      have later : number ∈ numbers rest := List.mem_filterMap.mpr ⟨other, member, other_eq⟩
      exact apart number (by simp [first_eq]) number later rfl
    rcases List.mem_cons.mp one_mem with rfl | one_later
    · rcases List.mem_cons.mp two_mem with rfl | two_later
      · rfl
      · exact (alone one_eq two_later two_eq).elim
    · rcases List.mem_cons.mp two_mem with rfl | two_later
      · exact (alone two_eq one_later one_eq).elim
      · exact inductive_hypothesis rest_nodup one_later two_later

namespace Grammar

/-- The number of the next node. -/
def State.count (state : State) : Nat :=
  state.builder.nodeCount

section Small

variable {state later : State}

theorem Takes.count {token : Token} (taken : Takes state token later) :
    later.count = state.count := by
  obtain ⟨_, rfl⟩ := taken
  rfl

theorem TakesSign.count {sign : Punctuator} (taken : TakesSign state sign later) :
    later.count = state.count := by
  obtain ⟨token, taken, _⟩ := taken
  exact taken.count

theorem EndsStatement.count (ends : EndsStatement state later) : later.count = state.count := by
  rcases ends with taken | ⟨_, rfl⟩
  · exact taken.count
  · rfl

theorem endsExpression_count {inner : Expression}
    (ends : if inner.isFunction then Accepts state .semicolon later
      else EndsStatement state later) : later.count = state.count := by
  split at ends
  · rcases ends with taken | ⟨_, rfl⟩
    · exact taken.count
    · rfl
  · exact ends.count

theorem TakesName.count {name : Option String} (named : TakesName state name later) :
    later.count = state.count := by
  rcases named with ⟨token, word, taken, _⟩ | ⟨_, _, rfl⟩
  · exact taken.count
  · rfl

theorem TakesParameters.count {names : List String} (listed : TakesParameters state names later) :
    later.count = state.count := by
  induction listed with
  | last taken _ _ => exact taken.count
  | more taken _ comma _ inductive_hypothesis =>
    rw [inductive_hypothesis, comma.count, taken.count]

theorem TakesParameterList.count {names : List String}
    (listed : TakesParameterList state names later) : later.count = state.count := by
  rcases listed with ⟨closes, _⟩ | ⟨_, named, taken, closes⟩
  · exact closes.count
  · rw [closes.count, taken.count]

end Small

def Form.numbers {α : Type} (scopes : List ScopeKind) : Form α → α → List Nat
  | .expression, value => Scriptlet.numbers (value.sites scopes)
  | .sequenceRest, value => Scriptlet.numbers (expressionSites scopes value)
  | .assignment, value => Scriptlet.numbers (value.sites scopes)
  | .operation _, value => Scriptlet.numbers (value.sites scopes)
  | .operationRest _ _, value => Scriptlet.numbers (value.sites scopes)
  | .operand, value => Scriptlet.numbers (value.sites scopes)
  | .selections _, value => Scriptlet.numbers (value.sites scopes)
  | .arguments, value => Scriptlet.numbers (expressionSites scopes value)
  | .primary, value => Scriptlet.numbers (value.sites scopes)
  | .elements, value => Scriptlet.numbers (expressionSites scopes value)
  | .properties, value => Scriptlet.numbers (propertySites scopes value)
  | .functionRest _, value => Scriptlet.numbers (value.sites scopes)
  | .block, value => Scriptlet.numbers (value.sites scopes) ++ [value.info.id.index]
  | .statements _, value => Scriptlet.numbers (statementSites scopes value)
  | .statement, value => Scriptlet.numbers (value.sites scopes)
  | .declaration _, value => Scriptlet.numbers (value.sites scopes)
  | .initializer, value => Scriptlet.numbers (initSites scopes value)
  | .declarators, value => Scriptlet.numbers (declaratorSites scopes value)
  | .alternate, value => Scriptlet.numbers (alternateSites scopes value)
  | .conditional, value => Scriptlet.numbers (value.sites scopes)
  | .loop, value => Scriptlet.numbers (value.sites scopes)
  | .expressionStatement, value => Scriptlet.numbers (value.sites scopes)

def Form.givenNumbers {α : Type} (scopes : List ScopeKind) : Form α → List Nat
  | .operationRest _ left => Scriptlet.numbers (left.sites scopes)
  | .selections inner => Scriptlet.numbers (inner.sites scopes)
  | _ => []

theorem infixed_numbers (builder : Builder) (operator : InfixOperator) (left right : Expression)
    (scopes : List ScopeKind) :
    numbers ((builder.infixed operator left right).1.sites scopes) =
      numbers (left.sites scopes) ++ numbers (right.sites scopes) ++ [builder.nodeCount] := by
  cases operator <;> simp [Builder.infixed, Builder.create, Expression.sites, Node.number?,
    Expression.id, Expression.info]

theorem infixed_nodeCount (builder : Builder) (operator : InfixOperator)
    (left right : Expression) :
    (builder.infixed operator left right).2.nodeCount = builder.nodeCount + 1 := by
  cases operator <;> simp [Builder.infixed, Builder.create, Builder.nodeCount]

theorem count_push (state : State) (kind : NodeKind) :
    State.count { state with builder := ⟨state.builder.created.push kind⟩ } = state.count + 1 := by
  simp [State.count, Builder.nodeCount]

theorem nodeCount_eq (state : State) : state.builder.nodeCount = state.count :=
  rfl

/-- The nodes of what is derived are numbered from the next number on, without a gap. -/
theorem Derives.numbers_eq {α : Type} {form : Form α} {state later : State} {value : α}
    (derived : Derives form state value later) :
    state.count ≤ later.count ∧ ∀ scopes, form.numbers scopes value =
      form.givenNumbers scopes ++ countUp state.count later.count := by
  induction derived
  all_goals simp only [Form.numbers, Form.givenNumbers] at *
  all_goals
    try simp only [State.made, Builder.sequence, Builder.member, Builder.call, Builder.assignment,
      Builder.create, Builder.literal, Builder.identifier, Builder.this, Builder.object,
      Builder.array, Builder.unary, Builder.function, Builder.declarator, Builder.declaration,
      Builder.conditional, Builder.loop, Builder.expression, Builder.block, count_push,
      nodeCount_eq, Expression.sites, MemberProperty.sites, expressionSites, propertySites,
      ObjectProperty.sites, Statement.sites, alternateSites, initSites, declaratorSites,
      Declarator.sites, Block.sites, statementSites, numbers_append, numbers_cons, numbers_nil,
      Node.number?, Expression.id, Expression.info, Statement.info, Block.info, Declarator.info,
      Option.toList_some, Option.toList_none, List.append_nil, List.nil_append] at *
  -- Only the node of an operator is made by a choice between two kinds.
  case operationRest_more taken sign_eq strong argument tail argument_ih tail_ih =>
    simp only [State.count, infixed_numbers, infixed_nodeCount] at *
    grind [countUp_append, = singleton_eq_countUp, countUp_self, = State.count, → Takes.count]
  all_goals
    grind [count_push, countUp_append, = singleton_eq_countUp, countUp_self, → Takes.count,
      → TakesSign.count, → EndsStatement.count, → endsExpression_count, → TakesName.count,
      → TakesParameterList.count]

/-- A node with a number stands at one site of a program that is read. -/
theorem site_unique_of_ofText {text : String} {program : Program}
    (read_eq : Program.ofText text = .ok program) {one two : Site} (one_mem : one ∈ program.sites)
    (two_mem : two ∈ program.sites) {number : Nat} (one_eq : one.node.number? = some number)
    (two_eq : two.node.number? = some number) : one = two := by
  have lawful := TokenStream.ofCursor_ends (.ofText text)
  obtain ⟨listed, later, derived, rfl⟩ := (read_eq_ok_iff lawful.2).mp read_eq
  refine eq_of_numbers_nodup ?_ one_mem two_mem one_eq two_eq
  show (Scriptlet.numbers (statementSites [] listed)).Nodup
  have counted : Scriptlet.numbers (statementSites [] listed) = _ := derived.numbers_eq.2 []
  rw [counted]
  exact List.nodup_range'

end Grammar
end Scriptlet
