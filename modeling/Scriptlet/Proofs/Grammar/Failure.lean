import Scriptlet.Proofs.Grammar.Placing

set_option autoImplicit false

/-!
How the small rules fail: with the lexical error that ends the stream, or with an error whose range
is before it. `FailsIn` is put together along the binds of a rule, and each small rule comes with
what is known of the state after it.
-/
namespace Scriptlet

/-- The range that an error names. -/
def SourceError.span : SourceError → Span
  | .lexical error => error.span
  | .unexpectedToken _ _ span => span
  | .missingSemicolon _ offset => .point offset
  | .invalidTarget _ span => span
  | .unsupportedKeyword _ span => span

namespace Grammar

/-- Whether a failure is the error that a stream ends with, or is about a part of the text before
its limit. -/
def Failure.FoundIn (stream : TokenStream) : Failure → Prop
  | .rejected (.lexical error) => stream.ending = .error error
  | .rejected error => error.span.start ≤ error.span.stop ∧ error.span.stop ≤ stream.limit
  | .exhausted => False

/-- Whether a rule that fails does so on account of the text. -/
def FailsIn {α : Type} (stream : TokenStream) (rule : Rule α) (state : State) : Prop :=
  ∀ failure later, rule state = .error failure later → failure.FoundIn stream

/-- Reading has come to a state in which at least so many tokens fewer are left. -/
structure Passes (stream : TokenStream) (state : State) (count : Nat) (later : State) : Prop where
  placed : later.Placed stream
  shortens : Shortens state count later

section Outcomes

variable {α β : Type} {stream : TokenStream} {state : State}

theorem Passes.trans {between later : State} {first second : Nat}
    (front : Passes stream state first between) (back : Passes stream between second later) :
    Passes stream state (first + second) later :=
  ⟨back.placed, front.shortens.trans back.shortens⟩

theorem Passes.made {later : State} {count : Nat} {node : Builder → α × Builder}
    (passes : Passes stream state count later) : Passes stream state count (later.made node).2 :=
  ⟨passes.placed.made, shortens_made_iff.mpr passes.shortens⟩

theorem Passes.refl (placed : state.Placed stream) : Passes stream state 0 state :=
  ⟨placed, .refl placed.closed⟩

theorem Takes.passes {token : Token} {later : State} (taken : Takes state token later)
    (placed : state.Placed stream) :
    Passes stream state 0 later ∧ (token.isEnd = false → Passes stream state 1 later) := by
  have later_placed := (taken.proceeds placed).1
  obtain ⟨maybe, going⟩ := taken.shortens placed.closed
  exact ⟨⟨later_placed, maybe⟩, fun other => ⟨later_placed, going other⟩⟩

theorem TakesSign.passes {sign : Punctuator} {later : State} (taken : TakesSign state sign later)
    (placed : state.Placed stream) : Passes stream state 1 later :=
  ⟨(taken.proceeds placed).1, taken.shortens placed.closed⟩

theorem Derives.passes {form : Form α} {value : α} {later : State}
    (derived : Derives form state value later) (placed : state.Placed stream) :
    Passes stream state form.least later :=
  ⟨derived.placed placed, derived.shortens placed.closed⟩

theorem FailsIn.bind {rule : Rule α} {next : α → Rule β} (first : FailsIn stream rule state)
    (rest : ∀ value later, rule state = .ok value later → FailsIn stream (next value) later) :
    FailsIn stream (rule >>= next) state := by
  intro failure later error_eq
  change EStateM.bind rule next state = .error failure later at error_eq
  unfold EStateM.bind at error_eq
  cases rule_eq : rule state with
  | ok value between =>
    rw [rule_eq] at error_eq
    exact rest value between rule_eq failure later error_eq
  | error found between =>
    rw [rule_eq] at error_eq
    cases error_eq
    exact first failure later rule_eq

theorem failsIn_of_ok {rule : Rule α} {value : α} {later : State}
    (read_eq : rule state = .ok value later) : FailsIn stream rule state := by
  intro failure last error_eq
  rw [read_eq] at error_eq
  cases error_eq

theorem failsIn_pure {value : α} : FailsIn stream (pure value) state :=
  failsIn_of_ok rfl

theorem failsIn_make {node : Builder → α × Builder} : FailsIn stream (make node) state :=
  failsIn_of_ok rfl

theorem FailsIn.map {rule : Rule α} {transform : α → β} (failsIn : FailsIn stream rule state) :
    FailsIn stream (transform <$> rule) state := by
  intro failure later error_eq
  change EStateM.map transform rule state = .error failure later at error_eq
  unfold EStateM.map at error_eq
  cases rule_eq : rule state with
  | ok value between =>
    rw [rule_eq] at error_eq
    cases error_eq
  | error found between =>
    rw [rule_eq] at error_eq
    cases error_eq
    exact failsIn failure later rule_eq

theorem FailsIn.discarded {rule : Rule α} (failsIn : FailsIn stream rule state) :
    FailsIn stream (discard rule) state := by
  rw [Functor.discard, Functor.mapConst]
  exact failsIn.map

theorem failsIn_reject {error : SourceError} (found : (Failure.rejected error).FoundIn stream) :
    FailsIn stream (reject error : Rule α) state := by
  intro failure later error_eq
  cases error_eq
  exact found

/-- What is said of the next token is said of a part of the text. -/
theorem failsIn_unexpected {before : State} {token : Token} {expected : Expectation}
    (placed : before.Placed stream) (next_eq : before.next = .ok token) :
    FailsIn stream (unexpected expected token : Rule α) state := by
  obtain ⟨_, forward, inside, _⟩ := placed.next next_eq
  exact failsIn_reject ⟨forward, inside⟩

theorem State.Placed.next_error (placed : state.Placed stream) {error : LexicalError}
    (next_eq : state.next = .error error) : stream.ending = .error error := by
  unfold State.next at next_eq
  split at next_eq
  · cases next_eq
  · rw [← placed.ending]
    exact next_eq

/-- A rule that needs a token fails only where none comes. -/
theorem failsIn_of_next {rule : Rule Token} (placed : state.Placed stream)
    (ok : ∀ token, state.next = .ok token → ∃ later, rule state = .ok token later)
    (missing : ∀ error, state.next = .error error →
      rule state = .error (.rejected (.lexical error)) state) : FailsIn stream rule state := by
  cases next_eq : state.next with
  | ok token =>
    obtain ⟨later, read_eq⟩ := ok token next_eq
    exact failsIn_of_ok read_eq
  | error error =>
    intro failure later error_eq
    rw [missing error next_eq] at error_eq
    cases error_eq
    exact placed.next_error next_eq

theorem failsIn_peek (placed : state.Placed stream) : FailsIn stream peek state := by
  refine failsIn_of_next placed (fun token next_eq => ⟨state, ?_⟩) fun error next_eq => ?_
  · exact peek_ok.mpr ⟨next_eq, rfl⟩
  · simp only [peek, next_eq]

theorem failsIn_take (placed : state.Placed stream) : FailsIn stream take state := by
  refine failsIn_of_next placed (fun token next_eq => ⟨state.after token, ?_⟩)
    fun error next_eq => ?_
  · exact take_ok.mpr ⟨next_eq, rfl⟩
  · simp only [take, next_eq]

theorem FailsIn.peek_bind {next : Token → Rule β} (placed : state.Placed stream)
    (rest : ∀ token, state.next = .ok token → FailsIn stream (next token) state) :
    FailsIn stream (peek >>= next) state := by
  refine (failsIn_peek placed).bind fun token later peek_eq => ?_
  obtain ⟨next_eq, rfl⟩ := peek_ok.mp peek_eq
  exact rest token next_eq

theorem FailsIn.take_bind {next : Token → Rule β} (placed : state.Placed stream)
    (rest : ∀ token later, Takes state token later → FailsIn stream (next token) later) :
    FailsIn stream (take >>= next) state :=
  (failsIn_take placed).bind fun token later take_eq => rest token later (take_ok.mp take_eq)

/-- A token is taken that was looked at before. -/
theorem FailsIn.discard_take_bind {token : Token} {next : Unit → Rule β}
    (placed : state.Placed stream) (next_eq : state.next = .ok token) (going : token.isEnd = false)
    (rest : ∀ later, Passes stream state 1 later → FailsIn stream (next ()) later) :
    FailsIn stream (discard take >>= next) state := by
  refine (failsIn_take placed).discarded.bind fun _ later take_eq => ?_
  have taken := (discard_take_ok next_eq).mp take_eq
  exact rest later ((taken.passes placed).2 going)

theorem FailsIn.make_bind {node : Builder → α × Builder} {next : α → Rule β}
    (rest : FailsIn stream (next (state.made node).1) (state.made node).2) :
    FailsIn stream (make node >>= next) state := by
  refine failsIn_make.bind fun value later make_eq => ?_
  have made_eq := make_ok.mp make_eq
  rwa [made_eq] at rest

theorem FailsIn.spanFrom_bind {start : Nat} {next : Span → Rule β}
    (rest : FailsIn stream (next (state.spanSince start)) state) :
    FailsIn stream (spanFrom start >>= next) state := by
  have span : FailsIn stream (spanFrom start) state := failsIn_of_ok (spanFrom_ok.mpr ⟨rfl, rfl⟩)
  refine span.bind fun span later span_eq => ?_
  obtain ⟨rfl, rfl⟩ := spanFrom_ok.mp span_eq
  exact rest

theorem failsIn_isAt {sign : Punctuator} (placed : state.Placed stream) :
    FailsIn stream (isAt sign) state :=
  .peek_bind placed fun _ _ => failsIn_pure

theorem failsIn_accept {sign : Punctuator} (placed : state.Placed stream) :
    FailsIn stream (accept sign) state := by
  unfold accept
  refine (failsIn_isAt placed).bind fun found later isAt_eq => ?_
  obtain ⟨_, rfl⟩ := isAt_ok.mp isAt_eq
  split
  · exact (failsIn_take placed).discarded.bind fun _ _ _ => failsIn_pure
  · exact failsIn_pure

/-- A sign that may be there has been passed, or is not there. -/
theorem FailsIn.accept_bind {sign : Punctuator} {next : Bool → Rule β}
    (placed : state.Placed stream)
    (found : ∀ later, Passes stream state 1 later → FailsIn stream (next true) later)
    (other : FailsIn stream (next false) state) : FailsIn stream (accept sign >>= next) state := by
  refine (failsIn_accept placed).bind fun answer later accept_eq => ?_
  rcases accept_ok.mp accept_eq with ⟨rfl, taken⟩ | ⟨rfl, _, rfl⟩
  · exact found later (taken.passes placed)
  · exact other

theorem failsIn_expect {sign : Punctuator} (placed : state.Placed stream) :
    FailsIn stream (expect sign) state := by
  refine .take_bind placed fun token later taken => ?_
  split
  · exact failsIn_pure
  · exact failsIn_unexpected placed taken.1

theorem FailsIn.expect_bind {sign : Punctuator} {next : Token → Rule β}
    (placed : state.Placed stream)
    (rest : ∀ token later, Passes stream state 1 later → FailsIn stream (next token) later) :
    FailsIn stream (expect sign >>= next) state := by
  refine (failsIn_expect placed).bind fun token later expect_eq => ?_
  obtain ⟨taken, sign_eq⟩ := expect_ok.mp expect_eq
  exact rest token later ((taken.passes placed).2 (isEnd_of_punctuator? sign_eq))

theorem FailsIn.discard_expect_bind {sign : Punctuator} {next : Unit → Rule β}
    (placed : state.Placed stream)
    (rest : ∀ later, Passes stream state 1 later → FailsIn stream (next ()) later) :
    FailsIn stream (discard (expect sign) >>= next) state := by
  refine (failsIn_expect placed).discarded.bind fun _ later expect_eq => ?_
  exact rest later ((discard_expect_ok.mp expect_eq).passes placed)

theorem FailsIn.expectKeyword_bind {word : Keyword} {next : Token → Rule β}
    (placed : state.Placed stream)
    (rest : ∀ token later, Passes stream state 1 later → FailsIn stream (next token) later) :
    FailsIn stream (expectKeyword word >>= next) state := by
  have found : FailsIn stream (expectKeyword word) state := by
    refine .take_bind placed fun token later taken => ?_
    split
    · exact failsIn_pure
    · exact failsIn_unexpected placed taken.1
  refine found.bind fun token later expect_eq => ?_
  obtain ⟨taken, word_eq⟩ := expectKeyword_ok.mp expect_eq
  exact rest token later ((taken.passes placed).2 (isEnd_of_keyword? word_eq))

theorem failsIn_expectIdentifier (placed : state.Placed stream) :
    FailsIn stream expectIdentifier state := by
  refine .take_bind placed fun token later taken => ?_
  split
  · exact failsIn_pure
  · exact failsIn_unexpected placed taken.1

theorem FailsIn.expectIdentifier_bind {next : String × Span → Rule β}
    (placed : state.Placed stream)
    (rest : ∀ named later, Passes stream state 1 later → FailsIn stream (next named) later) :
    FailsIn stream (expectIdentifier >>= next) state := by
  refine (failsIn_expectIdentifier placed).bind fun named later expect_eq => ?_
  obtain ⟨token, taken, name_eq, _⟩ := expectIdentifier_ok.mp expect_eq
  exact rest named later ((taken.passes placed).2 (isEnd_of_identifier? name_eq))

theorem FailsIn.expectPropertyName_bind {next : String → Rule β} (placed : state.Placed stream)
    (rest : ∀ name later, Passes stream state 0 later → FailsIn stream (next name) later) :
    FailsIn stream (expectPropertyName >>= next) state := by
  have found : FailsIn stream expectPropertyName state := by
    refine .take_bind placed fun token later taken => ?_
    split
    · exact failsIn_pure
    · exact failsIn_unexpected placed taken.1
  refine found.bind fun name later expect_eq => ?_
  obtain ⟨token, taken, _⟩ := expectPropertyName_ok.mp expect_eq
  exact rest name later (taken.passes placed).1

theorem failsIn_endStatement (placed : state.Placed stream) :
    FailsIn stream endStatement state := by
  refine .accept_bind placed (fun later _ => failsIn_pure) ?_
  have looked : FailsIn stream get state := failsIn_of_ok (get_ok.mpr ⟨rfl, rfl⟩)
  refine looked.bind fun same later get_eq => ?_
  obtain ⟨rfl, rfl⟩ := get_ok.mp get_eq
  refine .peek_bind placed fun token next_eq => ?_
  split
  · exact failsIn_pure
  · exact failsIn_reject ⟨Nat.le_refl _, placed.le⟩

/-- The last part of a rule that makes a node of its own. -/
theorem failsIn_closing {start : Nat} {node : Span → Builder → α × Builder} :
    FailsIn stream (spanFrom start >>= fun span => make (node span)) state :=
  .spanFrom_bind failsIn_make

theorem failsIn_functionName (placed : state.Placed stream) :
    FailsIn stream functionName state := by
  refine .peek_bind placed fun token _ => ?_
  split
  · exact (failsIn_expectIdentifier placed).map
  · exact failsIn_pure

theorem failsIn_endExpression {inner : Expression} (placed : state.Placed stream) :
    FailsIn stream (endExpression inner) state := by
  unfold endExpression
  split
  · exact (failsIn_accept placed).discarded
  · exact failsIn_endStatement placed

end Outcomes

end Grammar
end Scriptlet
