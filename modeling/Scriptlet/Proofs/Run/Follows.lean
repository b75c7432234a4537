import Scriptlet.Proofs.Run.Ordinary
import Scriptlet.Proofs.Run.Prompt
import Scriptlet.Proofs.Run.Step

set_option autoImplicit false

/-!
How a run in steps follows an evaluation: it comes to the state that gives the value or the stop,
and if the evaluation was cut short, it has as many steps left to take.
-/
namespace Scriptlet.Run

open Eval

/-- A run comes from a state to another one. -/
def Reaches (first last : State) : Prop :=
  ∃ count, first.after count = last

/-- A run is not over before a number of steps. -/
def Takes : Nat → State → Prop
  | 0, _ => True
  | count + 1, state => ∃ next, step state = some next ∧ Takes count next

theorem Reaches.refl (state : State) : Reaches state state :=
  ⟨0, rfl⟩

theorem Reaches.step {first next last : State} (next_eq : step first = some next)
    (rest : Reaches next last) : Reaches first last := by
  obtain ⟨count, reached⟩ := rest
  exact ⟨count + 1, by rw [State.after, next_eq]; exact reached⟩

theorem State.after_add (first second : Nat) (state : State) :
    state.after (first + second) = (state.after first).after second := by
  induction first generalizing state with
  | zero => rw [Nat.zero_add, State.after]
  | succ first ih => rw [Nat.succ_add, State.after, State.after, ih]

theorem State.after_succ (count : Nat) (state : State) :
    state.after (count + 1) = (Run.step (state.after count)).getD (state.after count) := by
  rw [State.after_add]
  rfl

theorem Reaches.trans {first middle last : State} (one : Reaches first middle)
    (two : Reaches middle last) : Reaches first last := by
  obtain ⟨count, rfl⟩ := one
  obtain ⟨more, rfl⟩ := two
  exact ⟨count + more, State.after_add count more first⟩

theorem State.after_of_over {state : State} (halted : Run.step state = none) (count : Nat) :
    state.after count = state := by
  induction count with
  | zero => rfl
  | succ count ih => rw [State.after, halted]; exact ih

/-- A run is over in one state only. -/
theorem Reaches.unique {first one two : State} (reaches_one : Reaches first one)
    (reaches_two : Reaches first two) (over_one : Run.step one = none)
    (over_two : Run.step two = none) : one = two := by
  obtain ⟨count_one, rfl⟩ := reaches_one
  obtain ⟨count_two, rfl⟩ := reaches_two
  calc first.after count_one
    _ = (first.after count_one).after count_two := (State.after_of_over over_one _).symm
    _ = (first.after count_two).after count_one := by
      rw [← State.after_add, Nat.add_comm, State.after_add]
    _ = first.after count_two := State.after_of_over over_two _

theorem Takes.of_succ {count : Nat} {state : State} (takes : Takes (count + 1) state) :
    Takes count state := by
  induction count generalizing state with
  | zero => trivial
  | succ count ih =>
    obtain ⟨next, next_eq, rest⟩ := takes
    exact ⟨next, next_eq, ih rest⟩

/-- What comes before only adds steps. -/
theorem Takes.of_reaches {count : Nat} {first last : State} (reached : Reaches first last)
    (takes : Takes count last) : Takes count first := by
  obtain ⟨steps, rfl⟩ := reached
  induction steps generalizing first with
  | zero => exact takes
  | succ steps ih =>
    rw [State.after] at takes
    cases next_eq : Run.step first with
    | none =>
      rw [next_eq] at takes
      exact ih takes
    | some next =>
      rw [next_eq] at takes
      exact Takes.of_succ ⟨next, next_eq, ih takes⟩

theorem Takes.isSome_step {count : Nat} {state : State} (takes : Takes (count + 1) state) :
    (Run.step (state.after count)).isSome := by
  induction count generalizing state with
  | zero =>
    obtain ⟨next, next_eq, _⟩ := takes
    rw [State.after, next_eq]
    rfl
  | succ count ih =>
    obtain ⟨next, next_eq, rest⟩ := takes
    rw [State.after, next_eq]
    exact ih rest

/-- A run follows a result: it gives the value, or stops likewise. If the evaluation used up its
steps, the run is not over before as many steps. -/
def Follows {α : Type} (first : State) (stack : List Pending) (answer : α → Answer)
    (steps : Nat) : EStateM.Result Stop Machine α → Prop
  | .ok value machine => Reaches first ⟨.give (answer value), stack, machine⟩
  | .error .exhausted _ => Takes steps first
  | .error stop machine => Reaches first ⟨.stop stop, stack, machine⟩

section Follows

variable {α β : Type} {first next : State} {stack : List Pending} {answer : α → Answer}
  {steps : Nat} {result : EStateM.Result Stop Machine α}

theorem Follows.of_reaches (reached : Reaches first next)
    (follows : Follows next stack answer steps result) :
    Follows first stack answer steps result := by
  unfold Follows at follows ⊢
  split at follows
  · exact reached.trans follows
  · exact follows.of_reaches reached
  · exact reached.trans follows

theorem Follows.step (next_eq : Run.step first = some next)
    (follows : Follows next stack answer steps result) : Follows first stack answer steps result :=
  follows.of_reaches (.step next_eq (.refl next))

/-- The first step of an evaluation with one step more. -/
theorem Follows.start (next_eq : Run.step first = some next)
    (follows : Follows next stack answer steps result) :
    Follows first stack answer (steps + 1) result := by
  unfold Follows at follows ⊢
  split at follows
  · exact .step next_eq follows
  · exact ⟨next, next_eq, follows⟩
  · exact .step next_eq follows

/-- A stop passes by what waits only for an answer. -/
theorem Follows.interrupted {pending : Pending} {partAnswer : β → Answer} {stop : Stop}
    {machine : Machine} (passes : ∀ stop, pending.interrupt stop = .stop stop)
    (follows : Follows first (pending :: stack) partAnswer steps (.error stop machine)) :
    Follows first stack answer steps (.error stop (pending.leave machine)) := by
  have passed : Run.step ⟨.stop stop, pending :: stack, machine⟩ =
      some ⟨.stop stop, stack, pending.leave machine⟩ := by rw [Run.step, passes]
  cases stop with
  | exhausted => exact follows
  | error error => exact Reaches.trans follows (.step passed (.refl _))
  | freeSlot access handle => exact Reaches.trans follows (.step passed (.refl _))

/-- A run that stops follows the evaluation that stops. -/
theorem follows_stop {stop : Stop} {machine : Machine} (uncut : stop ≠ .exhausted) :
    Follows ⟨.stop stop, stack, machine⟩ stack answer steps (.error stop machine) := by
  cases stop with
  | exhausted => exact absurd rfl uncut
  | error error => exact .refl _
  | freeSlot access handle => exact .refl _

/-- A part is evaluated first, while something waits that changes the machine when it is left. -/
theorem Follows.finishedPart {part : Eval β} {rest : β → Eval α} {finish : Machine → Machine}
    {machine : Machine} {pending : Pending} {partAnswer : β → Answer}
    (passes : ∀ stop, pending.interrupt stop = .stop stop)
    (leaves : ∀ after, pending.leave after = finish after)
    (follows : Follows first (pending :: stack) partAnswer steps (part machine))
    (goes : ∀ value after, Follows ⟨.give (partAnswer value), pending :: stack, after⟩ stack answer
      steps (rest value (finish after))) :
    Follows first stack answer steps ((afterwards finish part >>= rest) machine) := by
  simp only [bind, EStateM.bind, afterwards]
  cases outcome : part machine with
  | ok value after =>
    rw [outcome] at follows
    exact (goes value after).of_reaches follows
  | error stop after =>
    rw [outcome] at follows
    simpa only [leaves] using follows.interrupted passes

theorem afterwards_id (action : Eval α) : afterwards id action = action := by
  funext machine
  unfold afterwards
  cases action machine <;> rfl

/-- A part is evaluated first, while something waits for its value. -/
theorem Follows.part {part : Eval β} {rest : β → Eval α} {machine : Machine} {pending : Pending}
    {partAnswer : β → Answer} (passes : ∀ stop, pending.interrupt stop = .stop stop)
    (leaves : ∀ after, pending.leave after = after)
    (follows : Follows first (pending :: stack) partAnswer steps (part machine))
    (goes : ∀ value after, Follows ⟨.give (partAnswer value), pending :: stack, after⟩ stack answer
      steps (rest value after)) :
    Follows first stack answer steps ((part >>= rest) machine) := by
  rw [← afterwards_id part]
  exact .finishedPart passes leaves follows goes

def leaving {γ : Type} (pending : Pending) :
    EStateM.Result Stop Machine γ → EStateM.Result Stop Machine γ
  | .ok value machine => .ok value (pending.leave machine)
  | .error stop machine => .error stop (pending.leave machine)

theorem releasing_eq_leaving (mark : Mark) (action : Eval α) (machine : Machine) :
    releasing mark action machine = leaving (.release mark) (action machine) :=
  rfl

theorem inScope_eq_leaving {parent scope : ScopeId} {kind : ScopeKind} {this : Option Handle}
    {machine opened : Machine} (opens : openScope parent kind this machine = .ok scope opened)
    (action : ScopeId → Eval α) :
    inScope parent kind this action machine = leaving (.close scope) (action scope opened) := by
  cases opens
  rfl

/-- What waits only to be left passes on answers and stops. -/
theorem Follows.leaving {pending : Pending} (passes : ∀ stop, pending.interrupt stop = .stop stop)
    (gives : ∀ answer, proceed pending answer = give answer)
    (follows : Follows first (pending :: stack) answer steps result) :
    Follows first stack answer steps (leaving pending result) := by
  cases result with
  | ok value machine =>
    refine Reaches.trans follows (.step ?_ (.refl _))
    rw [Run.step, gives]
    rfl
  | error stop machine => exact follows.interrupted passes

theorem Follows.releasing {mark : Mark} {action : Eval α} {machine : Machine}
    (follows : Follows first (.release mark :: stack) answer steps (action machine)) :
    Follows first stack answer steps (releasing mark action machine) := by
  rw [releasing_eq_leaving]
  exact .leaving (fun _ => rfl) (fun _ => rfl) follows

/-- The answer is the same if only the value is put differently. -/
theorem Follows.pure {action : Eval β} {change : β → α} {machine : Machine}
    (follows : Follows first stack (fun value => answer (change value)) steps (action machine)) :
    Follows first stack answer steps ((action >>= fun value => pure (change value)) machine) := by
  simp only [bind, EStateM.bind]
  cases outcome : action machine with
  | ok value after =>
    rw [outcome] at follows
    exact follows
  | error stop after =>
    rw [outcome] at follows
    cases stop <;> exact follows

theorem tryCatch_of_ok {action : Eval α} {value : α} {machine after : Machine}
    (outcome : action machine = .ok value after) (handler : Stop → Eval α) :
    (tryCatch action handler : Eval α) machine = .ok value after := by
  show EStateM.tryCatch action handler machine = _
  delta EStateM.tryCatch
  rw [outcome]

theorem tryCatch_of_error {action : Eval α} {stop : Stop} {machine after : Machine}
    (outcome : action machine = .error stop after) (handler : Stop → Eval α) :
    (tryCatch action handler : Eval α) machine = handler stop after := by
  show EStateM.tryCatch action handler machine = _
  delta EStateM.tryCatch
  rw [outcome]
  rfl

theorem bind_at (action : Eval α) (rest : α → Eval β) (machine : Machine) :
    (action >>= rest) machine =
      match action machine with
      | .ok value after => rest value after
      | .error stop after => .error stop after := by
  simp only [bind, EStateM.bind]
  cases action machine <;> rfl

theorem map_at (change : α → β) (action : Eval α) (machine : Machine) :
    (change <$> action) machine =
      match action machine with
      | .ok value after => .ok (change value) after
      | .error stop after => .error stop after := by
  rw [map_eq_pure_bind, bind_at]
  rfl

/-- Tries a call from `apply`: its handle, or its error as a result. Other stops pass. -/
def attempt (action : Eval Handle) : Eval NativeResult :=
  tryCatch (.ok <$> action) fun
    | .error error => return .error error.summary
    | stop => throw stop

theorem attempt_at (action : Eval Handle) (machine : Machine) :
    attempt action machine =
      match action machine with
      | .ok handle after => .ok (.ok handle) after
      | .error (.error error) after => .ok (.error error.summary) after
      | .error stop after => .error stop after := by
  have mapped := map_at (Except.ok : Handle → NativeResult) action machine
  unfold attempt
  cases outcome : action machine with
  | ok handle after =>
    rw [outcome] at mapped
    exact tryCatch_of_ok mapped _
  | error stop after =>
    rw [outcome] at mapped
    rw [tryCatch_of_error mapped]
    cases stop <;> rfl

theorem Follows.attempt {action : Eval Handle} {machine : Machine}
    (follows : Follows first (.attempt :: stack) .handle steps (action machine)) :
    Follows first stack .native steps (attempt action machine) := by
  rw [attempt_at]
  cases outcome : action machine with
  | ok handle after =>
    rw [outcome] at follows
    exact follows.trans (.step rfl (.refl _))
  | error stop after =>
    rw [outcome] at follows
    cases stop with
    | exhausted => exact follows
    | error error => exact Reaches.trans follows (.step rfl (.refl _))
    | freeSlot access handle => exact Reaches.trans follows (.step rfl (.refl _))

/-- An action without steps of its own comes first, in both. -/
theorem Follows.action {action : Eval β} (prompt : Prompt action) {machine : Machine}
    {work : β → Eval Next} {rest : β → Eval α}
    (goes : ∀ value after, action machine = .ok value after →
      Follows (settle stack (work value after)) stack answer steps (rest value after)) :
    Follows (settle stack ((action >>= work) machine)) stack answer steps
      ((action >>= rest) machine) := by
  simp only [bind, EStateM.bind]
  cases outcome : action machine with
  | ok value after => exact goes value after outcome
  | error stop after => exact follows_stop (prompt.uncut outcome)

/-- An action without steps of its own gives the value. -/
theorem Follows.last {action : Eval α} (prompt : Prompt action) {machine : Machine} :
    Follows (settle stack ((action >>= fun value => give (answer value)) machine)) stack answer
      steps (action machine) := by
  simp only [bind, EStateM.bind]
  cases outcome : action machine with
  | ok value after => exact .refl _
  | error stop after => exact follows_stop (prompt.uncut outcome)

end Follows

end Scriptlet.Run
