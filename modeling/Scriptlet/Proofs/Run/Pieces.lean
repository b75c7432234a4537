import Scriptlet.Proofs.Run.Ending

set_option autoImplicit false

/-!
Running in pieces. Two programs executed one after the other come to the same ending as one program
with the statements of both. In between, the value of the first one gets a slot of its own, and it
is not held any longer; apart from a collection, that makes no difference. Either run executes the
same statements, each on its own, and these are beside each other.
-/
namespace Scriptlet.Run

open Eval

/-- Executes two programs one after the other. The second one is not executed if the first one
fails. -/
def inPieces (steps more : Nat) (first second : Program) : Eval Handle := do
  let _ ← executeProgram steps first ScopeChain.global
  executeProgram more second ScopeChain.global

/-- Two programs executed one after the other, with enough steps allowed, come to an ending. -/
def EndsInPieces (first second : Program) (machine : Machine) (ending : Ending) : Prop :=
  ∃ steps more, ending? (inPieces steps more first second machine) = some ending

theorem reaches_ok_iff {program : Program} {machine after : Machine} {handle : Handle} :
    Reaches (launch program machine) (.final (.ok handle after)) ↔
      ∃ steps, executeProgram steps program ScopeChain.global machine = .ok handle after :=
  (Entry.program program ScopeChain.global).reaches_handle_iff machine handle after

theorem endsInPieces_iff {first second : Program} {machine : Machine} {ending : Ending} :
    EndsInPieces first second machine ending ↔
      (∃ handle after, Reaches (launch first machine) (.final (.ok handle after)) ∧
        EndsIn second after ending) ∨
      EndsIn first machine ending ∧ ∃ error, ending.outcome = .error error := by
  constructor
  · rintro ⟨steps, more, seen⟩
    simp only [inPieces, Bind.bind, EStateM.bind] at seen
    cases outcome : executeProgram steps first ScopeChain.global machine with
    | ok handle after =>
      rw [outcome] at seen
      exact .inl ⟨handle, after, reaches_ok_iff.mpr ⟨steps, outcome⟩, more, seen⟩
    | error stop after =>
      rw [outcome] at seen
      refine .inr ⟨⟨steps, by rw [outcome]; exact seen⟩, ?_⟩
      cases stop <;> cases seen
      exact ⟨_, rfl⟩
  · rintro (⟨handle, after, reached, more, seen⟩ | ⟨⟨steps, seen⟩, error, outcome_eq⟩)
    · obtain ⟨steps, outcome⟩ := reaches_ok_iff.mp reached
      refine ⟨steps, more, ?_⟩
      simp only [inPieces, Bind.bind, EStateM.bind, outcome]
      exact seen
    · refine ⟨steps, 0, ?_⟩
      simp only [inPieces, Bind.bind, EStateM.bind]
      cases outcome : executeProgram steps first ScopeChain.global machine with
      | ok handle after =>
        rw [outcome] at seen
        cases seen
        cases outcome_eq
      | error stop after =>
        rw [outcome] at seen
        exact seen

section Above

def State.above (base : List Pending) (state : State) : State :=
  ⟨state.control, state.stack ++ base, state.machine⟩

variable {state next : State} (base : List Pending)

/-- A step does not look at what is pending further out. -/
theorem step_above (next_eq : step state = some next) :
    step (state.above base) = some (next.above base) := by
  have settles (stack : List Pending) (result : EStateM.Result Stop Machine Next) :
      settle (stack ++ base) result = (settle stack result).above base := by
    cases result with
    | ok next machine => simp [settle, State.above]
    | error stop machine => rfl
  obtain ⟨control, stack, machine⟩ := state
  cases control with
  | run task =>
    cases next_eq
    exact congrArg some (settles stack _)
  | give answer =>
    cases stack with
    | nil => cases next_eq
    | cons pending stack =>
      cases next_eq
      exact congrArg some (settles stack _)
  | stop stop =>
    cases stack with
    | nil => cases next_eq
    | cons pending stack =>
      cases next_eq
      rfl

theorem reaches_above {last : State} (reached : Reaches state last) :
    Reaches (state.above base) (last.above base) := by
  obtain ⟨count, rfl⟩ := reached
  induction count generalizing state with
  | zero => exact .refl _
  | succ count ih =>
    rw [State.after]
    cases next_eq : step state with
    | none =>
      rw [Option.getD_none, State.after_of_over next_eq]
      exact .refl _
    | some next => exact .step (step_above base next_eq) ih

theorem not_halts_above (endless : ¬ Halts state) : ¬ Halts (state.above base) := by
  have going (count : Nat) : ∃ next, step (state.after count) = some next := by
    cases next_eq : step (state.after count) with
    | none => exact absurd ⟨_, ⟨count, rfl⟩, next_eq⟩ endless
    | some next => exact ⟨next, rfl⟩
  have above (count : Nat) : (state.above base).after count = (state.after count).above base := by
    induction count with
    | zero => rfl
    | succ count ih =>
      obtain ⟨next, next_eq⟩ := going count
      rw [State.after_succ, State.after_succ, ih, next_eq, step_above base next_eq]
      rfl
  rintro ⟨last, ⟨count, rfl⟩, ended⟩
  obtain ⟨next, next_eq⟩ := going count
  rw [above, step_above base next_eq] at ended
  cases ended

theorem callsCollect_above (state : State) :
    (state.above base).callsCollect = state.callsCollect := by
  obtain ⟨control, stack, machine⟩ := state
  cases control with
  | run task =>
    cases task with
    | native operation arguments => cases operation <;> rfl
    | _ => rfl
  | _ => rfl

theorem State.Tame.of_above (tame : (state.above base).Tame) : state.Tame := by
  intro count
  obtain ⟨more, reached⟩ := reaches_above base ⟨count, rfl⟩
  have kept := tame more
  rwa [reached, callsCollect_above] at kept

end Above

/-- The last one of the values of some statements is given, and others are still to be executed. -/
def remaining (statements : List Statement) (completion value : Option Handle)
    (machine : Machine) : State :=
  ⟨.give (.completion value), [.moreStatements statements ScopeChain.global ⟨0⟩ completion,
    .release ⟨0⟩, .program ⟨0⟩], machine⟩

/-- What is done for a statement, apart from what comes after it. -/
def executing (statement : Statement) (machine : Machine) : State :=
  ⟨.run (.nextStatement statement ScopeChain.global), [], machine⟩

/-- A value that has been given is the only temporary root then. -/
def renewed (value : Option Handle) (machine : Machine) : Machine :=
  value.elim machine fun handle => { machine with roots := [handle] }

/-- A machine when a program is over. -/
def cleared (machine : Machine) : Machine :=
  { machine with roots := [] }.recordUsage

theorem release_zero (machine : Machine) : machine.release ⟨0⟩ = { machine with roots := [] } := by
  simp [Machine.release, Mark.cut]

theorem step_remaining (statement : Statement) (statements : List Statement)
    (completion value : Option Handle) (machine : Machine) :
    step (remaining (statement :: statements) completion value machine) =
      some ((executing statement (renewed value machine)).above
        [.moreStatements statements ScopeChain.global ⟨0⟩ (value <|> completion), .release ⟨0⟩,
          .program ⟨0⟩]) := by
  cases value with
  | none => rfl
  | some handle =>
    have same : renewed (some handle) machine =
        { machine.release ⟨0⟩ with roots := handle :: (machine.release ⟨0⟩).roots } := by
      rw [release_zero]
      rfl
    rw [same]
    rfl

theorem release_twice (machine : Machine) :
    (machine.release ⟨0⟩).release ⟨0⟩ = { machine with roots := [] } := by
  rw [release_zero, release_zero]

/-- When no statement is left, the program gives the last value that there was, if any. -/
theorem reaches_final_remaining (completion value : Option Handle) (machine : Machine) :
    Reaches (remaining [] completion value machine)
      (.final (orUndefined (value <|> completion) (cleared machine))) := by
  have given (machine : Machine) (completion : Option Handle) :
      Reaches ⟨.give (.completion completion), [.release ⟨0⟩, .program ⟨0⟩], machine⟩
        (.final (orUndefined completion (cleared machine))) := by
    refine ⟨2, ?_⟩
    rw [cleared, ← release_twice]
    cases completion <;> rfl
  cases value with
  | none => exact .step rfl (given machine completion)
  | some handle =>
    exact .step rfl (given { machine.release ⟨0⟩ with
      roots := handle :: (machine.release ⟨0⟩).roots } (some handle))

/-- When a statement stops, so does the program. -/
theorem reaches_final_stop (stop : Stop) (statements : List Statement)
    (completion : Option Handle) (machine : Machine) :
    Reaches ⟨.stop stop, [.moreStatements statements ScopeChain.global ⟨0⟩ completion,
        .release ⟨0⟩, .program ⟨0⟩], machine⟩
      (.final (.error stop (cleared machine))) := by
  refine ⟨3, ?_⟩
  rw [cleared, ← release_twice]
  rfl

theorem visit_eq (info : NodeInfo) (kind : NodeKind) (machine : Machine) :
    ∃ events, visit info kind machine = .ok () { machine with events } := by
  show ∃ events, EStateM.Result.ok () (if machine.config.trace then
    machine.record (.evaluating info.id kind info.span.start) else machine) = _
  unfold Machine.record
  by_cases traced : machine.config.trace
  · by_cases observed : machine.observed
    · exact ⟨machine.events.push _, by rw [if_pos traced, if_pos observed]⟩
    · exact ⟨machine.events, by rw [if_pos traced, if_neg observed]⟩
  · exact ⟨machine.events, by rw [if_neg traced]⟩

/-- A program begins with all its statements, and only tells of that. -/
theorem exists_reaches_remaining (program : Program) {machine : Machine}
    (rootless : machine.roots = []) :
    ∃ events, Reaches (launch program machine)
      (remaining program.body.statements none none { machine with events }) := by
  obtain ⟨first, first_eq⟩ := visit_eq ⟨program.id, ⟨0, 0⟩⟩ .program machine
  obtain ⟨second, second_eq⟩ := visit_eq ⟨program.body.id, ⟨0, 0⟩⟩ .body
    { machine with events := first }
  let after : Machine := { machine with events := second }
  have none_there : (⟨machine.roots.length⟩ : Mark) = ⟨0⟩ := by rw [rootless]; rfl
  have began : step (launch program machine) = some
      ⟨.run (.statements program.body.statements ScopeChain.global), [.program ⟨0⟩], after⟩ := by
    show some (settle [] ((visit ⟨program.id, ⟨0, 0⟩⟩ .program >>= fun _ =>
      visit ⟨program.body.id, ⟨0, 0⟩⟩ .body >>= fun _ =>
        goOn (.statements program.body.statements ScopeChain.global)
          [.program ⟨machine.roots.length⟩]) machine)) = _
    rw [bind_at, first_eq]
    dsimp only
    rw [bind_at, second_eq, none_there]
    rfl
  have listed : step
      ⟨.run (.statements program.body.statements ScopeChain.global), [.program ⟨0⟩], after⟩ =
      some (remaining program.body.statements none none after) := by
    show some (settle [.program ⟨0⟩] (resume (.completion none)
      [.moreStatements program.body.statements ScopeChain.global ⟨machine.roots.length⟩ none,
        .release ⟨machine.roots.length⟩] after)) = _
    rw [none_there]
    rfl
  exact ⟨second, .step began (.step listed (.refl _))⟩

section Mirrors

variable {n : Naming} {one two : Machine} (mirrors : Mirrors n one two)

include mirrors

theorem Mirrors.renew {value copy : Option Handle} (related : Related n value copy) :
    ∃ m, Mirrors m (renewed value one) (renewed copy two) := by
  obtain ⟨rfl, seen⟩ := related
  cases value with
  | none => exact ⟨n, mirrors⟩
  | some handle =>
    have inView := seen handle (List.mem_singleton_self handle)
    exact ⟨{ n with extra := [] }, { mirrors with
      rootsInView := List.forall_mem_singleton.mpr inView
      roots := rfl }⟩

/-- A machine need not hold any longer what the other one still holds. -/
theorem Mirrors.clear : Mirrors { n with extra := two.roots } (cleared one) two := by
  refine Mirrors.recordUsage ?_
  exact { mirrors with
    rootsInView := nofun
    roots := rfl }

theorem Mirrors.clearCopy (rootless : one.roots = []) :
    Mirrors { n with extra := [] } one (cleared two) := by
  refine Mirrors.recordUsageCopy ?_
  exact { mirrors with
    roots := by rw [rootless]; rfl }

/-- Telling an observer of something does not matter. -/
theorem Mirrors.withEvents (events : Array Event) : Mirrors n { one with events } two :=
  { mirrors with }

theorem Mirrors.withEventsCopy (events : Array Event) : Mirrors n one { two with events } :=
  { mirrors with }

end Mirrors

theorem cleared_renewed (value : Option Handle) (machine : Machine) :
    cleared (renewed value machine) = cleared machine := by
  cases value <;> rfl

theorem roots_cleared (machine : Machine) : (cleared machine).roots = [] :=
  roots_recordUsage _

theorem output_cleared (machine : Machine) : (cleared machine).output = machine.output := by
  unfold cleared Machine.recordUsage Machine.record
  split
  · split <;> rfl
  · rfl

/-- A statement that is over has given the value of a completion, or it has stopped. -/
theorem executing_over {statement : Statement} {machine : Machine} {last : State}
    (reached : Reaches (executing statement machine) last) (ended : step last = none) :
    (∃ value after, last = ⟨.give (.completion value), [], after⟩) ∨
      ∃ stop after, last = ⟨.stop stop, [], after⟩ := by
  have follows (steps : Nat) := Follows.step
    (show step (executing statement machine) = some _ from rfl)
    ((agrees steps).statement statement ScopeChain.global [] machine.collectIfDue)
  obtain ⟨_, ⟨value, after, _, last_eq⟩ | ⟨stop, after, _, _, last_eq⟩⟩ :=
    exists_result_of_follows follows reached ended
  · exact .inl ⟨value, after, last_eq⟩
  · exact .inr ⟨stop, after, last_eq⟩

/-- How the same statements go in two runs, the second of which has more to execute afterwards. -/
inductive Together (rest : List Statement) (first second : State) : Prop where
  | done {n : Naming} {completion value completionCopy valueCopy : Option Handle}
      {one two : Machine} (reached : Reaches first (remaining [] completion value one))
      (reachedCopy : Reaches second (remaining rest completionCopy valueCopy two))
      (mirrors : Mirrors n (renewed value one) (renewed valueCopy two))
  | stopped {stop : Stop} {one two : Machine}
      (reached : Reaches first (.final (.error stop one)))
      (reachedCopy : Reaches second (.final (.error stop two)))
      (output_eq : two.output = one.output)
  | endless (goes : ¬ Halts first) (goesCopy : ¬ Halts second)

theorem Together.of_reaches {rest : List Statement} {first second one two : State}
    (together : Together rest one two) (reached : Reaches first one)
    (reachedCopy : Reaches second two) : Together rest first second := by
  cases together with
  | done last lastCopy mirrors =>
    exact .done (reached.trans last) (reachedCopy.trans lastCopy) mirrors
  | stopped last lastCopy output_eq =>
    exact .stopped (reached.trans last) (reachedCopy.trans lastCopy) output_eq
  | endless goes goesCopy =>
    exact .endless (fun halts => goes (halts.of_reaches reached))
      fun halts => goesCopy (halts.of_reaches reachedCopy)

section Simulates

variable {n : Naming} {one : Machine} {last : State}

theorem Simulates.exists_completion {value : Option Handle}
    (simulates : Simulates n ⟨.give (.completion value), [], one⟩ last) :
    ∃ copy two, last = ⟨.give (.completion copy), [], two⟩ ∧ Related n value copy ∧
      Mirrors n one two := by
  obtain ⟨control, stack, two⟩ := last
  obtain ⟨mirrors, ⟨rfl, seen⟩, ⟨rfl, _⟩, _⟩ := simulates
  exact ⟨value.map n.name, two, rfl, ⟨rfl, seen⟩, mirrors⟩

theorem Simulates.exists_stop {stop : Stop}
    (simulates : Simulates n ⟨.stop stop, [], one⟩ last) :
    ∃ two, last = ⟨.stop stop, [], two⟩ ∧ two.output = one.output := by
  obtain ⟨control, stack, two⟩ := last
  obtain ⟨mirrors, ⟨rfl, _⟩, ⟨rfl, _⟩, _⟩ := simulates
  exact ⟨two, rfl, mirrors.output⟩

end Simulates

/-- A statement is executed alike on machines that mirror each other. -/
theorem executing_beside {n : Naming} {one two : Machine} (mirrors : Mirrors n one two)
    {statement : Statement} (tame : (executing statement one).Tame)
    (tameCopy : (executing statement two).Tame) (count : Nat) :
    ∃ m, Simulates m ((executing statement one).after count)
      ((executing statement two).after count) := by
  have first : Simulates n (executing statement one) (executing statement two) :=
    ⟨mirrors, .bare rfl rfl, .bare rfl rfl, nofun⟩
  have guards : Guards one.roots (executing statement one).stack one.roots := List.suffix_rfl
  exact first.beside guards (fun count => .inl (tame count).1) (fun count => (tame count).2)
    (fun count => (tameCopy count).2) count

/-- Statements go the same way in two runs on machines that mirror each other. -/
theorem together (statements rest : List Statement) {n : Naming} {one two : Machine}
    {completion value completionCopy valueCopy : Option Handle}
    (mirrors : Mirrors n (renewed value one) (renewed valueCopy two))
    (tame : (remaining statements completion value one).Tame)
    (tameCopy : (remaining (statements ++ rest) completionCopy valueCopy two).Tame) :
    Together rest (remaining statements completion value one)
      (remaining (statements ++ rest) completionCopy valueCopy two) := by
  induction statements generalizing n one two completion value completionCopy valueCopy with
  | nil => exact .done (.refl _) (.refl _) mirrors
  | cons statement statements ih =>
    have began := Reaches.step (step_remaining statement statements completion value one) (.refl _)
    have beganCopy := Reaches.step
      (step_remaining statement (statements ++ rest) completionCopy valueCopy two) (.refl _)
    have beside := executing_beside mirrors (tame.of_reaches began).of_above
      (tameCopy.of_reaches beganCopy).of_above
    by_cases halts : Halts (executing statement (renewed value one))
    · obtain ⟨last, ⟨count, last_eq⟩, ended⟩ := halts
      obtain ⟨m, simulates⟩ := beside count
      rw [last_eq] at simulates
      rcases executing_over ⟨count, last_eq⟩ ended with ⟨given, after, rfl⟩ | ⟨stop, after, rfl⟩
      · obtain ⟨givenCopy, afterCopy, lastCopy_eq, related, mirrorsAfter⟩ :=
          simulates.exists_completion
        have reached := began.trans (reaches_above _ ⟨count, last_eq⟩)
        have reachedCopy := beganCopy.trans (reaches_above _ ⟨count, lastCopy_eq⟩)
        obtain ⟨k, again⟩ := mirrorsAfter.renew related
        exact (ih again (tame.of_reaches reached) (tameCopy.of_reaches reachedCopy)).of_reaches
          reached reachedCopy
      · obtain ⟨afterCopy, lastCopy_eq, output_eq⟩ := simulates.exists_stop
        have reached := began.trans (reaches_above _ ⟨count, last_eq⟩)
        have reachedCopy := beganCopy.trans (reaches_above _ ⟨count, lastCopy_eq⟩)
        refine .stopped (reached.trans (reaches_final_stop stop statements _ after))
          (reachedCopy.trans (reaches_final_stop stop (statements ++ rest) _ afterCopy)) ?_
        rw [output_cleared, output_cleared, output_eq]
    · refine .of_reaches (.endless (not_halts_above _ halts) (not_halts_above _ ?_)) began beganCopy
      rintro ⟨last, ⟨count, rfl⟩, ended⟩
      obtain ⟨m, simulates⟩ := beside count
      exact halts ⟨_, ⟨count, rfl⟩, simulates.step_eq_none_iff.mpr ended⟩

/-- Runs of the same statements with nothing afterwards come to the same ending. -/
theorem Together.endsAt_iff {first second : State} (together : Together [] first second)
    (ending : Ending) : EndsAt first ending ↔ EndsAt second ending := by
  cases together with
  | done last lastCopy mirrors =>
    rename_i n completion value completionCopy valueCopy one two
    have ends := last.trans (reaches_final_remaining completion value one)
    have endsCopy := lastCopy.trans (reaches_final_remaining completionCopy valueCopy two)
    have cleared := (mirrors.clear).clearCopy (roots_cleared _)
    rw [cleared_renewed, cleared_renewed] at cleared
    obtain ⟨handle, after, given_eq, _, given⟩ := cleared.exists_orUndefined (value <|> completion)
    obtain ⟨copy, afterCopy, copy_eq, both⟩ :=
      given.exists_orUndefinedCopy (valueCopy <|> completionCopy)
    rw [given_eq] at ends
    rw [copy_eq] at endsCopy
    rw [endsAt_iff_of_final ends, endsAt_iff_of_final endsCopy, both.ending?_eq handle copy]
  | stopped last lastCopy output_eq =>
    rename_i stop one two
    rw [endsAt_iff_of_final last, endsAt_iff_of_final lastCopy]
    cases stop <;> simp [ending?, output_eq]
  | endless goes goesCopy =>
    apply iff_of_false
    · exact not_endsAt_of_not_halts goes ending
    · exact not_endsAt_of_not_halts goesCopy ending

section Pieces

variable {first second : Program} {machine after : Machine} (ending : Ending)

/-- After a value of the first program, the second one comes to the ending of both. -/
theorem endsInPieces_iff_of_value {handle : Handle}
    (reached : Reaches (launch first machine) (.final (.ok handle after))) :
    EndsInPieces first second machine ending ↔ EndsAt (launch second after) ending := by
  rw [endsInPieces_iff]
  constructor
  · rintro (⟨other, last, reachedOther, ends⟩ | ⟨ends, error, failed⟩)
    · have same := reachedOther.unique reached (State.step_final _) (State.step_final _)
      cases State.final_injective same
      exact endsIn_iff.mp ends
    · have seen := (endsAt_iff_of_final reached ending).mp (endsIn_iff.mp ends)
      cases seen
      cases failed
  · exact fun ends => .inl ⟨handle, after, reached, endsIn_iff.mpr ends⟩

/-- When the first program fails, so do both. -/
theorem endsInPieces_iff_of_stop {stop : Stop}
    (reached : Reaches (launch first machine) (.final (.error stop after))) :
    EndsInPieces first second machine ending ↔ ending? (.error stop after) = some ending := by
  rw [endsInPieces_iff, endsIn_iff, endsAt_iff_of_final reached]
  constructor
  · rintro (⟨handle, last, reachedOther, _⟩ | ⟨seen, _⟩)
    · have same := reachedOther.unique reached (State.step_final _) (State.step_final _)
      cases State.final_injective same
    · exact seen
  · intro seen
    cases stop with
    | error error =>
      cases seen
      exact .inr ⟨rfl, error, rfl⟩
    | freeSlot access handle => cases seen
    | exhausted => cases seen

theorem not_endsInPieces_of_not_halts (endless : ¬ Halts (launch first machine)) :
    ¬ EndsInPieces first second machine ending := by
  rw [endsInPieces_iff, endsIn_iff]
  rintro (⟨handle, last, reached, _⟩ | ⟨ends, _⟩)
  · exact endless ⟨_, reached, State.step_final _⟩
  · exact not_endsAt_of_not_halts endless ending ends

end Pieces

/-- The second program goes on like the rest of the statements, on a machine that holds less. -/
theorem endsAt_second_iff {second : Program} {n : Naming} {one two : Machine}
    {completionCopy valueCopy : Option Handle} (rootless : one.roots = [])
    (mirrors : Mirrors n one (renewed valueCopy two)) (tame : (launch second one).Tame)
    (tameCopy : (remaining second.body.statements completionCopy valueCopy two).Tame)
    (ending : Ending) :
    EndsAt (launch second one) ending ↔
      EndsAt (remaining second.body.statements completionCopy valueCopy two) ending := by
  obtain ⟨events, began⟩ := exists_reaches_remaining second rootless
  have beside : Together [] (remaining second.body.statements none none { one with events })
      (remaining (second.body.statements ++ []) completionCopy valueCopy two) := by
    have tameRest :
        (remaining (second.body.statements ++ []) completionCopy valueCopy two).Tame := by
      rwa [List.append_nil]
    exact together second.body.statements [] (mirrors.withEvents events) (tame.of_reaches began)
      tameRest
  rw [List.append_nil] at beside
  rw [endsAt_iff_of_reaches began]
  exact beside.endsAt_iff ending

/-- When the first program has been executed, the second one goes on like the rest of a program with
the statements of both. -/
theorem endsInPieces_iff_of_done {first second : Program} {machine one two : Machine} {n : Naming}
    {completion value completionCopy valueCopy : Option Handle}
    (reached : Reaches (launch first machine) (remaining [] completion value one))
    (mirrors : Mirrors n (renewed value one) (renewed valueCopy two))
    (tame : ∀ handle after, Reaches (launch first machine) (.final (.ok handle after)) →
      (launch second after).Tame)
    (tameCopy : (remaining second.body.statements completionCopy valueCopy two).Tame)
    (ending : Ending) :
    EndsInPieces first second machine ending ↔
      EndsAt (remaining second.body.statements completionCopy valueCopy two) ending := by
  have ends := reached.trans (reaches_final_remaining completion value one)
  have dropped := mirrors.clear
  rw [cleared_renewed] at dropped
  obtain ⟨handle, after, given_eq, roots_eq, given⟩ :=
    dropped.exists_orUndefined (value <|> completion)
  rw [given_eq] at ends
  rw [endsInPieces_iff_of_value ending ends]
  exact endsAt_second_iff (roots_eq.trans (roots_cleared one)) given (tame handle after ends)
    tameCopy ending

/-- Only a run that was cut short is not seen to end. -/
theorem Ready.exhausted_of_unseen {machine : Machine} (ready : Ready machine) {program : Program}
    (tame : (launch program machine).Tame) {steps : Nat}
    (unseen : ending? (executeProgram steps program ScopeChain.global machine) = none) :
    ∃ after, executeProgram steps program ScopeChain.global machine = .error .exhausted after := by
  have executed := ready.execute program steps
  cases outcome : executeProgram steps program ScopeChain.global machine with
  | ok handle after =>
    rw [outcome] at unseen
    cases unseen
  | error stop after =>
    rw [outcome] at unseen executed
    cases stop with
    | error error => cases unseen
    | freeSlot access handle =>
      have uncut (last : Machine) : (.error (.freeSlot access handle) after :
          EStateM.Result Stop Machine Handle) ≠ .error .exhausted last := by
        intro same
        cases same
      have reached := (reaches_final_iff uncut).mpr ⟨steps, outcome⟩
      have room := ((tame.of_reaches reached) 0).2
      exact absurd rfl ((executed room).1 access handle)
    | exhausted => exact ⟨after, rfl⟩

/-- After a value of the first program, a machine is ready for another one. -/
theorem Ready.of_tame {machine : Machine} (ready : Ready machine) {program : Program}
    (tame : (launch program machine).Tame) {steps : Nat} {handle : Handle} {after : Machine}
    (outcome : executeProgram steps program ScopeChain.global machine = .ok handle after) :
    Ready after := by
  have executed := ready.execute program steps
  rw [outcome] at executed
  have reached := reaches_ok_iff.mpr ⟨steps, outcome⟩
  exact (executed ((tame.of_reaches reached) 0).2).1

theorem roots_create (config : Config) : (Machine.create config).roots = [] :=
  rfl

/-- Two programs executed one after the other on a new machine come to the same ending as one
program with the statements of both, if the native that collects is never called and handles name
all slots. Neither comes to no ending, unless it was cut short. -/
theorem run_in_pieces (config : Config) (first second joint : Program)
    (joined : joint.body.statements = first.body.statements ++ second.body.statements)
    (tameJoint : (launch joint (.create config)).Tame)
    (tameFirst : (launch first (.create config)).Tame)
    (tameSecond : ∀ steps handle machine,
      executeProgram steps first ScopeChain.global (.create config) = .ok handle machine →
        (launch second machine).Tame) :
    (∀ ending, EndsInPieces first second (.create config) ending ↔
      EndsIn joint (.create config) ending) ∧
    (∀ steps more, ending? (inPieces steps more first second (.create config)) = none →
      ∃ machine, inPieces steps more first second (.create config) = .error .exhausted machine) ∧
    ∀ steps, ending? (executeProgram steps joint ScopeChain.global (.create config)) = none →
      ∃ machine, executeProgram steps joint ScopeChain.global (.create config) =
        .error .exhausted machine := by
  have ready := ready_create config
  refine ⟨fun ending => ?_, fun steps more unseen => ?_, fun steps =>
    ready.exhausted_of_unseen tameJoint⟩
  · rw [endsIn_iff]
    obtain ⟨n, _, mirrors⟩ := mirrors_create (rfl : config.maxCallDepth = config.maxCallDepth)
    obtain ⟨events, began⟩ := exists_reaches_remaining first (roots_create config)
    obtain ⟨eventsCopy, beganCopy⟩ := exists_reaches_remaining joint (roots_create config)
    rw [joined] at beganCopy
    have beside := together first.body.statements second.body.statements
      (show Mirrors n (renewed none _) (renewed none _) from
        (mirrors.withEvents events).withEventsCopy eventsCopy)
      (tameFirst.of_reaches began) (tameJoint.of_reaches beganCopy)
    cases beside.of_reaches began beganCopy with
    | done last lastCopy mirrors =>
      rw [endsAt_iff_of_reaches lastCopy]
      refine endsInPieces_iff_of_done last mirrors (fun handle after reached => ?_)
        (tameJoint.of_reaches lastCopy) ending
      obtain ⟨steps, executed⟩ := reaches_ok_iff.mp reached
      exact tameSecond steps handle after executed
    | stopped last lastCopy output_eq =>
      rename_i stop one two
      rw [endsInPieces_iff_of_stop ending last, endsAt_iff_of_final lastCopy]
      cases stop <;> simp [ending?, output_eq]
    | endless goes goesCopy =>
      exact iff_of_false (not_endsInPieces_of_not_halts ending goes)
        (not_endsAt_of_not_halts goesCopy ending)
  · unfold inPieces at unseen ⊢
    rw [bind_at] at unseen ⊢
    cases outcome : executeProgram steps first ScopeChain.global (.create config) with
    | ok handle after =>
      rw [outcome] at unseen
      exact (ready.of_tame tameFirst outcome).exhausted_of_unseen
        (tameSecond steps handle after outcome) unseen
    | error stop after =>
      rw [outcome] at unseen
      have cut := ready.exhausted_of_unseen tameFirst ((congrArg ending? outcome).trans unseen)
      rwa [outcome] at cut

def bindingProgram : Program :=
  let info : NodeInfo := ⟨⟨0⟩, ⟨0, 0⟩⟩
  let list : Expression := .array info [.literal info (.boolean true)]
  ⟨⟨0⟩, ⟨⟨0⟩, [.declaration info .var [.mk info "list" (some list)]]⟩⟩

/-- A program with the name of the list as its only statement. -/
def namingProgram : Program :=
  let info : NodeInfo := ⟨⟨0⟩, ⟨0, 0⟩⟩
  ⟨⟨0⟩, ⟨⟨0⟩, [.expression info (.identifier info "list")]⟩⟩

/-- A program with the statements of both. -/
def listingProgram : Program :=
  ⟨⟨0⟩, ⟨⟨0⟩, bindingProgram.body.statements ++ namingProgram.body.statements⟩⟩

/-- The machine after the list has been bound. -/
def boundMachine : Machine :=
  ((launch bindingProgram (.create {})).after 19).machine

theorem bindingProgram_over : step ((launch bindingProgram (.create {})).after 19) = none := by
  rfl

theorem bindingProgram_machine {steps : Nat} {handle : Handle} {machine : Machine}
    (executed : executeProgram steps bindingProgram ScopeChain.global (.create {}) =
      .ok handle machine) : machine = boundMachine := by
  have reached := reaches_ok_iff.mpr ⟨steps, executed⟩
  have last := reached.unique ⟨19, rfl⟩ (State.step_final _) bindingProgram_over
  exact congrArg State.machine last

theorem addressable_of_eq {machine : Machine} {count : Nat}
    (few : machine.heap.slotCount = count) (bound : count ≤ 2 ^ 32) : Addressable machine :=
  Nat.le_trans (Nat.le_of_eq few) bound

set_option maxRecDepth 10000 in
theorem bindingProgram_tame : (launch bindingProgram (.create {})).Tame := by
  have few : boundMachine.heap.slotCount = 8 := by rfl
  exact State.tame_of_over bindingProgram_over (by decide) (addressable_of_eq few (by decide))

set_option maxRecDepth 10000 in
theorem namingProgram_tame : (launch namingProgram boundMachine).Tame := by
  have halted : step ((launch namingProgram boundMachine).after 10) = none := by rfl
  have few : ((launch namingProgram boundMachine).after 10).machine.heap.slotCount = 8 := by rfl
  exact State.tame_of_over halted (by decide) (addressable_of_eq few (by decide))

theorem listingProgram_over : step ((launch listingProgram (.create {})).after 24) = none := by
  rfl

set_option maxRecDepth 10000 in
theorem listingProgram_tame : (launch listingProgram (.create {})).Tame := by
  have few : ((launch listingProgram (.create {})).after 24).machine.heap.slotCount = 7 := by rfl
  exact State.tame_of_over listingProgram_over (by decide) (addressable_of_eq few (by decide))

theorem listingProgram_ends : ∃ ending, EndsIn listingProgram (.create {}) ending := by
  let machine := ((launch listingProgram (.create {})).after 24).machine
  exact ⟨_, endsIn_iff.mpr ⟨.ok ⟨6⟩ machine, ⟨24, rfl⟩, rfl⟩⟩

/-- The list is still bound when it is named by another program. -/
theorem run_in_pieces_listingProgram :
    (launch listingProgram (.create {})).Tame ∧ (launch bindingProgram (.create {})).Tame ∧
      (launch namingProgram boundMachine).Tame ∧
      ∃ ending, EndsIn listingProgram (.create {}) ending ∧
        EndsInPieces bindingProgram namingProgram (.create {}) ending := by
  have tameNaming (steps : Nat) (handle : Handle) (machine : Machine)
      (executed : executeProgram steps bindingProgram ScopeChain.global (.create {}) =
        .ok handle machine) : (launch namingProgram machine).Tame := by
    rw [bindingProgram_machine executed]
    exact namingProgram_tame
  have same := run_in_pieces {} bindingProgram namingProgram listingProgram rfl
    listingProgram_tame bindingProgram_tame tameNaming
  obtain ⟨ending, ends⟩ := listingProgram_ends
  exact ⟨listingProgram_tame, bindingProgram_tame, namingProgram_tame, ending, ends,
    (same.1 ending).mpr ends⟩

end Scriptlet.Run
