import Scriptlet.Proofs.Run.Balance
import Scriptlet.Proofs.Run.Code
import Scriptlet.Proofs.Run.Trace
import Scriptlet.Proofs.Scope.Nesting

set_option autoImplicit false

/-!
Code and functions in their places. Whatever a run still evaluates is a part of a program, in a
scope that the frames of the scopes around that part enclose; and every function was made by such a
part, in a scope that is open and enclosed likewise, or closed for good.
-/
namespace Scriptlet.Run

open Eval

/-- Code is a part of a program that has started to run, and its scope is inside frames that were
opened for the scopes around that part. -/
def Placed (points : List State) (frames : List Frame) (code : Code) : Prop :=
  ∃ program, Ran points program ∧
    ∃ kinds, code.sites kinds ⊆ program.sites ∧ Enclosed frames code.scope kinds

section Placed

variable {points : List State} {frames : List Frame} {code : Code}

theorem Placed.later (placed : Placed points frames code) (next : State) :
    Placed (next :: points) frames code := by
  obtain ⟨program, ran, inside⟩ := placed
  exact ⟨program, ran.later next, inside⟩

theorem Placed.part (placed : Placed points frames code) {inner : Code}
    (scope_eq : inner.scope = code.scope)
    (inside : ∀ kinds, inner.sites kinds ⊆ code.sites kinds) : Placed points frames inner := by
  obtain ⟨program, ran, kinds, part, enclosed⟩ := placed
  exact ⟨program, ran, kinds, List.Subset.trans (inside kinds) part, scope_eq ▸ enclosed⟩

theorem Placed.isSome (placed : Placed points frames code) :
    (frameIn? frames code.scope).isSome := by
  obtain ⟨program, ran, kinds, part, enclosed⟩ := placed
  exact enclosed.isSome

theorem Placed.succeeds {before after : ScopeHistory} (succeeds : before.Succeeds after)
    (placed : Placed points before.chain.outline code) :
    code.scope ∈ after.closed ∨ Placed points after.chain.outline code := by
  obtain ⟨program, ran, kinds, part, enclosed⟩ := placed
  rcases succeeds.enclosed code.scope kinds enclosed with closed | enclosed
  · exact .inl closed
  · exact .inr ⟨program, ran, kinds, part, enclosed⟩

/-- All that is pending has its code in place, when what is above it has been left. -/
def StackPlaced (points : List State) : List Pending → List Frame → Prop
  | [], _ => True
  | waiting :: stack, frames =>
    (∀ code, waiting.code? = some code → Placed points frames code) ∧
      StackPlaced points stack (if waiting.closes then frames.dropLast else frames)

theorem StackPlaced.later {stack : List Pending} (placed : StackPlaced points stack frames)
    (next : State) : StackPlaced (next :: points) stack frames := by
  induction stack generalizing frames with
  | nil => trivial
  | cons waiting stack ih =>
    exact ⟨fun code code_eq => (placed.1 code code_eq).later next, ih placed.2⟩

theorem StackPlaced.append {stack pending : List Pending} (placed : StackPlaced points stack frames)
    (rests : ∀ waiting ∈ pending, waiting.closes = false ∧
      ∀ code, waiting.code? = some code → Placed points frames code) :
    StackPlaced points (pending ++ stack) frames := by
  induction pending with
  | nil => exact placed
  | cons waiting pending ih =>
    obtain ⟨⟨stays, here⟩, others⟩ := List.forall_mem_cons.mp rests
    refine ⟨here, ?_⟩
    rw [stays]
    exact ih others

end Placed

/-- The code of the body of a function, where the function expression stands. -/
def bodyCode (closure : Closure) : Code :=
  ⟨closure.scope, fun kinds => statementSites (.function :: kinds) closure.body.statements⟩

/-- A function was made at one of the points, by a function expression that was evaluated in its
scope while that was open; the other points came after it. -/
structure MadeAt (points : List State) (closure : Closure) (origin : State) (since : List State) :
    Prop where
  split : ∃ earlier, points = since ++ origin :: earlier
  evaluated : ∃ info, origin.control = .run (.expression
    (.function info closure.name closure.params closure.body) closure.scope) ∧
      info.id = closure.node
  live : origin.machine.scopes.isLive closure.scope

/-- A function was made, and its scope was closed since, or has been the same all the time. -/
structure Made (points : List State) (history : ScopeHistory) (closure : Closure) : Prop where
  origin : ∃ origin since, MadeAt points closure origin since ∧
    ∀ point ∈ since ++ [origin], closure.scope ∈ history.closed ∨
      frameIn? history.chain.outline closure.scope =
        frameIn? point.machine.scopes.outline closure.scope
  known : closure.scope ∈ history.issued
  placed : closure.scope ∈ history.closed ∨ Placed points history.chain.outline (bodyCode closure)

section Made

variable {points : List State} {history : ScopeHistory} {closure : Closure}

theorem Made.succeeds (made : Made points history closure) {after : ScopeHistory}
    (succeeds : history.Succeeds after) : Made points after closure where
  origin := by
    obtain ⟨origin, since, madeAt, same⟩ := made.origin
    refine ⟨origin, since, madeAt, fun point member => ?_⟩
    rcases same point member with closed | before
    · exact .inl (succeeds.closed closed)
    · rw [← before]
      exact succeeds.kept closure.scope made.known
  known := succeeds.issued made.known
  placed := by
    rcases made.placed with closed | placed
    · exact .inl (succeeds.closed closed)
    · exact placed.succeeds succeeds

theorem Made.later (made : Made points history closure) {next : State}
    (chain_eq : history.chain = next.machine.scopes) : Made (next :: points) history closure where
  origin := by
    obtain ⟨origin, since, ⟨⟨earlier, rfl⟩, evaluated, live⟩, same⟩ := made.origin
    refine ⟨origin, next :: since, ⟨⟨earlier, rfl⟩, evaluated, live⟩, ?_⟩
    exact List.forall_mem_cons.mpr ⟨.inr (by rw [chain_eq]), same⟩
  known := made.known
  placed := made.placed.imp_right fun placed => placed.later next

end Made

/-- What a run works on is in place: the frames have a lawful history, every function in the heap
was made, and all that is pending has its code in place. -/
structure Stands (points : List State) (history : ScopeHistory) (stack : List Pending)
    (machine : Machine) : Prop where
  lawful : history.Lawful
  chain_eq : history.chain = machine.scopes
  made : ∀ closure, machine.heap.Holds closure → Made points history closure
  stack : StackPlaced points stack machine.scopes.outline

/-- What is done next is in place: its code, and the function whose body it begins. -/
def Directed (points : List State) (history : ScopeHistory) (control : Control) : Prop :=
  ∀ task, control = .run task →
    (∀ code, task.code? = some code → Placed points history.chain.outline code) ∧
      ∀ closure, task.closure? = some closure → Made points history closure

theorem scopes_openScope {parent scope : ScopeId} {kind : ScopeKind} {this : Option Handle}
    {machine opened : Machine} (opens : openScope parent kind this machine = .ok scope opened) :
    opened.scopes = (machine.scopes.push parent kind this).2 := by
  cases opens
  unfold Machine.record
  split <;> rfl

theorem heap_openScope {parent scope : ScopeId} {kind : ScopeKind} {this : Option Handle}
    {machine opened : Machine} (opens : openScope parent kind this machine = .ok scope opened) :
    opened.heap = machine.heap := by
  cases opens
  exact heap_record _ _

theorem scopes_closeScope (machine : Machine) (scope : ScopeId) :
    (machine.closeScope scope).scopes = machine.scopes.pop scope := by
  unfold Machine.closeScope Machine.record
  by_cases canPop : machine.scopes.canPop scope
  · rw [if_pos canPop]
    split <;> rfl
  · rw [if_neg canPop, ScopeChain.pop, if_neg canPop]

theorem heap_closeScope (machine : Machine) (scope : ScopeId) :
    (machine.closeScope scope).heap = machine.heap := by
  unfold Machine.closeScope
  split
  · exact heap_record _ _
  · rfl

structure InPlace (points : List State) (history : ScopeHistory) (state : State) : Prop where
  stands : Stands points history state.stack state.machine
  directed : Directed points history state.control

/-- A state that is in place is so too when it is one of the points. -/
theorem InPlace.later {points : List State} {history : ScopeHistory} {next : State}
    (inPlace : InPlace points history next) : InPlace (next :: points) history next where
  stands := {
    lawful := inPlace.stands.lawful
    chain_eq := inPlace.stands.chain_eq
    made := fun closure holds => (inPlace.stands.made closure holds).later inPlace.stands.chain_eq
    stack := inPlace.stands.stack.later next }
  directed := by
    intro task task_eq
    obtain ⟨code, closure⟩ := inPlace.directed task task_eq
    exact ⟨fun part part_eq => (code part part_eq).later next,
      fun made made_eq => (closure made made_eq).later inPlace.stands.chain_eq⟩

section Stands

variable {points : List State} {history : ScopeHistory} {stack : List Pending} {machine : Machine}
  (stands : Stands points history stack machine)

include stands

theorem Stands.not_closed {id : ScopeId} (isLive : machine.scopes.isLive id) :
    id ∉ history.closed := by
  intro closed
  have gone := (stands.lawful.gone id closed).2
  rw [stands.chain_eq] at gone
  rw [ScopeChain.isLive_eq_isSome, gone] at isLive
  cases isLive

theorem Stands.undisturbed {after : Machine} (still : Undisturbed machine after) :
    Stands points (history.rebind after.scopes) stack after ∧
      history.Succeeds (history.rebind after.scopes) := by
  have outline_eq : after.scopes.outline = history.chain.outline := by
    rw [still.outline, stands.chain_eq]
  have succeeds := ScopeHistory.succeeds_rebind outline_eq
  refine ⟨?_, succeeds⟩
  exact {
    lawful := stands.lawful.rebind outline_eq (by rw [still.generation, stands.chain_eq])
    chain_eq := rfl
    made := fun closure holds => (stands.made closure (still.holds closure holds)).succeeds succeeds
    stack := by
      rw [still.outline]
      exact stands.stack }

/-- Work that is confined to code in place leaves everything in place. -/
theorem Stands.settle {code? : Option Code} {work : Eval Next} (confined : Confined code? work)
    (placed : ∀ code, code? = some code → Placed points machine.scopes.outline code) :
    ∃ after, after.opened = history.opened ∧
      InPlace points after (Run.settle stack (work machine)) := by
  have outcome := confined machine
  cases result : work machine with
  | ok next later =>
    obtain ⟨control, pending⟩ := next
    rw [result] at outcome
    obtain ⟨still, fits, rests⟩ := outcome
    obtain ⟨after, succeeds⟩ := stands.undisturbed still
    have inner {part : Option Code} (isPart : Part code? part) :
        ∀ code, part = some code → Placed points later.scopes.outline code := by
      intro code code_eq
      obtain ⟨outer, outer_eq, scope_eq, inside⟩ := isPart code code_eq
      rw [still.outline]
      exact (placed outer outer_eq).part scope_eq inside
    refine ⟨history.rebind later.scopes, rfl,
      ⟨after.lawful, after.chain_eq, after.made, ?_⟩, ?_⟩
    · exact after.stack.append fun waiting member =>
        ⟨(rests waiting member).2, inner (rests waiting member).1⟩
    · intro task task_eq
      obtain ⟨part, holds⟩ := fits task task_eq
      exact ⟨inner part, fun closure called =>
        (stands.made closure (holds closure called)).succeeds succeeds⟩
  | error stop later =>
    rw [result] at outcome
    exact ⟨history.rebind later.scopes, rfl, (stands.undisturbed outcome).1, nofun⟩

/-- A scope that is opened is enclosed by the one around it, and what was in place stays so. -/
theorem Stands.opened (few : history.opened.length + 1 < 2 ^ 32) {parent scope : ScopeId}
    {kind : ScopeKind} {this : Option Handle} {opened : Machine}
    (opens : openScope parent kind this machine = .ok scope opened) {kinds : List ScopeKind}
    (enclosed : Enclosed machine.scopes.outline parent kinds) :
    ∃ after, after.opened.length = history.opened.length + 1 ∧
      Stands points after (.close scope :: stack) opened ∧
      Enclosed opened.scopes.outline scope (kind :: kinds) := by
  have scopes_eq := scopes_openScope opens
  have heap_eq := heap_openScope opens
  have scope_eq : scope = (machine.scopes.push parent kind this).1 := by
    cases opens
    rfl
  have outline_eq := machine.scopes.outline_push parent kind this
  have succeeds := stands.lawful.succeeds_push few parent kind this
  -- The scope around it is open, so its name was given.
  have known : parent ∈ history.issued := by
    obtain ⟨frame, found⟩ := Option.isSome_iff_exists.mp enclosed.isSome
    rw [← stands.chain_eq] at found
    exact stands.lawful.live parent frame found
  refine ⟨history.push parent kind this, rfl, ?_, ?_⟩
  · exact {
      lawful := stands.lawful.push few known kind this
      chain_eq := by
        rw [scopes_eq, ← stands.chain_eq]
        rfl
      made := by
        rw [heap_eq]
        exact fun closure holds => (stands.made closure holds).succeeds succeeds
      stack := by
        refine ⟨nofun, ?_⟩
        rw [scopes_eq, outline_eq]
        show StackPlaced points stack (List.dropLast _)
        rw [List.dropLast_concat]
        exact stands.stack }
  · rw [scopes_eq, outline_eq, scope_eq, ScopeChain.id_push]
    exact enclosed.opened _ rfl

/-- What is pending is left in place, and its code is in place then. -/
theorem Stands.leave {waiting : Pending} {rest : List Pending} (stack_eq : stack = waiting :: rest)
    {base : Shape} (opened : base.frames ≠ [])
    (unwinds : Unwinds base (waiting :: rest) (shape machine)) :
    ∃ after, after.opened = history.opened ∧ Stands points after rest (waiting.leave machine) ∧
      ∀ code, waiting.code? = some code →
        Placed points (waiting.leave machine).scopes.outline code := by
  subst stack_eq
  obtain ⟨here, others⟩ := stands.stack
  -- Only closing a scope does something to the frames.
  have other (stays : waiting.closes = false)
      (still : Undisturbed machine (waiting.leave machine)) :
      ∃ after, after.opened = history.opened ∧ Stands points after rest (waiting.leave machine) ∧
        ∀ code, waiting.code? = some code →
          Placed points (waiting.leave machine).scopes.outline code := by
    obtain ⟨after, _⟩ := stands.undisturbed still
    refine ⟨history.rebind (waiting.leave machine).scopes, rfl,
      ⟨after.lawful, after.chain_eq, after.made, ?_⟩, ?_⟩
    · have placed := after.stack.2
      rwa [stays] at placed
    · rw [still.outline]
      exact here
  cases waiting with
  | close scope =>
    have left := congrArg Shape.frames (unwinds.shape_leave opened)
    obtain ⟨⟨outer, frame, frames_eq, scope_eq⟩, _⟩ := unwinds
    have outline_eq : machine.scopes.outline = outer ++ [frame] := frames_eq
    have isLive : history.chain.isLive scope := by
      rw [stands.chain_eq, ScopeChain.isLive_eq_isSome, outline_eq, frameIn?_concat,
        if_pos scope_eq]
      rfl
    have innermost : scope.index + 1 = history.chain.depth := by
      rw [stands.chain_eq, ← ScopeChain.length_outline, outline_eq, scope_eq]
      simp
    have succeeds := ScopeHistory.succeeds_pop isLive innermost
    refine ⟨history.pop scope, ?_, ?_, nofun⟩
    · unfold ScopeHistory.pop
      split <;> rfl
    · exact {
        lawful := stands.lawful.pop isLive innermost
        chain_eq := by
          show (history.pop scope).chain = (machine.closeScope scope).scopes
          rw [scopes_closeScope, ← stands.chain_eq]
          unfold ScopeHistory.pop ScopeChain.pop
          split <;> rfl
        made := by
          show ∀ closure, (machine.closeScope scope).heap.Holds closure → _
          rw [heap_closeScope]
          exact fun closure holds => (stands.made closure holds).succeeds succeeds
        stack := by
          have left : ((Pending.close scope).leave machine).scopes.outline =
            machine.scopes.outline.dropLast := left
          rw [left]
          exact others }
  | program mark =>
    have released : Undisturbed machine (machine.release mark) := ⟨rfl, rfl, fun _ holds => holds⟩
    exact other rfl (released.trans (undisturbed_recordUsage _))
  | _ => exact other rfl ⟨rfl, rfl, fun _ holds => holds⟩

end Stands

/-- A function expression adds one function, made in its scope. -/
theorem begin_function (info : NodeInfo) (name : Option String) (params : List String)
    (body : Block) (scope : ScopeId) (machine : Machine) :
    ∃ handle after,
      begin (.expression (.function info name params body) scope) machine =
        .ok (.give (.handle handle), []) after ∧
      after.scopes.outline = machine.scopes.outline ∧
      after.scopes.nextGeneration = machine.scopes.nextGeneration ∧
      ∀ closure, after.heap.Holds closure →
        machine.heap.Holds closure ∨ closure = ⟨name, params, body, scope, info.id⟩ := by
  obtain ⟨visited, visit_eq⟩ : ∃ visited, visit info .function machine = .ok () visited :=
    ⟨_, rfl⟩
  have still := steady_visit info .function machine
  rw [visit_eq] at still
  have added {heap : Heap} {closure made : Closure}
      (holds : (heap.alloc (.function made)).2.Holds closure) :
      heap.Holds closure ∨ closure = made := by
    rcases Heap.stores_of_alloc holds with same | before
    · exact .inr (Value.function.inj same)
    · exact .inl before
  have begin_eq : begin (.expression (.function info name params body) scope) machine =
      (makeFunction info.id name params body scope >>= giveHandle) visited := by
    simp only [begin, beginExpression, Expression.info, Expression.nodeKind, Bind.bind,
      EStateM.bind, visit_eq]
  rw [begin_eq]
  cases name with
  | none =>
    refine ⟨_, _, rfl, still.outline, still.generation, fun closure holds => ?_⟩
    exact (added holds).imp_left (still.holds closure)
  | some name =>
    refine ⟨_, _, rfl, ?_, ?_, fun closure holds => ?_⟩
    · exact (ScopeChain.outline_declare _ _ _ _).trans still.outline
    · exact (ScopeChain.nextGeneration_declare _ _ _ _).trans still.generation
    · exact (added holds).imp_left (still.holds closure)

/-- A block begins in a frame of its own. -/
theorem step_block (block : Block) (scope : ScopeId) (stack : List Pending) (machine : Machine) :
    ∃ visited inner opened, Undisturbed machine visited ∧
      openScope scope .block none visited = .ok inner opened ∧
      step ⟨.run (.statement (.block block) scope), stack, machine⟩ =
        some ⟨.run (.statements block.statements inner), .close inner :: stack, opened⟩ := by
  obtain ⟨visited, visit_eq⟩ :
    ∃ visited, visit block.info .block machine = .ok () visited := ⟨_, rfl⟩
  have still := steady_visit block.info .block machine
  rw [visit_eq] at still
  obtain ⟨inner, opened, opens⟩ :
    ∃ inner opened, openScope scope .block none visited = .ok inner opened := ⟨_, _, rfl⟩
  have begin_eq : begin (.statement (.block block) scope) machine =
      .ok (.run (.statements block.statements inner), [.close inner]) opened := by
    simp only [begin, beginStatement, Statement.info, Statement.nodeKind, Bind.bind, EStateM.bind,
      visit_eq, opens]
    rfl
  refine ⟨visited, inner, opened, still, opens, ?_⟩
  rw [step, begin_eq]
  rfl

/-- What is left when the body of a function is over: it is one call less deep, and the frame of the
call is closed. -/
def leaveBody (scope : ScopeId) (machine : Machine) : Machine :=
  { machine with callDepth := machine.callDepth - 1 }.closeScope scope

/-- A call executes the body once its scope is open and the parameters are bound. -/
theorem callClosure_of_opens {closure : Closure} {this : Option Handle} {arguments : List Handle}
    {scope : ScopeId} {machine opened bound : Machine} (span : Span)
    (isLive : machine.scopes.isLive closure.scope)
    (below : machine.callDepth < machine.config.maxCallDepth)
    (opens : openScope closure.scope .function this machine = .ok scope opened)
    (binds : bindParameters scope closure.params arguments opened = .ok () bound) (steps : Nat) :
    let entered := bound.record (.calling (closureName closure) (machine.callDepth + 1))
    callClosure (steps + 1) closure this arguments span machine =
      (afterwards (leaveBody scope) (executeAll steps closure.body.statements scope) >>=
        orUndefined) { entered with callDepth := entered.callDepth + 1 } := by
  intro entered
  have executes : (do
      bindParameters scope closure.params arguments
      record (.calling (closureName closure) (machine.callDepth + 1))
      oneDeeper (executeAll steps closure.body.statements scope) : Eval (Option Handle)) opened =
      leaving .shallower (executeAll steps closure.body.statements scope
        { entered with callDepth := entered.callDepth + 1 }) := by
    rw [bind_at, binds]
    rfl
  have notDeepest : ¬ machine.config.maxCallDepth ≤ machine.callDepth := Nat.not_le.mpr below
  rw [callClosure_succ, isLive, if_neg notDeepest, bind_at, bind_at, inScope_eq_leaving opens,
    executes]
  unfold afterwards
  cases executeAll steps closure.body.statements scope
    { entered with callDepth := entered.callDepth + 1 } <;> rfl

/-- A call enters the body of a function if the scope that the function was made in is open, and
the limit is not reached. The frame it opens is inside that scope. -/
theorem step_body (closure : Closure) (this : Option Handle) (arguments : List Handle) (span : Span)
    (stack : List Pending) {machine : Machine} (isLive : machine.scopes.isLive closure.scope)
    (below : machine.callDepth < machine.config.maxCallDepth) :
    ∃ scope opened entered, openScope closure.scope .function this machine = .ok scope opened ∧
      Undisturbed opened entered ∧
      step ⟨.run (.body closure this arguments span), stack, machine⟩ =
        some ⟨.run (.statements closure.body.statements scope),
          .shallower :: .close scope :: .result :: stack, entered⟩ ∧
      ∀ steps, callClosure (steps + 1) closure this arguments span machine =
        (afterwards (leaveBody scope) (executeAll steps closure.body.statements scope) >>=
          orUndefined) entered := by
  obtain ⟨scope, opened, opens⟩ :
    ∃ scope opened, openScope closure.scope .function this machine = .ok scope opened :=
    ⟨_, _, rfl⟩
  obtain ⟨bound, binds⟩ := bindParameters_ok scope closure.params arguments opened
  have binding := (ordinary_bindParameters scope closure.params arguments).steady opened
  rw [binds] at binding
  have begin_eq : begin (.body closure this arguments span) machine =
      enterBody closure this arguments machine := by
    simp only [begin, beginBody, isLive, Nat.not_le.mpr below, Bool.not_true, Bool.false_eq_true,
      ↓reduceIte]
  let entered := bound.record (.calling (closureName closure) (machine.callDepth + 1))
  have still : Undisturbed opened { entered with callDepth := entered.callDepth + 1 } :=
    (binding.trans (undisturbed_record bound _)).trans ⟨rfl, rfl, fun _ holds => holds⟩
  refine ⟨scope, opened, _, opens, still, ?_, callClosure_of_opens span isLive below opens binds⟩
  rw [step, begin_eq, enterBody_ok opens binds]
  rfl

theorem step_body_exited (closure : Closure) (this : Option Handle) (arguments : List Handle)
    (span : Span) (stack : List Pending) {machine : Machine}
    (gone : machine.scopes.isLive closure.scope = false) :
    step ⟨.run (.body closure this arguments span), stack, machine⟩ =
      some ⟨.stop (.error (.scopeExited (closureName closure) span)), stack, machine⟩ := by
  simp only [step, begin, beginBody, gone, Bool.not_false, ↓reduceIte]
  rfl

theorem step_body_deepest (closure : Closure) (this : Option Handle) (arguments : List Handle)
    (span : Span) (stack : List Pending) {machine : Machine}
    (isLive : machine.scopes.isLive closure.scope)
    (deepest : machine.config.maxCallDepth ≤ machine.callDepth) :
    step ⟨.run (.body closure this arguments span), stack, machine⟩ =
      some ⟨.stop (.error (.callDepthExceeded machine.config.maxCallDepth span)), stack,
        machine⟩ := by
  simp only [step, begin, beginBody, isLive, deepest, Bool.not_true, Bool.false_eq_true,
    ↓reduceIte]
  rfl

theorem depth_lt_of_openScope {parent scope : ScopeId} {kind : ScopeKind} {this : Option Handle}
    {first before opened last : Machine} (earlier : Undisturbed first before)
    (opens : openScope parent kind this before = .ok scope opened)
    (later : Undisturbed opened last) : first.scopes.depth < last.scopes.depth := by
  rw [← ScopeChain.length_outline, ← ScopeChain.length_outline, ← earlier.outline, later.outline,
    scopes_openScope opens, ScopeChain.outline_push, List.length_append]
  exact Nat.lt_succ_self _

theorem openings_of_deeper (state next : State) (past : List State)
    (deeper : state.machine.scopes.depth < next.machine.scopes.depth) :
    openings (next :: state :: past) = openings (state :: past) + 1 := by
  simp only [openings, deeper, ↓reduceIte]
  omega

section Step

variable {state next : State} {past : List State} {history : ScopeHistory}
  (inPlace : InPlace (state :: past) history state)
  (counted : history.opened.length ≤ openings (state :: past))
  (few : openings (next :: state :: past) < 2 ^ 32)

include inPlace

/-- The function that a function expression makes was made in a scope that is open. -/
theorem inPlace_function {info : NodeInfo} {name : Option String} {params : List String}
    {body : Block} {scope : ScopeId}
    (control_eq : state.control = .run (.expression (.function info name params body) scope))
    (next_eq : step state = some next) :
    ∃ after, after.opened = history.opened ∧ InPlace (state :: past) after next := by
  obtain ⟨control, stack, machine⟩ := state
  obtain rfl : control = _ := control_eq
  obtain ⟨stands, directed⟩ := inPlace
  obtain ⟨handle, after, begin_eq, outline_eq, generation_eq, holds⟩ :=
    begin_function info name params body scope machine
  have placed := (directed _ rfl).1 _ rfl
  rw [stands.chain_eq] at placed
  rw [step, begin_eq] at next_eq
  cases next_eq
  have outline_eq : after.scopes.outline = history.chain.outline := by
    rw [outline_eq, stands.chain_eq]
  have succeeds := ScopeHistory.succeeds_rebind outline_eq
  refine ⟨history.rebind after.scopes, rfl, ⟨?_, rfl, ?_, ?_⟩, ?_⟩
  · exact stands.lawful.rebind outline_eq (by rw [generation_eq, stands.chain_eq])
  · intro closure held
    rcases holds closure held with before | rfl
    · exact (stands.made closure before).succeeds succeeds
    · obtain ⟨frame, found⟩ := Option.isSome_iff_exists.mp placed.isSome
      have found : frameIn? machine.scopes.outline scope = some frame := found
      have live : machine.scopes.isLive scope := by rw [ScopeChain.isLive_eq_isSome, found]; rfl
      refine ⟨⟨_, [], ⟨⟨past, rfl⟩, ⟨info, rfl, rfl⟩, live⟩, ?_⟩, ?_, .inr ?_⟩
      · refine List.forall_mem_singleton.mpr (.inr ?_)
        show frameIn? after.scopes.outline scope = _
        rw [outline_eq, stands.chain_eq]
      · rw [← stands.chain_eq] at found
        exact stands.lawful.live scope frame found
      · show Placed _ after.scopes.outline _
        rw [outline_eq, stands.chain_eq]
        refine placed.part rfl fun kinds site member => ?_
        cases body
        exact List.mem_append_left _ member
  · show StackPlaced _ stack after.scopes.outline
    rw [outline_eq, stands.chain_eq]
    exact stands.stack
  · intro task task_eq
    cases task_eq

include counted few

/-- A block is executed in a scope of its own. -/
theorem inPlace_block {block : Block} {scope : ScopeId}
    (control_eq : state.control = .run (.statement (.block block) scope))
    (next_eq : step state = some next) :
    ∃ after, after.opened.length ≤ openings (next :: state :: past) ∧
      InPlace (state :: past) after next := by
  obtain ⟨control, stack, machine⟩ := state
  obtain rfl : control = _ := control_eq
  obtain ⟨stands, directed⟩ := inPlace
  obtain ⟨visited, inner, opened, still, opens, step_eq⟩ := step_block block scope stack machine
  rw [step_eq] at next_eq
  cases next_eq
  have deeper := depth_lt_of_openScope still opens (.refl opened)
  rw [openings_of_deeper ⟨_, stack, machine⟩ ⟨_, _, opened⟩ past deeper] at few ⊢
  obtain ⟨program, ran, kinds, part, enclosed⟩ := (directed _ rfl).1 _ rfl
  rw [stands.chain_eq, ← still.outline] at enclosed
  obtain ⟨visitedStands, _⟩ := stands.undisturbed still
  obtain ⟨after, opened_eq, openedStands, within⟩ :=
    visitedStands.opened (Nat.lt_of_le_of_lt (Nat.succ_le_succ counted) few) opens enclosed
  refine ⟨after, opened_eq ▸ Nat.succ_le_succ counted, openedStands, ?_⟩
  rintro _ ⟨rfl⟩
  refine ⟨?_, nofun⟩
  rintro _ ⟨rfl⟩
  rw [openedStands.chain_eq]
  refine ⟨program, ran, .block :: kinds, List.Subset.trans ?_ part, within⟩
  intro site member
  cases block
  exact List.mem_append_left _ member

/-- The body of a function is executed in a frame inside the one the function was made in, if that
is open, or not at all. -/
theorem inPlace_body {closure : Closure} {this : Option Handle} {arguments : List Handle}
    {span : Span} (control_eq : state.control = .run (.body closure this arguments span))
    (next_eq : step state = some next) :
    ∃ after, after.opened.length ≤ openings (next :: state :: past) ∧
      InPlace (state :: past) after next := by
  obtain ⟨control, stack, machine⟩ := state
  obtain rfl : control = _ := control_eq
  obtain ⟨stands, directed⟩ := inPlace
  cases isLive : machine.scopes.isLive closure.scope with
  | false =>
    rw [step_body_exited _ _ _ _ _ isLive] at next_eq
    cases next_eq
    exact ⟨history, Nat.le_trans counted (Nat.le_add_left _ _), stands, nofun⟩
  | true =>
    by_cases deepest : machine.config.maxCallDepth ≤ machine.callDepth
    · rw [step_body_deepest _ _ _ _ _ isLive deepest] at next_eq
      cases next_eq
      exact ⟨history, Nat.le_trans counted (Nat.le_add_left _ _), stands, nofun⟩
    · obtain ⟨scope, opened, entered, opens, still, step_eq, _⟩ :=
        step_body closure this arguments span stack isLive (Nat.lt_of_not_le deepest)
      rw [step_eq] at next_eq
      cases next_eq
      have deeper := depth_lt_of_openScope (.refl machine) opens still
      rw [openings_of_deeper ⟨_, stack, machine⟩ ⟨_, _, entered⟩ past deeper] at few ⊢
      have placed :=
        ((directed _ rfl).2 closure rfl).placed.resolve_left (stands.not_closed isLive)
      obtain ⟨program, ran, kinds, part, enclosed⟩ := placed
      rw [stands.chain_eq] at enclosed
      have resting : Stands _ history (.result :: stack) machine :=
        { stands with stack := ⟨nofun, stands.stack⟩ }
      obtain ⟨after, opened_eq, openedStands, within⟩ :=
        resting.opened (Nat.lt_of_le_of_lt (Nat.succ_le_succ counted) few) opens enclosed
      obtain ⟨enteredStands, _⟩ := openedStands.undisturbed still
      refine ⟨after.rebind entered.scopes, opened_eq ▸ Nat.succ_le_succ counted, ?_, ?_⟩
      · exact { enteredStands with stack := ⟨nofun, enteredStands.stack⟩ }
      · rintro _ ⟨rfl⟩
        refine ⟨?_, nofun⟩
        rintro _ ⟨rfl⟩
        rw [enteredStands.chain_eq]
        refine ⟨program, ran, .function :: kinds, part, ?_⟩
        rw [still.outline]
        exact within

/-- A step goes on in place. -/
theorem inPlace_step {base : Shape} (opened : base.frames ≠ [])
    (unwinds : Unwinds base state.stack (shape state.machine)) (next_eq : step state = some next) :
    ∃ after, after.opened.length ≤ openings (next :: state :: past) ∧
      InPlace (state :: past) after next := by
  have more : openings (state :: past) ≤ openings (next :: state :: past) := Nat.le_add_left _ _
  have kept {after : ScopeHistory} (same : after.opened = history.opened) :
      after.opened.length ≤ openings (next :: state :: past) := by
    rw [same]
    exact Nat.le_trans counted more
  cases control_eq : state.control with
  | run task =>
    induction task using Task.plainCases with
    | plain task plain =>
      obtain ⟨control, stack, machine⟩ := state
      obtain rfl : control = _ := control_eq
      cases next_eq
      obtain ⟨stands, directed⟩ := inPlace
      have placed := (directed _ rfl).1
      rw [stands.chain_eq] at placed
      obtain ⟨after, same, placedNext⟩ := stands.settle (confined_begin plain) placed
      exact ⟨after, kept same, placedNext⟩
    | function info name params body scope =>
      obtain ⟨after, same, placedNext⟩ := inPlace_function inPlace control_eq next_eq
      exact ⟨after, kept same, placedNext⟩
    | block => exact inPlace_block inPlace counted few control_eq next_eq
    | body => exact inPlace_body inPlace counted few control_eq next_eq
  | give answer =>
    obtain ⟨control, _ | ⟨waiting, stack⟩, machine⟩ := state <;>
      obtain rfl : control = _ := control_eq <;> cases next_eq
    obtain ⟨left, same, leftStands, placed⟩ := inPlace.stands.leave rfl opened unwinds
    obtain ⟨after, same_after, placedNext⟩ :=
      leftStands.settle (confined_proceed waiting answer) placed
    exact ⟨after, kept (same_after.trans same), placedNext⟩
  | stop stop =>
    obtain ⟨control, _ | ⟨waiting, stack⟩, machine⟩ := state <;>
      obtain rfl : control = _ := control_eq <;> cases next_eq
    obtain ⟨left, same, leftStands, _⟩ := inPlace.stands.leave rfl opened unwinds
    refine ⟨left, kept same, leftStands, ?_⟩
    intro task task_eq
    unfold Pending.interrupt at task_eq
    split at task_eq <;> cases task_eq

end Step

end Scriptlet.Run
