import Scriptlet.Proofs.Run.Actions

set_option autoImplicit false

/-!
Runs on machines that mirror each other. As long as neither collects, they take corresponding
steps.
-/
namespace Scriptlet.Run

open Eval Carries

/-- Something that waits alone. -/
theorem related_waiting {n : Naming} {pending : Pending}
    (seen : ∀ handle ∈ pending.handles, n.inView handle) :
    Related n [pending] [renamePending n pending] where
  eq := rfl
  inView handle member := by
    rw [show handles [pending] = pending.handles from List.flatMap_singleton _ _] at member
    exact seen handle member

section Next

variable {n : Naming} {one two : Machine} (mirrors : Mirrors n one two)

include mirrors

theorem parallel_resume {answer copy : Answer} {pending pendingCopy : List Pending}
    (related : Related n answer copy) (pendingRelated : Related n pending pendingCopy) :
    Parallel n one.heap (resume answer pending one) (resume copy pendingCopy two) := by
  refine parallel_pure mirrors
    ⟨?_, List.forall_mem_append.mpr ⟨related.inView, pendingRelated.inView⟩⟩
  rw [related.eq, pendingRelated.eq]
  rfl

theorem parallel_give {answer copy : Answer} (related : Related n answer copy) :
    Parallel n one.heap (give answer one) (give copy two) :=
  parallel_resume mirrors related (.bare rfl rfl)

theorem parallel_giveHandle {handle copy : Handle} (related : Related n handle copy) :
    Parallel n one.heap (giveHandle handle one) (giveHandle copy two) :=
  parallel_give mirrors ⟨congrArg Answer.handle related.eq, related.inView⟩

theorem parallel_giveNative {result copy : NativeResult} (related : Related n result copy) :
    Parallel n one.heap (give (.native result) one) (give (.native copy) two) :=
  parallel_give mirrors ⟨congrArg Answer.native related.eq, related.inView⟩

theorem parallel_goOn {task copy : Task} {pending pendingCopy : List Pending}
    (related : Related n task copy) (pendingRelated : Related n pending pendingCopy) :
    Parallel n one.heap (goOn task pending one) (goOn copy pendingCopy two) := by
  refine parallel_pure mirrors
    ⟨?_, List.forall_mem_append.mpr ⟨related.inView, pendingRelated.inView⟩⟩
  rw [related.eq, pendingRelated.eq]
  rfl

/-- What comes next may wait to go back to a mark that has just been made. -/
theorem parallel_after_mark {β : Type} [Carries β] {rest restCopy : Mark → Eval β}
    (goes : ∀ {mark copy : Mark}, Related n mark copy →
      Parallel n one.heap (rest mark one) (restCopy copy two)) :
    Parallel n one.heap ((rootMark >>= rest) one) ((rootMark >>= restCopy) two) :=
  .after rfl rfl (goes mirrors.related_mark)

theorem parallel_after_openScope {β : Type} [Carries β] {rest restCopy : ScopeId → Eval β}
    (parent : ScopeId) (kind : ScopeKind) {this thisCopy : Option Handle}
    (related : Related n this thisCopy)
    (goes : ∀ {after afterCopy : Machine} (scope : ScopeId), Mirrors n after afterCopy →
      Parallel n after.heap (rest scope after) (restCopy scope afterCopy)) :
    Parallel n one.heap ((openScope parent kind this >>= rest) one)
      ((openScope parent kind thisCopy >>= restCopy) two) := by
  have pushed : two.scopes.push parent kind thisCopy =
      ((one.scopes.push parent kind this).1,
        (one.scopes.push parent kind this).2.rename n.name) := by
    rw [mirrors.scopes, related.eq]
    exact one.scopes.push_rename n.name parent kind this
  have opened : Mirrors n { one with scopes := (one.scopes.push parent kind this).2 }
      { two with scopes := (two.scopes.push parent kind thisCopy).2 } :=
    { mirrors with
      scopesInView := fun handle member => (ScopeChain.mem_roots_push member).elim
        (related.inView handle) (mirrors.scopesInView handle)
      scopes := congrArg Prod.snd pushed }
  let scope : ScopeId := (one.scopes.push parent kind this).1
  let event : Event := .scopePushed scope parent kind
  have outcomeCopy : openScope parent kind thisCopy two =
      .ok scope ({ two with scopes := (two.scopes.push parent kind thisCopy).2 }.record event) := by
    unfold openScope
    rw [pushed]
  have goesOn := goes scope ((opened.record event).recordCopy event)
  rw [heap_record] at goesOn
  exact .after rfl outcomeCopy goesOn

theorem parallel_after_latest {β : Type} [Carries β] {rest restCopy : Option Handle → Eval β}
    {mark markCopy : Mark} {completion completionCopy value valueCopy : Option Handle}
    (markRelated : Related n mark markCopy)
    (completionRelated : Related n completion completionCopy)
    (valueRelated : Related n value valueCopy)
    (goes : ∀ {after afterCopy : Machine} {last lastCopy : Option Handle},
      Mirrors n after afterCopy → Related n last lastCopy →
        Parallel n after.heap (rest last after) (restCopy lastCopy afterCopy)) :
    Parallel n one.heap ((latest mark completion value >>= rest) one)
      ((latest markCopy completionCopy valueCopy >>= restCopy) two) := by
  obtain ⟨rfl, seen⟩ := valueRelated
  cases value with
  | none => exact .after rfl rfl (goes mirrors completionRelated)
  | some value =>
    have related : Related n value (n.name value) :=
      related_handle (seen value (List.mem_singleton_self value))
    have renewed := (mirrors.release markRelated).protectAll related.singleton
    exact .after rfl rfl (goes renewed related.some)

end Next

section Begin

variable {n : Naming} {one two : Machine} (mirrors : Mirrors n one two)

include mirrors

theorem parallel_beginExpression (expression : Expression) (scope : ScopeId) :
    Parallel n one.heap (beginExpression expression scope one)
      (beginExpression expression scope two) := by
  refine parallel_after_visit mirrors _ _ fun mirrors => ?_
  cases expression with
  | literal info value =>
    have childless := Value.children_of_isReference (Value.isReference_ofLiteral value)
    exact (parallel_alloc mirrors (related_childless childless)).bind fun _ mirrors handle =>
      parallel_giveHandle mirrors handle
  | identifier info name =>
    exact parallel_after_lookup mirrors scope name info.span fun handle =>
      parallel_giveHandle mirrors handle
  | this info =>
    exact (parallel_orUndefined mirrors (mirrors.related_this scope)).bind fun _ mirrors handle =>
      parallel_giveHandle mirrors handle
  | call | assignment | sequence | unary | logical =>
    exact parallel_goOn mirrors (.bare rfl rfl) (.bare rfl rfl)
  | member | object | array | binary =>
    refine parallel_after_mark mirrors fun mark => ?_
    rw [mark.eq]
    exact parallel_goOn mirrors (.bare rfl rfl) (.bare rfl rfl)
  | function info name params body =>
    exact (parallel_makeFunction mirrors _ _ _ _ _).bind fun _ mirrors handle =>
      parallel_giveHandle mirrors handle

theorem parallel_beginAssignment (operator : AssignmentOperator) (target value : Expression)
    (scope : ScopeId) :
    Parallel n one.heap (beginAssignment operator target value scope one)
      (beginAssignment operator target value scope two) := by
  cases target with
  | identifier info name =>
    dsimp only [beginAssignment]
    cases operator.binary? with
    | none => exact parallel_goOn mirrors (.bare rfl rfl) (.bare rfl rfl)
    | some operator =>
      refine parallel_after_mark mirrors fun mark => ?_
      refine parallel_after_lookup mirrors scope name info.span fun current => ?_
      refine parallel_after_protect mirrors current fun mirrors => ?_
      rw [mark.eq, current.eq]
      exact parallel_goOn mirrors (.bare rfl rfl) ⟨rfl, current.inView⟩
  | member info object property =>
    refine parallel_after_mark mirrors fun mark => ?_
    rw [mark.eq]
    exact parallel_goOn mirrors (.bare rfl rfl) (.bare rfl rfl)
  | _ => exact parallel_fail mirrors _

theorem parallel_beginCall (callee : Expression) (arguments : List Expression) (span : Span)
    (scope : ScopeId) :
    Parallel n one.heap (beginCall callee arguments span scope one)
      (beginCall callee arguments span scope two) := by
  refine parallel_after_mark mirrors fun mark => ?_
  rw [mark.eq]
  cases callee <;> exact parallel_goOn mirrors (.bare rfl rfl) (.bare rfl rfl)

theorem parallel_beginApply {function functionCopy : Handle} {this thisCopy : Option Handle}
    {arguments copies : List Handle} (functionRelated : Related n function functionCopy)
    (thisRelated : Related n this thisCopy) (argumentsRelated : Related n arguments copies)
    (span : Span) :
    Parallel n one.heap (beginApply function this arguments span one)
      (beginApply functionCopy thisCopy copies span two) := by
  refine parallel_after_deref mirrors functionRelated fun {value _} same => ?_
  rw [same.eq]
  cases value with
  | function closure =>
    refine parallel_goOn mirrors ⟨?_, ?_⟩ (.bare rfl rfl)
    · rw [thisRelated.eq, argumentsRelated.eq]
      rfl
    · exact List.forall_mem_append.mpr ⟨thisRelated.inView, argumentsRelated.inView⟩
  | native name operation =>
    have length_eq : copies.length = arguments.length := by
      rw [argumentsRelated.eq]
      exact List.length_map _
    dsimp only [Carries.rename, Value.rename]
    rw [length_eq]
    exact parallel_after_record mirrors _ fun mirrors => parallel_goOn mirrors
      ⟨congrArg (Task.native operation) argumentsRelated.eq, argumentsRelated.inView⟩
      (.bare rfl rfl)
  | _ => exact parallel_fail mirrors _

theorem parallel_beginNative (operation : Native) (notCollect : operation ≠ .collect)
    {arguments copies : List Handle} (related : Related n arguments copies) :
    Parallel n one.heap (beginNative operation arguments one)
      (beginNative operation copies two) := by
  cases operation with
  | print =>
    exact (parallel_printNative mirrors related).bind fun _ mirrors result =>
      parallel_giveNative mirrors result
  | typeName =>
    exact (parallel_typeNameNative mirrors related).bind fun _ mirrors result =>
      parallel_giveNative mirrors result
  | toText =>
    exact (parallel_toTextNative mirrors related).bind fun _ mirrors result =>
      parallel_giveNative mirrors result
  | toNumber =>
    exact (parallel_toNumberNative mirrors related).bind fun _ mirrors result =>
      parallel_giveNative mirrors result
  | collect => exact absurd rfl notCollect
  | sum =>
    exact (parallel_sumNative mirrors related).bind fun _ mirrors result =>
      parallel_giveNative mirrors result
  | first =>
    exact (parallel_firstArgument mirrors related).bind fun _ mirrors handle =>
      parallel_giveNative mirrors handle.ok
  | fail =>
    exact (parallel_failNative mirrors related).bind fun _ mirrors result =>
      parallel_giveNative mirrors result
  | apply =>
    cases arguments with
    | nil =>
      obtain ⟨rfl, _⟩ := related
      exact parallel_giveNative mirrors (.bare rfl rfl)
    | cons function arguments =>
      obtain ⟨copy, restCopy, rfl, head, tail⟩ := related.head
      refine parallel_goOn mirrors ⟨?_, ?_⟩ (.bare rfl rfl)
      · rw [head.eq, tail.head?.eq, tail.eq]
        rfl
      · exact List.forall_mem_cons.mpr
          ⟨head.seen, List.forall_mem_append.mpr ⟨tail.head?.inView, tail.inView⟩⟩

theorem parallel_beginStatement (statement : Statement) (scope : ScopeId) :
    Parallel n one.heap (beginStatement statement scope one)
      (beginStatement statement scope two) := by
  refine parallel_after_visit mirrors _ _ fun mirrors => ?_
  cases statement with
  | declaration | conditional | expression =>
    exact parallel_goOn mirrors (.bare rfl rfl) (.bare rfl rfl)
  | «while» =>
    refine parallel_after_mark mirrors fun mark => ?_
    rw [mark.eq]
    exact parallel_goOn mirrors (.bare rfl rfl) (.bare rfl rfl)
  | block block =>
    exact parallel_after_openScope mirrors scope .block related_none fun _ mirrors =>
      parallel_goOn mirrors (.bare rfl rfl) (.bare rfl rfl)

theorem parallel_enterBody (closure : Closure) {this thisCopy : Option Handle}
    {arguments copies : List Handle} (thisRelated : Related n this thisCopy)
    (argumentsRelated : Related n arguments copies) :
    Parallel n one.heap (enterBody closure this arguments one)
      (enterBody closure thisCopy copies two) := by
  show Parallel n one.heap
    ((openScope closure.scope .function this >>= fun scope => do
      bindParameters scope closure.params arguments
      Eval.record (.calling (closureName closure) (one.callDepth + 1))
      deepen
      goOn (.statements closure.body.statements scope) [.shallower, .close scope, .result]) one)
    ((openScope closure.scope .function thisCopy >>= fun scope => do
      bindParameters scope closure.params copies
      Eval.record (.calling (closureName closure) (two.callDepth + 1))
      deepen
      goOn (.statements closure.body.statements scope) [.shallower, .close scope, .result]) two)
  rw [mirrors.callDepth]
  refine parallel_after_openScope mirrors _ _ thisRelated fun scope mirrors => ?_
  refine (parallel_bindParameters mirrors _ _ argumentsRelated).bind fun _ mirrors _ => ?_
  refine parallel_after_record mirrors _ fun mirrors => ?_
  refine parallel_after_modify rfl ?_ fun mirrors =>
    parallel_goOn mirrors (.bare rfl rfl) (.bare rfl rfl)
  exact { mirrors with callDepth := congrArg (· + 1) mirrors.callDepth }

theorem parallel_beginBody (closure : Closure) {this thisCopy : Option Handle}
    {arguments copies : List Handle} (thisRelated : Related n this thisCopy)
    (argumentsRelated : Related n arguments copies) (span : Span) :
    Parallel n one.heap (beginBody closure this arguments span one)
      (beginBody closure thisCopy copies span two) := by
  dsimp only [beginBody]
  rw [mirrors.scopes, ScopeChain.isLive_rename, mirrors.limit, mirrors.callDepth]
  split
  · exact parallel_fail mirrors _
  · split
    · exact parallel_fail mirrors _
    · exact parallel_enterBody mirrors closure thisRelated argumentsRelated

def Task.Collects : Task → Prop
  | .native .collect _ => True
  | .nextStatement .. => True
  | .nextTest .. => True
  | _ => False

theorem parallel_begin {task copy : Task} (related : Related n task copy)
    (quiet : ¬ task.Collects) : Parallel n one.heap (begin task one) (begin copy two) := by
  obtain ⟨rfl, seen⟩ := related
  cases task with
  | program program scope =>
    refine parallel_after_mark mirrors fun mark => ?_
    refine parallel_after_visit mirrors _ _ fun mirrors => ?_
    refine parallel_after_visit mirrors _ _ fun mirrors => ?_
    rw [mark.eq]
    exact parallel_goOn mirrors (.bare rfl rfl) (.bare rfl rfl)
  | expression expression scope => exact parallel_beginExpression mirrors expression scope
  | expressions expressions scope =>
    cases expressions with
    | nil => exact parallel_give mirrors (.bare rfl rfl)
    | cons => exact parallel_goOn mirrors (.bare rfl rfl) (.bare rfl rfl)
  | sequence expressions scope last =>
    cases expressions with
    | nil =>
      have related : Related n last (last.map n.name) := ⟨rfl, seen⟩
      exact (parallel_orUndefined mirrors related).bind fun _ mirrors handle =>
        parallel_giveHandle mirrors handle
    | cons => exact parallel_goOn mirrors (.bare rfl rfl) (.bare rfl rfl)
  | key property scope =>
    cases property with
    | named name => exact parallel_give mirrors (.bare rfl rfl)
    | computed => exact parallel_goOn mirrors (.bare rfl rfl) (.bare rfl rfl)
  | assignment operator target value scope =>
    exact parallel_beginAssignment mirrors operator target value scope
  | call callee arguments span scope => exact parallel_beginCall mirrors callee arguments span scope
  | apply function this arguments span =>
    obtain ⟨functionSeen, seen⟩ := List.forall_mem_cons.mp seen
    obtain ⟨thisSeen, argumentsSeen⟩ := List.forall_mem_append.mp seen
    exact parallel_beginApply mirrors (related_handle functionSeen) ⟨rfl, thisSeen⟩
      ⟨rfl, argumentsSeen⟩ span
  | body closure this arguments span =>
    obtain ⟨thisSeen, argumentsSeen⟩ := List.forall_mem_append.mp seen
    exact parallel_beginBody mirrors closure ⟨rfl, thisSeen⟩ ⟨rfl, argumentsSeen⟩ span
  | native operation arguments =>
    refine parallel_beginNative mirrors operation ?_ ⟨rfl, seen⟩
    rintro rfl
    exact quiet trivial
  | host function this arguments =>
    obtain ⟨functionSeen, rest⟩ := List.forall_mem_cons.mp seen
    obtain ⟨thisSeen, argumentsSeen⟩ := List.forall_mem_append.mp rest
    have functionRelated : Related n function (n.name function) := related_handle functionSeen
    have thisRelated : Related n this (this.map n.name) := ⟨rfl, thisSeen⟩
    have argumentsRelated : Related n arguments (arguments.map n.name) := ⟨rfl, argumentsSeen⟩
    have held := functionRelated.cons (thisRelated.toList.append argumentsRelated)
    refine parallel_after_mark mirrors fun mark => ?_
    refine parallel_after_modify rfl (mirrors.protectAll held) fun mirrors => ?_
    rw [mark.eq]
    exact parallel_goOn mirrors ⟨rfl, seen⟩ (.bare rfl rfl)
  | tally freed =>
    exact (parallel_alloc mirrors (related_childless rfl)).bind fun _ mirrors handle =>
      parallel_giveNative mirrors handle.ok
  | statements statements scope =>
    refine parallel_after_mark mirrors fun mark => ?_
    rw [mark.eq]
    exact parallel_resume mirrors (.bare rfl rfl) (.bare rfl rfl)
  | statement statement scope => exact parallel_beginStatement mirrors statement scope
  | declarations declarators scope =>
    cases declarators with
    | nil => exact parallel_give mirrors (.bare rfl rfl)
    | cons declarator rest =>
      obtain ⟨info, name, init⟩ := declarator
      refine parallel_after_visit mirrors _ _ fun mirrors => ?_
      cases init with
      | some init => exact parallel_goOn mirrors (.bare rfl rfl) (.bare rfl rfl)
      | none =>
        refine (parallel_alloc mirrors (related_childless rfl)).bind fun _ mirrors handle => ?_
        exact parallel_after_declare mirrors _ _ handle fun mirrors =>
          parallel_goOn mirrors (.bare rfl rfl) (.bare rfl rfl)
  | nextStatement | nextTest => exact absurd trivial quiet

end Begin

theorem tableOf_rename (f : Handle → Handle) (properties : List ObjectProperty)
    (handles : List Handle) :
    (tableOf properties handles).rename f = tableOf properties (handles.map f) := by
  rw [tableOf, tableOf, PropertyMap.ofList_rename, List.zip_map_right]
  rfl

theorem handles_tableOf_subset (properties : List ObjectProperty) (handles : List Handle) :
    (tableOf properties handles).handles ⊆ handles := by
  intro handle member
  obtain ⟨entry, zipped, rfl⟩ := List.mem_map.mp (PropertyMap.mem_handles_ofList member)
  exact (List.of_mem_zip zipped).2

section Proceed

variable {n : Naming} {one two : Machine} (mirrors : Mirrors n one two)

include mirrors

theorem parallel_proceed_handle {pending : Pending} {handle : Handle}
    (seen : ∀ handle ∈ pending.handles, n.inView handle) (handleSeen : n.inView handle) :
    Parallel n one.heap (proceed pending (.handle handle) one)
      (proceed (renamePending n pending) (.handle (n.name handle)) two) := by
  have related : Related n handle (n.name handle) := related_handle handleSeen
  cases pending with
  | memberKey | rightOperand | moreExpressions | storeKey | calleeKey =>
    exact parallel_after_protect mirrors related fun mirrors =>
      parallel_goOn mirrors (.bare rfl rfl) ⟨rfl, related.inView⟩
  | arguments arguments span scope =>
    exact parallel_after_protect mirrors related fun mirrors =>
      parallel_goOn mirrors (.bare rfl rfl) ⟨rfl, related.inView⟩
  | unary operator =>
    refine parallel_after_deref mirrors related fun {value _} same => ?_
    rw [same.applyUnary_eq]
    have childless := Value.children_of_isReference (value.isReference_applyUnary operator)
    exact (parallel_alloc mirrors (related_childless childless)).bind fun _ mirrors handle =>
      parallel_giveHandle mirrors handle
  | binary operator left mark =>
    have leftRelated : Related n left (n.name left) := ⟨rfl, seen⟩
    exact (parallel_applyBinary mirrors operator leftRelated related).bind fun _ mirrors handle =>
      parallel_giveHandle mirrors handle
  | logical operator right scope =>
    refine parallel_after_deref mirrors related fun value => ?_
    rw [value.isTruthy_eq]
    split
    · exact parallel_giveHandle mirrors related
    · exact parallel_goOn mirrors (.bare rfl rfl) (.bare rfl rfl)
  | moreSequence rest scope => exact parallel_goOn mirrors ⟨rfl, related.inView⟩ (.bare rfl rfl)
  | selector =>
    refine parallel_after_deref mirrors related fun {value copy} same => ?_
    have key_eq : PropertyKey.ofValue two.heap copy = PropertyKey.ofValue one.heap value := by
      rw [same.eq]
      exact mirrors.copies.ofValue_rename same.inView
    show Parallel n one.heap (give (.key (.ofValue one.heap value)) one)
      (give (.key (.ofValue two.heap copy)) two)
    rw [key_eq]
    exact parallel_give mirrors (.bare rfl rfl)
  | assign name scope =>
    exact parallel_after_assign mirrors scope name related fun mirrors =>
      parallel_giveHandle mirrors related
  | store target key =>
    have targetRelated : Related n target (n.name target) := ⟨rfl, seen⟩
    exact (parallel_setProperty mirrors targetRelated key related).bind fun grows mirrors _ =>
      parallel_giveHandle mirrors (related.mono grows)
  | compoundName operator current name scope mark =>
    have currentRelated : Related n current (n.name current) := ⟨rfl, seen⟩
    refine (parallel_applyBinary mirrors operator currentRelated related).bind
      fun _ mirrors value => ?_
    exact parallel_after_assign mirrors scope name value fun mirrors =>
      parallel_giveHandle mirrors value
  | compoundProperty operator current target key =>
    obtain ⟨currentSeen, targetSeen⟩ := List.forall_mem_cons.mp seen
    have currentRelated : Related n current (n.name current) := related_handle currentSeen
    have targetRelated : Related n target (n.name target) := ⟨rfl, targetSeen⟩
    refine (parallel_applyBinary mirrors operator currentRelated related).bind
      fun grows mirrors value => ?_
    refine (parallel_setProperty mirrors (targetRelated.mono grows) key value).bind
      fun grows mirrors _ => ?_
    exact parallel_giveHandle mirrors (value.mono grows)
  | attempt => exact parallel_give mirrors ⟨rfl, related.inView⟩
  | branch consequent alternate scope =>
    refine parallel_after_deref mirrors related fun value => ?_
    rw [value.isTruthy_eq]
    split
    · exact parallel_goOn mirrors (.bare rfl rfl) (.bare rfl rfl)
    · cases alternate with
      | none => exact parallel_give mirrors (.bare rfl rfl)
      | some alternate => exact parallel_goOn mirrors (.bare rfl rfl) (.bare rfl rfl)
  | value => exact parallel_give mirrors ⟨rfl, related.inView⟩
  | declare name rest scope =>
    exact parallel_after_declare mirrors scope name related fun mirrors =>
      parallel_goOn mirrors (.bare rfl rfl) (.bare rfl rfl)
  | turn test body scope mark completion =>
    refine parallel_after_deref mirrors related fun value => ?_
    rw [value.isTruthy_eq]
    split
    · exact parallel_goOn mirrors (.bare rfl rfl) (related_waiting seen)
    · exact parallel_give mirrors ⟨rfl, seen⟩
  | _ => exact parallel_give mirrors ⟨rfl, related.inView⟩

theorem parallel_proceed_handles {pending : Pending} {handles : List Handle}
    (seen : ∀ handle ∈ pending.handles, n.inView handle)
    (handlesSeen : ∀ handle ∈ handles, n.inView handle) :
    Parallel n one.heap (proceed pending (.handles handles) one)
      (proceed (renamePending n pending) (.handles (handles.map n.name)) two) := by
  have related : Related n handles (handles.map n.name) := ⟨rfl, handlesSeen⟩
  cases pending with
  | object properties =>
    have tables : Related n (Value.object (tableOf properties handles))
        (.object (tableOf properties (handles.map n.name))) :=
      ⟨congrArg Value.object (tableOf_rename n.name properties handles).symm,
        fun handle member => handlesSeen handle (handles_tableOf_subset properties handles member)⟩
    exact (parallel_alloc mirrors tables).bind fun _ mirrors handle =>
      parallel_giveHandle mirrors handle
  | array =>
    have arrays : Related n (Value.array handles.toArray .empty)
        (.array (handles.map n.name).toArray .empty) := by
      refine ⟨?_, fun handle member => handlesSeen handle ?_⟩
      · simp [Carries.rename, Value.rename, PropertyMap.rename, PropertyMap.empty]
      · simpa [Carries.handles, Value.children, PropertyMap.handles, PropertyMap.toList,
          PropertyMap.empty] using member
    exact (parallel_alloc mirrors arrays).bind fun _ mirrors handle =>
      parallel_giveHandle mirrors handle
  | before handle =>
    have first : Related n handle (n.name handle) := ⟨rfl, seen⟩
    exact parallel_give mirrors ⟨rfl, (first.cons related).inView⟩
  | apply function this span =>
    obtain ⟨functionSeen, thisSeen⟩ := List.forall_mem_cons.mp seen
    refine parallel_goOn mirrors ⟨rfl, ?_⟩ (.bare rfl rfl)
    exact List.forall_mem_cons.mpr
      ⟨functionSeen, List.forall_mem_append.mpr ⟨thisSeen, handlesSeen⟩⟩
  | _ => exact parallel_give mirrors ⟨rfl, handlesSeen⟩

theorem parallel_proceed_key {pending : Pending} {key : PropertyKey}
    (seen : ∀ handle ∈ pending.handles, n.inView handle) :
    Parallel n one.heap (proceed pending (.key key) one)
      (proceed (renamePending n pending) (.key key) two) := by
  cases pending with
  | memberRead target mark =>
    have targetRelated : Related n target (n.name target) := ⟨rfl, seen⟩
    have markRelated : Related n mark (rename n mark) := .bare rfl rfl
    exact (parallel_getProperty mirrors targetRelated key).bind fun grows mirrors handle =>
      parallel_after_release mirrors (markRelated.mono grows) fun mirrors =>
        parallel_giveHandle mirrors handle
  | storeValue operator target value scope =>
    have targetRelated : Related n target (n.name target) := ⟨rfl, seen⟩
    dsimp only [proceed, renamePending]
    cases operator.binary? with
    | none => exact parallel_goOn mirrors (.bare rfl rfl) ⟨rfl, targetRelated.inView⟩
    | some operator =>
      refine (parallel_getProperty mirrors targetRelated key).bind fun grows mirrors current => ?_
      replace targetRelated := targetRelated.mono grows
      refine parallel_after_protect mirrors current fun mirrors => ?_
      rw [current.eq, targetRelated.eq]
      have held := current.cons targetRelated.singleton
      exact parallel_goOn mirrors (.bare rfl rfl) ⟨rfl, held.inView⟩
  | calleeRead target arguments span scope =>
    have targetRelated : Related n target (n.name target) := ⟨rfl, seen⟩
    refine (parallel_getProperty mirrors targetRelated key).bind fun grows mirrors function => ?_
    replace targetRelated := targetRelated.mono grows
    refine parallel_after_protect mirrors function fun mirrors => ?_
    rw [function.eq, targetRelated.eq]
    have held := function.cons targetRelated.singleton
    exact parallel_goOn mirrors (.bare rfl rfl) ⟨rfl, held.inView⟩
  | _ => exact parallel_give mirrors (.bare rfl rfl)

theorem parallel_proceed_native {pending : Pending} {result copy : NativeResult}
    (related : Related n result copy) :
    Parallel n one.heap (proceed pending (.native result) one)
      (proceed (renamePending n pending) (.native copy) two) := by
  obtain ⟨rfl, seen⟩ := related
  cases pending with
  | nativeResult name span =>
    cases result with
    | ok handle => exact parallel_giveHandle mirrors ⟨rfl, seen⟩
    | error message => exact parallel_fail mirrors _
  | _ => exact parallel_give mirrors ⟨rfl, seen⟩

theorem parallel_proceed_completion {pending : Pending} {value copy : Option Handle}
    (seen : ∀ handle ∈ pending.handles, n.inView handle) (related : Related n value copy) :
    Parallel n one.heap (proceed pending (.completion value) one)
      (proceed (renamePending n pending) (.completion copy) two) := by
  cases pending with
  | program | result =>
    exact (parallel_orUndefined mirrors related).bind fun _ mirrors handle =>
      parallel_giveHandle mirrors handle
  | moreStatements statements scope mark completion =>
    refine parallel_after_latest mirrors (.bare rfl rfl) ⟨rfl, seen⟩ related fun mirrors last => ?_
    rw [last.eq]
    cases statements with
    | nil => exact parallel_give mirrors ⟨rfl, last.inView⟩
    | cons statement rest =>
      exact parallel_goOn mirrors (.bare rfl rfl) (related_waiting last.inView)
  | nextTurn test body scope mark completion =>
    refine parallel_after_latest mirrors (.bare rfl rfl) ⟨rfl, seen⟩ related fun mirrors last => ?_
    rw [last.eq]
    exact parallel_goOn mirrors (.bare rfl rfl) (related_waiting last.inView)
  | _ => exact parallel_give mirrors ⟨congrArg Answer.completion related.eq, related.inView⟩

theorem parallel_proceed {pending : Pending} {answer copy : Answer}
    (seen : ∀ handle ∈ pending.handles, n.inView handle) (related : Related n answer copy) :
    Parallel n one.heap (proceed pending answer one)
      (proceed (renamePending n pending) copy two) := by
  obtain ⟨rfl, answerSeen⟩ := related
  cases answer with
  | handle handle =>
    exact parallel_proceed_handle mirrors seen (answerSeen handle (List.mem_singleton_self handle))
  | handles handles => exact parallel_proceed_handles mirrors seen answerSeen
  | key key => exact parallel_proceed_key mirrors seen
  | native result => exact parallel_proceed_native mirrors ⟨rfl, answerSeen⟩
  | completion value => exact parallel_proceed_completion mirrors seen ⟨rfl, answerSeen⟩

end Proceed

end Scriptlet.Run
