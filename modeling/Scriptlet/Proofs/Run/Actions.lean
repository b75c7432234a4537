import Mathlib.Logic.Function.Basic
import Scriptlet.Proofs.Run.Mirror

set_option autoImplicit false

/-!
The actions that a run is made of, done on machines that mirror each other. They have results that
are alike, and the machines mirror each other again. No such action frees a slot.
-/
namespace Scriptlet.Run

open Eval Carries

section After

variable {α β : Type} [Carries β] {n : Naming} {before : Heap} {one two : Machine}

/-- What comes after actions whose values are known. -/
theorem Parallel.after {action copy : Eval α} {rest restCopy : α → Eval β} {value valueCopy : α}
    {after afterCopy : Machine} (outcome : action one = .ok value after)
    (outcomeCopy : copy two = .ok valueCopy afterCopy)
    (parallel : Parallel n before (rest value after) (restCopy valueCopy afterCopy)) :
    Parallel n before ((action >>= rest) one) ((copy >>= restCopy) two) := by
  rw [bind_at, bind_at, outcome, outcomeCopy]
  exact parallel

/-- What comes after a change that leaves the heaps alone. -/
theorem parallel_after_modify {change changeCopy : Machine → Machine}
    {rest restCopy : Unit → Eval β} (heap_eq : (change one).heap = one.heap)
    (changed : Mirrors n (change one) (changeCopy two))
    (goes : ∀ {after afterCopy : Machine}, Mirrors n after afterCopy →
      Parallel n after.heap (rest () after) (restCopy () afterCopy)) :
    Parallel n one.heap (((modify change : Eval Unit) >>= rest) one)
      (((modify changeCopy : Eval Unit) >>= restCopy) two) := by
  apply Parallel.after rfl rfl
  have parallel := goes changed
  rwa [heap_eq] at parallel

variable {rest restCopy : Unit → Eval β} (mirrors : Mirrors n one two)

include mirrors

theorem parallel_after_record (event : Event)
    (goes : ∀ {after afterCopy : Machine}, Mirrors n after afterCopy →
      Parallel n after.heap (rest () after) (restCopy () afterCopy)) :
    Parallel n one.heap ((Eval.record event >>= rest) one)
      ((Eval.record event >>= restCopy) two) :=
  parallel_after_modify (heap_record one event) ((mirrors.record event).recordCopy event) goes

theorem parallel_after_visit (info : NodeInfo) (kind : NodeKind)
    (goes : ∀ {after afterCopy : Machine}, Mirrors n after afterCopy →
      Parallel n after.heap (rest () after) (restCopy () afterCopy)) :
    Parallel n one.heap ((visit info kind >>= rest) one) ((visit info kind >>= restCopy) two) := by
  apply parallel_after_modify _ _ goes
  · split
    · exact heap_record one _
    · rfl
  · split <;> split
    · exact (mirrors.record _).recordCopy _
    · exact mirrors.record _
    · exact mirrors.recordCopy _
    · exact mirrors

theorem parallel_after_protect {handle copy : Handle} (related : Related n handle copy)
    (goes : ∀ {after afterCopy : Machine}, Mirrors n after afterCopy →
      Parallel n after.heap (rest () after) (restCopy () afterCopy)) :
    Parallel n one.heap ((protect handle >>= rest) one) ((protect copy >>= restCopy) two) :=
  parallel_after_modify rfl (mirrors.protectAll related.singleton) goes

theorem parallel_after_release {mark copy : Mark} (related : Related n mark copy)
    (goes : ∀ {after afterCopy : Machine}, Mirrors n after afterCopy →
      Parallel n after.heap (rest () after) (restCopy () afterCopy)) :
    Parallel n one.heap ((release mark >>= rest) one) ((release copy >>= restCopy) two) :=
  parallel_after_modify rfl (mirrors.release related) goes

omit mirrors in
theorem deref_of_get? {machine : Machine} {handle : Handle} {value : Value}
    (found : machine.heap.get? handle = some value) :
    deref handle machine = .ok value machine := by
  unfold deref
  rw [found]

theorem parallel_after_deref {rest restCopy : Value → Eval β} {handle copy : Handle}
    (related : Related n handle copy)
    (goes : ∀ {value valueCopy : Value}, Related n value valueCopy →
      Parallel n one.heap (rest value one) (restCopy valueCopy two)) :
    Parallel n one.heap ((deref handle >>= rest) one) ((deref copy >>= restCopy) two) := by
  obtain ⟨rfl, seen⟩ := related
  obtain ⟨value, found, foundCopy, children⟩ :=
    mirrors.copies.exists_value (seen handle (List.mem_singleton_self handle))
  exact .after (deref_of_get? found) (deref_of_get? foundCopy) (goes ⟨rfl, children⟩)

theorem parallel_after_lookup {rest restCopy : Handle → Eval β} (scope : ScopeId) (name : String)
    (span : Span)
    (goes : ∀ {handle copy : Handle}, Related n handle copy →
      Parallel n one.heap (rest handle one) (restCopy copy two)) :
    Parallel n one.heap ((lookup scope name span >>= rest) one)
      ((lookup scope name span >>= restCopy) two) := by
  have named := one.scopes.lookup?_rename n.name scope name
  rw [← mirrors.scopes] at named
  rw [bind_at, bind_at, lookup_at, lookup_at, named]
  cases found : one.scopes.lookup? scope name with
  | none => exact fun _ _ => ⟨rfl, nofun, n, .refl n one.heap, mirrors⟩
  | some handle =>
    exact goes (related_handle
      (mirrors.scopesInView handle (ScopeChain.mem_roots_of_lookup? found)))

theorem parallel_after_declare (scope : ScopeId) (name : String) {handle copy : Handle}
    (related : Related n handle copy)
    (goes : ∀ {after afterCopy : Machine}, Mirrors n after afterCopy →
      Parallel n after.heap (rest () after) (restCopy () afterCopy)) :
    Parallel n one.heap ((declare scope name handle >>= rest) one)
      ((declare scope name copy >>= restCopy) two) := by
  refine parallel_after_modify rfl ?_ goes
  obtain ⟨rfl, seen⟩ := related
  exact { mirrors with
    scopesInView := fun other member => by
      rcases ScopeChain.mem_roots_declare member with rfl | before
      · exact seen other (List.mem_singleton_self other)
      · exact mirrors.scopesInView other before
    scopes := by
      rw [ScopeChain.declare_rename, mirrors.scopes]
      rfl }

theorem parallel_after_assign (scope : ScopeId) (name : String) {handle copy : Handle}
    (related : Related n handle copy)
    (goes : ∀ {after afterCopy : Machine}, Mirrors n after afterCopy →
      Parallel n after.heap (rest () after) (restCopy () afterCopy)) :
    Parallel n one.heap ((assign scope name handle >>= rest) one)
      ((assign scope name copy >>= restCopy) two) := by
  refine parallel_after_modify rfl ?_ goes
  obtain ⟨rfl, seen⟩ := related
  exact { mirrors with
    scopesInView := fun other member => by
      rcases ScopeChain.mem_roots_assign member with rfl | before
      · exact seen other (List.mem_singleton_self other)
      · exact mirrors.scopesInView other before
    scopes := by
      rw [ScopeChain.assign_rename, mirrors.scopes]
      rfl }

end After

section Actions

variable {n : Naming} {one two : Machine} (mirrors : Mirrors n one two)

include mirrors

theorem Mirrors.related_this (scope : ScopeId) :
    Related n (one.scopes.this? scope) (two.scopes.this? scope) where
  eq := by
    rw [mirrors.scopes]
    exact one.scopes.this?_rename n.name scope
  inView handle member :=
    mirrors.scopesInView handle (ScopeChain.mem_roots_of_this? (Option.mem_toList.mp member))

omit mirrors in
/-- The name of a new slot is added to the names of the others. -/
theorem copies_alloc {heap heapCopy : Heap} (copies : heap.Copies n.name n.inView heapCopy)
    (consistent : heap.Consistent) (consistentCopy : heapCopy.Consistent) {value : Value}
    (children : ∀ child ∈ value.children, n.inView child)
    (room : (heap.alloc value).2.slotCount ≤ 2 ^ 32)
    (roomCopy : (heapCopy.alloc (value.rename n.name)).2.slotCount ≤ 2 ^ 32) :
    let copied := heapCopy.alloc (value.rename n.name)
    let m : Naming :=
      { name := Function.update n.name (heap.alloc value).1 copied.1
        inView := fun handle => handle = (heap.alloc value).1 ∨ n.inView handle
        extra := n.extra }
    Grows n heap m (heap.alloc value).2 ∧ (heap.alloc value).2.Copies m.name m.inView copied.2 := by
  intro copied m
  have fresh : ¬ heap.isLive (heap.alloc value).1 := consistent.not_isLive_alloc value room
  have freshCopy : ¬ heapCopy.isLive copied.1 := consistentCopy.not_isLive_alloc _ roomCopy
  have apart {handle : Handle} (seen : n.inView handle) : handle ≠ (heap.alloc value).1 := by
    rintro rfl
    exact fresh (copies.live _ seen)
  have apartCopy {handle : Handle} (seen : n.inView handle) : n.name handle ≠ copied.1 := by
    intro same
    exact freshCopy (same ▸ copies.isLive_copy seen)
  have same {handle : Handle} (seen : n.inView handle) : m.name handle = n.name handle :=
    Function.update_of_ne (apart seen) _ _
  have here : m.name (heap.alloc value).1 = copied.1 := Function.update_self ..
  have stays {handle : Handle} (live : heap.isLive handle) :
      (heap.alloc value).2.get? handle = heap.get? handle :=
    consistent.get?_alloc_of_isLive value live
  have liveAfter {handle : Handle} (live : heap.isLive handle) :
      (heap.alloc value).2.isLive handle := by
    rw [Heap.isLive, stays live]
    exact live
  have filled : (heap.alloc value).2.get? (heap.alloc value).1 = some value :=
    (consistent.get?_alloc value room _).trans (if_pos rfl)
  constructor
  · refine ⟨fun _ => .inr, fun _ => same, rfl, fun _ => liveAfter, ?_, ?_⟩
    · intro handle live
      rw [Heap.isLive, consistent.get?_alloc value room] at live
      split at live
      · exact .inr (.inl ‹_›)
      · exact .inl live
    · unfold Heap.alloc
      split <;> rfl
  · constructor
    · rintro handle (rfl | seen)
      · exact Heap.isLive_of_get? filled
      · exact liveAfter (copies.live handle seen)
    · rintro handle found (rfl | seen) found_eq child member
      · cases filled.symm.trans found_eq
        exact .inr (children child member)
      · rw [stays (copies.live handle seen)] at found_eq
        exact .inr (copies.closed handle found seen found_eq child member)
    · rintro left right (rfl | leftSeen) (rfl | rightSeen) equal
      · rfl
      · rw [here, same rightSeen] at equal
        exact absurd equal.symm (apartCopy rightSeen)
      · rw [here, same leftSeen] at equal
        exact absurd equal (apartCopy leftSeen)
      · rw [same leftSeen, same rightSeen] at equal
        exact copies.injective left right leftSeen rightSeen equal
    · rintro handle found (rfl | seen) found_eq
      · cases filled.symm.trans found_eq
        rw [here, consistentCopy.get?_alloc _ roomCopy, if_pos rfl,
          Value.rename_congr fun child member => same (children child member)]
      · rw [stays (copies.live handle seen)] at found_eq
        rw [same seen, consistentCopy.get?_alloc_of_isLive _ (copies.isLive_copy seen),
          copies.copied handle found seen found_eq, Value.rename_congr fun child member =>
            same (copies.closed handle found seen found_eq child member)]

/-- The copy of a value is put into a slot of its own. -/
theorem parallel_alloc {value copy : Value} (related : Related n value copy) :
    Parallel n one.heap (alloc value one) (alloc copy two) := by
  intro room roomCopy
  obtain ⟨rfl, children⟩ := related
  obtain ⟨grows, copies⟩ :=
    copies_alloc mirrors.copies mirrors.consistent mirrors.consistentCopy children room roomCopy
  refine ⟨_, grows, mirrors.grow grows (mirrors.consistent.alloc value)
    (mirrors.consistentCopy.alloc _) copies, ?_, List.forall_mem_singleton.mpr (.inl rfl)⟩
  exact (Function.update_self (one.heap.alloc value).1
    (two.heap.alloc (value.rename n.name)).1 n.name).symm

theorem parallel_update {handle handleCopy : Handle} (related : Related n handle handleCopy)
    {change changeCopy : Value → Value}
    (commutes : ∀ value, (change value).rename n.name = changeCopy (value.rename n.name))
    (children : ∀ value, ∀ child ∈ (change value).children,
      child ∈ value.children ∨ n.inView child) :
    Parallel n one.heap (update handle change one) (update handleCopy changeCopy two) := by
  obtain ⟨rfl, seen⟩ := related
  have seen : n.inView handle := seen handle (List.mem_singleton_self handle)
  have live : one.heap.isLive handle := mirrors.copies.live handle seen
  have liveCopy : two.heap.isLive (n.name handle) := mirrors.copies.isLive_copy seen
  have grows : Grows n one.heap n (one.heap.modify handle change) :=
    ⟨fun _ seen => seen, fun _ _ => rfl, rfl, fun other live => by rwa [Heap.isLive_modify],
      fun other live => .inl (by rwa [Heap.isLive_modify] at live), rfl⟩
  have copies : (one.heap.modify handle change).Copies n.name n.inView
      (two.heap.modify (n.name handle) changeCopy) := by
    refine ⟨?_, ?_, mirrors.copies.injective, ?_⟩
    · intro other otherSeen
      rw [Heap.isLive_modify]
      exact mirrors.copies.live other otherSeen
    · intro other value otherSeen found child member
      rw [Heap.get?_modify] at found
      split at found
      · obtain ⟨former, former_eq, rfl⟩ := Option.map_eq_some_iff.mp found
        rcases children former child member with before | inView
        · exact mirrors.copies.closed handle former seen former_eq child before
        · exact inView
      · exact mirrors.copies.closed other value otherSeen found child member
    · intro other value otherSeen found
      rw [Heap.get?_modify] at found ⊢
      split at found
      · rename_i same
        obtain ⟨former, former_eq, rfl⟩ := Option.map_eq_some_iff.mp found
        rw [if_pos (congrArg n.name same), mirrors.copies.copied handle former seen former_eq,
          commutes]
        rfl
      · rename_i apart
        have apartCopy : n.name other ≠ n.name handle := fun same =>
          apart (mirrors.copies.injective other handle otherSeen seen same)
        rw [if_neg apartCopy, mirrors.copies.copied other value otherSeen found]
  unfold update
  rw [if_pos live, if_pos (show two.heap.isLive (rename n handle) from liveCopy)]
  exact fun _ _ => ⟨n, grows, mirrors.grow grows (mirrors.consistent.modify handle change)
    (mirrors.consistentCopy.modify (n.name handle) changeCopy) copies, rfl, nofun⟩

theorem parallel_orUndefined {completion copy : Option Handle}
    (related : Related n completion copy) :
    Parallel n one.heap (orUndefined completion one) (orUndefined copy two) := by
  obtain ⟨rfl, seen⟩ := related
  cases completion with
  | none => exact parallel_alloc mirrors (related_childless rfl)
  | some handle => exact parallel_pure mirrors ⟨rfl, seen⟩

theorem parallel_makeFunction (node : NodeId) (name : Option String) (params : List String)
    (body : Block) (scope : ScopeId) :
    Parallel n one.heap (makeFunction node name params body scope one)
      (makeFunction node name params body scope two) := by
  have made := parallel_alloc mirrors
    (show Related n (.function ⟨name, params, body, scope, node⟩ : Value) _ from
      related_childless rfl)
  cases name with
  | none => exact made.bind fun _ mirrors handle => parallel_pure mirrors handle
  | some name =>
    exact made.bind fun _ mirrors handle =>
      parallel_after_declare mirrors scope name handle fun mirrors => parallel_pure mirrors handle

theorem parallel_bindParameters (scope : ScopeId) (params : List String)
    {arguments copies : List Handle} (related : Related n arguments copies) :
    Parallel n one.heap (bindParameters scope params arguments one)
      (bindParameters scope params copies two) := by
  induction params generalizing n one two arguments copies with
  | nil => exact parallel_pure mirrors (.bare rfl rfl)
  | cons param params ih =>
    cases arguments with
    | nil =>
      obtain ⟨rfl, _⟩ := related
      refine (parallel_alloc mirrors (related_childless rfl)).bind fun _ mirrors handle => ?_
      refine parallel_after_declare mirrors scope param handle fun mirrors => ?_
      exact ih mirrors (.bare rfl rfl)
    | cons handle handles =>
      obtain ⟨copy, copies, rfl, first, rest⟩ := related.head
      exact parallel_after_declare mirrors scope param first fun mirrors => ih mirrors rest

theorem parallel_applyBinary (operator : BinaryOperator) {left leftCopy right rightCopy : Handle}
    (leftRelated : Related n left leftCopy) (rightRelated : Related n right rightCopy) :
    Parallel n one.heap (applyBinary operator left right one)
      (applyBinary operator leftCopy rightCopy two) := by
  refine parallel_after_deref mirrors leftRelated fun leftValue => ?_
  refine parallel_after_deref mirrors rightRelated fun rightValue => ?_
  apply parallel_alloc mirrors
  rw [leftRelated.eq, rightRelated.eq, leftValue.eq, rightValue.eq]
  have same := mirrors.copies.applyBinary_rename operator leftRelated.seen rightRelated.seen
    leftValue.inView rightValue.inView
  exact same ▸ related_childless
    (Value.children_of_isReference (Value.isReference_applyBinary _ _ _ _))

theorem parallel_getProperty {target targetCopy : Handle} (related : Related n target targetCopy)
    (key : PropertyKey) :
    Parallel n one.heap (getProperty target key one) (getProperty targetCopy key two) := by
  refine parallel_after_deref mirrors related fun value => ?_
  have reading := value.property key
  generalize Value.property _ key = found at reading ⊢
  generalize Value.property _ key = foundCopy at reading ⊢
  obtain ⟨rfl, seen⟩ := reading
  cases found with
  | found handle => exact parallel_pure mirrors ⟨rfl, seen⟩
  | fresh value => exact parallel_alloc mirrors ⟨rfl, seen⟩

theorem parallel_allocHoles (count : Nat) {handles copies : Array Handle}
    (related : Related n handles copies) :
    Parallel n one.heap (allocHoles count handles one) (allocHoles count copies two) := by
  induction count generalizing n one two handles copies with
  | zero => exact parallel_pure mirrors related
  | succ count ih =>
    refine (parallel_alloc mirrors (related_childless rfl)).bind fun grows mirrors hole => ?_
    exact ih mirrors (hole.push (related.mono grows))

theorem parallel_setProperty {target targetCopy handle handleCopy : Handle}
    (targetRelated : Related n target targetCopy) (key : PropertyKey)
    (handleRelated : Related n handle handleCopy) :
    Parallel n one.heap (setProperty target key handle one)
      (setProperty targetCopy key handleCopy two) := by
  refine parallel_after_deref mirrors targetRelated fun value => ?_
  rw [value.writing_eq]
  generalize Value.writing _ key = writing
  cases writing with
  | ignored => exact parallel_pure mirrors (.bare rfl rfl)
  | element index =>
    apply parallel_update mirrors targetRelated
    · intro value
      rw [handleRelated.eq]
      exact value.setElement_rename _ index handle
    · intro value child member
      rcases Value.mem_children_setElement member with rfl | before
      · exact .inr handleRelated.seen
      · exact .inl before
  | append holes =>
    refine (parallel_allocHoles mirrors holes related_empty).bind fun grows mirrors handles => ?_
    have pushed := (handleRelated.mono grows).push handles
    apply parallel_update mirrors (targetRelated.mono grows)
    · intro value
      rw [pushed.eq]
      exact value.append_rename _ _
    · intro value child member
      rcases Value.mem_children_append member with added | before
      · exact .inr (pushed.inView child (Array.mem_toList_iff.mpr added))
      · exact .inl before
  | named name =>
    apply parallel_update mirrors targetRelated
    · intro value
      rw [handleRelated.eq]
      exact value.setNamed_rename _ name handle
    · intro value child member
      rcases Value.mem_children_setNamed member with rfl | before
      · exact .inr handleRelated.seen
      · exact .inl before

omit mirrors in
theorem sumOf_of_get? {machine : Machine} {handle : Handle} {value : Value}
    (found : machine.heap.get? handle = some value) (start : Float) (rest : List Handle) :
    sumOf start (handle :: rest) machine =
      (value.toNumber?.elim (pure none) fun number => sumOf (start + number) rest) machine := by
  rw [sumOf, bind_at, deref_of_get? found]
  dsimp only
  cases value.toNumber? <;> rfl

/-- A text is the same on both machines. -/
theorem Mirrors.exists_textOf {handle copy : Handle} (related : Related n handle copy) :
    ∃ text, textOf handle one = .ok text one ∧ textOf copy two = .ok text two := by
  obtain ⟨rfl, seen⟩ := related
  obtain ⟨value, found, foundCopy, children⟩ :=
    mirrors.copies.exists_value (seen handle (List.mem_singleton_self handle))
  refine ⟨value.text? one.heap, ?_, ?_⟩
  · rw [textOf, bind_at, deref_of_get? found]
    rfl
  · rw [textOf, bind_at]
    rw [show deref (rename n handle) two = _ from deref_of_get? foundCopy,
      ← mirrors.copies.text?_rename children]
    rfl

theorem Mirrors.exists_textsOf {arguments copies : List Handle}
    (related : Related n arguments copies) :
    ∃ texts, textsOf arguments one = .ok texts one ∧ textsOf copies two = .ok texts two := by
  induction arguments generalizing copies with
  | nil =>
    obtain ⟨rfl, _⟩ := related
    exact ⟨[], rfl, rfl⟩
  | cons handle rest ih =>
    obtain ⟨copy, restCopy, rfl, head, tail⟩ := related.head
    obtain ⟨text, text_eq, textCopy_eq⟩ := mirrors.exists_textOf head
    obtain ⟨texts, texts_eq, textsCopy_eq⟩ := ih tail
    refine ⟨text.getD "NaN" :: texts, ?_, ?_⟩
    · simp only [textsOf, bind_at, text_eq, texts_eq]
      rfl
    · simp only [textsOf, bind_at, textCopy_eq, textsCopy_eq]
      rfl

theorem Mirrors.exists_sumOf (start : Float) {arguments copies : List Handle}
    (related : Related n arguments copies) :
    ∃ total, sumOf start arguments one = .ok total one ∧
      sumOf start copies two = .ok total two := by
  induction arguments generalizing copies start with
  | nil =>
    obtain ⟨rfl, _⟩ := related
    exact ⟨some start, rfl, rfl⟩
  | cons handle rest ih =>
    obtain ⟨copy, restCopy, rfl, head, tail⟩ := related.head
    obtain ⟨rfl, _⟩ := head
    obtain ⟨value, found, foundCopy, _⟩ :=
      mirrors.copies.exists_value (related.inView handle List.mem_cons_self)
    have stepCopy : sumOf start (rename n handle :: restCopy) two = _ :=
      sumOf_of_get? foundCopy start restCopy
    rw [sumOf_of_get? found, stepCopy, value.toNumber?_rename]
    cases value.toNumber? with
    | none => exact ⟨none, rfl, rfl⟩
    | some number => exact ih (start + number) tail

theorem parallel_firstArgument {arguments copies : List Handle}
    (related : Related n arguments copies) :
    Parallel n one.heap (firstArgument arguments one) (firstArgument copies two) := by
  cases arguments with
  | nil =>
    obtain ⟨rfl, _⟩ := related
    exact parallel_alloc mirrors (related_childless rfl)
  | cons handle rest =>
    obtain ⟨copy, restCopy, rfl, head, _⟩ := related.head
    exact parallel_pure mirrors head

theorem parallel_allocOk {value : Value} (childless : value.children = []) :
    Parallel n one.heap ((.ok <$> alloc value : Eval NativeResult) one)
      ((.ok <$> alloc value : Eval NativeResult) two) :=
  (parallel_alloc mirrors (related_childless childless)).map Related.ok

theorem parallel_printNative {arguments copies : List Handle}
    (related : Related n arguments copies) :
    Parallel n one.heap (printNative arguments one) (printNative copies two) := by
  obtain ⟨texts, texts_eq, textsCopy_eq⟩ := mirrors.exists_textsOf related
  refine .after texts_eq textsCopy_eq ?_
  refine parallel_after_modify rfl ?_ fun mirrors => parallel_allocOk mirrors rfl
  exact { mirrors with output := by rw [mirrors.output] }

theorem parallel_typeNameNative {arguments copies : List Handle}
    (related : Related n arguments copies) :
    Parallel n one.heap (typeNameNative arguments one) (typeNameNative copies two) := by
  refine (parallel_firstArgument mirrors related).bind fun _ mirrors handle => ?_
  refine parallel_after_deref mirrors handle fun value => ?_
  rw [Value.typeName, Value.typeName, value.kind_eq]
  exact parallel_allocOk mirrors rfl

theorem parallel_toTextNative {arguments copies : List Handle}
    (related : Related n arguments copies) :
    Parallel n one.heap (toTextNative arguments one) (toTextNative copies two) := by
  refine (parallel_firstArgument mirrors related).bind fun _ mirrors handle => ?_
  obtain ⟨text, text_eq, textCopy_eq⟩ := mirrors.exists_textOf handle
  refine .after text_eq textCopy_eq (parallel_allocOk mirrors ?_)
  cases text <;> rfl

theorem parallel_toNumberNative {arguments copies : List Handle}
    (related : Related n arguments copies) :
    Parallel n one.heap (toNumberNative arguments one) (toNumberNative copies two) := by
  refine (parallel_firstArgument mirrors related).bind fun _ mirrors handle => ?_
  refine parallel_after_deref mirrors handle fun value => ?_
  rw [value.toNumber?_eq]
  apply parallel_allocOk mirrors
  cases Value.toNumber? _ with
  | none => rfl
  | some number => exact Value.children_of_isReference (Value.isReference_ofFloat number)

theorem parallel_sumNative {arguments copies : List Handle}
    (related : Related n arguments copies) :
    Parallel n one.heap (sumNative arguments one) (sumNative copies two) := by
  obtain ⟨total, total_eq, totalCopy_eq⟩ := mirrors.exists_sumOf 0.0 related
  refine .after total_eq totalCopy_eq ?_
  cases total with
  | none => exact parallel_pure mirrors (.bare rfl rfl)
  | some number =>
    have plain := Value.isReference_ofFloat number
    exact parallel_allocOk mirrors (Value.children_of_isReference plain)

theorem parallel_failNative {arguments copies : List Handle}
    (related : Related n arguments copies) :
    Parallel n one.heap (failNative arguments one) (failNative copies two) := by
  cases arguments with
  | nil =>
    obtain ⟨rfl, _⟩ := related
    exact parallel_pure mirrors (.bare rfl rfl)
  | cons handle rest =>
    obtain ⟨copy, restCopy, rfl, head, _⟩ := related.head
    obtain ⟨text, text_eq, textCopy_eq⟩ := mirrors.exists_textOf head
    exact .after text_eq textCopy_eq (parallel_pure mirrors (.bare rfl rfl))

/-- A native is defined on both machines. -/
theorem Mirrors.defineNative (name : String) (operation : Native)
    (room : Addressable (one.defineNative name operation).2)
    (roomCopy : Addressable (two.defineNative name operation).2) :
    ∃ m, Grows n one.heap m (one.defineNative name operation).2.heap ∧
      Mirrors m (one.defineNative name operation).2 (two.defineNative name operation).2 := by
  let defines : Eval Unit := do
    let handle ← alloc (.native name operation)
    declare ScopeChain.global name handle
    pure ()
  have parallel : Parallel n one.heap (defines one) (defines two) :=
    (parallel_alloc mirrors (related_childless rfl)).bind fun _ mirrors handle =>
      parallel_after_declare mirrors ScopeChain.global name handle fun mirrors =>
        parallel_pure mirrors (.bare rfl rfl)
  obtain ⟨m, grows, mirrors, _⟩ := parallel room roomCopy
  exact ⟨m, grows, mirrors⟩

end Actions

theorem rooted_bare (config : Config) : Rooted (.bare config) where
  consistent :=
    have consistent := Heap.consistent_withThreshold config.gcThreshold
    ⟨consistent.unmarked, consistent.free_nodup, consistent.mem_free_iff⟩
  closed handle value found := by
    simp [Machine.bare, Heap.setEnabled, Heap.withThreshold, Heap.get?, Heap.slot?] at found
  scopes := nofun
  roots := nofun

theorem slotCount_le_defineNatives (natives : List (String × Native)) (machine : Machine) :
    machine.heap.slotCount ≤ (natives.foldl
      (fun machine entry => (machine.defineNative entry.1 entry.2).2) machine).heap.slotCount := by
  induction natives generalizing machine with
  | nil => exact Nat.le_refl _
  | cons entry natives ih =>
    exact Nat.le_trans (machine.heap.slotCount_le_alloc (.native entry.1 entry.2))
      (ih (machine.defineNative entry.1 entry.2).2)

theorem Mirrors.defineNatives {n : Naming} {one two : Machine} (mirrors : Mirrors n one two)
    (natives : List (String × Native))
    (room : Addressable (natives.foldl
      (fun machine entry => (machine.defineNative entry.1 entry.2).2) one))
    (roomCopy : Addressable (natives.foldl
      (fun machine entry => (machine.defineNative entry.1 entry.2).2) two)) :
    ∃ m, Grows n one.heap m (natives.foldl
        (fun machine entry => (machine.defineNative entry.1 entry.2).2) one).heap ∧
      Mirrors m
        (natives.foldl (fun machine entry => (machine.defineNative entry.1 entry.2).2) one)
        (natives.foldl (fun machine entry => (machine.defineNative entry.1 entry.2).2) two) := by
  induction natives generalizing n one two with
  | nil => exact ⟨n, .refl n one.heap, mirrors⟩
  | cons entry natives ih =>
    obtain ⟨m, grows, defined⟩ := mirrors.defineNative entry.1 entry.2
      (Nat.le_trans (slotCount_le_defineNatives natives _) room)
      (Nat.le_trans (slotCount_le_defineNatives natives _) roomCopy)
    obtain ⟨k, later, all⟩ := ih defined room roomCopy
    exact ⟨k, grows.trans later, all⟩

theorem addressable_create (config : Config) : Addressable (.create config) := by
  have few : (Machine.create config).heap.slotCount = 5 := rfl
  rw [Addressable, few]
  decide

/-- New machines mirror each other, if the limit of the calls in progress is the same. All of the
first one is in view. -/
theorem mirrors_create {config configCopy : Config}
    (limit : configCopy.maxCallDepth = config.maxCallDepth) :
    ∃ n, n.Complete (Machine.create config).heap ∧
      Mirrors n (.create config) (.create configCopy) := by
  have mirrors := (rooted_bare config).mirrors
  have bare : Mirrors (.self (Machine.bare config).heap) (.bare config) (.bare configCopy) :=
    { mirrors with
      consistentCopy := (rooted_bare configCopy).consistent
      copies := mirrors.copies.congrCopy fun _ _ => rfl
      limit := limit }
  obtain ⟨n, grows, created⟩ := bare.defineNatives Native.installed (addressable_create config)
    (addressable_create configCopy)
  exact ⟨n, grows.complete fun _ live => live, created⟩

end Scriptlet.Run
