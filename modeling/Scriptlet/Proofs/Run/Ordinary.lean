import Scriptlet.Proofs.Run.Elementary
import Scriptlet.Proofs.Run.Kinds

set_option autoImplicit false

/-!
The ordinary actions of a run. What they are put together from opens no scope, makes no function and
keeps the kinds of values apart, so they do nothing else either. Operators, properties, and natives
that call nothing are all of this sort.
-/
namespace Scriptlet.Run

open Eval

/-- An elementary action that opens no scope, makes no function and keeps the kinds of values
apart. -/
structure Ordinary {α : Type} (action : Eval α) : Prop where
  elementary : Elementary action
  steady : Steady action
  keepsKinds : KeepsKinds action

section Basic

variable {α β : Type}

theorem ordinary_pure (value : α) : Ordinary (pure value : Eval α) :=
  ⟨.pure value, steady_pure value, keepsKinds_pure value⟩

theorem Ordinary.bind {action : Eval α} {rest : α → Eval β} (first : Ordinary action)
    (others : ∀ value, Ordinary (rest value)) : Ordinary (action >>= rest) where
  elementary := first.elementary.bind fun value => (others value).elementary
  steady := first.steady.bind fun value => (others value).steady
  keepsKinds := first.keepsKinds.bind fun value => (others value).keepsKinds

theorem Ordinary.map {action : Eval α} (ordinary : Ordinary action) (change : α → β) :
    Ordinary (change <$> action) := by
  rw [map_eq_pure_bind]
  exact ordinary.bind fun value => ordinary_pure (change value)

theorem ordinary_inspect (view : Heap → ScopeChain → β) (rest : β → Eval α)
    (others : ∀ seen, Ordinary (rest seen)) :
    Ordinary (get >>= fun machine => rest (view machine.heap machine.scopes)) where
  elementary := .inspect view rest fun seen => (others seen).elementary
  steady := steady_get.bind fun _ => (others _).steady
  keepsKinds := keepsKinds_get.bind fun _ => (others _).keepsKinds

theorem ordinary_alloc {value : Value} (wellKinded : value.WellKinded)
    (other : (value.kind == .function) = false) : Ordinary (alloc value) :=
  ⟨.alloc value, steady_alloc other, keepsKinds_alloc wellKinded⟩

theorem ordinary_allocOther {value : Value} (number : (value.kind == .number) = false)
    (function : (value.kind == .function) = false) : Ordinary (alloc value) :=
  ordinary_alloc (Value.wellKinded_of_kind number) function

theorem ordinary_allocPlain {value : Value} (wellKinded : value.WellKinded)
    (plain : value.isReference = false) : Ordinary (alloc value) :=
  ⟨.alloc value, steady_allocPlain plain, keepsKinds_alloc wellKinded⟩

theorem ordinary_deref (handle : Handle) : Ordinary (deref handle) :=
  ⟨.deref handle, steady_deref handle, keepsKinds_deref handle⟩

theorem ordinary_update (handle : Handle) {change : Value → Value}
    (keeps : ∀ value : Value, value.WellKinded → (change value).WellKinded)
    (same : ∀ value closure, change value = .function closure → value = .function closure) :
    Ordinary (update handle change) :=
  ⟨.update handle change, steady_update handle same, keepsKinds_update handle keeps⟩

theorem ordinary_declare (scope : ScopeId) (name : String) (handle : Handle) :
    Ordinary (declare scope name handle) :=
  ⟨.declare scope name handle, steady_declare scope name handle,
    keepsKinds_declare scope name handle⟩

theorem ordinary_assign (scope : ScopeId) (name : String) (handle : Handle) :
    Ordinary (assign scope name handle) :=
  ⟨.assign scope name handle, steady_assign scope name handle, keepsKinds_assign scope name handle⟩

theorem ordinary_printLine (line : String) : Ordinary (printLine line) :=
  ⟨.printLine line, steady_printLine line, keepsKinds_printLine line⟩

theorem ordinary_record (event : Event) : Ordinary (record event) :=
  ⟨.record event, steady_record event, keepsKinds_record event⟩

theorem ordinary_visit (info : NodeInfo) (kind : NodeKind) : Ordinary (visit info kind) :=
  ⟨.visit info kind, steady_visit info kind, keepsKinds_visit info kind⟩

theorem ordinary_collectIfDue : Ordinary collectIfDue :=
  ⟨.collectIfDue, steady_collectIfDue, keepsKinds_collectIfDue⟩

theorem ordinary_collectNow : Ordinary collectNow :=
  ⟨.collectNow, steady_collectNow, keepsKinds_collectNow⟩

end Basic

theorem ordinary_undefined : Ordinary (alloc .undefined) :=
  ordinary_allocOther rfl rfl

theorem ordinary_ofFloat (x : Float) : Ordinary (alloc (.ofFloat x)) :=
  ordinary_allocPlain (Value.wellKinded_ofFloat x) (Value.isReference_ofFloat x)

theorem ordinary_ofNat (number : Nat) : Ordinary (alloc (.number (Float.ofNat number))) :=
  ordinary_alloc (Numeral.isNaN_ofNat number) rfl

theorem ordinary_orUndefined (completion : Option Handle) : Ordinary (orUndefined completion) := by
  cases completion with
  | none => exact ordinary_undefined
  | some handle => exact ordinary_pure handle

theorem ordinary_bindParameters (scope : ScopeId) (params : List String)
    (arguments : List Handle) : Ordinary (bindParameters scope params arguments) := by
  induction params generalizing arguments with
  | nil => exact ordinary_pure ()
  | cons param params ih =>
    cases arguments with
    | nil =>
      apply ordinary_undefined.bind
      intro handle
      exact (ordinary_declare scope param handle).bind fun _ => ih []
    | cons handle handles => exact (ordinary_declare scope param handle).bind fun _ => ih handles

theorem ordinary_applyBinary (operator : BinaryOperator) (left right : Handle) :
    Ordinary (applyBinary operator left right) := by
  apply (ordinary_deref left).bind
  intro l
  apply (ordinary_deref right).bind
  intro r
  have made (heap : Heap) :
      Ordinary (alloc (Value.applyBinary heap operator (left, l) (right, r))) :=
    ordinary_allocPlain (Value.wellKinded_applyBinary ..) (Value.isReference_applyBinary ..)
  exact ordinary_inspect (fun heap _ => heap) _ made

theorem ordinary_getProperty (target : Handle) (key : PropertyKey) :
    Ordinary (getProperty target key) := by
  apply (ordinary_deref target).bind
  intro value
  cases reading_eq : value.property key with
  | found handle => exact ordinary_pure handle
  | fresh value =>
    exact ordinary_allocPlain (Value.wellKinded_property reading_eq)
      (Value.isReference_property reading_eq)

theorem ordinary_allocHoles (count : Nat) (handles : Array Handle) :
    Ordinary (allocHoles count handles) := by
  induction count generalizing handles with
  | zero => exact ordinary_pure handles
  | succ count ih => exact ordinary_undefined.bind fun hole => ih (handles.push hole)

theorem ordinary_setProperty (target : Handle) (key : PropertyKey) (handle : Handle) :
    Ordinary (setProperty target key handle) := by
  apply (ordinary_deref target).bind
  intro value
  cases value.writing key with
  | ignored => exact ordinary_pure ()
  | element index =>
    refine ordinary_update target (fun _ wellKinded => wellKinded.setElement index handle) ?_
    intro value closure changed
    cases value <;> first | exact changed | cases changed
  | append holes =>
    apply (ordinary_allocHoles holes #[]).bind
    intro handles
    refine ordinary_update target (fun _ wellKinded => wellKinded.append (handles.push handle)) ?_
    intro value closure changed
    cases value <;> first | exact changed | cases changed
  | named name =>
    refine ordinary_update target (fun _ wellKinded => wellKinded.setNamed name handle) ?_
    intro value closure changed
    cases value <;> first | exact changed | cases changed

theorem ordinary_textOf (handle : Handle) : Ordinary (textOf handle) := by
  apply (ordinary_deref handle).bind
  intro value
  exact ordinary_inspect (fun heap _ => value.text? heap) pure ordinary_pure

theorem ordinary_textsOf (handles : List Handle) : Ordinary (textsOf handles) := by
  induction handles with
  | nil => exact ordinary_pure []
  | cons handle rest ih =>
    exact (ordinary_textOf handle).bind fun _ => ih.bind fun _ => ordinary_pure _

theorem ordinary_sumOf (total : Float) (handles : List Handle) :
    Ordinary (sumOf total handles) := by
  induction handles generalizing total with
  | nil => exact ordinary_pure _
  | cons handle rest ih =>
    apply (ordinary_deref handle).bind
    intro value
    cases value.toNumber? with
    | none => exact ordinary_pure _
    | some number => exact ih _

theorem ordinary_firstArgument (arguments : List Handle) : Ordinary (firstArgument arguments) := by
  cases arguments with
  | nil => exact ordinary_undefined
  | cons handle rest => exact ordinary_pure handle

theorem ordinary_printNative (arguments : List Handle) : Ordinary (printNative arguments) :=
  (ordinary_textsOf arguments).bind fun _ => (ordinary_printLine _).bind fun _ =>
    ordinary_undefined.map _

theorem ordinary_typeNameNative (arguments : List Handle) : Ordinary (typeNameNative arguments) :=
  (ordinary_firstArgument arguments).bind fun _ => (ordinary_deref _).bind fun _ =>
    (ordinary_allocOther rfl rfl).map _

theorem ordinary_toTextNative (arguments : List Handle) : Ordinary (toTextNative arguments) := by
  apply (ordinary_firstArgument arguments).bind
  intro handle
  apply (ordinary_textOf handle).bind
  intro text
  cases text <;> exact (ordinary_allocOther rfl rfl).map _

theorem ordinary_toNumberNative (arguments : List Handle) :
    Ordinary (toNumberNative arguments) := by
  apply (ordinary_firstArgument arguments).bind
  intro handle
  apply (ordinary_deref handle).bind
  intro value
  cases value.toNumber? with
  | none => exact (ordinary_allocOther rfl rfl).map _
  | some number => exact (ordinary_ofFloat number).map _

theorem ordinary_sumNative (arguments : List Handle) : Ordinary (sumNative arguments) := by
  apply (ordinary_sumOf _ arguments).bind
  intro total
  cases total with
  | none => exact ordinary_pure _
  | some total => exact (ordinary_ofFloat total).map _

theorem ordinary_failNative (arguments : List Handle) : Ordinary (failNative arguments) := by
  cases arguments with
  | nil => exact ordinary_pure _
  | cons handle rest => exact (ordinary_textOf handle).bind fun _ => ordinary_pure _

end Scriptlet.Run
