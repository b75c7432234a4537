import Scriptlet.Proofs.Renaming.Carries
import Scriptlet.Proofs.Run.Roots

set_option autoImplicit false

/-!
The handles that the state of a run goes on with, and the same state with other names for them.
-/
namespace Scriptlet.Run

def taskHandles : Task → List Handle
  | .sequence _ _ last => last.toList
  | .apply function this arguments _ => function :: (this.toList ++ arguments)
  | .body _ this arguments _ => this.toList ++ arguments
  | .native _ arguments => arguments
  | .host function this arguments => function :: (this.toList ++ arguments)
  | _ => []

def renameTask (f : Handle → Handle) : Task → Task
  | .sequence expressions scope last => .sequence expressions scope (last.map f)
  | .apply function this arguments span =>
    .apply (f function) (this.map f) (arguments.map f) span
  | .body closure this arguments span => .body closure (this.map f) (arguments.map f) span
  | .native operation arguments => .native operation (arguments.map f)
  | .host function this arguments => .host (f function) (this.map f) (arguments.map f)
  | task => task

def answerHandles : Answer → List Handle
  | .handle handle => [handle]
  | .handles handles => handles
  | .key _ => []
  | .native result => result.handles
  | .completion value => value.toList

def renameAnswer (f : Handle → Handle) : Answer → Answer
  | .handle handle => .handle (f handle)
  | .handles handles => .handles (handles.map f)
  | .key key => .key key
  | .native result => .native (result.rename f)
  | .completion value => .completion (value.map f)

/-- Something pending with other names for its handles, and with its mark where the other machine
has it. -/
def renamePending (n : Naming) : Pending → Pending
  | .program mark => .program (Carries.rename n mark)
  | .release mark => .release (Carries.rename n mark)
  | .memberKey property scope mark => .memberKey property scope (Carries.rename n mark)
  | .memberRead target mark => .memberRead (n.name target) (Carries.rename n mark)
  | .rightOperand operator right scope mark =>
    .rightOperand operator right scope (Carries.rename n mark)
  | .binary operator left mark => .binary operator (n.name left) (Carries.rename n mark)
  | .before handle => .before (n.name handle)
  | .storeValue operator target value scope => .storeValue operator (n.name target) value scope
  | .store target key => .store (n.name target) key
  | .compoundName operator current name scope mark =>
    .compoundName operator (n.name current) name scope (Carries.rename n mark)
  | .compoundProperty operator current target key =>
    .compoundProperty operator (n.name current) (n.name target) key
  | .calleeRead target arguments span scope => .calleeRead (n.name target) arguments span scope
  | .apply function this span => .apply (n.name function) (this.map n.name) span
  | .moreStatements rest scope mark completion =>
    .moreStatements rest scope (Carries.rename n mark) (completion.map n.name)
  | .turn test body scope mark completion =>
    .turn test body scope (Carries.rename n mark) (completion.map n.name)
  | .nextTurn test body scope mark completion =>
    .nextTurn test body scope (Carries.rename n mark) (completion.map n.name)
  | pending => pending

def controlHandles : Control → List Handle
  | .run task => taskHandles task
  | .give answer => answerHandles answer
  | .stop _ => []

def renameControl (f : Handle → Handle) : Control → Control
  | .run task => .run (renameTask f task)
  | .give answer => .give (renameAnswer f answer)
  | .stop stop => .stop stop

section Congr

variable {f g : Handle → Handle}

theorem map_congr_toList {handle? : Option Handle}
    (same : ∀ handle ∈ handle?.toList, f handle = g handle) : handle?.map f = handle?.map g :=
  Option.map_congr fun handle found => same handle (Option.mem_toList.mpr found)

theorem renameTask_congr {task : Task} (same : ∀ handle ∈ taskHandles task, f handle = g handle) :
    renameTask f task = renameTask g task := by
  cases task with
  | sequence expressions scope last => exact congrArg (Task.sequence _ _) (map_congr_toList same)
  | apply function this arguments span =>
    obtain ⟨functionSame, same⟩ := List.forall_mem_cons.mp same
    obtain ⟨thisSame, argumentsSame⟩ := List.forall_mem_append.mp same
    simp only [renameTask, functionSame, map_congr_toList thisSame,
      List.map_congr_left argumentsSame]
  | body closure this arguments span =>
    obtain ⟨thisSame, argumentsSame⟩ := List.forall_mem_append.mp same
    simp only [renameTask, map_congr_toList thisSame, List.map_congr_left argumentsSame]
  | native operation arguments => exact congrArg (Task.native _) (List.map_congr_left same)
  | host function this arguments =>
    obtain ⟨functionSame, same⟩ := List.forall_mem_cons.mp same
    obtain ⟨thisSame, argumentsSame⟩ := List.forall_mem_append.mp same
    simp only [renameTask, functionSame, map_congr_toList thisSame,
      List.map_congr_left argumentsSame]
  | _ => rfl

theorem renameAnswer_congr {answer : Answer}
    (same : ∀ handle ∈ answerHandles answer, f handle = g handle) :
    renameAnswer f answer = renameAnswer g answer := by
  cases answer with
  | handle handle => exact congrArg Answer.handle (same handle (List.mem_singleton_self handle))
  | handles handles => exact congrArg Answer.handles (List.map_congr_left same)
  | key key => rfl
  | native result =>
    cases result with
    | ok handle =>
      have handle_eq := same handle (List.mem_singleton_self handle)
      simp only [renameAnswer, NativeResult.rename, handle_eq]
    | error message => rfl
  | completion value => exact congrArg Answer.completion (map_congr_toList same)

theorem renamePending_congr {n m : Naming} {pending : Pending} (extra : n.extra = m.extra)
    (same : ∀ handle ∈ pending.handles, n.name handle = m.name handle) :
    renamePending n pending = renamePending m pending := by
  have marks (mark : Mark) : Carries.rename n mark = Carries.rename m mark :=
    Carries.rename_congr extra nofun
  cases pending with
  | memberRead | binary | before | storeValue | store | compoundName | calleeRead =>
    simp only [renamePending, List.forall_mem_singleton.mp same, marks]
  | compoundProperty =>
    obtain ⟨currentSame, targetSame⟩ := List.forall_mem_cons.mp same
    simp only [renamePending, currentSame, List.forall_mem_singleton.mp targetSame]
  | apply =>
    obtain ⟨functionSame, thisSame⟩ := List.forall_mem_cons.mp same
    simp only [renamePending, functionSame, map_congr_toList thisSame]
  | moreStatements | turn | nextTurn => simp only [renamePending, map_congr_toList same, marks]
  | program | release | memberKey | rightOperand => simp only [renamePending, marks]
  | _ => rfl

end Congr

instance : Carries Task where
  handles := taskHandles
  rename n := renameTask n.name
  rename_congr _ := renameTask_congr

instance : Carries Answer where
  handles := answerHandles
  rename n := renameAnswer n.name
  rename_congr _ := renameAnswer_congr

instance : Carries Control where
  handles := controlHandles
  rename n := renameControl n.name
  rename_congr {_ _ control} _ same :=
    match control with
    | .run _ => congrArg Control.run (renameTask_congr same)
    | .give _ => congrArg Control.give (renameAnswer_congr same)
    | .stop _ => rfl

instance : Carries Pending where
  handles := Pending.handles
  rename := renamePending
  rename_congr := renamePending_congr

instance : Carries (List Pending) where
  handles stack := stack.flatMap Carries.handles
  rename n stack := stack.map (Carries.rename n)
  rename_congr extra same := List.map_congr_left fun pending member =>
    Carries.rename_congr extra fun handle held =>
      same handle (List.mem_flatMap.mpr ⟨pending, member, held⟩)

instance : Carries Next where
  handles next := Carries.handles next.1 ++ Carries.handles next.2
  rename n next := (Carries.rename n next.1, Carries.rename n next.2)
  rename_congr extra same := by
    obtain ⟨controlSame, stackSame⟩ := List.forall_mem_append.mp same
    rw [Carries.rename_congr extra controlSame, Carries.rename_congr extra stackSame]

section Self

variable (heap : Heap)

theorem rename_self_control (control : Control) :
    Carries.rename (.self heap) control = control := by
  cases control with
  | run task => cases task <;> simp [Carries.rename, renameControl, renameTask, Naming.self]
  | give answer =>
    cases answer with
    | native result => cases result <;> rfl
    | _ => simp [Carries.rename, renameControl, renameAnswer, Naming.self]
  | stop stop => rfl

theorem rename_self_pending (pending : Pending) :
    Carries.rename (.self heap) pending = pending := by
  cases pending <;> simp [Carries.rename, renamePending, Naming.self]

theorem rename_self_stack (stack : List Pending) : Carries.rename (.self heap) stack = stack :=
  (List.map_congr_left fun pending _ => rename_self_pending heap pending).trans (List.map_id stack)

end Self

end Scriptlet.Run
