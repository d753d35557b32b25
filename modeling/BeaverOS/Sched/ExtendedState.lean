import BeaverOS.Sched.Tasks

/-!
# Whose the extended registers are

One task's extended state is in the registers, and the others' are in their
areas. In the lazy mode that task is `sse_state_owner`, in the eager mode it is
the one that runs. Seen through this, `save_extended_state_isr` and the eager
part of `task_switch_isr` change nothing, and a use changes the state of the
current task alone.
-/

namespace BeaverOS.Scheduler

open BeaverOS.Heap
open BeaverOS.Isr
open BeaverOS.Transition

/-! ## The extended states of all tasks -/

section Views

variable {Ext : Type} {sched sched' : Sched Ext} {task next : TaskPtr}
  {mutex : Nat} {i i' : InterruptFrame} {now later : Word}
  {queue pushed rest : MinHeap TaskPtr} {dropped : Multiset TaskPtr}
  {registers : Ext}

/-- The task whose extended state is in the registers. -/
def holder (sched : Sched Ext) : TaskPtr :=
  match sched.extendedStateSaveMode with
  | .fxsaveLazy => sched.sseStateOwner
  | _ => sched.currentTask

/-- The extended state of every task. -/
def extendedState (sched : Sched Ext) : TaskPtr → Ext :=
  Function.update (fun task => (sched.tasks task).processorExtendedState)
    (holder sched) sched.extendedRegisters

/-- What an instruction of the current task finds in the extended registers.
With `CR0_TASK_SWITCHED` set it raises `#NM` first. -/
def observed (sched : Sched Ext) : Ext :=
  (if sched.taskSwitched then saveExtendedStateIsr sched
    else sched).extendedRegisters

/-- The save mode is one that saves, and the registers are those of the current
task unless a use raises `#NM`. -/
inductive Saves (sched : Sched Ext) : Prop
  | lazy :
      sched.extendedStateSaveMode = .fxsaveLazy →
      (sched.taskSwitched = false →
        sched.sseStateOwner = sched.currentTask) →
      Saves sched
  | eager :
      sched.extendedStateSaveMode = .xsaveEager →
      sched.taskSwitched = false →
      Saves sched

theorem holder_of_lazy (mode : sched.extendedStateSaveMode = .fxsaveLazy) :
    holder sched = sched.sseStateOwner := by
  rw [holder, mode]

theorem holder_of_eager (mode : sched.extendedStateSaveMode = .xsaveEager) :
    holder sched = sched.currentTask := by
  rw [holder, mode]

theorem extendedState_holder :
    extendedState sched (holder sched) = sched.extendedRegisters :=
  Function.update_self _ _ _

theorem extendedState_of_ne (different : task ≠ holder sched) :
    extendedState sched task = (sched.tasks task).processorExtendedState :=
  Function.update_of_ne different _ _

/-- Where neither areas nor registers change, all states stay. -/
theorem extendedState_congr (sameHolder : holder sched' = holder sched)
    (sameRegisters : sched'.extendedRegisters = sched.extendedRegisters)
    (sameArea :
      (sched'.tasks task).processorExtendedState =
        (sched.tasks task).processorExtendedState) :
    extendedState sched' task = extendedState sched task := by
  by_cases isHolder : task = holder sched
  · rw [isHolder, extendedState_holder, ← sameHolder, extendedState_holder,
      sameRegisters]
  · rw [extendedState_of_ne isHolder,
      extendedState_of_ne (sameHolder ▸ isHolder), sameArea]

/-! ### A task switch -/

/-- The eager mode stores the registers in the area of their task. -/
theorem preempt_area (sched : Sched Ext) (i : InterruptFrame) (now : Word)
    (task : TaskPtr) :
    ((preempt sched i now).tasks task).processorExtendedState =
      if sched.extendedStateSaveMode = .xsaveEager then
        extendedState sched task
      else
        (sched.tasks task).processorExtendedState := by
  by_cases current : task = sched.currentTask
  · subst current
    rw [preempt_task_current, preempted]
    simp only
    split
    · next mode =>
      rw [← holder_of_eager mode, extendedState_holder]
    · rfl
  · rw [preempt_task_of_ne sched i now current]
    split
    · next mode =>
      rw [extendedState_of_ne (holder_of_eager mode ▸ current)]
    · rfl

namespace Switched

variable (switched : Switched sched i now later queue pushed dropped next rest
  i' sched')

include switched

theorem extendedStateSaveMode :
    sched'.extendedStateSaveMode = sched.extendedStateSaveMode := by
  rw [switched.sched_eq, resume_eq, preempt_eq]

theorem extendedStateSize :
    sched'.extendedStateSize = sched.extendedStateSize := by
  rw [switched.sched_eq, resume_eq, preempt_eq]

theorem sseStateOwner : sched'.sseStateOwner = sched.sseStateOwner := by
  rw [switched.sched_eq, resume_eq, preempt_eq]

theorem taskSwitched :
    sched'.taskSwitched =
      (sched.extendedStateSaveMode = .fxsaveLazy || sched.taskSwitched) := by
  rw [switched.sched_eq, resume_eq, preempt_eq]

theorem area (task : TaskPtr) :
    (sched'.tasks task).processorExtendedState =
      ((preempt sched i now).tasks task).processorExtendedState := by
  by_cases isNext : task = next
  · rw [isNext, switched.tasks_next]
  · rw [switched.tasks_of_ne isNext]

theorem extendedRegisters :
    sched'.extendedRegisters =
      if sched.extendedStateSaveMode = .xsaveEager then
        extendedState sched next
      else
        sched.extendedRegisters := by
  have saved := preempt_area sched i now next
  rw [switched.sched_eq, resume_eq, preempt_eq]
  simp only
  split
  · next mode =>
    rw [if_pos mode] at saved
    rw [preempt_eq] at saved
    exact saved
  · rfl

/-- A switch moves extended states, and changes none. -/
theorem extendedState (saves : Saves sched) (task : TaskPtr) :
    extendedState sched' task = Scheduler.extendedState sched task := by
  cases saves with
  | lazy mode _ =>
      have notEager : sched.extendedStateSaveMode ≠ .xsaveEager := by
        rw [mode]
        decide
      refine extendedState_congr ?_ ?_ ?_
      · rw [holder_of_lazy mode,
          holder_of_lazy (switched.extendedStateSaveMode.trans mode),
          switched.sseStateOwner]
      · rw [switched.extendedRegisters, if_neg notEager]
      · rw [switched.area, preempt_area, if_neg notEager]
  | eager mode _ =>
      have isNext : holder sched' = next := by
        rw [holder_of_eager (switched.extendedStateSaveMode.trans mode),
          switched.currentTask]
      by_cases same : task = next
      · subst same
        rw [← isNext, extendedState_holder, isNext, switched.extendedRegisters,
          if_pos mode]
      · rw [extendedState_of_ne (isNext ▸ same), switched.area, preempt_area,
          if_pos mode]

theorem saves (saves : Saves sched) : Saves sched' := by
  cases saves with
  | lazy mode _ =>
      refine Saves.lazy (switched.extendedStateSaveMode.trans mode) ?_
      intro clear
      rw [switched.taskSwitched, mode] at clear
      cases clear
  | eager mode clear =>
      refine Saves.eager (switched.extendedStateSaveMode.trans mode) ?_
      rw [switched.taskSwitched, mode, clear]
      rfl

end Switched

/-! ### A use -/

/-- What `save_extended_state_isr` leaves in the lazy mode. -/
theorem saveExtendedStateIsr_eq
    (mode : sched.extendedStateSaveMode = .fxsaveLazy) :
    saveExtendedStateIsr sched =
      { sched with
        tasks :=
          if sched.stateOf sched.sseStateOwner ≠ .terminated then
            Function.update sched.tasks sched.sseStateOwner
              { sched.tasks sched.sseStateOwner with
                processorExtendedState := sched.extendedRegisters }
          else
            sched.tasks
        taskSwitched := false
        sseStateOwner := sched.currentTask
        extendedRegisters :=
          (if sched.stateOf sched.sseStateOwner ≠ .terminated then
            extendedState sched sched.currentTask
          else
            (sched.tasks sched.currentTask).processorExtendedState) } := by
  by_cases live : sched.stateOf sched.sseStateOwner ≠ .terminated
  · have area : (Function.update sched.tasks sched.sseStateOwner
        { sched.tasks sched.sseStateOwner with
          processorExtendedState := sched.extendedRegisters }
        sched.currentTask).processorExtendedState =
          extendedState sched sched.currentTask := by
      rw [extendedState, holder_of_lazy mode]
      by_cases same : sched.currentTask = sched.sseStateOwner
      · rw [same, Function.update_self, Function.update_self]
      · rw [Function.update_of_ne same, Function.update_of_ne same]
    simp only [saveExtendedStateIsr, mode, if_pos live, ← area]
    rfl
  · simp only [saveExtendedStateIsr, mode, if_neg live]

/-- The areas it leaves hold the extended states, if it has saved one. -/
theorem saveExtendedStateIsr_area
    (mode : sched.extendedStateSaveMode = .fxsaveLazy) (task : TaskPtr) :
    ((saveExtendedStateIsr sched).tasks task).processorExtendedState =
      if sched.stateOf sched.sseStateOwner ≠ .terminated then
        extendedState sched task
      else
        (sched.tasks task).processorExtendedState := by
  rw [saveExtendedStateIsr_eq mode]
  simp only
  split
  · by_cases owner : task = sched.sseStateOwner
    · rw [owner, Function.update_self, ← holder_of_lazy mode,
        extendedState_holder]
    · rw [Function.update_of_ne owner,
        extendedState_of_ne (holder_of_lazy mode ▸ owner)]
  · rfl

theorem saveExtendedStateIsr_registers
    (mode : sched.extendedStateSaveMode = .fxsaveLazy) :
    (saveExtendedStateIsr sched).extendedRegisters =
      ((saveExtendedStateIsr sched).tasks
        sched.currentTask).processorExtendedState := by
  rw [saveExtendedStateIsr_area mode, saveExtendedStateIsr_eq mode]

/-- The states of a task that is live are as before. -/
theorem extendedState_saveExtendedStateIsr
    (mode : sched.extendedStateSaveMode = .fxsaveLazy)
    (live : sched.stateOf task ≠ .terminated) :
    extendedState (saveExtendedStateIsr sched) task =
      extendedState sched task := by
  have isHolder : holder (saveExtendedStateIsr sched) = sched.currentTask := by
    rw [saveExtendedStateIsr_eq mode]
    exact holder_of_lazy mode
  have inArea : extendedState (saveExtendedStateIsr sched) task =
      ((saveExtendedStateIsr sched).tasks task).processorExtendedState := by
    by_cases current : task = sched.currentTask
    · rw [current, ← saveExtendedStateIsr_registers mode,
        ← extendedState_holder, isHolder]
    · exact extendedState_of_ne (isHolder ▸ current)
  rw [inArea, saveExtendedStateIsr_area mode]
  split
  · rfl
  · next ownerEnded =>
    refine (extendedState_of_ne fun owner => ownerEnded ?_).symm
    rw [← holder_of_lazy mode, ← owner]
    exact live

/-- Before an instruction of the current task: `#NM` has been handled. -/
theorem saves_before_use (saves : Saves sched) :
    holder (if sched.taskSwitched then saveExtendedStateIsr sched else sched) =
        sched.currentTask ∧
      Saves
        (if sched.taskSwitched then saveExtendedStateIsr sched else sched) := by
  cases saves with
  | lazy mode owner =>
      cases switched : sched.taskSwitched with
      | true =>
          rw [if_pos rfl, saveExtendedStateIsr_eq mode]
          exact ⟨holder_of_lazy mode, Saves.lazy mode fun _ => rfl⟩
      | false =>
          rw [if_neg Bool.false_ne_true, holder_of_lazy mode]
          exact ⟨owner switched, Saves.lazy mode owner⟩
  | eager mode clear =>
      rw [clear, if_neg Bool.false_ne_true]
      exact ⟨holder_of_eager mode, Saves.eager mode clear⟩

theorem extendedState_before_use (saves : Saves sched)
    (live : sched.stateOf task ≠ .terminated) :
    extendedState
        (if sched.taskSwitched then saveExtendedStateIsr sched else sched)
        task =
      extendedState sched task := by
  cases saves with
  | lazy mode _ =>
      split
      · exact extendedState_saveExtendedStateIsr mode live
      · rfl
  | eager mode clear => rw [clear, if_neg Bool.false_ne_true]

/-- A task finds its own extended state in the registers. -/
theorem observed_eq (saves : Saves sched)
    (live : sched.stateOf sched.currentTask ≠ .terminated) :
    observed sched = extendedState sched sched.currentTask := by
  rw [observed, ← extendedState_before_use saves live, ← extendedState_holder,
    (saves_before_use saves).1]

/-- A use changes the extended state of the current task alone. -/
theorem extendedState_useExtended (saves : Saves sched)
    (live : sched.stateOf task ≠ .terminated) :
    extendedState (useExtended sched registers) task =
      Function.update (extendedState sched) sched.currentTask registers
        task := by
  have isHolder := (saves_before_use saves).1
  have before := extendedState_before_use saves live
  have after : extendedState (useExtended sched registers) =
      Function.update
        (extendedState
          (if sched.taskSwitched then saveExtendedStateIsr sched else sched))
        sched.currentTask registers := by
    rw [← isHolder, extendedState, extendedState, Function.update_idem]
    rfl
  rw [after]
  by_cases current : task = sched.currentTask
  · rw [current, Function.update_self, Function.update_self]
  · rw [Function.update_of_ne current, Function.update_of_ne current, before]

theorem saves_useExtended (saves : Saves sched) :
    Saves (useExtended sched registers) := by
  cases (saves_before_use saves).2 with
  | lazy mode owner => exact Saves.lazy mode owner
  | eager mode clear => exact Saves.eager mode clear

theorem holder_useExtended (saves : Saves sched) :
    holder (useExtended sched registers) = sched.currentTask :=
  (saves_before_use saves).1

theorem extendedStateSize_useExtended :
    (useExtended sched registers).extendedStateSize =
      sched.extendedStateSize := by
  have isr : (saveExtendedStateIsr sched).extendedStateSize =
      sched.extendedStateSize := by
    cases mode : sched.extendedStateSaveMode with
    | fxsaveLazy => rw [saveExtendedStateIsr_eq mode]
    | xsaveEager => simp only [saveExtendedStateIsr, mode]
    | xsaveoptEager => simp only [saveExtendedStateIsr, mode]
  rw [useExtended]
  split
  · exact isr
  · rfl

/-! ### Operations that leave the registers and the areas alone -/

/-- The two states agree on all that concerns extended states. -/
structure SameExtended (sched sched' : Sched Ext) : Prop where
  extendedStateSaveMode :
    sched'.extendedStateSaveMode = sched.extendedStateSaveMode
  extendedStateSize : sched'.extendedStateSize = sched.extendedStateSize
  taskSwitched : sched'.taskSwitched = sched.taskSwitched
  sseStateOwner : sched'.sseStateOwner = sched.sseStateOwner
  currentTask : sched'.currentTask = sched.currentTask
  extendedRegisters : sched'.extendedRegisters = sched.extendedRegisters
  area :
    ∀ task, task ≤ sched.started →
      (sched'.tasks task).processorExtendedState =
        (sched.tasks task).processorExtendedState

theorem SameExtended.holder (same : SameExtended sched sched') :
    holder sched' = Scheduler.holder sched := by
  rw [Scheduler.holder, Scheduler.holder, same.extendedStateSaveMode,
    same.sseStateOwner, same.currentTask]

theorem SameExtended.extendedState (same : SameExtended sched sched')
    (bound : task ≤ sched.started) :
    extendedState sched' task = Scheduler.extendedState sched task :=
  extendedState_congr same.holder same.extendedRegisters (same.area task bound)

theorem SameExtended.saves (same : SameExtended sched sched')
    (saves : Saves sched) : Saves sched' := by
  cases saves with
  | lazy mode owner =>
      refine Saves.lazy (same.extendedStateSaveMode.trans mode) ?_
      rw [same.taskSwitched, same.sseStateOwner, same.currentTask]
      exact owner
  | eager mode clear =>
      exact Saves.eager (same.extendedStateSaveMode.trans mode)
        (same.taskSwitched.trans clear)

theorem sameExtended_setState {state : TaskState} :
    SameExtended sched (sched.setState task state) := by
  refine ⟨rfl, rfl, rfl, rfl, rfl, rfl, fun other _ => ?_⟩
  rw [Sched.setState, Sched.modify]
  by_cases same : other = task
  · rw [same]
    simp only [Function.update_self]
  · simp only [Function.update_of_ne same]

theorem sameExtended_mutexLock : SameExtended sched (mutexLock sched mutex) := by
  rw [mutexLock]
  split
  · have same : SameExtended sched
        (sched.setState sched.currentTask .frozen) := sameExtended_setState
    exact ⟨rfl, rfl, rfl, rfl, rfl, rfl, same.area⟩
  · exact ⟨rfl, rfl, rfl, rfl, rfl, rfl, fun _ _ => rfl⟩

theorem sameExtended_mutexUnlock :
    SameExtended sched (mutexUnlock sched mutex) := by
  rw [mutexUnlock_eq]
  refine ⟨rfl, rfl, rfl, rfl, rfl, rfl, fun task _ => ?_⟩
  simp only
  split <;> rfl

theorem Started.sameExtended {record : Task Ext}
    (started : Started sched record queue pushed sched') :
    SameExtended sched sched' := by
  refine ⟨?_, ?_, ?_, ?_, ?_, ?_, fun task bound => ?_⟩
  · rw [started.result]
  · rw [started.result]
  · rw [started.result]
  · rw [started.result]
  · rw [started.result]
  · rw [started.result]
  · rw [started.tasks_old bound]

end Views

/-! ## Extended states are private -/

section Watched

variable {Ext : Type} [Zero Ext]

/-- The scheduler, and the extended state that each task has left: zero until
its first use. -/
structure Watched (Ext : Type) where
  sched : Sched Ext
  left : TaskPtr → Ext

/-- What the tasks have left after an operation. -/
def leave (watched : Watched Ext) : Action Ext → TaskPtr → Ext
  | .use registers =>
      Function.update watched.left watched.sched.currentTask registers
  | _ => watched.left

/-- One operation. -/
def WatchedStep (watched : Watched Ext) (action : Action Ext)
    (watched' : Watched Ext) : Prop :=
  Step watched.sched action watched'.sched ∧
    watched'.left = leave watched action

/-- The start, when no task has run. -/
def bootWatched (registers : Ext) : Watched Ext :=
  ⟨bootSched registers, fun _ => 0⟩

/-- A task that uses the extended registers finds what it has left. -/
def FindsOwn (watched : Watched Ext) (action : Action Ext)
    (_ : Watched Ext) : Prop :=
  ∀ registers, action = .use registers →
    observed watched.sched = watched.left watched.sched.currentTask

/-- In a mode that saves, only tasks started after `main_loop` use the extended
registers. `SAVE_MODE_XSAVEOPT_EAGER` saves nothing, so that there only `owner`
uses them, and they held zeros at first. No terminated task is woken. -/
def SavesExtended (registers : Ext) (owner : TaskPtr) (watched : Watched Ext)
    (action : Action Ext) (_ : Watched Ext) : Prop :=
  match action with
  | .use _ =>
      if watched.sched.extendedStateSaveMode = .xsaveoptEager then
        registers = 0 ∧ watched.sched.currentTask = owner
      else watched.sched.bootstrap < watched.sched.currentTask
  | .unlock mutex =>
      ∀ task ∈ (watched.sched.mutexes mutex).waitingTasks,
        watched.sched.stateOf task ≠ .terminated
  | _ => True

/-- After `main_loop`, each live task that was started since then has the
extended state that it left. -/
structure Separated (watched : Watched Ext) : Prop where
  saves : Saves watched.sched
  cleared : watched.sched.extendedStateSize ≠ 0
  holderBound : holder watched.sched ≤ watched.sched.started
  agrees :
    ∀ task, watched.sched.bootstrap < task → task ≤ watched.sched.started →
      watched.sched.stateOf task ≠ .terminated →
      extendedState watched.sched task = watched.left task

/-- After `main_loop`, in the mode that saves nothing, the registers are as
`owner` has left them, if they held zeros at first. -/
structure Shared (registers : Ext) (owner : TaskPtr) (watched : Watched Ext) :
    Prop where
  mode : watched.sched.extendedStateSaveMode = .xsaveoptEager
  agrees :
    registers = 0 → watched.sched.extendedRegisters = watched.left owner

/-- The invariant. -/
structure Private (registers : Ext) (owner : TaskPtr) (watched : Watched Ext) :
    Prop where
  wellFormed : WellFormed watched.sched
  unborn : ∀ task, watched.sched.started < task → watched.left task = 0
  booting :
    watched.sched.currentTask = 0 →
      watched.sched.taskSwitched = false ∧
        watched.sched.extendedRegisters = registers ∧
        ∀ task, watched.left task = 0
  booted :
    watched.sched.currentTask ≠ 0 →
      Separated watched ∨ Shared registers owner watched

variable {watched watched' : Watched Ext} {sched' : Sched Ext}
  {task owner : TaskPtr} {action : Action Ext} {registers : Ext}

theorem private_boot (registers : Ext) (owner : TaskPtr) :
    Private registers owner (bootWatched registers) where
  wellFormed := wellFormed_boot registers
  unborn := fun _ _ => rfl
  booting := fun _ => ⟨rfl, rfl, fun _ => rfl⟩
  booted := fun nonNull => absurd rfl nonNull

omit [Zero Ext] in
theorem Separated.mode_ne (separated : Separated watched) :
    watched.sched.extendedStateSaveMode ≠ .xsaveoptEager := by
  cases separated.saves with
  | lazy mode _ =>
      rw [mode]
      decide
  | eager mode _ =>
      rw [mode]
      decide

theorem Shared.same (shared : Shared registers owner watched)
    (same : SameExtended watched.sched sched') :
    Shared registers owner ⟨sched', watched.left⟩ where
  mode := same.extendedStateSaveMode.trans shared.mode
  agrees := fun zero => same.extendedRegisters.trans (shared.agrees zero)

theorem Shared.switch {queue pushed rest : MinHeap TaskPtr}
    {dropped : Multiset TaskPtr} {next : TaskPtr} {i i' : InterruptFrame}
    {now later : Word} (shared : Shared registers owner watched)
    (switched : Switched watched.sched i now later queue pushed dropped next
      rest i' sched') :
    Shared registers owner ⟨sched', watched.left⟩ where
  mode := switched.extendedStateSaveMode.trans shared.mode
  agrees := by
    intro zero
    have notEager : watched.sched.extendedStateSaveMode ≠ .xsaveEager := by
      rw [shared.mode]
      decide
    rw [switched.extendedRegisters, if_neg notEager]
    exact shared.agrees zero

theorem Shared.isr (shared : Shared registers owner watched) :
    saveExtendedStateIsr watched.sched = watched.sched := by
  rw [saveExtendedStateIsr, shared.mode]

theorem Shared.use (shared : Shared registers owner watched)
    (own : watched.sched.currentTask = owner) (used : Ext) :
    Shared registers owner
      ⟨useExtended watched.sched used, leave watched (.use used)⟩ := by
  have after : useExtended watched.sched used =
      { watched.sched with extendedRegisters := used } := by
    rw [useExtended, shared.isr, ite_self]
  rw [after]
  refine ⟨shared.mode, fun _ => ?_⟩
  change used = Function.update watched.left watched.sched.currentTask used owner
  rw [own, Function.update_self]

omit [Zero Ext] in
/-- An operation that leaves the extended states, and wakes no ended task. -/
theorem Separated.same (separated : Separated watched)
    (same : SameExtended watched.sched sched')
    (started : sched'.started = watched.sched.started)
    (bootstrap : sched'.bootstrap = watched.sched.bootstrap)
    (ended : ∀ task, sched'.stateOf task ≠ .terminated →
      watched.sched.stateOf task ≠ .terminated) :
    Separated ⟨sched', watched.left⟩ where
  saves := same.saves separated.saves
  cleared := same.extendedStateSize.symm ▸ separated.cleared
  holderBound := by
    rw [same.holder, started]
    exact separated.holderBound
  agrees := by
    intro task above bound live
    rw [bootstrap] at above
    rw [started] at bound
    rw [same.extendedState bound]
    exact separated.agrees task above bound (ended task live)

/-- A new task has a zero area. -/
theorem Separated.start {start context stack : Word} {area : Ext}
    {queue pushed : MinHeap TaskPtr} (separated : Separated watched)
    (unborn : ∀ task, watched.sched.started < task → watched.left task = 0)
    (started : Started watched.sched
      (newTask watched.sched start context stack area) queue pushed sched') :
    Separated ⟨sched', watched.left⟩ := by
  have same : SameExtended watched.sched sched' := started.sameExtended
  have bound : sched'.started = watched.sched.started + 1 := by
    rw [started.result]
  constructor
  · exact same.saves separated.saves
  · exact same.extendedStateSize.symm ▸ separated.cleared
  · rw [same.holder, bound]
    exact Nat.le_succ_of_le separated.holderBound
  · intro task above inside live
    rcases Nat.le_succ_iff.mp (bound ▸ inside) with old | new
    · rw [same.extendedState old]
      refine separated.agrees task ?_ old ?_
      · rw [started.result] at above
        exact above
      · rw [Sched.stateOf, started.tasks_old old] at live
        exact live
    · have notHolder : task ≠ holder sched' := by
        rw [same.holder, new]
        exact Nat.ne_of_gt (Nat.lt_succ_of_le separated.holderBound)
      rw [extendedState_of_ne notHolder, new, started.tasks_new, newTask]
      simp only [if_neg separated.cleared]
      exact (unborn _ (Nat.lt_succ_self _)).symm

/-- `main_loop` selects a mode and a size; no task was started after it. -/
theorem separated_mainLoop {cpuid : Cpuid} {stack : Word} {area : Ext}
    {queue pushed : MinHeap TaskPtr} {sched middle : Sched Ext}
    {left : TaskPtr → Ext} (clear : sched.taskSwitched = false)
    (mode : selectSaveMode cpuid ≠ .xsaveoptEager)
    (started : Started (withSaveMode sched cpuid)
      (newTask (withSaveMode sched cpuid) 0 0 stack area) queue pushed
      middle) :
    Separated ⟨terminateTask (withBootstrap middle (sched.started + 1))
      (sched.started + 1), left⟩ := by
  have bound : middle.started = sched.started + 1 := by
    rw [started.result]
    rfl
  have same := started.sameExtended
  have modeEq : middle.extendedStateSaveMode = selectSaveMode cpuid :=
    same.extendedStateSaveMode
  constructor
  · cases selected : selectSaveMode cpuid with
    | fxsaveLazy => exact Saves.lazy (modeEq.trans selected) fun _ => rfl
    | xsaveEager =>
        exact Saves.eager (modeEq.trans selected)
          (same.taskSwitched.trans clear)
    | xsaveoptEager => exact absurd selected mode
  · have sizeEq : middle.extendedStateSize =
        if cpuid.xsave then cpuid.size else 512 := same.extendedStateSize
    change middle.extendedStateSize ≠ 0
    rw [sizeEq]
    split
    · exact cpuid.size_ne_zero
    · decide
  · have isHolder : holder (terminateTask
        (withBootstrap middle (sched.started + 1)) (sched.started + 1)) =
          sched.started + 1 := by
      rw [holder]
      split <;> rfl
    rw [isHolder]
    exact Nat.le_of_eq bound.symm
  · intro task above inside _
    change sched.started + 1 < task at above
    change task ≤ middle.started at inside
    rw [bound] at inside
    exact absurd above (Nat.not_lt_of_le inside)

omit [Zero Ext] in
theorem Separated.switch {queue pushed rest : MinHeap TaskPtr}
    {dropped : Multiset TaskPtr} {next : TaskPtr} {i i' : InterruptFrame}
    {now later : Word} (separated : Separated watched)
    (wellFormed : WellFormed sched')
    (switched : Switched watched.sched i now later queue pushed dropped next
      rest i' sched') :
    Separated ⟨sched', watched.left⟩ where
  saves := switched.saves separated.saves
  cleared := switched.extendedStateSize.symm ▸ separated.cleared
  holderBound := by
    cases switched.saves separated.saves with
    | lazy mode _ =>
        have before := switched.extendedStateSaveMode.symm.trans mode
        have bound := separated.holderBound
        rw [holder_of_lazy before] at bound
        rw [holder_of_lazy mode, switched.sseStateOwner, switched.started]
        exact bound
    | eager mode _ =>
        rw [holder_of_eager mode]
        exact wellFormed.currentBound
  agrees := by
    intro task above bound live
    rw [switched.bootstrap] at above
    rw [switched.started] at bound
    rw [switched.extendedState separated.saves]
    refine separated.agrees task above bound ?_
    intro terminated
    rw [switched.stateOf, if_neg (switched.next_ne (Or.inr terminated)),
      if_neg (fun both => by rw [terminated] at both; cases both.2)] at live
    exact live terminated

omit [Zero Ext] in
theorem Separated.use (separated : Separated watched) (registers : Ext)
    (wellFormed : WellFormed watched.sched) :
    Separated ⟨useExtended watched.sched registers,
      leave watched (.use registers)⟩ := by
  have same : SameScheduling watched.sched
      (useExtended watched.sched registers) := sameScheduling_use registers
  constructor
  · exact saves_useExtended separated.saves
  · rw [extendedStateSize_useExtended]
    exact separated.cleared
  · rw [holder_useExtended separated.saves, same.started]
    exact wellFormed.currentBound
  · intro task above bound live
    rw [same.bootstrap] at above
    rw [same.started] at bound
    rw [same.stateOf] at live
    change extendedState _ task =
      Function.update watched.left watched.sched.currentTask registers task
    rw [extendedState_useExtended separated.saves live]
    by_cases current : task = watched.sched.currentTask
    · rw [current, Function.update_self, Function.update_self]
    · rw [Function.update_of_ne current, Function.update_of_ne current]
      exact separated.agrees task above bound live

/-- A running task finds what it has left, if it was started late enough or is
the only one that uses the registers. -/
theorem Private.findsOwn (isPrivate : Private registers owner watched)
    (nonNull : watched.sched.currentTask ≠ 0)
    (canCall : CanCall watched.sched) {used : Ext}
    (allowed : SavesExtended registers owner watched (.use used) watched') :
    observed watched.sched = watched.left watched.sched.currentTask := by
  rw [SavesExtended] at allowed
  rcases isPrivate.booted nonNull with separated | shared
  · rw [if_neg separated.mode_ne] at allowed
    have live : watched.sched.stateOf watched.sched.currentTask ≠
        .terminated := by
      rw [canCall.resolve_left nonNull]
      decide
    rw [observed_eq separated.saves live]
    exact separated.agrees _ allowed isPrivate.wellFormed.currentBound live
  · rw [if_pos shared.mode] at allowed
    obtain ⟨zero, own⟩ := allowed
    rw [observed, shared.isr, ite_self, own]
    exact shared.agrees zero

/-- Operations on states and mutexes that wake no ended task. -/
theorem Private.quiet (isPrivate : Private registers owner watched)
    (wellFormed : WellFormed sched')
    (extended : SameExtended watched.sched sched')
    (same : SameQueue watched.sched sched')
    (ended : watched.sched.currentTask ≠ 0 →
      ∀ task, watched.sched.stateOf task = .terminated →
        sched'.stateOf task = .terminated) :
    Private registers owner ⟨sched', watched.left⟩ where
  wellFormed := wellFormed
  unborn := by
    rw [same.started]
    exact isPrivate.unborn
  booting := by
    rw [same.currentTask, extended.taskSwitched, extended.extendedRegisters]
    exact isPrivate.booting
  booted := by
    rw [same.currentTask]
    intro nonNull
    refine (isPrivate.booted nonNull).imp (fun separated => ?_)
      fun shared => shared.same extended
    exact separated.same extended same.started same.bootstrap
      fun task live terminated => live (ended nonNull task terminated)

theorem Private.step (isPrivate : Private registers owner watched)
    (step : WatchedStep watched action watched')
    (allowed : SavesExtended registers owner watched action watched') :
    Private registers owner watched' := by
  obtain ⟨sched', left'⟩ := watched'
  obtain ⟨step, leaves⟩ := step
  change Step watched.sched action sched' at step
  have wellFormed := isPrivate.wellFormed
  have wellFormed' := wellFormed.step step
  change left' = leave watched action at leaves
  subst leaves
  cases step with
  | start canCall fits result =>
      obtain ⟨_, queue, pushed, started⟩ :=
        started_of_startTask wellFormed.allocated result
      have same := started.sameExtended
      refine ⟨wellFormed', ?_, ?_, ?_⟩
      · intro task above
        rw [started.result] at above
        exact isPrivate.unborn task (Nat.lt_of_succ_lt above)
      · rw [same.currentTask, same.taskSwitched, same.extendedRegisters]
        exact isPrivate.booting
      · rw [same.currentTask]
        intro nonNull
        exact (isPrivate.booted nonNull).imp
          (fun separated => separated.start isPrivate.unborn started)
          fun shared => shared.same same
  | @mainLoop _ cpuid _ _ booting fits result =>
      obtain ⟨queue, pushed, middle, started, rfl⟩ :=
        mainLoop_cases wellFormed.allocated result
      have bound : middle.started = watched.sched.started + 1 := by
        rw [started.result]
        rfl
      refine ⟨wellFormed', ?_, ?_, fun _ => ?_⟩
      · intro task above
        change middle.started < task at above
        rw [bound] at above
        exact isPrivate.unborn task (Nat.lt_of_succ_lt above)
      · exact fun null => absurd null (Nat.succ_ne_zero _)
      · obtain ⟨clear, first, none⟩ := isPrivate.booting booting
        by_cases mode : selectSaveMode cpuid = .xsaveoptEager
        · have same := started.sameExtended
          refine Or.inr ⟨same.extendedStateSaveMode.trans mode, fun zero => ?_⟩
          exact (same.extendedRegisters.trans first).trans
            (zero.trans (none owner).symm)
        · exact Or.inl (separated_mainLoop clear mode started)
  | switch nonNull result =>
      obtain ⟨queue, pushed, dropped, next, rest, switched⟩ :=
        switched_of_taskSwitchIsr wellFormed.allocated result
      refine ⟨wellFormed', ?_, ?_, fun _ => ?_⟩
      · rw [switched.started]
        exact isPrivate.unborn
      · intro null
        rw [switched.currentTask] at null
        have member := items_cons_bound wellFormed nonNull switched.next_mem
        exact absurd null member.1
      · exact (isPrivate.booted nonNull).imp
          (fun separated => separated.switch wellFormed' switched)
          fun shared => shared.switch switched
  | @lock mutex canCall booting =>
      refine isPrivate.quiet wellFormed' sameExtended_mutexLock
        sameQueue_mutexLock fun nonNull task terminated => ?_
      rw [stateOf_mutexLock, if_neg]
      · exact terminated
      · rintro ⟨_, rfl⟩
        rw [canCall.resolve_left nonNull] at terminated
        cases terminated
  | @unlock mutex canCall =>
      refine isPrivate.quiet wellFormed' sameExtended_mutexUnlock
        sameQueue_mutexUnlock fun nonNull task terminated => ?_
      rw [stateOf_mutexUnlock, if_neg]
      · exact terminated
      · exact fun member => allowed task member terminated
  | @terminate dead nonNull canCall isTask =>
      have same : SameExtended watched.sched
          (watched.sched.setState dead .terminated) := sameExtended_setState
      refine isPrivate.quiet wellFormed'
        ⟨rfl, rfl, rfl, rfl, rfl, rfl, same.area⟩ ⟨rfl, rfl, rfl, rfl⟩
        fun _ task terminated => ?_
      rw [stateOf_terminateTask]
      split
      · rfl
      · exact terminated
  | @use used nonNull canCall =>
      have same : SameScheduling watched.sched
          (useExtended watched.sched used) := sameScheduling_use used
      refine ⟨wellFormed', ?_, ?_, fun _ => ?_⟩
      · rw [same.started]
        intro task above
        have different : task ≠ watched.sched.currentTask :=
          Nat.ne_of_gt (Nat.lt_of_le_of_lt wellFormed.currentBound above)
        exact (Function.update_of_ne different _ _).trans
          (isPrivate.unborn task above)
      · rw [same.currentTask]
        exact fun null => absurd null nonNull
      · rw [SavesExtended] at allowed
        rcases isPrivate.booted nonNull with separated | shared
        · exact Or.inl (separated.use used wellFormed)
        · rw [if_pos shared.mode] at allowed
          exact Or.inr (shared.use allowed.2 used)

/-- In a run that saves extended states, or in which only one task uses the
extended registers, every use finds what the task left, or zeros. -/
theorem extendedState_private (registers : Ext) (owner : TaskPtr)
    (actions : List (Action Ext))
    (saves : AlwaysStep WatchedStep (bootWatched registers) actions
      (SavesExtended registers owner)) :
    AlwaysStep WatchedStep (bootWatched registers) actions FindsOwn := by
  have always : Always WatchedStep (bootWatched registers) actions
      fun _ => Private registers owner :=
    saves.always (private_boot registers owner)
      fun _ _ _ _ _ isPrivate step allowed => isPrivate.step step allowed
  intro before action after watched watched' split run step registers' isUse
  subst isUse
  have isPrivate := always before _ watched split run
  have allowed := saves before _ after watched watched' split run step
  obtain ⟨sched', left'⟩ := watched'
  obtain ⟨step, _⟩ := step
  change Step watched.sched (.use registers') sched' at step
  cases step with
  | use nonNull canCall => exact isPrivate.findsOwn nonNull canCall allowed

end Watched

/-! ### Registers that leak -/

/-- The operations as a program. -/
def performWatched {Ext : Type} [Zero Ext] (watched : Watched Ext)
    (action : Action Ext) : Option (Watched Ext) :=
  (perform watched.sched action).map fun sched => ⟨sched, leave watched action⟩

theorem watchedStep_of_performWatched {Ext : Type} [Zero Ext]
    (watched : Watched Ext) (action : Action Ext) (watched' : Watched Ext)
    (performed : performWatched watched action = some watched') :
    WatchedStep watched action watched' := by
  obtain ⟨sched, step, rfl⟩ := Option.map_eq_some_iff.mp performed
  exact ⟨step_of_perform step, rfl⟩

theorem performWatched_of_watchedStep {Ext : Type} [Zero Ext]
    (watched : Watched Ext) (action : Action Ext) (watched' : Watched Ext)
    (step : WatchedStep watched action watched') :
    performWatched watched action = some watched' := by
  obtain ⟨sched', left'⟩ := watched'
  obtain ⟨step, leaves⟩ := step
  change left' = leave watched action at leaves
  subst leaves
  exact Option.map_eq_some_iff.mpr ⟨sched', perform_of_step step, rfl⟩

instance {Ext : Type} [Zero Ext] [DecidableEq Ext] (registers : Ext)
    (owner : TaskPtr) (watched : Watched Ext) (action : Action Ext)
    (watched' : Watched Ext) :
    Decidable (SavesExtended registers owner watched action watched') := by
  unfold SavesExtended
  cases action <;> infer_instance

/-- Task 1 starts tasks 3 and 4, which use the extended registers by turns. -/
def turnsActions : List (Action Nat) :=
  [.start 0 0 0 7, .mainLoop plainCpuid 0 0, .switch zeroFrame 0 0,
    .start 0 0 0 0, .start 0 0 0 0, .switch zeroFrame 10 10, .use 5,
    .switch zeroFrame 20 20, .use 6, .switch zeroFrame 30 30,
    .switch zeroFrame 40 40, .use 8]

/-- In this run every use finds what the task left. -/
theorem extendedState_private_turnsActions :
    AlwaysStep WatchedStep (bootWatched 0) turnsActions FindsOwn := by
  have checked : checkSteps performWatched
      (fun watched action watched' =>
        decide (SavesExtended 0 0 watched action watched'))
      (bootWatched 0) turnsActions = true := by
    decide +kernel
  refine extendedState_private 0 0 turnsActions ?_
  intro before action after watched watched' split run step
  exact of_decide_eq_true (alwaysStep_of_checkSteps checked
    performWatched_of_watchedStep before action after watched watched' split
    run step)

/-- A processor that has `xsaveopt`. -/
def xsaveoptCpuid : Cpuid where
  xsave := true
  xsaveopt := true
  size := 832
  size_ne_zero := by decide

/-- Task 1 leaves 5 in the extended registers, and task 2, which has not run
before, is resumed. -/
def leakingActions : List (Action Nat) :=
  [.start 0 0 0 0, .start 0 0 0 0, .mainLoop xsaveoptCpuid 0 0,
    .switch zeroFrame 0 0, .use 5, .switch zeroFrame 10 10]

/-- After these operations task 2 finds the 5 of task 1. -/
theorem leakingActions_not_findsOwn :
    ∃ watched watched',
      Run WatchedStep (bootWatched 0) leakingActions watched ∧
        WatchedStep watched (.use 6) watched' ∧
        ¬ FindsOwn watched (.use 6) watched' := by
  have leaked : ((performSteps performWatched (bootWatched 0)
      leakingActions).map fun watched =>
        (observed watched.sched, watched.left watched.sched.currentTask,
          (performWatched watched (.use 6)).isSome)) =
      some (5, 0, true) := by
    rfl
  obtain ⟨watched, performed, facts⟩ := Option.map_eq_some_iff.mp leaked
  simp only [Prod.mk.injEq] at facts
  obtain ⟨found, left, uses⟩ := facts
  obtain ⟨watched', used⟩ := Option.isSome_iff_exists.mp uses
  refine ⟨watched, watched',
    run_of_performSteps watchedStep_of_performWatched performed,
    watchedStep_of_performWatched _ _ _ used, ?_⟩
  intro findsOwn
  have same := findsOwn 6 rfl
  rw [found, left] at same
  cases same

end BeaverOS.Scheduler
