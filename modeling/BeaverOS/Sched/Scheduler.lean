import Mathlib.Algebra.GroupWithZero.Nat
import Mathlib.Data.List.Infix
import BeaverOS.Data.Heap
import BeaverOS.Isr.Frame

/-!
# The scheduler

`sched.c` and, for tasks that block, `threading/mutex.h` and `mutex.c` with each
call of `mutex_lock` and `mutex_unlock` taken as one operation. A `task_t *` is
the number of the `calloc` that returned it, and `NULL` is `0`. The words that
`fxsave` and `xsave` copy are values of an arbitrary type.
-/

namespace BeaverOS.Scheduler

open BeaverOS.Heap
open BeaverOS.Isr
open BeaverOS.Transition

/-- A `task_t *`. -/
abbrev TaskPtr := Nat

/-- The `TASK_STATE_` constants, in their order. -/
inductive TaskState where
  | running
  | inQueue
  | terminated
  | frozen
  deriving DecidableEq, Repr

/-- The `SAVE_MODE_` constants, in their order. -/
inductive SaveMode where
  | fxsaveLazy
  | xsaveEager
  | xsaveoptEager
  deriving DecidableEq, Repr

/-- `task_t`, with the area that `processor_extended_state` points to. -/
structure Task (Ext : Type) where
  savedState : InterruptFrame
  stack : Word
  processorExtendedState : Ext
  vtime : Word
  startedAt : Word
  nice : BitVec 32
  state : TaskState

/-- `mutex_t` between two operations, when its spinlock is free. -/
structure Mutex where
  waitingTasks : List TaskPtr
  locked : Bool

/-- The variables of `sched.c`, the tasks, the mutexes and the registers that
the scheduler uses. The locks are free between two operations. -/
structure Sched (Ext : Type) where
  tasks : TaskPtr → Task Ext
  /-- How many tasks were allocated. -/
  started : Nat
  taskQueue : Option (MinHeap TaskPtr)
  totalVtime : Word
  numTasks : Word
  extendedStateSaveMode : SaveMode
  extendedStateSize : BitVec 32
  /-- The fields of `PLS`, `NULL` until `main_loop` has set it up. -/
  currentTask : TaskPtr
  sseStateOwner : TaskPtr
  /-- The variable `t` of `main_loop`. -/
  bootstrap : TaskPtr
  mutexes : Nat → Mutex
  /-- `CR0_TASK_SWITCHED`. -/
  taskSwitched : Bool
  extendedRegisters : Ext
  apicInitialCount : Word

/-- Why the processor does not go on. -/
inductive Stop where
  | panic (message : String)
  | fault
  | unfinished
  deriving DecidableEq, Repr

section Model

variable {Ext : Type}

/-- The state of a task. -/
abbrev Sched.stateOf (sched : Sched Ext) (task : TaskPtr) : TaskState :=
  (sched.tasks task).state

/-- Stores through a `task_t *`. -/
def Sched.modify (sched : Sched Ext) (task : TaskPtr)
    (change : Task Ext → Task Ext) : Sched Ext :=
  { sched with
    tasks := Function.update sched.tasks task (change (sched.tasks task)) }

/-- `task->state = state`. -/
def Sched.setState (sched : Sched Ext) (task : TaskPtr) (state : TaskState) :
    Sched Ext :=
  sched.modify task fun record => { record with state := state }

/-- `compare_tasks`: the difference of the two counters, truncated to the `int`
that the function returns. -/
def compareTasks (tasks : TaskPtr → Task Ext) (first second : TaskPtr) : Int :=
  (((tasks first).vtime - (tasks second).vtime).setWidth 32).toInt

/-- `heap_push(task_queue, task)`. -/
def pushTask (sched : Sched Ext) (queue : MinHeap TaskPtr) (task : TaskPtr) :
    Except Stop (MinHeap TaskPtr) :=
  match heapPush (compareTasks sched.tasks) queue task with
  | some queue => .ok queue
  | none => .error .fault

/-- The record that `start_task` fills in. -/
def newTask [Zero Ext] (sched : Sched Ext) (start context stack : Word)
    (area : Ext) : Task Ext :=
  { savedState :=
      { zeroFrame with
        rsp := stack + 4096
        rdi := context
        rip := start
        cs := 0x08
        ss := 0x10
        rflags := 1 <<< 9 }
    stack := stack
    -- `memset` clears as much of the new area as `extended_state_size` says
    processorExtendedState :=
      if sched.extendedStateSize = 0 then area else 0
    vtime :=
      if sched.numTasks ≠ 0 then sched.totalVtime / sched.numTasks else 0
    startedAt := 0
    nice := 0
    state := .inQueue }

/-- `start_task`. The allocator returns `stack` and an area with the old words
`area`. -/
def startTask [Zero Ext] (sched : Sched Ext) (start context : Word)
    (ring : BitVec 32) (stack : Word) (area : Ext) :
    Except Stop (TaskPtr × Sched Ext) := do
  if ring ≠ 0 then
    throw (.panic "Not yet")
  else
    let task := sched.started + 1
    let sched :=
      { sched with
        tasks := Function.update sched.tasks task
          (newTask sched start context stack area)
        started := task
        numTasks := sched.numTasks + 1 }
    let queue := sched.taskQueue.getD (makeHeap fun _ => 0)
    let queue ← pushTask sched queue task
    return (task, { sched with taskQueue := some queue })

/-- The loop of `task_switch_isr` that pops tasks until one can run. -/
def selectTask (tasks : TaskPtr → Task Ext) :
    Nat → MinHeap TaskPtr → Except Stop (TaskPtr × MinHeap TaskPtr)
  | 0, _ => .error .unfinished
  | fuel + 1, queue =>
      match heapPop (compareTasks tasks) queue with
      | none => .error .fault
      | some (task, queue) =>
          if task = 0 then
            .error (.panic "NOTHING TO DO")
          else if (tasks task).state = .inQueue then
            .ok (task, queue)
          else
            selectTask tasks fuel queue

/-- `task_switch_isr` before it takes the lock: the interrupt arrives with the
frame `i`, and `now` is the time stamp counter. -/
def preempt (sched : Sched Ext) (i : InterruptFrame) (now : Word) :
    Sched Ext :=
  let current := sched.currentTask
  let sched :=
    match sched.extendedStateSaveMode with
    | .fxsaveLazy => { sched with taskSwitched := true }
    | .xsaveEager => sched.modify current fun record =>
        { record with processorExtendedState := sched.extendedRegisters }
    | .xsaveoptEager => sched
  let sched := sched.modify current fun record =>
    { record with savedState := i }
  let sched :=
    if sched.stateOf current = .running then sched.setState current .inQueue
    else sched
  let vtimeDelta := now - (sched.tasks current).startedAt
  let sched := sched.modify current fun record =>
    { record with vtime := record.vtime + vtimeDelta }
  { sched with totalVtime := sched.totalVtime + vtimeDelta }

/-- `task_switch_isr` after it has released the lock, with `later` the time
stamp counter. -/
def resume (sched : Sched Ext) (later : Word) : InterruptFrame × Sched Ext :=
  let current := sched.currentTask
  let sched := sched.setState current .running
  let i := (sched.tasks current).savedState
  let sched :=
    match sched.extendedStateSaveMode with
    | .xsaveEager =>
        { sched with
          extendedRegisters := (sched.tasks current).processorExtendedState }
    | _ => sched
  let sched := sched.modify current fun record =>
    { record with startedAt := later }
  let count := 5000#32 * (20#32 - (sched.tasks current).nice)
  (i, { sched with apicInitialCount := count.signExtend 64 })

/-- `task_switch_isr`. -/
def taskSwitchIsr (sched : Sched Ext) (i : InterruptFrame) (now later : Word) :
    Except Stop (InterruptFrame × Sched Ext) :=
  let sched := preempt sched i now
  match sched.taskQueue with
  | none => .error .fault
  | some queue => do
      let queue ← pushTask sched queue sched.currentTask
      let (next, queue) ← selectTask sched.tasks (queue.size + 1) queue
      return resume
        { sched with taskQueue := some queue, currentTask := next } later

/-- `terminate_task`, up to the `yield` of a task that terminates itself. -/
def terminateTask (sched : Sched Ext) (task : TaskPtr) : Sched Ext :=
  let sched := sched.setState task .terminated
  { sched with
    totalVtime := sched.totalVtime - (sched.tasks task).vtime
    numTasks := sched.numTasks - 1 }

/-- `save_extended_state_isr`. -/
def saveExtendedStateIsr (sched : Sched Ext) : Sched Ext :=
  match sched.extendedStateSaveMode with
  | .fxsaveLazy =>
      let sched := { sched with taskSwitched := false }
      let sched :=
        if sched.stateOf sched.sseStateOwner ≠ .terminated then
          sched.modify sched.sseStateOwner fun record =>
            { record with processorExtendedState := sched.extendedRegisters }
        else
          sched
      let sched := { sched with sseStateOwner := sched.currentTask }
      { sched with
        extendedRegisters :=
          (sched.tasks sched.currentTask).processorExtendedState }
  | _ => sched

/-- What `main_loop` reads with `cpuid`. -/
structure Cpuid where
  xsave : Bool
  xsaveopt : Bool
  /-- The size of the area that `xsave` writes, which includes the legacy
  region. -/
  size : BitVec 32
  size_ne_zero : size ≠ 0

/-- The save mode that `main_loop` selects. -/
def selectSaveMode (cpuid : Cpuid) : SaveMode :=
  if cpuid.xsave then
    if cpuid.xsaveopt then .xsaveoptEager else .xsaveEager
  else
    .fxsaveLazy

/-- `main_loop`, up to the `yield` of the task that it terminates. -/
def mainLoop [Zero Ext] (sched : Sched Ext) (cpuid : Cpuid) (stack : Word)
    (area : Ext) : Except Stop (Sched Ext) := do
  let sched :=
    { sched with
      extendedStateSaveMode := selectSaveMode cpuid
      extendedStateSize := if cpuid.xsave then cpuid.size else 512 }
  let (t, sched) ← startTask sched 0 0 0 stack area
  let sched :=
    { sched with currentTask := t, sseStateOwner := t, bootstrap := t }
  return terminateTask sched t

/-- One round of `mutex_lock`: the task takes the mutex, or it freezes and
queues up. Then it is about to `yield`, and tries again once it runs. -/
def mutexLock (sched : Sched Ext) (mutex : Nat) : Sched Ext :=
  let old := sched.mutexes mutex
  if old.locked then
    let self := sched.currentTask
    let sched := sched.setState self .frozen
    { sched with
      mutexes := Function.update sched.mutexes mutex
        { old with waitingTasks := old.waitingTasks ++ [self] } }
  else
    { sched with
      mutexes := Function.update sched.mutexes mutex
        { old with locked := true } }

/-- The loop of `mutex_unlock` that empties the queue. -/
def wakeTasks (sched : Sched Ext) : List TaskPtr → Sched Ext
  | [] => sched
  | task :: tasks => wakeTasks (sched.setState task .inQueue) tasks

/-- `mutex_unlock`. -/
def mutexUnlock (sched : Sched Ext) (mutex : Nat) : Sched Ext :=
  let old := sched.mutexes mutex
  let sched := wakeTasks sched old.waitingTasks
  { sched with
    mutexes := Function.update sched.mutexes mutex
      { waitingTasks := [], locked := false } }

/-! ## The system -/

/-- What happens on the processor. -/
inductive Action (Ext : Type) where
  | start (start context stack : Word) (area : Ext)
  | mainLoop (cpuid : Cpuid) (stack : Word) (area : Ext)
  /-- `yield`, or the timer. -/
  | switch (i : InterruptFrame) (now later : Word)
  | lock (mutex : Nat)
  | unlock (mutex : Nat)
  | terminate (task : TaskPtr)
  /-- An instruction that leaves these extended registers. -/
  | use (registers : Ext)

/-- Whether there is code that makes calls: the boot code until `main_loop`, and
then a running task. -/
def CanCall (sched : Sched Ext) : Prop :=
  sched.currentTask = 0 ∨ sched.stateOf sched.currentTask = .running

/-- A `task_t *` that `calloc` has returned. -/
def IsTask (sched : Sched Ext) (task : TaskPtr) : Prop :=
  task ≠ 0 ∧ task ≤ sched.started

/-- A use of the extended registers; with `CR0_TASK_SWITCHED` set it raises
`#NM` first. -/
def useExtended (sched : Sched Ext) (registers : Ext) : Sched Ext :=
  let sched :=
    if sched.taskSwitched then saveExtendedStateIsr sched else sched
  { sched with extendedRegisters := registers }

/-- One operation. Pointers have 64 bits, so `calloc` returns fewer than `2^64`
of them. Until `main_loop` has set up `PLS`, no task can be switched, frozen or
terminated. -/
inductive Step [Zero Ext] : Sched Ext → Action Ext → Sched Ext → Prop
  | start {sched sched' : Sched Ext} {start context stack : Word} {area : Ext}
      {task : TaskPtr} :
      CanCall sched →
      sched.started + 1 < 2 ^ 64 →
      startTask sched start context 0 stack area = .ok (task, sched') →
      Step sched (.start start context stack area) sched'
  | mainLoop {sched sched' : Sched Ext} {cpuid : Cpuid} {stack : Word}
      {area : Ext} :
      sched.currentTask = 0 →
      sched.started + 1 < 2 ^ 64 →
      mainLoop sched cpuid stack area = .ok sched' →
      Step sched (.mainLoop cpuid stack area) sched'
  | switch {sched sched' : Sched Ext} {i i' : InterruptFrame}
      {now later : Word} :
      sched.currentTask ≠ 0 →
      taskSwitchIsr sched i now later = .ok (i', sched') →
      Step sched (.switch i now later) sched'
  | lock {sched : Sched Ext} {mutex : Nat} :
      CanCall sched →
      (sched.currentTask = 0 → (sched.mutexes mutex).locked = false) →
      Step sched (.lock mutex) (mutexLock sched mutex)
  | unlock {sched : Sched Ext} {mutex : Nat} :
      CanCall sched →
      Step sched (.unlock mutex) (mutexUnlock sched mutex)
  | terminate {sched : Sched Ext} {task : TaskPtr} :
      sched.currentTask ≠ 0 →
      CanCall sched →
      IsTask sched task →
      Step sched (.terminate task) (terminateTask sched task)
  | use {sched : Sched Ext} {registers : Ext} :
      sched.currentTask ≠ 0 →
      CanCall sched →
      Step sched (.use registers) (useExtended sched registers)

instance (sched : Sched Ext) : Decidable (CanCall sched) :=
  inferInstanceAs (Decidable (_ ∨ _))

instance (sched : Sched Ext) (task : TaskPtr) :
    Decidable (IsTask sched task) :=
  inferInstanceAs (Decidable (_ ∧ _))

/-- The operations as a program. -/
def perform [Zero Ext] (sched : Sched Ext) :
    Action Ext → Option (Sched Ext)
  | .start start context stack area =>
      if CanCall sched ∧ sched.started + 1 < 2 ^ 64 then
        match startTask sched start context 0 stack area with
        | .ok (_, sched') => some sched'
        | .error _ => none
      else
        none
  | .mainLoop cpuid stack area =>
      if sched.currentTask = 0 ∧ sched.started + 1 < 2 ^ 64 then
        match mainLoop sched cpuid stack area with
        | .ok sched' => some sched'
        | .error _ => none
      else
        none
  | .switch i now later =>
      if sched.currentTask ≠ 0 then
        match taskSwitchIsr sched i now later with
        | .ok (_, sched') => some sched'
        | .error _ => none
      else
        none
  | .lock mutex =>
      if CanCall sched ∧
          (sched.currentTask = 0 → (sched.mutexes mutex).locked = false) then
        some (mutexLock sched mutex)
      else
        none
  | .unlock mutex =>
      if CanCall sched then some (mutexUnlock sched mutex) else none
  | .terminate task =>
      if sched.currentTask ≠ 0 ∧ CanCall sched ∧ IsTask sched task then
        some (terminateTask sched task)
      else
        none
  | .use registers =>
      if sched.currentTask ≠ 0 ∧ CanCall sched then
        some (useExtended sched registers)
      else
        none

theorem step_of_perform [Zero Ext] {sched sched' : Sched Ext}
    {action : Action Ext} (performed : perform sched action = some sched') :
    Step sched action sched' := by
  cases action with
  | start start context stack area =>
      rw [perform] at performed
      split at performed
      · next allowed =>
          split at performed
          · next result =>
              cases performed
              exact Step.start allowed.1 allowed.2 result
          · cases performed
      · cases performed
  | mainLoop cpuid stack area =>
      rw [perform] at performed
      split at performed
      · next allowed =>
          split at performed
          · next result =>
              cases performed
              exact Step.mainLoop allowed.1 allowed.2 result
          · cases performed
      · cases performed
  | switch i now later =>
      rw [perform] at performed
      split at performed
      · next allowed =>
          split at performed
          · next result =>
              cases performed
              exact Step.switch allowed result
          · cases performed
      · cases performed
  | lock mutex =>
      rw [perform] at performed
      split at performed
      · next allowed =>
          cases performed
          exact Step.lock allowed.1 allowed.2
      · cases performed
  | unlock mutex =>
      rw [perform] at performed
      split at performed
      · next allowed =>
          cases performed
          exact Step.unlock allowed
      · cases performed
  | terminate task =>
      rw [perform] at performed
      split at performed
      · next allowed =>
          cases performed
          exact Step.terminate allowed.1 allowed.2.1 allowed.2.2
      · cases performed
  | use registers =>
      rw [perform] at performed
      split at performed
      · next allowed =>
          cases performed
          exact Step.use allowed.1 allowed.2
      · cases performed

/-- The variables as the kernel image has them, with some extended
registers. -/
def bootSched [Zero Ext] (registers : Ext) : Sched Ext :=
  { tasks := fun _ =>
      { savedState := zeroFrame
        stack := 0
        processorExtendedState := 0
        vtime := 0
        startedAt := 0
        nice := 0
        state := .running }
    started := 0
    taskQueue := none
    totalVtime := 0
    numTasks := 0
    extendedStateSaveMode := .fxsaveLazy
    extendedStateSize := 0
    currentTask := 0
    sseStateOwner := 0
    bootstrap := 0
    mutexes := fun _ => { waitingTasks := [], locked := false }
    taskSwitched := false
    extendedRegisters := registers
    apicInitialCount := 0 }

/-- The operations one after another. -/
def performAll [Zero Ext] (sched : Sched Ext) :
    List (Action Ext) → Option (Sched Ext)
  | [] => some sched
  | action :: actions => do performAll (← perform sched action) actions

theorem run_of_performAll [Zero Ext] {start sched sched' : Sched Ext}
    {before actions : List (Action Ext)} (run : Run Step start before sched)
    (performed : performAll sched actions = some sched') :
    Run Step start (before ++ actions) sched' := by
  induction actions generalizing sched before with
  | nil =>
      cases performed
      rw [List.append_nil]
      exact run
  | cons action actions inductionHypothesis =>
      obtain ⟨middle, first, rest⟩ := Option.bind_eq_some_iff.mp performed
      rw [← List.singleton_append, ← List.append_assoc]
      exact inductionHypothesis (run.snoc (step_of_perform first)) rest

theorem perform_of_step [Zero Ext] {sched sched' : Sched Ext}
    {action : Action Ext} (step : Step sched action sched') :
    perform sched action = some sched' := by
  cases step with
  | start canCall fits result =>
      rw [perform, if_pos ⟨canCall, fits⟩, result]
  | mainLoop booting fits result =>
      rw [perform, if_pos ⟨booting, fits⟩, result]
  | switch nonNull result => rw [perform, if_pos nonNull, result]
  | lock canCall booting => rw [perform, if_pos ⟨canCall, booting⟩]
  | unlock canCall => rw [perform, if_pos canCall]
  | terminate nonNull canCall isTask =>
      rw [perform, if_pos ⟨nonNull, canCall, isTask⟩]
  | use nonNull canCall => rw [perform, if_pos ⟨nonNull, canCall⟩]

theorem performAll_snoc [Zero Ext] {sched sched' sched'' : Sched Ext}
    {actions : List (Action Ext)} {action : Action Ext}
    (first : performAll sched actions = some sched')
    (last : perform sched' action = some sched'') :
    performAll sched (actions ++ [action]) = some sched'' := by
  induction actions generalizing sched with
  | nil =>
      cases first
      rw [List.nil_append, performAll, last]
      rfl
  | cons head actions inductionHypothesis =>
      obtain ⟨middle, result, rest⟩ := Option.bind_eq_some_iff.mp first
      rw [List.cons_append, performAll, result]
      exact inductionHypothesis rest

/-- Runs are what the program computes. -/
theorem performAll_of_run [Zero Ext] {start sched : Sched Ext}
    {actions : List (Action Ext)} (run : Run Step start actions sched) :
    performAll start actions = some sched := by
  induction run with
  | nil => rfl
  | snoc _ last inductionHypothesis =>
      exact performAll_snoc inductionHypothesis (perform_of_step last)

/-- A property of all states of a run, checked by computing them. -/
theorem always_of_inits [Zero Ext] {start : Sched Ext}
    {actions : List (Action Ext)} {holds : Sched Ext → Prop}
    (checked : ∀ before ∈ actions.inits,
      ∀ sched ∈ performAll start before, holds sched) :
    Always Step start actions fun _ sched => holds sched := by
  intro before after sched split run
  refine checked before ((List.mem_inits _ _).mpr ⟨after, split.symm⟩) sched ?_
  exact performAll_of_run run

end Model

end BeaverOS.Scheduler
