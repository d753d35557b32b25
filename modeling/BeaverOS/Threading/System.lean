import BeaverOS.Sched.Invariant
import BeaverOS.Threading.Mutex

/-!
# The statements of `start_task` and `terminate_task`

`sched.c`, one statement at a time, next to the statements of `mutex.c`. A timer
interrupt may come before any of them. Two parts stay whole here: the section of
`start_task` that masks interrupts, and a task switch. `QueueLock` takes them
apart.

The calls of the allocator are one step with the stores that fill in the record
of the new task, which nobody else can name yet.
-/

namespace BeaverOS.Kernel

open BeaverOS.Heap
open BeaverOS.Isr
open BeaverOS.Scheduler
open BeaverOS.Threading
open BeaverOS.Transition

/-- The statements of `start_task` between the stores to the record and
`MASK_INTERRUPTS`. -/
inductive Preparing where
  /-- `task->vtime = num_tasks ? total_vtime / num_tasks : 0`. -/
  | setVtime
  /-- `__sync_add_and_fetch(&num_tasks, 1)`. -/
  | countTask
  /-- `if (!task_queue)`. -/
  | testQueue
  /-- `task_queue = make_heap(compare_tasks)`. -/
  | makeQueue
  deriving DecidableEq, Repr

/-- The statements of `terminate_task`. -/
inductive Ending where
  /-- `task->state = TASK_STATE_TERMINATED`. -/
  | setTerminated
  /-- `__sync_sub_and_fetch(&total_vtime, task->vtime)`. -/
  | subtractVtime
  /-- `__sync_sub_and_fetch(&num_tasks, 1)`. -/
  | subtractCount
  /-- `if (task == PLS->current_task)`. -/
  | testCurrent
  /-- `yield()`. -/
  | yieldSelf
  /-- `__builtin_unreachable()`. -/
  | unreachable
  deriving DecidableEq, Repr

/-- Where a task is: outside of the two functions, or in one of them, called for
this task. -/
inductive Position where
  | outside
  | preparing (task : TaskPtr) (statement : Preparing)
  /-- Before the section of `start_task` that masks interrupts. -/
  | queueing (task : TaskPtr)
  | ending (task : TaskPtr) (statement : Ending)
  deriving DecidableEq, Repr

/-- The tasks with their places in `mutex.c` and in `sched.c`. Index `0` is the
boot code. -/
structure System (Ext : Type) where
  threads : Threads Ext
  position : TaskPtr → Position

section Model

variable {Ext : Type}

abbrev System.sched (system : System Ext) : Sched Ext :=
  system.threads.sched

/-- The position of the running task. -/
abbrev System.here (system : System Ext) : Position :=
  system.position system.sched.currentTask

/-- The scheduler's variables change. -/
def System.setSched (system : System Ext) (sched : Sched Ext) : System Ext :=
  { system with threads := { system.threads with sched := sched } }

/-- The running task has changed the scheduler's variables, and goes on with
another statement. -/
def System.proceed (system : System Ext) (sched : Sched Ext)
    (position : Position) : System Ext :=
  { threads := { system.threads with sched := sched }
    position :=
      Function.update system.position system.sched.currentTask position }

/-- The running code is in none of the functions. Before `main_loop` it is the
boot code, and the task that `main_loop` has terminated only yields. -/
def System.Free (system : System Ext) : Prop :=
  system.here = .outside ∧ system.threads.here = .outside ∧
    (system.sched.currentTask = 0 ∨ system.threads.Runs)

instance (system : System Ext) : Decidable system.Free :=
  inferInstanceAs (Decidable (_ ∧ _ ∧ _))

/-- `start_task` up to the store to `state`: the record of a new task, which
`calloc` has returned. -/
def allocateTask [Zero Ext] (sched : Sched Ext) (start context stack : Word)
    (area : Ext) : Sched Ext :=
  { sched with
    tasks := Function.update sched.tasks (sched.started + 1)
      { newTask sched start context stack area with vtime := 0 }
    started := sched.started + 1 }

/-- A statement of `start_task`, and what comes after it. -/
def prepare (sched : Sched Ext) (task : TaskPtr) :
    Preparing → Sched Ext × Position
  | .setVtime =>
      (sched.modify task fun record =>
          { record with vtime := meanVtime sched },
        .preparing task .countTask)
  | .countTask =>
      ({ sched with numTasks := sched.numTasks + 1 },
        .preparing task .testQueue)
  | .testQueue =>
      (sched,
        if sched.taskQueue.isNone then .preparing task .makeQueue
        else .queueing task)
  | .makeQueue =>
      ({ sched with taskQueue := some (makeHeap fun _ => 0) }, .queueing task)

/-- A statement of `terminate_task`, and what comes after it. -/
def finish (sched : Sched Ext) (task : TaskPtr) :
    Ending → Sched Ext × Position
  | .setTerminated =>
      (sched.setState task .terminated, .ending task .subtractVtime)
  | .subtractVtime =>
      ({ sched with
          totalVtime := sched.totalVtime - (sched.tasks task).vtime },
        .ending task .subtractCount)
  | .subtractCount =>
      ({ sched with numTasks := sched.numTasks - 1 }, .ending task .testCurrent)
  | .testCurrent =>
      (sched,
        if task = sched.currentTask then .ending task .yieldSelf else .outside)
  | .yieldSelf => (sched, .ending task .yieldSelf)
  | .unreachable => (sched, .ending task .unreachable)

/-- What the running code does between interrupts. -/
inductive Code (Ext : Type) where
  /-- A call of `start_task`. -/
  | start (start context : Word) (ring : BitVec 32) (stack : Word) (area : Ext)
  /-- A call of `terminate_task`. -/
  | terminate (task : TaskPtr)
  /-- The next statement of one of these two. -/
  | statement
  /-- A call of `mutex_lock`. -/
  | lock (mutex : Nat)
  /-- A call of `mutex_unlock`. -/
  | unlock (mutex : Nat)
  /-- The next statement of one of these two. -/
  | mutexStatement
  | mainLoop (cpuid : Cpuid) (stack : Word) (area : Ext)
  /-- An instruction that leaves these extended registers. -/
  | use (registers : Ext)

/-- The next statement in `start_task` or `terminate_task`. A `yield` is an
interrupt, and the masked section is a step of its own. -/
def runStatement (system : System Ext) : Option (System Ext) :=
  match system.here with
  | .preparing task statement =>
      let (sched, position) := prepare system.sched task statement
      some (system.proceed sched position)
  | .ending _ .yieldSelf | .ending _ .unreachable => none
  | .ending task statement =>
      let (sched, position) := finish system.sched task statement
      some (system.proceed sched position)
  | .outside | .queueing _ => none

/-- The next statement in `mutex_lock` or `mutex_unlock`. -/
def runMutexStatement (system : System Ext) : Option (System Ext) :=
  match system.threads.here with
  | .outside => none
  | .inside _ .yieldSelf => none
  | .inside _ _ =>
      if system.threads.Runs ∧ system.here = .outside then
        some { system with
          threads := execute system.threads system.sched.currentTask }
      else
        none

/-- The running code takes a step. Until `main_loop` has set up `PLS`, no task
is terminated and no mutex is used. -/
def runCode [Zero Ext] (system : System Ext) :
    Code Ext → Option (System Ext)
  | .start start context ring stack area =>
      -- `PANIC("Not yet")`
      if ring = 0 ∧ system.Free ∧ system.sched.started + 1 < 2 ^ 64 then
        some (system.proceed
          (allocateTask system.sched start context stack area)
          (.preparing (system.sched.started + 1) .setVtime))
      else
        none
  | .terminate task =>
      if system.Free ∧ system.sched.currentTask ≠ 0 ∧
          IsTask system.sched task then
        some (system.proceed system.sched (.ending task .setTerminated))
      else
        none
  | .statement => runStatement system
  | .lock mutex =>
      if system.Free ∧ system.sched.currentTask ≠ 0 then
        some { system with
          threads :=
            call system.threads system.sched.currentTask mutex .lockSpin }
      else
        none
  | .unlock mutex =>
      if system.Free ∧ system.sched.currentTask ≠ 0 then
        some { system with
          threads :=
            call system.threads system.sched.currentTask mutex .unlockSpin }
      else
        none
  | .mutexStatement => runMutexStatement system
  | .mainLoop cpuid stack area =>
      if system.Free ∧ system.sched.currentTask = 0 ∧
          system.sched.started + 1 < 2 ^ 64 then
        match mainLoop system.sched cpuid stack area with
        | .ok sched => some (system.setSched sched)
        | .error _ => none
      else
        none
  | .use registers =>
      if system.sched.currentTask ≠ 0 ∧ system.threads.Runs then
        some (system.setSched (useExtended system.sched registers))
      else
        none

/-- The section of `start_task` that masks interrupts, as a whole. -/
def runSection (system : System Ext) : Option (System Ext) :=
  match system.here, system.sched.taskQueue with
  | .queueing task, some queue =>
      match pushTask system.sched queue task with
      | .ok queue =>
          some (system.proceed
            { system.sched with taskQueue := some queue } .outside)
      | .error _ => none
  | _, _ => none

/-- The two ways into `task_switch_isr`. -/
inductive Interrupt where
  | timer
  | yield
  deriving DecidableEq, Repr

/-- Whether the running code can come to an interrupt now: the timer comes at
any time, and `yield` is called between the functions and at two statements. -/
def System.canLeave (system : System Ext) : Interrupt → Bool
  | .timer => true
  | .yield =>
      match system.here, system.threads.here with
      | .outside, .outside => true
      | .outside, .inside _ .yieldSelf => true
      | .ending _ .yieldSelf, .outside => true
      | _, _ => false

/-- The interrupt comes. The statement that calls `yield` is over once the task
goes on. -/
def System.leave (system : System Ext) : Interrupt → System Ext
  | .timer => system
  | .yield =>
      match system.here, system.threads.here with
      | .ending task .yieldSelf, _ =>
          system.proceed system.sched (.ending task .unreachable)
      | _, .inside _ .yieldSelf =>
          { system with
            threads := execute system.threads system.sched.currentTask }
      | _, _ => system

/-- A task switch, as a whole. -/
def runSwitch (system : System Ext) (interrupt : Interrupt)
    (i : InterruptFrame) (now later : Word) : Option (System Ext) :=
  if system.sched.currentTask ≠ 0 ∧ system.canLeave interrupt then
    let system := system.leave interrupt
    match taskSwitchIsr system.sched i now later with
    | .ok (_, sched) => some (system.setSched sched)
    | .error _ => none
  else
    none

/-- What happens on the processor, with sections and switches as a whole. -/
inductive Event (Ext : Type) where
  | code (code : Code Ext)
  | maskedSection
  | switch (interrupt : Interrupt) (i : InterruptFrame) (now later : Word)

/-- What an event does, if it can happen. -/
def advance [Zero Ext] (system : System Ext) : Event Ext → Option (System Ext)
  | .code code => runCode system code
  | .maskedSection => runSection system
  | .switch interrupt i now later => runSwitch system interrupt i now later

/-- The steps of the system. -/
def Step [Zero Ext] (system : System Ext) (event : Event Ext)
    (system' : System Ext) : Prop :=
  advance system event = some system'

/-- No task is in any of the functions. -/
def bootSystem [Zero Ext] (registers : Ext) : System Ext :=
  { threads := freshThreads (bootSched registers)
    position := fun _ => .outside }

/-! ## What an event does -/

/-- The events, with what lets them happen and what they lead to. -/
inductive Advanced [Zero Ext] (system : System Ext) :
    Event Ext → System Ext → Prop
  | start {start context stack : Word} {area : Ext} :
      system.Free →
      system.sched.started + 1 < 2 ^ 64 →
      Advanced system (.code (.start start context 0 stack area))
        (system.proceed
          (allocateTask system.sched start context stack area)
          (.preparing (system.sched.started + 1) .setVtime))
  | terminate {task : TaskPtr} :
      system.Free →
      system.sched.currentTask ≠ 0 →
      IsTask system.sched task →
      Advanced system (.code (.terminate task))
        (system.proceed system.sched (.ending task .setTerminated))
  | prepare {task : TaskPtr} {statement : Preparing} :
      system.here = .preparing task statement →
      Advanced system (.code .statement)
        (system.proceed (prepare system.sched task statement).1
          (prepare system.sched task statement).2)
  | finish {task : TaskPtr} {statement : Ending} :
      system.here = .ending task statement →
      statement ≠ .yieldSelf →
      statement ≠ .unreachable →
      Advanced system (.code .statement)
        (system.proceed (finish system.sched task statement).1
          (finish system.sched task statement).2)
  | call {code : Code Ext} {mutex : Nat} {first : Statement} :
      system.Free →
      system.sched.currentTask ≠ 0 →
      code = .lock mutex ∧ first = .lockSpin ∨
        code = .unlock mutex ∧ first = .unlockSpin →
      Advanced system (.code code)
        { system with
          threads := call system.threads system.sched.currentTask mutex first }
  | mutexStatement {mutex : Nat} {statement : Statement} :
      system.threads.here = .inside mutex statement →
      statement ≠ .yieldSelf →
      system.threads.Runs →
      system.here = .outside →
      Advanced system (.code .mutexStatement)
        { system with
          threads := execute system.threads system.sched.currentTask }
  | mainLoop {cpuid : Cpuid} {stack : Word} {area : Ext} {sched : Sched Ext} :
      system.Free →
      system.sched.currentTask = 0 →
      system.sched.started + 1 < 2 ^ 64 →
      mainLoop system.sched cpuid stack area = .ok sched →
      Advanced system (.code (.mainLoop cpuid stack area))
        (system.setSched sched)
  | use {registers : Ext} :
      system.threads.Runs →
      Advanced system (.code (.use registers))
        (system.setSched (useExtended system.sched registers))
  | maskedSection {task : TaskPtr} {queue pushed : MinHeap TaskPtr} :
      system.here = .queueing task →
      system.sched.taskQueue = some queue →
      pushTask system.sched queue task = .ok pushed →
      Advanced system .maskedSection
        (system.proceed { system.sched with taskQueue := some pushed }
          .outside)
  | switch {interrupt : Interrupt} {i i' : InterruptFrame} {now later : Word}
      {sched : Sched Ext} :
      system.sched.currentTask ≠ 0 →
      system.canLeave interrupt = true →
      taskSwitchIsr (system.leave interrupt).sched i now later =
        .ok (i', sched) →
      Advanced system (.switch interrupt i now later)
        ((system.leave interrupt).setSched sched)

theorem runSection_cases {system system' : System Ext}
    (result : runSection system = some system') :
    ∃ task queue pushed, system.here = .queueing task ∧
      system.sched.taskQueue = some queue ∧
      pushTask system.sched queue task = .ok pushed ∧
      system' = system.proceed { system.sched with taskQueue := some pushed }
        .outside := by
  rw [runSection] at result
  split at result
  · next stands found =>
      split at result
      · next pushed =>
          cases result
          exact ⟨_, _, _, stands, found, pushed, rfl⟩
      · cases result
  · cases result

section Inversion

variable [Zero Ext] {system system' : System Ext}

theorem advanced_of_runStatement
    (result : runStatement system = some system') :
    Advanced system (.code .statement) system' := by
  rw [runStatement] at result
  split at result
  · next stands =>
      cases result
      exact Advanced.prepare stands
  · cases result
  · cases result
  · next notYield notUnreachable stands =>
      cases result
      exact Advanced.finish stands notYield notUnreachable
  · cases result
  · cases result

theorem advanced_of_runMutexStatement
    (result : runMutexStatement system = some system') :
    Advanced system (.code .mutexStatement) system' := by
  rw [runMutexStatement] at result
  split at result
  · cases result
  · cases result
  · next mutex statement notYield stands =>
      split at result
      · next allowed =>
          cases result
          exact Advanced.mutexStatement stands notYield allowed.1 allowed.2
      · cases result

theorem advanced_of_runCode {code : Code Ext}
    (result : runCode system code = some system') :
    Advanced system (.code code) system' := by
  cases code with
  | start start context ring stack area =>
      rw [runCode] at result
      split at result
      · next allowed =>
          obtain ⟨rfl, free, fits⟩ := allowed
          cases result
          exact Advanced.start free fits
      · cases result
  | terminate task =>
      rw [runCode] at result
      split at result
      · next allowed =>
          cases result
          exact Advanced.terminate allowed.1 allowed.2.1 allowed.2.2
      · cases result
  | statement => exact advanced_of_runStatement result
  | lock mutex =>
      rw [runCode] at result
      split at result
      · next allowed =>
          cases result
          exact Advanced.call allowed.1 allowed.2 (Or.inl ⟨rfl, rfl⟩)
      · cases result
  | unlock mutex =>
      rw [runCode] at result
      split at result
      · next allowed =>
          cases result
          exact Advanced.call allowed.1 allowed.2 (Or.inr ⟨rfl, rfl⟩)
      · cases result
  | mutexStatement => exact advanced_of_runMutexStatement result
  | mainLoop cpuid stack area =>
      rw [runCode] at result
      split at result
      · next allowed =>
          obtain ⟨free, booting, fits⟩ := allowed
          split at result
          · next returned =>
              cases result
              exact Advanced.mainLoop free booting fits returned
          · cases result
      · cases result
  | use registers =>
      rw [runCode] at result
      split at result
      · next allowed =>
          cases result
          exact Advanced.use allowed.2
      · cases result

theorem advanced_of_step {event : Event Ext}
    (step : Step system event system') : Advanced system event system' := by
  cases event with
  | code code => exact advanced_of_runCode step
  | maskedSection =>
      obtain ⟨task, queue, pushed, stands, found, push, rfl⟩ :=
        runSection_cases step
      exact Advanced.maskedSection stands found push
  | switch interrupt i now later =>
      rw [Step, advance, runSwitch] at step
      split at step
      · next allowed =>
          simp only at step
          split at step
          · next returned =>
              cases step
              exact Advanced.switch allowed.1 allowed.2 returned
          · cases step
      · cases step

end Inversion

end Model

/-! ## Calls that nothing interrupts -/

section Proceed

variable {Ext : Type} (system : System Ext) (sched : Sched Ext)
  (position : Position)

@[simp] theorem proceed_sched :
    (system.proceed sched position).sched = sched := rfl

@[simp] theorem proceed_position :
    (system.proceed sched position).position =
      Function.update system.position system.sched.currentTask position := rfl

theorem proceed_here (same : sched.currentTask = system.sched.currentTask) :
    (system.proceed sched position).here = position := by
  rw [System.here, proceed_sched, same]
  exact Function.update_self _ _ _

theorem proceed_proceed (same : sched.currentTask = system.sched.currentTask)
    (sched' : Sched Ext) (position' : Position) :
    (system.proceed sched position).proceed sched' position' =
      system.proceed sched' position' := by
  rw [System.proceed, System.proceed, System.proceed]
  simp only [System.sched, same, Function.update_idem]

theorem proceed_of_here (stands : system.here = position) :
    system.proceed sched position = system.setSched sched := by
  rw [System.proceed, ← stands, Function.update_eq_self]
  rfl

end Proceed

section Uninterrupted

variable {Ext : Type} [Zero Ext] {system : System Ext} {sched : Sched Ext}
  {task : TaskPtr} {start context stack : Word} {area : Ext}

theorem step_prepare {statement : Preparing}
    (same : sched.currentTask = system.sched.currentTask) :
    Step (system.proceed sched (.preparing task statement)) (.code .statement)
      (system.proceed (prepare sched task statement).1
        (prepare sched task statement).2) := by
  rw [Step, advance, runCode, runStatement, proceed_here _ _ _ same]
  exact congrArg some (proceed_proceed _ _ _ same _ _)

theorem step_finish {statement : Ending}
    (same : sched.currentTask = system.sched.currentTask)
    (notYield : statement ≠ .yieldSelf)
    (notUnreachable : statement ≠ .unreachable) :
    Step (system.proceed sched (.ending task statement)) (.code .statement)
      (system.proceed (finish sched task statement).1
        (finish sched task statement).2) := by
  rw [Step, advance, runCode, runStatement, proceed_here _ _ _ same]
  cases statement with
  | yieldSelf => exact absurd rfl notYield
  | unreachable => exact absurd rfl notUnreachable
  | setTerminated | subtractVtime | subtractCount | testCurrent =>
      exact congrArg some (proceed_proceed _ _ _ same _ _)

/-- The section, with a queue that has room. -/
theorem step_maskedSection {queue pushed : MinHeap TaskPtr}
    (same : sched.currentTask = system.sched.currentTask)
    (found : sched.taskQueue = some queue)
    (push : pushTask sched queue task = .ok pushed) :
    Step (system.proceed sched (.queueing task)) .maskedSection
      (system.proceed { sched with taskQueue := some pushed } .outside) := by
  rw [Step, advance, runSection, proceed_here _ _ _ same, proceed_sched, found]
  simp only [push]
  exact congrArg some (proceed_proceed _ _ _ same _ _)

/-- The new task when `start_task` masks interrupts. -/
theorem prepared_eq :
    (prepare (prepare (allocateTask sched start context stack area)
        (sched.started + 1) .setVtime).1 (sched.started + 1) .countTask).1 =
      { sched with
        tasks := Function.update sched.tasks (sched.started + 1)
          (newTask sched start context stack area)
        started := sched.started + 1
        numTasks := sched.numTasks + 1 } := by
  simp only [prepare, allocateTask, Sched.modify, Function.update_self,
    Function.update_idem]
  rfl

/-- The statements of `start_task`, where nothing interrupts them, do what the
function does as a whole. -/
theorem start_uninterrupted (free : system.Free)
    (fits : system.sched.started + 1 < 2 ^ 64)
    (result : startTask system.sched start context 0 stack area =
      .ok (task, sched)) :
    ∃ events, Run Step system events (system.setSched sched) := by
  have called : Step system (.code (.start start context 0 stack area))
      (system.proceed (allocateTask system.sched start context stack area)
        (.preparing (system.sched.started + 1) .setVtime)) := by
    rw [Step, advance, runCode, if_pos ⟨rfl, free, fits⟩]
  have timed := (Run.nil.snoc called).snoc (step_prepare rfl)
  have counted := timed.snoc (step_prepare rfl)
  rw [prepared_eq] at counted
  generalize preparedEq : ({ system.sched with
      tasks := Function.update system.sched.tasks (system.sched.started + 1)
        (newTask system.sched start context stack area)
      started := system.sched.started + 1
      numTasks := system.sched.numTasks + 1 } : Sched Ext) = prepared at counted
  have same : prepared.currentTask = system.sched.currentTask := by
    rw [← preparedEq]
  have queueEq : prepared.taskQueue = system.sched.taskQueue := by
    rw [← preparedEq]
  have tested := counted.snoc (step_prepare same)
  simp only [startTask, ne_eq, not_true_eq_false, if_false, preparedEq] at result
  cases push : pushTask prepared
      (system.sched.taskQueue.getD (makeHeap fun _ => 0))
      (system.sched.started + 1) with
  | error stop =>
      rw [push] at result
      cases result
  | ok pushed =>
      rw [push] at result
      have schedEq : { prepared with taskQueue := some pushed } = sched := by
        rw [← preparedEq]
        exact (Prod.mk.inj (Except.ok.inj result)).2
      cases found : system.sched.taskQueue with
      | none =>
          simp only [prepare, queueEq, found, Option.isNone_none, if_true] at tested
          have made := tested.snoc (step_prepare same)
          rw [found] at push
          have queued := made.snoc (step_maskedSection same rfl push)
          rw [proceed_of_here _ _ _ free.1] at queued
          exact ⟨_, schedEq ▸ queued⟩
      | some queue =>
          simp only [prepare, queueEq, found, Option.isNone_some,
            Bool.false_eq_true, if_false] at tested
          rw [found] at push
          have queued := tested.snoc
            (step_maskedSection same (queueEq.trans found) push)
          rw [proceed_of_here _ _ _ free.1] at queued
          exact ⟨_, schedEq ▸ queued⟩

/-- The same of `terminate_task`, up to the `yield`. -/
theorem terminate_uninterrupted (free : system.Free)
    (runs : system.sched.currentTask ≠ 0) (isTask : IsTask system.sched task) :
    ∃ events, Run Step system events
      (system.proceed (terminateTask system.sched task)
        (if task = system.sched.currentTask then .ending task .yieldSelf
          else .outside)) := by
  have called : Step system (.code (.terminate task))
      (system.proceed system.sched (.ending task .setTerminated)) := by
    rw [Step, advance, runCode, if_pos ⟨free, runs, isTask⟩]
  have first := Run.nil.snoc called
  have second := first.snoc (step_finish rfl (by decide) (by decide))
  have third := second.snoc (step_finish rfl (by decide) (by decide))
  have fourth := third.snoc (step_finish rfl (by decide) (by decide))
  have fifth := fourth.snoc (step_finish rfl (by decide) (by decide))
  exact ⟨_, fifth⟩

end Uninterrupted

end BeaverOS.Kernel
