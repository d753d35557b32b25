import Mathlib.Data.Finset.Erase
import Mathlib.Data.Finset.Insert
import BeaverOS.Sched.Switch

/-!
# The statements of `mutex_lock` and `mutex_unlock`

`mutex.c` and `threading/spinlock.h`, one statement at a time. A thread of
control stands before a statement, and an interrupt may come before any of them.
The queue functions are one statement: only the owner of the spinlock calls
them. `Interleave` lets any task take the next statement at any time; in
`Schedule` the tasks share the processor, and only `task_switch_isr` passes it
on.
-/

namespace BeaverOS.Threading

open BeaverOS.Heap
open BeaverOS.Isr
open BeaverOS.Scheduler

/-- The statements, in the order of the source. -/
inductive Statement where
  /-- `spinlock_lock(&mutex->lock, 1)`, at the start of `mutex_lock`. -/
  | lockSpin
  /-- `if (mutex->locked)`. -/
  | lockTest
  /-- `self->state = TASK_STATE_FROZEN`. -/
  | freezeSelf
  /-- `enqueue(&mutex->waiting_tasks, self)`. -/
  | enqueueSelf
  /-- `spinlock_unlock(&mutex->lock)`, by a task that has to wait. -/
  | unlockFrozen
  /-- `yield()`. -/
  | yieldSelf
  /-- The end of the loop, with `yield` about to return. -/
  | tryAgain
  /-- `mutex->locked = 1`. -/
  | setLocked
  /-- `spinlock_unlock(&mutex->lock)`, by the task that has the mutex. -/
  | unlockLocked
  /-- `spinlock_lock(&mutex->lock, 1)`, at the start of `mutex_unlock`. -/
  | unlockSpin
  /-- `mutex->locked = 0`. -/
  | clearLocked
  /-- `task_t *t = dequeue(&mutex->waiting_tasks)`. -/
  | dequeueTask
  /-- `t->state = TASK_STATE_IN_QUEUE`. -/
  | wakeTask (task : TaskPtr)
  /-- `spinlock_unlock(&mutex->lock)`, at the end of `mutex_unlock`. -/
  | unlockWoken
  deriving DecidableEq, Repr

/-- Where a task is: outside of the two functions, or in one of them, called
with this mutex. -/
inductive Place where
  | outside
  | inside (mutex : Nat) (statement : Statement)
  deriving DecidableEq, Repr

/-- The scheduler, with a spinlock for each mutex and a place for each task. The
holders of a mutex are the tasks that have returned from `mutex_lock` and not
cleared `locked` since. -/
structure Threads (Ext : Type) where
  sched : Sched Ext
  spinlock : Nat → Word
  place : TaskPtr → Place
  holders : Nat → Finset TaskPtr

section Model

variable {Ext : Type}

/-- The task goes on with another statement. -/
def Threads.goto (threads : Threads Ext) (self : TaskPtr) (place : Place) :
    Threads Ext :=
  { threads with place := Function.update threads.place self place }

/-- A store to the spinlock of a mutex. -/
def Threads.setSpinlock (threads : Threads Ext) (mutex : Nat) (value : Word) :
    Threads Ext :=
  { threads with spinlock := Function.update threads.spinlock mutex value }

/-- A store to the other fields of a mutex. -/
def Threads.setMutex (threads : Threads Ext) (mutex : Nat) (fields : Mutex) :
    Threads Ext :=
  { threads with
    sched :=
      { threads.sched with
        mutexes := Function.update threads.sched.mutexes mutex fields } }

/-- `task->state = state`. -/
def Threads.setState (threads : Threads Ext) (task : TaskPtr)
    (state : TaskState) : Threads Ext :=
  { threads with sched := threads.sched.setState task state }

/-- The tasks that hold a mutex change. -/
def Threads.setHolders (threads : Threads Ext) (mutex : Nat)
    (holders : Finset TaskPtr) : Threads Ext :=
  { threads with holders := Function.update threads.holders mutex holders }

/-- One round of `spinlock_lock`: the test-and-set, and the next statement if
the lock was free. -/
def spinlockLock (threads : Threads Ext) (self : TaskPtr) (mutex : Nat)
    (next : Statement) : Threads Ext :=
  let old := threads.spinlock mutex
  let threads := threads.setSpinlock mutex 1
  if old ≠ 0 then threads else threads.goto self (.inside mutex next)

/-- The task `self` executes the statement that it stands before. `yield` only
moves on here; the switch that it makes is a step of its own. -/
def execute (threads : Threads Ext) (self : TaskPtr) : Threads Ext :=
  match threads.place self with
  | .outside => threads
  | .inside mutex statement =>
      let fields := threads.sched.mutexes mutex
      match statement with
      | .lockSpin => spinlockLock threads self mutex .lockTest
      | .lockTest =>
          threads.goto self
            (.inside mutex (if fields.locked then .freezeSelf else .setLocked))
      | .freezeSelf =>
          (threads.setState self .frozen).goto self (.inside mutex .enqueueSelf)
      | .enqueueSelf =>
          (threads.setMutex mutex
            { fields with waitingTasks := fields.waitingTasks ++ [self] }).goto
              self (.inside mutex .unlockFrozen)
      | .unlockFrozen =>
          (threads.setSpinlock mutex 0).goto self (.inside mutex .yieldSelf)
      | .yieldSelf => threads.goto self (.inside mutex .tryAgain)
      | .tryAgain => threads.goto self (.inside mutex .lockSpin)
      | .setLocked =>
          (threads.setMutex mutex { fields with locked := true }).goto
            self (.inside mutex .unlockLocked)
      | .unlockLocked =>
          ((threads.setSpinlock mutex 0).setHolders mutex
            (insert self (threads.holders mutex))).goto self .outside
      | .unlockSpin => spinlockLock threads self mutex .clearLocked
      | .clearLocked =>
          ((threads.setMutex mutex { fields with locked := false }).setHolders
            mutex ((threads.holders mutex).erase self)).goto
              self (.inside mutex .dequeueTask)
      | .dequeueTask =>
          match fields.waitingTasks with
          | [] => threads.goto self (.inside mutex .unlockWoken)
          | task :: tasks =>
              -- a `NULL` in the queue would end the loop as well
              (threads.setMutex mutex
                { fields with waitingTasks := tasks }).goto self
                  (.inside mutex
                    (if task = 0 then .unlockWoken else .wakeTask task))
      | .wakeTask task =>
          (threads.setState task .inQueue).goto self
            (.inside mutex .dequeueTask)
      | .unlockWoken => (threads.setSpinlock mutex 0).goto self .outside

/-- A call of one of the two functions, with its first statement. -/
def call (threads : Threads Ext) (self : TaskPtr) (mutex : Nat)
    (first : Statement) : Threads Ext :=
  threads.goto self (.inside mutex first)

/-! ## Tasks at any speed -/

/-- Who does what. -/
inductive Turn where
  | lock (self : TaskPtr) (mutex : Nat)
  | unlock (self : TaskPtr) (mutex : Nat)
  | statement (self : TaskPtr)
  /-- The scheduler does something. -/
  | scheduler
  deriving DecidableEq, Repr

/-- The scheduler may change its own variables and the tasks, but does not touch
a mutex or what the tasks are about to execute. -/
structure SameMutexes (threads threads' : Threads Ext) : Prop where
  mutexes : threads'.sched.mutexes = threads.sched.mutexes
  spinlock : threads'.spinlock = threads.spinlock
  place : threads'.place = threads.place
  holders : threads'.holders = threads.holders

/-- A step of any task, or of the scheduler. Only a holder calls
`mutex_unlock`. -/
inductive Interleave : Threads Ext → Turn → Threads Ext → Prop
  | lock {threads : Threads Ext} {self : TaskPtr} {mutex : Nat} :
      threads.place self = .outside →
      Interleave threads (.lock self mutex) (call threads self mutex .lockSpin)
  | unlock {threads : Threads Ext} {self : TaskPtr} {mutex : Nat} :
      threads.place self = .outside →
      self ∈ threads.holders mutex →
      Interleave threads (.unlock self mutex)
        (call threads self mutex .unlockSpin)
  | statement {threads : Threads Ext} {self : TaskPtr} :
      threads.place self ≠ .outside →
      Interleave threads (.statement self) (execute threads self)
  | scheduler {threads threads' : Threads Ext} :
      SameMutexes threads threads' →
      Interleave threads .scheduler threads'

/-- No task has called anything, and all mutexes are as `calloc` or the kernel
image have them. -/
def freshThreads (sched : Sched Ext) : Threads Ext :=
  { sched :=
      { sched with mutexes := fun _ => { waitingTasks := [], locked := false } }
    spinlock := fun _ => 0
    place := fun _ => .outside
    holders := fun _ => ∅ }

/-! ## Tasks that share the processor -/

/-- What happens on the processor. -/
inductive Event (Ext : Type) where
  | start (start context stack : Word) (area : Ext)
  | mainLoop (cpuid : Cpuid) (stack : Word) (area : Ext)
  /-- The timer interrupt. -/
  | timer (i : InterruptFrame) (now later : Word)
  | yieldSelf (i : InterruptFrame) (now later : Word)
  | lock (mutex : Nat)
  | unlock (mutex : Nat)
  | statement

/-- A task runs, and not the end of `main_loop`. -/
def Threads.Runs (threads : Threads Ext) : Prop :=
  threads.sched.currentTask ≠ 0 ∧
    threads.sched.currentTask ≠ threads.sched.bootstrap

instance (threads : Threads Ext) : Decidable threads.Runs :=
  inferInstanceAs (Decidable (_ ∧ _))

/-- The place of the running task. -/
abbrev Threads.here (threads : Threads Ext) : Place :=
  threads.place threads.sched.currentTask

/-- `task_switch_isr` in these threads. -/
def switchThreads (threads : Threads Ext) (i : InterruptFrame)
    (now later : Word) : Option (Threads Ext) :=
  if threads.sched.currentTask = 0 then
    none
  else
    match taskSwitchIsr threads.sched i now later with
    | .ok (_, sched) => some { threads with sched := sched }
    | .error _ => none

/-- What an event does, if it can happen. -/
def schedule [Zero Ext] (threads : Threads Ext) :
    Event Ext → Option (Threads Ext)
  | .start start context stack area =>
      if threads.sched.currentTask = 0 ∨
          (threads.Runs ∧ threads.here = .outside) then
        match startTask threads.sched start context 0 stack area with
        | .ok (_, sched) => some { threads with sched := sched }
        | .error _ => none
      else
        none
  | .mainLoop cpuid stack area =>
      if threads.sched.currentTask = 0 then
        match mainLoop threads.sched cpuid stack area with
        | .ok sched => some { threads with sched := sched }
        | .error _ => none
      else
        none
  | .timer i now later => switchThreads threads i now later
  | .yieldSelf i now later =>
      match threads.here with
      | .outside => switchThreads threads i now later
      | .inside _ .yieldSelf =>
          switchThreads (execute threads threads.sched.currentTask) i now later
      | .inside _ _ => none
  | .lock mutex =>
      if threads.Runs ∧ threads.here = .outside then
        some (call threads threads.sched.currentTask mutex .lockSpin)
      else
        none
  | .unlock mutex =>
      if threads.Runs ∧ threads.here = .outside then
        some (call threads threads.sched.currentTask mutex .unlockSpin)
      else
        none
  | .statement =>
      match threads.here with
      | .outside => none
      | .inside _ .yieldSelf => none
      | .inside _ _ =>
          if threads.Runs then
            some (execute threads threads.sched.currentTask)
          else
            none

/-- The steps of the processor. -/
def Schedule [Zero Ext] (threads : Threads Ext) (event : Event Ext)
    (threads' : Threads Ext) : Prop :=
  schedule threads event = some threads'

end Model

end BeaverOS.Threading
