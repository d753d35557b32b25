import BeaverOS.Sched.Scheduler

/-!
# What a task switch does

Closed forms of the parts of `task_switch_isr`, and one specification of a
switch that returns: the preempted task is pushed, tasks that cannot run are
dropped, and the first task that can is resumed.
-/

namespace BeaverOS.Scheduler

open BeaverOS.Heap
open BeaverOS.HeapOrder
open BeaverOS.Isr

section Parts

variable {Ext : Type} {sched : Sched Ext} {i : InterruptFrame}
  {now later : Word} {task : TaskPtr} {tasks : TaskPtr → Task Ext}

/-! ## Before the lock -/

/-- The preempted task, with its registers saved and its time accounted. -/
def preempted (sched : Sched Ext) (i : InterruptFrame) (now : Word) :
    Task Ext :=
  let record := sched.tasks sched.currentTask
  { record with
    savedState := i
    processorExtendedState :=
      if sched.extendedStateSaveMode = .xsaveEager then
        sched.extendedRegisters
      else
        record.processorExtendedState
    vtime := record.vtime + (now - record.startedAt)
    state := if record.state = .running then .inQueue else record.state }

theorem preempt_eq (sched : Sched Ext) (i : InterruptFrame) (now : Word) :
    preempt sched i now =
      { sched with
        tasks :=
          Function.update sched.tasks sched.currentTask (preempted sched i now)
        totalVtime := sched.totalVtime +
          (now - (sched.tasks sched.currentTask).startedAt)
        taskSwitched :=
          sched.extendedStateSaveMode = .fxsaveLazy ||
            sched.taskSwitched } := by
  cases mode : sched.extendedStateSaveMode <;>
    cases state : (sched.tasks sched.currentTask).state <;>
      simp [preempt, preempted, Sched.modify, Sched.setState, Sched.stateOf,
        mode, state]

section Fields

variable (sched i now)

@[simp] theorem preempt_started :
    (preempt sched i now).started = sched.started := by
  rw [preempt_eq]

@[simp] theorem preempt_taskQueue :
    (preempt sched i now).taskQueue = sched.taskQueue := by
  rw [preempt_eq]

@[simp] theorem preempt_numTasks :
    (preempt sched i now).numTasks = sched.numTasks := by
  rw [preempt_eq]

@[simp] theorem preempt_currentTask :
    (preempt sched i now).currentTask = sched.currentTask := by
  rw [preempt_eq]

@[simp] theorem preempt_bootstrap :
    (preempt sched i now).bootstrap = sched.bootstrap := by
  rw [preempt_eq]

@[simp] theorem preempt_mutexes :
    (preempt sched i now).mutexes = sched.mutexes := by
  rw [preempt_eq]

theorem preempt_totalVtime :
    (preempt sched i now).totalVtime =
      sched.totalVtime +
        (now - (sched.tasks sched.currentTask).startedAt) := by
  rw [preempt_eq]

theorem preempt_tasks :
    (preempt sched i now).tasks =
      Function.update sched.tasks sched.currentTask (preempted sched i now) := by
  rw [preempt_eq]

theorem preempt_task_of_ne (different : task ≠ sched.currentTask) :
    (preempt sched i now).tasks task = sched.tasks task := by
  rw [preempt_tasks, Function.update_of_ne different]

theorem preempt_task_current :
    (preempt sched i now).tasks sched.currentTask = preempted sched i now := by
  rw [preempt_tasks, Function.update_self]

end Fields

/-- A running task is queued, and no other state changes. -/
theorem preempt_stateOf (task : TaskPtr) :
    (preempt sched i now).stateOf task =
      if task = sched.currentTask ∧ sched.stateOf task = .running then .inQueue
      else sched.stateOf task := by
  by_cases current : task = sched.currentTask
  · subst current
    rw [Sched.stateOf, preempt_task_current, preempted]
    simp only [true_and]
  · rw [Sched.stateOf, preempt_task_of_ne sched i now current,
      if_neg fun both => current both.1]

/-! ## After the lock -/

/-- The resumed task. -/
def resumed (sched : Sched Ext) (later : Word) : Task Ext :=
  { sched.tasks sched.currentTask with state := .running, startedAt := later }

theorem resume_eq (sched : Sched Ext) (later : Word) :
    resume sched later =
      ((sched.tasks sched.currentTask).savedState,
        { sched with
          tasks :=
            Function.update sched.tasks sched.currentTask (resumed sched later)
          extendedRegisters :=
            if sched.extendedStateSaveMode = .xsaveEager then
              (sched.tasks sched.currentTask).processorExtendedState
            else
              sched.extendedRegisters
          apicInitialCount :=
            (5000#32 * (20#32 - (sched.tasks sched.currentTask).nice)).signExtend
              64 }) := by
  cases mode : sched.extendedStateSaveMode <;>
    simp [resume, resumed, Sched.modify, Sched.setState, mode]

/-! ## The selection loop -/

theorem compareTasks_self (tasks : TaskPtr → Task Ext) (task : TaskPtr) :
    ¬ compareTasks tasks task task < 0 := by
  rw [compareTasks, BitVec.sub_self]
  decide

/-- The loop has dropped tasks that cannot run and returned one that can. -/
structure Selected (tasks : TaskPtr → Task Ext) (queue : MinHeap TaskPtr)
    (dropped : Multiset TaskPtr) (next : TaskPtr) (rest : MinHeap TaskPtr) :
    Prop where
  items : queue.items = dropped + next ::ₘ rest.items
  dropped : ∀ task ∈ dropped, (tasks task).state ≠ .inQueue
  runs : (tasks next).state = .inQueue
  allocated : Allocated rest

theorem selected_of_selectTask {fuel : Nat} {queue rest : MinHeap TaskPtr}
    {next : TaskPtr} (allocated : Allocated queue)
    (selected : selectTask tasks fuel queue = .ok (next, rest)) :
    ∃ dropped, Selected tasks queue dropped next rest := by
  induction fuel generalizing queue with
  | zero => cases selected
  | succ fuel inductionHypothesis =>
      rw [selectTask] at selected
      by_cases empty : queue.size = 0
      · rw [heapPop_empty empty] at selected
        cases selected
      · obtain ⟨task, queue', popped⟩ :=
          heapPop_spec (compareTasks_self tasks) allocated empty
        rw [popped.result] at selected
        simp only at selected
        split at selected
        · cases selected
        · split at selected
          · next runs =>
              cases selected
              exact ⟨0, by rw [popped.items, zero_add], by simp, runs,
                popped.allocated⟩
          · next stuck =>
              obtain ⟨dropped, result⟩ :=
                inductionHypothesis popped.allocated selected
              refine ⟨task ::ₘ dropped, ?_, ?_, result.runs, result.allocated⟩
              · rw [popped.items, result.items, Multiset.cons_add]
              · intro other member
                rcases Multiset.mem_cons.mp member with rfl | member
                · exact stuck
                · exact result.dropped other member

/-- The loop ends with a task that can run, if there is one. -/
theorem selectTask_ok {fuel : Nat} {queue : MinHeap TaskPtr}
    (allocated : Allocated queue) (nonNull : 0 ∉ queue.items)
    (enough : queue.size < fuel)
    (found : ∃ task ∈ queue.items, (tasks task).state = .inQueue) :
    ∃ next rest, selectTask tasks fuel queue = .ok (next, rest) := by
  induction fuel generalizing queue with
  | zero => exact absurd enough (Nat.not_lt_zero _)
  | succ fuel inductionHypothesis =>
      have nonEmpty : queue.size ≠ 0 := by
        intro empty
        obtain ⟨task, member, _⟩ := found
        rw [MinHeap.items, empty] at member
        exact absurd member (Multiset.notMem_zero task)
      obtain ⟨task, queue', popped⟩ :=
        heapPop_spec (compareTasks_self tasks) allocated nonEmpty
      have fewer := popped.size
      have taskNonNull : task ≠ 0 := by
        rintro rfl
        exact nonNull (popped.items ▸ Multiset.mem_cons_self _ _)
      rw [selectTask, popped.result]
      simp only [if_neg taskNonNull]
      split
      · exact ⟨task, queue', rfl⟩
      · next stuck =>
          refine inductionHypothesis popped.allocated ?_ (by omega) ?_
          · intro member
            exact nonNull (popped.items ▸ Multiset.mem_cons_of_mem member)
          · obtain ⟨other, member, runs⟩ := found
            rw [popped.items] at member
            rcases Multiset.mem_cons.mp member with rfl | member
            · exact absurd runs stuck
            · exact ⟨other, member, runs⟩

/-- With no task that can run, the loop pops an empty heap. -/
theorem selectTask_fault {fuel : Nat} {queue : MinHeap TaskPtr}
    (allocated : Allocated queue) (nonNull : 0 ∉ queue.items)
    (enough : queue.size < fuel)
    (stuck : ∀ task ∈ queue.items, (tasks task).state ≠ .inQueue) :
    selectTask tasks fuel queue = .error .fault := by
  induction fuel generalizing queue with
  | zero => exact absurd enough (Nat.not_lt_zero _)
  | succ fuel inductionHypothesis =>
      rw [selectTask]
      by_cases empty : queue.size = 0
      · rw [heapPop_empty empty]
      · obtain ⟨task, queue', popped⟩ :=
          heapPop_spec (compareTasks_self tasks) allocated empty
        have fewer := popped.size
        have member : task ∈ queue.items := by
          rw [popped.items]
          exact Multiset.mem_cons_self _ _
        have taskNonNull : task ≠ 0 := by
          rintro rfl
          exact nonNull member
        rw [popped.result]
        simp only [if_neg taskNonNull, if_neg (stuck task member)]
        refine inductionHypothesis popped.allocated ?_ (by omega) ?_
        · intro member
          exact nonNull (popped.items ▸ Multiset.mem_cons_of_mem member)
        · intro other member
          exact stuck other (popped.items ▸ Multiset.mem_cons_of_mem member)

end Parts

/-! ## The operations that move tasks -/

section Operations

variable {Ext : Type} {sched sched' : Sched Ext} {i i' : InterruptFrame}
  {now later : Word} {task next : TaskPtr}
  {queue pushed rest : MinHeap TaskPtr} {dropped : Multiset TaskPtr}

/-- The tasks in `task_queue`. -/
def items (sched : Sched Ext) : Multiset TaskPtr :=
  match sched.taskQueue with
  | none => 0
  | some queue => queue.items

theorem items_of_taskQueue (found : sched.taskQueue = some queue) :
    items sched = queue.items := by
  rw [items, found]

/-- The queue, if there is one, is allocated. -/
def QueueAllocated (sched : Sched Ext) : Prop :=
  ∀ queue, sched.taskQueue = some queue → Allocated queue

/-- A switch: `pushed` is the queue with the preempted task, and `rest` what is
left when `next` is found. -/
structure Switched (sched : Sched Ext) (i : InterruptFrame) (now later : Word)
    (queue pushed : MinHeap TaskPtr) (dropped : Multiset TaskPtr)
    (next : TaskPtr) (rest : MinHeap TaskPtr) (i' : InterruptFrame)
    (sched' : Sched Ext) : Prop where
  found : sched.taskQueue = some queue
  push :
    Pushed (compareTasks (preempt sched i now).tasks) queue sched.currentTask
      pushed
  selected : Selected (preempt sched i now).tasks pushed dropped next rest
  selects :
    selectTask (preempt sched i now).tasks (pushed.size + 1) pushed =
      .ok (next, rest)
  result :
    (i', sched') = resume
      { preempt sched i now with taskQueue := some rest, currentTask := next }
      later

theorem switched_of_taskSwitchIsr (allocated : QueueAllocated sched)
    (result : taskSwitchIsr sched i now later = .ok (i', sched')) :
    ∃ queue pushed dropped next rest,
      Switched sched i now later queue pushed dropped next rest i' sched' := by
  simp only [taskSwitchIsr, preempt_taskQueue, preempt_currentTask] at result
  cases found : sched.taskQueue with
  | none =>
      rw [found] at result
      cases result
  | some queue =>
      rw [found] at result
      obtain ⟨pushed, push⟩ :=
        heapPush_spec (compareTasks_self (preempt sched i now).tasks)
          (allocated queue found) sched.currentTask
      simp only [pushTask, push.result, bind, Except.bind] at result
      cases selects :
        selectTask (preempt sched i now).tasks (pushed.size + 1) pushed with
      | error stop =>
          rw [selects] at result
          cases result
      | ok pair =>
          obtain ⟨next, rest⟩ := pair
          rw [selects] at result
          obtain ⟨dropped, selected⟩ :=
            selected_of_selectTask push.allocated selects
          exact ⟨queue, pushed, dropped, next, rest, found, push, selected,
            selects, (Except.ok.inj result).symm⟩

namespace Switched

variable (switched : Switched sched i now later queue pushed dropped next rest
  i' sched')

include switched

theorem sched_eq :
    sched' = (resume
      { preempt sched i now with taskQueue := some rest, currentTask := next }
      later).2 :=
  congrArg Prod.snd switched.result

theorem frame_eq : i' = ((preempt sched i now).tasks next).savedState := by
  have result := congrArg Prod.fst switched.result
  rw [resume_eq] at result
  exact result

theorem currentTask : sched'.currentTask = next := by
  rw [switched.sched_eq, resume_eq]

theorem taskQueue : sched'.taskQueue = some rest := by
  rw [switched.sched_eq, resume_eq]

theorem started : sched'.started = sched.started := by
  rw [switched.sched_eq, resume_eq]
  exact preempt_started sched i now

theorem numTasks : sched'.numTasks = sched.numTasks := by
  rw [switched.sched_eq, resume_eq]
  exact preempt_numTasks sched i now

theorem totalVtime : sched'.totalVtime = (preempt sched i now).totalVtime := by
  rw [switched.sched_eq, resume_eq]

theorem bootstrap : sched'.bootstrap = sched.bootstrap := by
  rw [switched.sched_eq, resume_eq]
  exact preempt_bootstrap sched i now

theorem mutexes : sched'.mutexes = sched.mutexes := by
  rw [switched.sched_eq, resume_eq]
  exact preempt_mutexes sched i now

theorem tasks_next :
    sched'.tasks next =
      { (preempt sched i now).tasks next with
        state := .running, startedAt := later } := by
  rw [switched.sched_eq, resume_eq]
  exact Function.update_self _ _ _

theorem tasks_of_ne (different : task ≠ next) :
    sched'.tasks task = (preempt sched i now).tasks task := by
  rw [switched.sched_eq, resume_eq]
  exact Function.update_of_ne different _ _

/-- The resumed task runs, the preempted one is queued if it did run, and no
other state changes. -/
theorem stateOf (task : TaskPtr) :
    sched'.stateOf task =
      if task = next then .running
      else if task = sched.currentTask ∧ sched.stateOf task = .running then
        .inQueue
      else sched.stateOf task := by
  by_cases isNext : task = next
  · subst isNext
    rw [Sched.stateOf, switched.tasks_next, if_pos rfl]
  · rw [Sched.stateOf, switched.tasks_of_ne isNext, if_neg isNext]
    exact preempt_stateOf task

theorem vtime (task : TaskPtr) :
    (sched'.tasks task).vtime = ((preempt sched i now).tasks task).vtime := by
  by_cases isNext : task = next
  · rw [isNext, switched.tasks_next]
  · rw [switched.tasks_of_ne isNext]

theorem items_eq :
    sched.currentTask ::ₘ items sched =
      dropped + next ::ₘ items sched' := by
  rw [items_of_taskQueue switched.found, ← switched.push.items,
    switched.selected.items, items_of_taskQueue switched.taskQueue]

end Switched

/-- The time that `start_task` credits a new task with. -/
def meanVtime (sched : Sched Ext) : Word :=
  if sched.numTasks ≠ 0 then sched.totalVtime / sched.numTasks else 0

/-- A new task, in the queue of the others. -/
structure Started (sched : Sched Ext) (record : Task Ext)
    (queue pushed : MinHeap TaskPtr) (sched' : Sched Ext) : Prop where
  found : sched.taskQueue.getD (makeHeap fun _ => 0) = queue
  push :
    Pushed
      (compareTasks (Function.update sched.tasks (sched.started + 1) record))
      queue (sched.started + 1) pushed
  result :
    sched' =
      { sched with
        tasks := Function.update sched.tasks (sched.started + 1) record
        started := sched.started + 1
        numTasks := sched.numTasks + 1
        taskQueue := some pushed }

theorem startTask_spec [Zero Ext] (allocated : QueueAllocated sched)
    (start context stack : Word) (area : Ext) :
    ∃ queue pushed sched',
      startTask sched start context 0 stack area =
          .ok (sched.started + 1, sched') ∧
        Started sched (newTask sched start context stack area) queue pushed
          sched' := by
  obtain ⟨queue, queueEq⟩ :
      ∃ queue, sched.taskQueue.getD (makeHeap fun _ => 0) = queue := ⟨_, rfl⟩
  have queueAllocated : Allocated queue := by
    cases found : sched.taskQueue with
    | none =>
        rw [← queueEq, found]
        exact allocated_makeHeap _
    | some other =>
        rw [← queueEq, found]
        exact allocated other found
  obtain ⟨pushed, push⟩ :=
    heapPush_spec
      (compareTasks_self (Function.update sched.tasks (sched.started + 1)
        (newTask sched start context stack area)))
      queueAllocated (sched.started + 1)
  refine ⟨queue, pushed, _, ?_, ⟨queueEq, push, rfl⟩⟩
  simp only [startTask, ne_eq, not_true_eq_false, if_false, queueEq, pushTask,
    push.result]
  rfl

theorem started_of_startTask [Zero Ext] {start context stack : Word}
    {area : Ext} (allocated : QueueAllocated sched)
    (result : startTask sched start context 0 stack area =
      .ok (task, sched')) :
    task = sched.started + 1 ∧ ∃ queue pushed,
      Started sched (newTask sched start context stack area) queue pushed
        sched' := by
  obtain ⟨queue, pushed, sched'', result', started⟩ :=
    startTask_spec allocated start context stack area
  obtain ⟨rfl, rfl⟩ : sched.started + 1 = task ∧ sched'' = sched' :=
    Prod.mk.inj (Except.ok.inj (result'.symm.trans result))
  exact ⟨rfl, queue, pushed, started⟩

end Operations

end BeaverOS.Scheduler
