import BeaverOS.Sched.Switch

/-!
# What always holds of the scheduler

`WellFormed` holds in every state that any operations lead to. It says where a
task can be at most: how often it is queued, which task runs, and what the tasks
in the waiting queues of the mutexes are.
-/

namespace BeaverOS.Scheduler

open BeaverOS.Heap
open BeaverOS.HeapOrder
open BeaverOS.Isr
open BeaverOS.Transition

/-- The invariant of the scheduler. -/
structure WellFormed {Ext : Type} (sched : Sched Ext) : Prop where
  allocated : QueueAllocated sched
  members : ∀ task ∈ items sched, IsTask sched task
  once :
    ∀ task, task ≠ sched.bootstrap → (items sched).count task ≤ 1
  current :
    sched.currentTask ≠ sched.bootstrap → sched.currentTask ∉ items sched
  currentBound : sched.currentTask ≤ sched.started
  bootstrapBound : sched.bootstrap ≤ sched.started
  running :
    ∀ task, IsTask sched task → sched.stateOf task = .running →
      task = sched.currentTask
  notQueued :
    sched.currentTask ≠ 0 → sched.stateOf sched.currentTask ≠ .inQueue
  waiting :
    ∀ mutex, ∀ task ∈ (sched.mutexes mutex).waitingTasks,
      IsTask sched task ∧ task ≠ sched.bootstrap ∧
        (sched.stateOf task = .frozen ∨ sched.stateOf task = .terminated)
  apart :
    ∀ mutex other task, task ∈ (sched.mutexes mutex).waitingTasks →
      task ∈ (sched.mutexes other).waitingTasks → mutex = other
  frozen :
    ∀ task, IsTask sched task → sched.stateOf task = .frozen →
      ∃ mutex, task ∈ (sched.mutexes mutex).waitingTasks
  booted : sched.currentTask = 0 ↔ sched.bootstrap = 0
  hasQueue : sched.currentTask ≠ 0 → ∃ queue, sched.taskQueue = some queue
  bootstrapEnded :
    sched.bootstrap ≠ 0 → sched.stateOf sched.bootstrap = .terminated

section Steps

variable {Ext : Type} {sched sched' : Sched Ext} {task next : TaskPtr}
  {mutex : Nat} {i i' : InterruptFrame} {now later : Word}
  {queue pushed rest : MinHeap TaskPtr} {dropped : Multiset TaskPtr}
  {record : Task Ext}

/-! ## The start -/

theorem wellFormed_boot [Zero Ext] (registers : Ext) :
    WellFormed (bootSched registers) where
  allocated := by
    intro queue found
    cases found
  members := by
    intro task member
    exact absurd member (Multiset.notMem_zero task)
  once := by
    intro task _
    exact Nat.zero_le 1
  current := fun different => absurd rfl different
  currentBound := Nat.le_refl 0
  bootstrapBound := Nat.le_refl 0
  running := by
    rintro task ⟨nonNull, bound⟩
    exact absurd (Nat.le_zero.mp bound) nonNull
  notQueued := fun nonNull => absurd rfl nonNull
  waiting := by
    intro mutex task member
    cases member
  apart := by
    intro mutex other task member
    cases member
  frozen := by
    rintro task ⟨nonNull, bound⟩
    exact absurd (Nat.le_zero.mp bound) nonNull
  booted := Iff.rfl
  hasQueue := fun nonNull => absurd rfl nonNull
  bootstrapEnded := fun nonNull => absurd rfl nonNull

/-! ## Operations that leave the scheduling data -/

/-- The two states differ at most in saved registers. -/
structure SameScheduling (sched sched' : Sched Ext) : Prop where
  started : sched'.started = sched.started
  taskQueue : sched'.taskQueue = sched.taskQueue
  totalVtime : sched'.totalVtime = sched.totalVtime
  numTasks : sched'.numTasks = sched.numTasks
  currentTask : sched'.currentTask = sched.currentTask
  bootstrap : sched'.bootstrap = sched.bootstrap
  mutexes : sched'.mutexes = sched.mutexes
  stateOf : ∀ task, sched'.stateOf task = sched.stateOf task
  vtime : ∀ task, (sched'.tasks task).vtime = (sched.tasks task).vtime
  startedAt :
    ∀ task, (sched'.tasks task).startedAt = (sched.tasks task).startedAt

theorem SameScheduling.trans {sched'' : Sched Ext}
    (first : SameScheduling sched sched')
    (second : SameScheduling sched' sched'') :
    SameScheduling sched sched'' where
  started := second.started.trans first.started
  taskQueue := second.taskQueue.trans first.taskQueue
  totalVtime := second.totalVtime.trans first.totalVtime
  numTasks := second.numTasks.trans first.numTasks
  currentTask := second.currentTask.trans first.currentTask
  bootstrap := second.bootstrap.trans first.bootstrap
  mutexes := second.mutexes.trans first.mutexes
  stateOf task := (second.stateOf task).trans (first.stateOf task)
  vtime task := (second.vtime task).trans (first.vtime task)
  startedAt task := (second.startedAt task).trans (first.startedAt task)

/-- Filling a save area changes no scheduling data. -/
theorem sameScheduling_modify (area : Ext) :
    SameScheduling sched (sched.modify task fun record =>
      { record with processorExtendedState := area }) where
  started := rfl
  taskQueue := rfl
  totalVtime := rfl
  numTasks := rfl
  currentTask := rfl
  bootstrap := rfl
  mutexes := rfl
  stateOf other := by
    by_cases same : other = task
    · rw [Sched.stateOf, Sched.modify, same]
      simp only [Function.update_self]
    · rw [Sched.stateOf, Sched.modify]
      simp only [Function.update_of_ne same]
  vtime other := by
    by_cases same : other = task
    · rw [Sched.modify, same]
      simp only [Function.update_self]
    · rw [Sched.modify]
      simp only [Function.update_of_ne same]
  startedAt other := by
    by_cases same : other = task
    · rw [Sched.modify, same]
      simp only [Function.update_self]
    · rw [Sched.modify]
      simp only [Function.update_of_ne same]

theorem sameScheduling_registers {owner : TaskPtr} {switched : Bool}
    {registers : Ext} :
    SameScheduling sched
      { sched with
        sseStateOwner := owner
        taskSwitched := switched
        extendedRegisters := registers } :=
  ⟨rfl, rfl, rfl, rfl, rfl, rfl, rfl, fun _ => rfl, fun _ => rfl, fun _ => rfl⟩

theorem sameScheduling_saveExtendedStateIsr :
    SameScheduling sched (saveExtendedStateIsr sched) := by
  rw [saveExtendedStateIsr]
  split
  · simp only
    split
    · exact (sameScheduling_registers.trans
        (sameScheduling_modify _)).trans sameScheduling_registers
    · exact sameScheduling_registers
  · exact ⟨rfl, rfl, rfl, rfl, rfl, rfl, rfl, fun _ => rfl, fun _ => rfl,
      fun _ => rfl⟩

theorem sameScheduling_use (registers : Ext) :
    SameScheduling sched (useExtended sched registers) := by
  rw [useExtended]
  split
  · exact sameScheduling_saveExtendedStateIsr.trans sameScheduling_registers
  · exact sameScheduling_registers

/-- The two states have the same tasks in the queue and on the processor. -/
structure SameQueue (sched sched' : Sched Ext) : Prop where
  started : sched'.started = sched.started
  taskQueue : sched'.taskQueue = sched.taskQueue
  currentTask : sched'.currentTask = sched.currentTask
  bootstrap : sched'.bootstrap = sched.bootstrap

theorem SameQueue.items_eq (same : SameQueue sched sched') :
    items sched' = items sched := by
  rw [items, items, same.taskQueue]

theorem SameQueue.isTask (same : SameQueue sched sched') :
    IsTask sched' task ↔ IsTask sched task := by
  rw [IsTask, IsTask, same.started]

/-- Where no task moves, only what speaks of states and mutexes is to be
proved. -/
theorem WellFormed.of_sameQueue (wellFormed : WellFormed sched)
    (same : SameQueue sched sched')
    (running : ∀ task, sched'.stateOf task = .running →
      sched.stateOf task = .running)
    (notQueued : sched.currentTask ≠ 0 →
      sched'.stateOf sched.currentTask ≠ .inQueue)
    (waiting : ∀ mutex, ∀ task ∈ (sched'.mutexes mutex).waitingTasks,
      IsTask sched task ∧ task ≠ sched.bootstrap ∧
        (sched'.stateOf task = .frozen ∨ sched'.stateOf task = .terminated))
    (apart : ∀ mutex other task,
      task ∈ (sched'.mutexes mutex).waitingTasks →
      task ∈ (sched'.mutexes other).waitingTasks → mutex = other)
    (frozen : ∀ task, IsTask sched task → sched'.stateOf task = .frozen →
      ∃ mutex, task ∈ (sched'.mutexes mutex).waitingTasks)
    (bootstrapEnded : sched.bootstrap ≠ 0 →
      sched'.stateOf sched.bootstrap = .terminated) :
    WellFormed sched' where
  allocated := by
    intro queue found
    rw [same.taskQueue] at found
    exact wellFormed.allocated queue found
  members task member := by
    rw [same.items_eq] at member
    exact same.isTask.mpr (wellFormed.members task member)
  once := by
    rw [same.bootstrap, same.items_eq]
    exact wellFormed.once
  current := by
    rw [same.currentTask, same.bootstrap, same.items_eq]
    exact wellFormed.current
  currentBound := by
    rw [same.currentTask, same.started]
    exact wellFormed.currentBound
  bootstrapBound := by
    rw [same.bootstrap, same.started]
    exact wellFormed.bootstrapBound
  running task isTask runs := by
    rw [same.currentTask]
    exact wellFormed.running task (same.isTask.mp isTask) (running task runs)
  notQueued := by
    rw [same.currentTask]
    exact notQueued
  waiting mutex task member := by
    rw [same.isTask, same.bootstrap]
    exact waiting mutex task member
  apart := apart
  frozen task isTask := frozen task (same.isTask.mp isTask)
  booted := by
    rw [same.currentTask, same.bootstrap]
    exact wellFormed.booted
  hasQueue := by
    rw [same.currentTask, same.taskQueue]
    exact wellFormed.hasQueue
  bootstrapEnded := by
    rw [same.bootstrap]
    exact bootstrapEnded

theorem SameScheduling.sameQueue (same : SameScheduling sched sched') :
    SameQueue sched sched' :=
  ⟨same.started, same.taskQueue, same.currentTask, same.bootstrap⟩

theorem WellFormed.same (wellFormed : WellFormed sched)
    (same : SameScheduling sched sched') : WellFormed sched' := by
  refine wellFormed.of_sameQueue same.sameQueue ?_ ?_ ?_ ?_ ?_ ?_
  · intro task runs
    rw [← same.stateOf]
    exact runs
  · rw [same.stateOf]
    exact wellFormed.notQueued
  · intro mutex task member
    rw [same.mutexes] at member
    rw [same.stateOf]
    exact wellFormed.waiting mutex task member
  · rw [same.mutexes]
    exact wellFormed.apart
  · intro task isTask isFrozen
    rw [same.stateOf] at isFrozen
    rw [same.mutexes]
    exact wellFormed.frozen task isTask isFrozen
  · rw [same.stateOf]
    exact wellFormed.bootstrapEnded

/-! ## Operations on states of tasks -/

theorem stateOf_setState {state : TaskState} {other : TaskPtr} :
    (sched.setState task state).stateOf other =
      if other = task then state else sched.stateOf other := by
  rw [Sched.stateOf, Sched.setState, Sched.modify]
  by_cases same : other = task
  · rw [if_pos same, same]
    simp only [Function.update_self]
  · rw [if_neg same]
    simp only [Function.update_of_ne same]

theorem stateOf_terminateTask {other : TaskPtr} :
    (terminateTask sched task).stateOf other =
      if other = task then .terminated else sched.stateOf other :=
  stateOf_setState

/-- A task that is the current one or waits is not the bootstrap task, when
there are calls. -/
theorem WellFormed.current_ne_bootstrap (wellFormed : WellFormed sched)
    (nonNull : sched.currentTask ≠ 0) (canCall : CanCall sched) :
    sched.currentTask ≠ sched.bootstrap := by
  intro same
  have runs := canCall.resolve_left nonNull
  have ended := wellFormed.bootstrapEnded (same ▸ nonNull)
  rw [← same, runs] at ended
  cases ended

/-- No task that waits is running. -/
theorem WellFormed.not_waiting (wellFormed : WellFormed sched)
    (runs : sched.stateOf task = .running) :
    task ∉ (sched.mutexes mutex).waitingTasks := by
  intro member
  rcases (wellFormed.waiting mutex task member).2.2 with state | state <;>
    · rw [runs] at state
      cases state

theorem WellFormed.terminate (wellFormed : WellFormed sched) :
    WellFormed (terminateTask sched task) := by
  refine wellFormed.of_sameQueue ⟨rfl, rfl, rfl, rfl⟩ ?_ ?_ ?_ ?_ ?_ ?_
  · intro other runs
    rw [stateOf_terminateTask] at runs
    split at runs
    · cases runs
    · exact runs
  · intro nonNull
    rw [stateOf_terminateTask]
    split
    · decide
    · exact wellFormed.notQueued nonNull
  · intro mutex other member
    obtain ⟨isTask, different, state⟩ := wellFormed.waiting mutex other member
    refine ⟨isTask, different, ?_⟩
    rw [stateOf_terminateTask]
    split
    · exact Or.inr rfl
    · exact state
  · exact wellFormed.apart
  · intro other isTask isFrozen
    rw [stateOf_terminateTask] at isFrozen
    split at isFrozen
    · cases isFrozen
    · exact wellFormed.frozen other isTask isFrozen
  · intro nonNull
    rw [stateOf_terminateTask]
    split
    · rfl
    · exact wellFormed.bootstrapEnded nonNull

/-! ## Blocking -/

theorem mutexLock_of_locked (isLocked : (sched.mutexes mutex).locked = true) :
    mutexLock sched mutex =
      { sched.setState sched.currentTask .frozen with
        mutexes := Function.update sched.mutexes mutex
          { sched.mutexes mutex with
            waitingTasks := (sched.mutexes mutex).waitingTasks ++
              [sched.currentTask] } } := by
  rw [mutexLock, if_pos isLocked]
  rfl

theorem mutexLock_of_free (isFree : ¬ (sched.mutexes mutex).locked = true) :
    mutexLock sched mutex =
      { sched with
        mutexes := Function.update sched.mutexes mutex
          { sched.mutexes mutex with locked := true } } := by
  rw [mutexLock, if_neg isFree]

theorem sameQueue_mutexLock : SameQueue sched (mutexLock sched mutex) := by
  rw [mutexLock]
  split <;> exact ⟨rfl, rfl, rfl, rfl⟩

theorem stateOf_mutexLock :
    (mutexLock sched mutex).stateOf task =
      if (sched.mutexes mutex).locked ∧ task = sched.currentTask then .frozen
      else sched.stateOf task := by
  by_cases isLocked : (sched.mutexes mutex).locked = true
  · rw [mutexLock_of_locked isLocked]
    simp only [isLocked, true_and]
    exact stateOf_setState
  · rw [mutexLock_of_free isLocked, if_neg fun both => isLocked both.1]

theorem waiting_mutexLock {other : Nat} :
    task ∈ ((mutexLock sched mutex).mutexes other).waitingTasks ↔
      task ∈ (sched.mutexes other).waitingTasks ∨
        (sched.mutexes mutex).locked ∧ other = mutex ∧
          task = sched.currentTask := by
  by_cases isLocked : (sched.mutexes mutex).locked = true
  · rw [mutexLock_of_locked isLocked]
    simp only [isLocked, true_and]
    by_cases same : other = mutex
    · subst same
      simp only [Function.update_self, List.mem_append, List.mem_singleton,
        true_and]
    · simp only [Function.update_of_ne same, same, false_and, or_false]
  · rw [mutexLock_of_free isLocked]
    simp only [isLocked, false_and, or_false, Bool.false_eq_true]
    by_cases same : other = mutex
    · rw [same, Function.update_self]
    · rw [Function.update_of_ne same]

/-- A task takes the mutex, or it freezes and waits. -/
theorem WellFormed.lock (wellFormed : WellFormed sched)
    (canCall : CanCall sched)
    (booting : sched.currentTask = 0 →
      (sched.mutexes mutex).locked = false) :
    WellFormed (mutexLock sched mutex) := by
  have caller : (sched.mutexes mutex).locked = true →
      sched.currentTask ≠ 0 := by
    intro isLocked null
    rw [booting null] at isLocked
    cases isLocked
  have notWaiting : (sched.mutexes mutex).locked = true → ∀ other,
      sched.currentTask ∉ (sched.mutexes other).waitingTasks :=
    fun isLocked _ =>
      wellFormed.not_waiting (canCall.resolve_left (caller isLocked))
  refine wellFormed.of_sameQueue sameQueue_mutexLock ?_ ?_ ?_ ?_ ?_ ?_
  · intro task runs
    rw [stateOf_mutexLock] at runs
    split at runs
    · cases runs
    · exact runs
  · intro nonNull
    rw [stateOf_mutexLock]
    split
    · decide
    · exact wellFormed.notQueued nonNull
  · intro other task member
    rw [stateOf_mutexLock]
    rcases waiting_mutexLock.mp member with old | ⟨isLocked, _, rfl⟩
    · have apart : ¬ ((sched.mutexes mutex).locked = true ∧
          task = sched.currentTask) := by
        rintro ⟨isLocked, rfl⟩
        exact notWaiting isLocked other old
      rw [if_neg apart]
      exact wellFormed.waiting other task old
    · rw [if_pos ⟨isLocked, rfl⟩]
      exact ⟨⟨caller isLocked, wellFormed.currentBound⟩,
        wellFormed.current_ne_bootstrap (caller isLocked) canCall, Or.inl rfl⟩
  · intro first second task memberFirst memberSecond
    rcases waiting_mutexLock.mp memberFirst with
      oldFirst | ⟨isLocked, rfl, rfl⟩
    · rcases waiting_mutexLock.mp memberSecond with
        oldSecond | ⟨isLocked, _, rfl⟩
      · exact wellFormed.apart first second task oldFirst oldSecond
      · exact absurd oldFirst (notWaiting isLocked first)
    · rcases waiting_mutexLock.mp memberSecond with oldSecond | ⟨_, rfl, _⟩
      · exact absurd oldSecond (notWaiting isLocked second)
      · rfl
  · intro task isTask isFrozen
    rw [stateOf_mutexLock] at isFrozen
    split at isFrozen
    · next blocked =>
        exact ⟨mutex,
          waiting_mutexLock.mpr (Or.inr ⟨blocked.1, rfl, blocked.2⟩)⟩
    · obtain ⟨other, member⟩ := wellFormed.frozen task isTask isFrozen
      exact ⟨other, waiting_mutexLock.mpr (Or.inl member)⟩
  · intro nonNull
    rw [stateOf_mutexLock]
    split
    · next blocked =>
        exact absurd blocked.2.symm
          (wellFormed.current_ne_bootstrap (caller blocked.1) canCall)
    · exact wellFormed.bootstrapEnded nonNull

/-! ## Waking -/

/-- The loop of `mutex_unlock` queues the waiting tasks, and does no more. -/
theorem wakeTasks_eq (tasks : List TaskPtr) :
    wakeTasks sched tasks =
      { sched with
        tasks := fun task =>
          if task ∈ tasks then { sched.tasks task with state := .inQueue }
          else sched.tasks task } := by
  induction tasks generalizing sched with
  | nil => rw [wakeTasks]; simp only [List.not_mem_nil, if_false]
  | cons first tasks inductionHypothesis =>
      rw [wakeTasks, inductionHypothesis]
      simp only [Sched.setState, Sched.modify, Sched.mk.injEq, and_true]
      funext task
      by_cases same : task = first
      · subst same
        simp only [Function.update_self, List.mem_cons, true_or, if_true]
        split <;> rfl
      · simp only [Function.update_of_ne same, List.mem_cons, same, false_or]

theorem mutexUnlock_eq :
    mutexUnlock sched mutex =
      { sched with
        tasks := fun task =>
          if task ∈ (sched.mutexes mutex).waitingTasks then
            { sched.tasks task with state := .inQueue }
          else
            sched.tasks task
        mutexes := Function.update sched.mutexes mutex
          { waitingTasks := [], locked := false } } := by
  rw [mutexUnlock, wakeTasks_eq]

theorem stateOf_mutexUnlock :
    (mutexUnlock sched mutex).stateOf task =
      if task ∈ (sched.mutexes mutex).waitingTasks then .inQueue
      else sched.stateOf task := by
  rw [mutexUnlock_eq]
  simp only [Sched.stateOf]
  split <;> rfl

theorem waiting_mutexUnlock {other : Nat} :
    task ∈ ((mutexUnlock sched mutex).mutexes other).waitingTasks ↔
      other ≠ mutex ∧ task ∈ (sched.mutexes other).waitingTasks := by
  rw [mutexUnlock_eq]
  by_cases same : other = mutex
  · subst same
    simp
  · simp only [Function.update_of_ne same, ne_eq, same, not_false_eq_true,
      true_and]

theorem sameQueue_mutexUnlock : SameQueue sched (mutexUnlock sched mutex) := by
  rw [mutexUnlock_eq]
  exact ⟨rfl, rfl, rfl, rfl⟩

/-- All waiting tasks are queued, as far as their states say. -/
theorem WellFormed.unlock (wellFormed : WellFormed sched)
    (canCall : CanCall sched) : WellFormed (mutexUnlock sched mutex) := by
  have notWaiting : sched.currentTask ∉
      (sched.mutexes mutex).waitingTasks := by
    intro member
    rcases canCall with null | runs
    · exact (wellFormed.waiting mutex _ member).1.1 null
    · exact wellFormed.not_waiting runs member
  refine wellFormed.of_sameQueue sameQueue_mutexUnlock ?_ ?_ ?_ ?_ ?_ ?_
  · intro task runs
    rw [stateOf_mutexUnlock] at runs
    split at runs
    · cases runs
    · exact runs
  · rw [stateOf_mutexUnlock, if_neg notWaiting]
    exact wellFormed.notQueued
  · intro other task member
    obtain ⟨different, old⟩ := waiting_mutexUnlock.mp member
    have apart : task ∉ (sched.mutexes mutex).waitingTasks := fun woken =>
      different (wellFormed.apart other mutex task old woken)
    rw [stateOf_mutexUnlock, if_neg apart]
    exact wellFormed.waiting other task old
  · intro first second task memberFirst memberSecond
    exact wellFormed.apart first second task
      (waiting_mutexUnlock.mp memberFirst).2
      (waiting_mutexUnlock.mp memberSecond).2
  · intro task isTask isFrozen
    rw [stateOf_mutexUnlock] at isFrozen
    split at isFrozen
    · cases isFrozen
    · next notWoken =>
        obtain ⟨other, member⟩ := wellFormed.frozen task isTask isFrozen
        refine ⟨other, waiting_mutexUnlock.mpr ⟨?_, member⟩⟩
        rintro rfl
        exact notWoken member
  · intro nonNull
    rw [stateOf_mutexUnlock, if_neg]
    · exact wellFormed.bootstrapEnded nonNull
    · intro member
      exact (wellFormed.waiting mutex _ member).2.1 rfl

/-! ## Switching -/

theorem items_cons_bound (wellFormed : WellFormed sched)
    (nonNull : sched.currentTask ≠ 0)
    (member : task ∈ sched.currentTask ::ₘ items sched) : IsTask sched task := by
  rcases Multiset.mem_cons.mp member with rfl | member
  · exact ⟨nonNull, wellFormed.currentBound⟩
  · exact wellFormed.members task member

/-- With the preempted task, each task but the bootstrap task is queued at most
once. -/
theorem WellFormed.count_cons (wellFormed : WellFormed sched)
    (different : task ≠ sched.bootstrap) :
    (sched.currentTask ::ₘ items sched).count task ≤ 1 := by
  by_cases current : task = sched.currentTask
  · subst current
    rw [Multiset.count_cons_self,
      Multiset.count_eq_zero_of_notMem (wellFormed.current different)]
  · rw [Multiset.count_cons_of_ne current]
    exact wellFormed.once task different

theorem Switched.next_mem
    (switched : Switched sched i now later queue pushed dropped next rest i'
      sched') :
    next ∈ sched.currentTask ::ₘ items sched := by
  rw [switched.items_eq]
  exact Multiset.mem_add.mpr (Or.inr (Multiset.mem_cons_self _ _))

/-- A switch resumes a task that is queued, or that is preempted by it. -/
theorem Switched.next_state
    (switched : Switched sched i now later queue pushed dropped next rest i'
      sched') :
    sched.stateOf next = .inQueue ∨
      next = sched.currentTask ∧ sched.stateOf next = .running := by
  have runs : (preempt sched i now).stateOf next = .inQueue :=
    switched.selected.runs
  rw [preempt_stateOf] at runs
  split at runs
  · next both => exact Or.inr both
  · exact Or.inl runs

theorem Switched.next_ne
    (switched : Switched sched i now later queue pushed dropped next rest i'
      sched')
    (stays : sched.stateOf task = .frozen ∨ sched.stateOf task = .terminated) :
    task ≠ next := by
  rintro rfl
  rcases switched.next_state with state | ⟨_, state⟩ <;>
    rcases stays with other | other <;>
      · rw [state] at other
        cases other

theorem WellFormed.switch (wellFormed : WellFormed sched)
    (nonNull : sched.currentTask ≠ 0)
    (switched : Switched sched i now later queue pushed dropped next rest i'
      sched') :
    WellFormed sched' := by
  have isTask : ∀ task, IsTask sched' task ↔ IsTask sched task := by
    intro task
    rw [IsTask, IsTask, switched.started]
  have bootstrapNonNull : sched.bootstrap ≠ 0 :=
    fun null => nonNull (wellFormed.booted.mpr null)
  have ended := wellFormed.bootstrapEnded bootstrapNonNull
  have nextNotBootstrap : next ≠ sched.bootstrap :=
    (switched.next_ne (Or.inr ended)).symm
  have nextTask := items_cons_bound wellFormed nonNull switched.next_mem
  have itemsEq := switched.items_eq
  constructor
  case allocated =>
    intro other found
    rw [switched.taskQueue] at found
    cases found
    exact switched.selected.allocated
  case members =>
    intro task member
    rw [isTask]
    apply items_cons_bound wellFormed nonNull
    rw [itemsEq]
    exact Multiset.mem_add.mpr (Or.inr (Multiset.mem_cons_of_mem member))
  case once =>
    intro task different
    rw [switched.bootstrap] at different
    have atMost := wellFormed.count_cons different
    rw [itemsEq, Multiset.count_add] at atMost
    have fewer := Multiset.count_le_count_cons task next (items sched')
    omega
  case current =>
    intro _
    have atMost := wellFormed.count_cons nextNotBootstrap
    rw [itemsEq, Multiset.count_add, Multiset.count_cons_self] at atMost
    rw [switched.currentTask]
    exact Multiset.count_eq_zero.mp (by omega)
  case currentBound =>
    rw [switched.currentTask, switched.started]
    exact nextTask.2
  case bootstrapBound =>
    rw [switched.bootstrap, switched.started]
    exact wellFormed.bootstrapBound
  case running =>
    intro task task' runs
    rw [switched.stateOf] at runs
    rw [switched.currentTask]
    split at runs
    · next isNext => exact isNext
    · split at runs
      · cases runs
      · next other =>
          exact absurd ⟨wellFormed.running task ((isTask task).mp task') runs,
            runs⟩ other
  case notQueued =>
    intro _
    rw [switched.currentTask, switched.stateOf, if_pos rfl]
    decide
  case waiting =>
    intro mutex task member
    rw [switched.mutexes] at member
    obtain ⟨task', different, state⟩ := wellFormed.waiting mutex task member
    rw [isTask, switched.bootstrap, switched.stateOf,
      if_neg (switched.next_ne state), if_neg]
    · exact ⟨task', different, state⟩
    · rintro ⟨_, runs⟩
      exact wellFormed.not_waiting runs member
  case apart =>
    rw [switched.mutexes]
    exact wellFormed.apart
  case frozen =>
    intro task task' isFrozen
    rw [switched.stateOf] at isFrozen
    rw [switched.mutexes]
    split at isFrozen
    · cases isFrozen
    · split at isFrozen
      · cases isFrozen
      · exact wellFormed.frozen task ((isTask task).mp task') isFrozen
  case booted =>
    rw [switched.currentTask, switched.bootstrap]
    exact iff_of_false nextTask.1 bootstrapNonNull
  case hasQueue => exact fun _ => ⟨rest, switched.taskQueue⟩
  case bootstrapEnded =>
    intro _
    rw [switched.bootstrap, switched.stateOf,
      if_neg (switched.next_ne (Or.inr ended)), if_neg]
    · exact ended
    · rintro ⟨_, runs⟩
      rw [ended] at runs
      cases runs

/-! ## New tasks -/

theorem Started.taskQueue (started : Started sched record queue pushed sched') :
    sched'.taskQueue = some pushed := by
  rw [started.result]

theorem Started.items_eq (started : Started sched record queue pushed sched') :
    items sched' = (sched.started + 1) ::ₘ items sched := by
  have old : queue.items = items sched := by
    rw [items, ← started.found]
    cases sched.taskQueue with
    | none => exact items_makeHeap _
    | some other => rfl
  rw [items_of_taskQueue started.taskQueue, started.push.items, old]

theorem Started.tasks_new (started : Started sched record queue pushed sched') :
    sched'.tasks (sched.started + 1) = record := by
  rw [started.result]
  exact Function.update_self _ _ _

theorem Started.tasks_old (started : Started sched record queue pushed sched')
    (isTask : task ≤ sched.started) :
    sched'.tasks task = sched.tasks task := by
  rw [started.result]
  exact Function.update_of_ne (Nat.ne_of_lt (Nat.lt_succ_of_le isTask)) _ _

theorem Started.isTask (started : Started sched record queue pushed sched') :
    IsTask sched' task ↔ IsTask sched task ∨ task = sched.started + 1 := by
  rw [started.result, IsTask, IsTask, Nat.le_succ_iff]
  constructor
  · rintro ⟨nonNull, old | isNew⟩
    · exact Or.inl ⟨nonNull, old⟩
    · exact Or.inr isNew
  · rintro (⟨nonNull, old⟩ | rfl)
    · exact ⟨nonNull, Or.inl old⟩
    · exact ⟨Nat.succ_ne_zero _, Or.inr rfl⟩

theorem WellFormed.start (wellFormed : WellFormed sched)
    (started : Started sched record queue pushed sched')
    (queued : record.state = .inQueue) : WellFormed sched' := by
  have stateOld : ∀ task, task ≤ sched.started →
      sched'.stateOf task = sched.stateOf task := fun task bound =>
    congrArg Task.state (started.tasks_old bound)
  have stateNew : sched'.stateOf (sched.started + 1) = .inQueue := by
    rw [Sched.stateOf, started.tasks_new]
    exact queued
  have fresh : sched.started + 1 ∉ items sched := fun member =>
    Nat.not_succ_le_self _ (wellFormed.members _ member).2
  have kept : sched'.currentTask = sched.currentTask ∧
      sched'.bootstrap = sched.bootstrap ∧
      sched'.mutexes = sched.mutexes ∧
      sched'.started = sched.started + 1 := by
    rw [started.result]
    exact ⟨rfl, rfl, rfl, rfl⟩
  obtain ⟨currentEq, bootstrapEq, mutexesEq, startedEq⟩ := kept
  have currentBound := wellFormed.currentBound
  have bootstrapBound := wellFormed.bootstrapBound
  constructor
  case allocated =>
    intro other found
    rw [started.taskQueue] at found
    cases found
    exact started.push.allocated
  case members =>
    intro task member
    rw [started.items_eq] at member
    rw [started.isTask]
    rcases Multiset.mem_cons.mp member with rfl | member
    · exact Or.inr rfl
    · exact Or.inl (wellFormed.members task member)
  case once =>
    intro task different
    rw [bootstrapEq] at different
    rw [started.items_eq]
    by_cases isNew : task = sched.started + 1
    · rw [isNew, Multiset.count_cons_self,
        Multiset.count_eq_zero_of_notMem fresh]
    · rw [Multiset.count_cons_of_ne isNew]
      exact wellFormed.once task different
  case current =>
    rw [currentEq, bootstrapEq, started.items_eq]
    intro different member
    rcases Multiset.mem_cons.mp member with isNew | member
    · rw [isNew] at currentBound
      exact Nat.not_succ_le_self _ currentBound
    · exact wellFormed.current different member
  case currentBound =>
    rw [currentEq, startedEq]
    exact Nat.le_succ_of_le currentBound
  case bootstrapBound =>
    rw [bootstrapEq, startedEq]
    exact Nat.le_succ_of_le bootstrapBound
  case running =>
    intro task task' runs
    rw [currentEq]
    rcases started.isTask.mp task' with old | rfl
    · rw [stateOld task old.2] at runs
      exact wellFormed.running task old runs
    · rw [stateNew] at runs
      cases runs
  case notQueued =>
    rw [currentEq, stateOld _ currentBound]
    exact wellFormed.notQueued
  case waiting =>
    intro mutex task member
    rw [mutexesEq] at member
    obtain ⟨task', different, state⟩ := wellFormed.waiting mutex task member
    rw [started.isTask, bootstrapEq, stateOld task task'.2]
    exact ⟨Or.inl task', different, state⟩
  case apart =>
    rw [mutexesEq]
    exact wellFormed.apart
  case frozen =>
    intro task task' isFrozen
    rw [mutexesEq]
    rcases started.isTask.mp task' with old | rfl
    · rw [stateOld task old.2] at isFrozen
      exact wellFormed.frozen task old isFrozen
    · rw [stateNew] at isFrozen
      cases isFrozen
  case booted =>
    rw [currentEq, bootstrapEq]
    exact wellFormed.booted
  case hasQueue => exact fun _ => ⟨pushed, started.taskQueue⟩
  case bootstrapEnded =>
    rw [bootstrapEq, stateOld _ bootstrapBound]
    exact wellFormed.bootstrapEnded

/-! ## The bootstrap task -/

/-- `main_loop` has selected how registers are saved. -/
def withSaveMode (sched : Sched Ext) (cpuid : Cpuid) : Sched Ext :=
  { sched with
    extendedStateSaveMode := selectSaveMode cpuid
    extendedStateSize := if cpuid.xsave then cpuid.size else 512 }

theorem sameScheduling_withSaveMode (cpuid : Cpuid) :
    SameScheduling sched (withSaveMode sched cpuid) :=
  ⟨rfl, rfl, rfl, rfl, rfl, rfl, rfl, fun _ => rfl, fun _ => rfl, fun _ => rfl⟩

/-- The task `t` is on the processor. -/
def withBootstrap (sched : Sched Ext) (t : TaskPtr) : Sched Ext :=
  { sched with currentTask := t, sseStateOwner := t, bootstrap := t }

theorem mainLoop_cases [Zero Ext] {cpuid : Cpuid} {stack : Word} {area : Ext}
    (allocated : QueueAllocated sched)
    (result : mainLoop sched cpuid stack area = .ok sched') :
    ∃ queue pushed middle,
      Started (withSaveMode sched cpuid)
          (newTask (withSaveMode sched cpuid) 0 0 stack area) queue pushed
          middle ∧
        sched' = terminateTask (withBootstrap middle (sched.started + 1))
          (sched.started + 1) := by
  have selected : QueueAllocated (withSaveMode sched cpuid) := allocated
  obtain ⟨queue, pushed, middle, spawned, started⟩ :=
    startTask_spec selected 0 0 stack area
  refine ⟨queue, pushed, middle, started, ?_⟩
  have unfolded : mainLoop sched cpuid stack area =
      .ok (terminateTask (withBootstrap middle (sched.started + 1))
        (sched.started + 1)) := by
    rw [mainLoop]
    exact congrArg (fun spawn => spawn >>= fun pair =>
      pure (terminateTask (withBootstrap pair.2 pair.1) pair.1)) spawned
  rw [unfolded] at result
  exact (Except.ok.inj result).symm

theorem WellFormed.bootstrap (wellFormed : WellFormed sched)
    (booting : sched.currentTask = 0) (isTask : IsTask sched task)
    (queued : sched.stateOf task = .inQueue)
    (found : sched.taskQueue = some queue) :
    WellFormed (terminateTask (withBootstrap sched task) task) := by
  have idle : ∀ other, IsTask sched other →
      sched.stateOf other ≠ .running := by
    intro other other' runs
    exact other'.1 ((wellFormed.running other other' runs).trans booting)
  have notWaiting : ∀ mutex, task ∉ (sched.mutexes mutex).waitingTasks := by
    intro mutex member
    rcases (wellFormed.waiting mutex task member).2.2 with state | state <;>
      · rw [queued] at state
        cases state
  have stateOf : ∀ other,
      (terminateTask (withBootstrap sched task) task).stateOf other =
        if other = task then .terminated else sched.stateOf other :=
    fun _ => stateOf_terminateTask
  constructor
  case allocated => exact wellFormed.allocated
  case members => exact wellFormed.members
  case once =>
    intro other _
    change (items sched).count other ≤ 1
    by_cases null : other = sched.bootstrap
    · rw [null, wellFormed.booted.mp booting, Multiset.count_eq_zero_of_notMem]
      · exact Nat.zero_le 1
      · exact fun member => (wellFormed.members 0 member).1 rfl
    · exact wellFormed.once other null
  case current => exact fun different => absurd rfl different
  case currentBound => exact isTask.2
  case bootstrapBound => exact isTask.2
  case running =>
    intro other other' runs
    rw [stateOf] at runs
    split at runs
    · cases runs
    · exact absurd runs (idle other other')
  case notQueued =>
    intro _
    change (terminateTask (withBootstrap sched task) task).stateOf task ≠ _
    rw [stateOf, if_pos rfl]
    decide
  case waiting =>
    intro mutex other member
    have different : other ≠ task := by
      rintro rfl
      exact notWaiting mutex member
    rw [stateOf, if_neg different]
    obtain ⟨other', _, state⟩ := wellFormed.waiting mutex other member
    exact ⟨other', different, state⟩
  case apart => exact wellFormed.apart
  case frozen =>
    intro other other' isFrozen
    rw [stateOf] at isFrozen
    split at isFrozen
    · cases isFrozen
    · exact wellFormed.frozen other other' isFrozen
  case booted => exact iff_of_false isTask.1 isTask.1
  case hasQueue => exact fun _ => ⟨queue, found⟩
  case bootstrapEnded =>
    intro _
    change (terminateTask (withBootstrap sched task) task).stateOf task = _
    rw [stateOf, if_pos rfl]

/-! ## Runs -/

variable [Zero Ext] {action : Action Ext} {actions : List (Action Ext)}
  {registers : Ext}

theorem WellFormed.step (wellFormed : WellFormed sched)
    (step : Step sched action sched') : WellFormed sched' := by
  cases step with
  | start canCall fits result =>
      obtain ⟨_, queue, pushed, started⟩ :=
        started_of_startTask wellFormed.allocated result
      exact wellFormed.start started rfl
  | @mainLoop _ cpuid _ _ booting fits result =>
      obtain ⟨queue, pushed, middle, started, rfl⟩ :=
        mainLoop_cases wellFormed.allocated result
      have between := (wellFormed.same
        (sameScheduling_withSaveMode cpuid)).start started rfl
      refine between.bootstrap ?_ (started.isTask.mpr (Or.inr rfl)) ?_
        started.taskQueue
      · rw [started.result]
        exact booting
      · exact congrArg Task.state started.tasks_new
  | switch nonNull result =>
      obtain ⟨queue, pushed, dropped, next, rest, switched⟩ :=
        switched_of_taskSwitchIsr wellFormed.allocated result
      exact wellFormed.switch nonNull switched
  | lock canCall booting => exact wellFormed.lock canCall booting
  | unlock canCall => exact wellFormed.unlock canCall
  | terminate _ _ _ => exact wellFormed.terminate
  | use _ _ => exact wellFormed.same (sameScheduling_use _)

theorem wellFormed_of_run
    (run : Run Step (bootSched registers) actions sched) :
    WellFormed sched :=
  run.invariant (wellFormed_boot registers)
    fun _ _ _ wellFormed step => wellFormed.step step

end Steps

end BeaverOS.Scheduler
