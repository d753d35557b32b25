import BeaverOS.Sched.Invariant

/-!
# Where tasks get lost, and where they come back

A task that can run is queued exactly once, until `mutex_unlock` wakes a task
that the scheduler has already dropped from its queue. A terminated task stays
terminated, until `mutex_unlock` wakes it.
-/

namespace BeaverOS.Scheduler

open BeaverOS.Heap
open BeaverOS.Isr
open BeaverOS.Transition

section Lost

variable {Ext : Type} {sched sched' : Sched Ext} {task : TaskPtr}
  {mutex : Nat} {action : Action Ext} {actions : List (Action Ext)}
  {registers : Ext}

/-! ## Tasks that can run -/

/-- No task is lost or duplicated. -/
structure Kept (sched : Sched Ext) : Prop where
  queued :
    ∀ task, IsTask sched task → task ≠ sched.bootstrap →
      sched.stateOf task = .inQueue → (items sched).count task = 1
  running :
    ∀ task, IsTask sched task → sched.stateOf task = .running →
      task = sched.currentTask ∧ task ∉ items sched
  frozen :
    ∀ task, IsTask sched task → sched.stateOf task = .frozen →
      ∃ mutex, task ∈ (sched.mutexes mutex).waitingTasks

/-- The step does not wake a task that has left the queue. -/
def WakesQueued (sched : Sched Ext) (action : Action Ext) (_ : Sched Ext) :
    Prop :=
  ∀ mutex, action = .unlock mutex →
    ∀ task ∈ (sched.mutexes mutex).waitingTasks, task ∈ items sched

/-- What is not always true of a scheduler. -/
theorem WellFormed.kept_iff (wellFormed : WellFormed sched) :
    Kept sched ↔
      ∀ task, IsTask sched task → task ≠ sched.bootstrap →
        sched.stateOf task = .inQueue → (items sched).count task = 1 := by
  constructor
  · exact Kept.queued
  · intro queued
    refine ⟨queued, ?_, wellFormed.frozen⟩
    intro task isTask runs
    have current := wellFormed.running task isTask runs
    refine ⟨current, ?_⟩
    rw [current] at runs isTask ⊢
    exact wellFormed.current
      (wellFormed.current_ne_bootstrap isTask.1 (Or.inr runs))

/-- A switch keeps every task that can run. -/
theorem Kept.switch {queue pushed rest : MinHeap TaskPtr}
    {dropped : Multiset TaskPtr} {next : TaskPtr} {i i' : InterruptFrame}
    {now later : Word} (kept : Kept sched) (wellFormed : WellFormed sched)
    (switched : Switched sched i now later queue pushed dropped next rest i'
      sched')
    (different : task ≠ sched.bootstrap) (isTask : IsTask sched task)
    (queued : sched'.stateOf task = .inQueue) :
    (items sched').count task = 1 := by
  have itemsEq := switched.items_eq
  have preemptedState : (preempt sched i now).stateOf task = .inQueue := by
    rw [preempt_stateOf]
    rw [switched.stateOf] at queued
    split at queued
    · cases queued
    · exact queued
  have notNext : task ≠ next := by
    rintro rfl
    rw [switched.stateOf, if_pos rfl] at queued
    cases queued
  have notDropped : task ∉ dropped := fun member =>
    switched.selected.dropped task member preemptedState
  have before : (sched.currentTask ::ₘ items sched).count task = 1 := by
    by_cases current : task = sched.currentTask
    · subst current
      rw [Multiset.count_cons_self,
        Multiset.count_eq_zero_of_notMem (wellFormed.current different)]
    · rw [Multiset.count_cons_of_ne current]
      rw [preempt_stateOf, if_neg fun both => current both.1] at preemptedState
      exact kept.queued task isTask different preemptedState
  rw [itemsEq, Multiset.count_add, Multiset.count_cons_of_ne notNext,
    Multiset.count_eq_zero_of_notMem notDropped] at before
  omega

variable [Zero Ext]

/-- One step keeps all tasks exactly when it wakes none that has left the
queue. -/
theorem Kept.step_iff (kept : Kept sched) (wellFormed : WellFormed sched)
    (step : Step sched action sched') :
    Kept sched' ↔ WakesQueued sched action sched' := by
  have wellFormed' := wellFormed.step step
  rw [wellFormed'.kept_iff]
  cases step with
  | start canCall fits result =>
      refine iff_of_true ?_ (by intro _ equal; cases equal)
      obtain ⟨_, queue, pushed, started⟩ :=
        started_of_startTask wellFormed.allocated result
      have bootstrapEq : sched'.bootstrap = sched.bootstrap := by
        rw [started.result]
      intro task isTask different queued
      rw [bootstrapEq] at different
      rw [started.items_eq]
      rcases started.isTask.mp isTask with old | rfl
      · rw [Multiset.count_cons_of_ne
          (Nat.ne_of_lt (Nat.lt_succ_of_le old.2))]
        rw [Sched.stateOf, started.tasks_old old.2] at queued
        exact kept.queued task old different queued
      · rw [Multiset.count_cons_self, Multiset.count_eq_zero_of_notMem]
        exact fun member =>
          Nat.not_succ_le_self _ (wellFormed.members _ member).2
  | @mainLoop _ cpuid _ _ booting fits result =>
      refine iff_of_true ?_ (by intro _ equal; cases equal)
      obtain ⟨queue, pushed, middle, started, rfl⟩ :=
        mainLoop_cases wellFormed.allocated result
      intro task isTask different queued
      change task ≠ sched.started + 1 at different
      rw [stateOf_terminateTask, if_neg different] at queued
      have old : IsTask sched task :=
        (started.isTask.mp isTask).resolve_right different
      have itemsEq : items (terminateTask
          (withBootstrap middle (sched.started + 1)) (sched.started + 1)) =
            (sched.started + 1) ::ₘ items sched := started.items_eq
      rw [itemsEq, Multiset.count_cons_of_ne different]
      refine kept.queued task old ?_ ?_
      · rw [wellFormed.booted.mp booting]
        exact old.1
      · rw [← queued]
        exact (congrArg Task.state (started.tasks_old old.2)).symm
  | switch nonNull result =>
      refine iff_of_true ?_ (by intro _ equal; cases equal)
      obtain ⟨queue, pushed, dropped, next, rest, switched⟩ :=
        switched_of_taskSwitchIsr wellFormed.allocated result
      intro task isTask different queued
      rw [switched.bootstrap] at different
      rw [IsTask, switched.started] at isTask
      exact kept.switch wellFormed switched different isTask queued
  | @lock mutex canCall booting =>
      refine iff_of_true ?_ (by intro _ equal; cases equal)
      have same : SameQueue sched (mutexLock sched mutex) := sameQueue_mutexLock
      intro task isTask different queued
      rw [same.bootstrap] at different
      rw [same.items_eq]
      rw [stateOf_mutexLock] at queued
      split at queued
      · cases queued
      · exact kept.queued task (same.isTask.mp isTask) different queued
  | @unlock mutex canCall =>
      have same : SameQueue sched (mutexUnlock sched mutex) :=
        sameQueue_mutexUnlock
      rw [same.items_eq, same.bootstrap]
      constructor
      · intro queued other equal task member
        cases equal
        obtain ⟨isTask, different, _⟩ := wellFormed.waiting mutex task member
        refine Multiset.count_pos.mp ?_
        rw [queued task (same.isTask.mpr isTask) different]
        · exact Nat.one_pos
        · rw [stateOf_mutexUnlock, if_pos member]
      · intro wakes task isTask different queued
        rw [stateOf_mutexUnlock] at queued
        split at queued
        · next woken =>
            have atMost := wellFormed.once task different
            have atLeast := Multiset.count_pos.mpr (wakes mutex rfl task woken)
            omega
        · exact kept.queued task (same.isTask.mp isTask) different queued
  | @terminate ended _ _ _ =>
      refine iff_of_true ?_ (by intro _ equal; cases equal)
      intro task isTask different queued
      rw [stateOf_terminateTask] at queued
      split at queued
      · cases queued
      · exact kept.queued task isTask different queued
  | @use registers _ _ =>
      refine iff_of_true ?_ (by intro _ equal; cases equal)
      have same : SameScheduling sched (useExtended sched registers) :=
        sameScheduling_use registers
      intro task isTask different queued
      rw [same.sameQueue.items_eq]
      rw [same.bootstrap] at different
      rw [same.stateOf] at queued
      exact kept.queued task (same.sameQueue.isTask.mp isTask) different queued

theorem kept_boot (registers : Ext) : Kept (bootSched registers) := by
  rw [(wellFormed_boot registers).kept_iff]
  rintro task ⟨nonNull, bound⟩
  exact absurd (Nat.le_zero.mp bound) nonNull

/-- A run keeps all tasks exactly when no `mutex_unlock` wakes a task that has
left the queue. -/
theorem tasks_kept_iff (registers : Ext) (actions : List (Action Ext)) :
    Always Step (bootSched registers) actions (fun _ sched => Kept sched) ↔
      AlwaysStep Step (bootSched registers) actions WakesQueued :=
  always_iff_alwaysStep (kept_boot registers)
    fun _ _ _ _ _ _ run kept step =>
      kept.step_iff (wellFormed_of_run run) step

end Lost

/-! ### A task that is lost -/

/-- A processor without `xsave`. -/
def plainCpuid : Cpuid where
  xsave := false
  xsaveopt := false
  size := 512
  size_ne_zero := by decide

/-- Task 2 blocks on the mutex of task 1, is dropped by the switch after that,
and is woken. -/
def losingActions : List (Action Nat) :=
  [.start 0 0 0 0, .start 0 0 0 0, .mainLoop plainCpuid 0 0,
    .switch zeroFrame 0 0, .lock 0, .switch zeroFrame 10 10, .lock 0,
    .switch zeroFrame 11 11, .unlock 0]

/-- After these operations task 2 can run, and is not in the queue. -/
theorem losingActions_not_kept :
    ∃ sched, Run Step (bootSched 0) losingActions sched ∧ ¬ Kept sched := by
  have lost : ((performAll (bootSched 0) losingActions).map fun sched =>
      (decide (IsTask sched 2), decide (2 = sched.bootstrap),
        sched.stateOf 2, sched.taskQueue.map MinHeap.size)) =
      some (true, false, .inQueue, some 0) := by
    rfl
  obtain ⟨sched, performed, facts⟩ := Option.map_eq_some_iff.mp lost
  simp only [Prod.mk.injEq, decide_eq_true_eq, decide_eq_false_iff_not]
    at facts
  obtain ⟨isTask, different, queued, empty⟩ := facts
  refine ⟨sched, run_of_performAll Run.nil performed, ?_⟩
  intro kept
  have once := kept.queued 2 isTask different queued
  obtain ⟨queue, found, size⟩ := Option.map_eq_some_iff.mp empty
  rw [items_of_taskQueue found, MinHeap.items, size] at once
  exact Nat.zero_ne_one ((Multiset.count_zero 2).symm.trans once)

/-! ## Terminated tasks -/

section Terminated

variable {Ext : Type} {sched sched' : Sched Ext} {task : TaskPtr}
  {mutex : Nat} {action : Action Ext} {actions : List (Action Ext)}
  {registers : Ext}

/-- `terminate_task` was called for the task, by a task or by `main_loop`. -/
def Ended (actions : List (Action Ext)) (sched : Sched Ext)
    (task : TaskPtr) : Prop :=
  .terminate task ∈ actions ∨ task ≠ 0 ∧ task = sched.bootstrap

/-- Terminated tasks stay so, and are not resumed. -/
structure Final (actions : List (Action Ext)) (sched : Sched Ext) : Prop where
  state :
    ∀ task, Ended actions sched task → sched.stateOf task = .terminated
  notResumed :
    ∀ before i now later, actions = before ++ [.switch i now later] →
      ∀ task, Ended before sched task → sched.currentTask ≠ task

/-- The step does not wake a terminated task. -/
def WakesLive (sched : Sched Ext) (action : Action Ext) (_ : Sched Ext) :
    Prop :=
  ∀ mutex, action = .unlock mutex →
    ∀ task ∈ (sched.mutexes mutex).waitingTasks,
      sched.stateOf task ≠ .terminated

/-- The tasks for which `terminate_task` was called are the ones that can be
terminated. -/
structure EndedTasks (actions : List (Action Ext)) (sched : Sched Ext) :
    Prop where
  isTask : ∀ task, Ended actions sched task → IsTask sched task
  ended :
    ∀ task, IsTask sched task → sched.stateOf task = .terminated →
      Ended actions sched task

theorem ended_snoc_of_ne (notTerminate : ∀ task, action ≠ .terminate task)
    (bootstrapEq : sched'.bootstrap = sched.bootstrap) :
    Ended (actions ++ [action]) sched' task ↔ Ended actions sched task := by
  rw [Ended, Ended, bootstrapEq, List.mem_append, List.mem_singleton]
  constructor
  · rintro ((earlier | last) | bootstrap)
    · exact Or.inl earlier
    · exact absurd last.symm (notTerminate task)
    · exact Or.inr bootstrap
  · rintro (earlier | bootstrap)
    · exact Or.inl (Or.inl earlier)
    · exact Or.inr bootstrap

theorem EndedTasks.quiet (ended : EndedTasks actions sched)
    (notTerminate : ∀ task, action ≠ .terminate task)
    (bootstrapEq : sched'.bootstrap = sched.bootstrap)
    (grown : sched.started ≤ sched'.started)
    (old : ∀ task, IsTask sched' task → sched'.stateOf task = .terminated →
      IsTask sched task ∧ sched.stateOf task = .terminated) :
    EndedTasks (actions ++ [action]) sched' := by
  constructor
  · intro task isEnded
    rw [ended_snoc_of_ne notTerminate bootstrapEq] at isEnded
    obtain ⟨nonNull, bound⟩ := ended.isTask task isEnded
    exact ⟨nonNull, Nat.le_trans bound grown⟩
  · intro task isTask terminated
    rw [ended_snoc_of_ne notTerminate bootstrapEq]
    obtain ⟨isTask', terminated'⟩ := old task isTask terminated
    exact ended.ended task isTask' terminated'

theorem Final.quiet (final : Final actions sched)
    (ended : EndedTasks actions sched)
    (notTerminate : ∀ task, action ≠ .terminate task)
    (notSwitch : ∀ i now later, action ≠ .switch i now later)
    (bootstrapEq : sched'.bootstrap = sched.bootstrap)
    (stays : ∀ task, IsTask sched task → sched.stateOf task = .terminated →
      sched'.stateOf task = .terminated) :
    Final (actions ++ [action]) sched' := by
  constructor
  · intro task isEnded
    rw [ended_snoc_of_ne notTerminate bootstrapEq] at isEnded
    exact stays task (ended.isTask task isEnded) (final.state task isEnded)
  · intro before i now later equal
    obtain ⟨_, last⟩ := List.append_inj' equal rfl
    exact absurd (List.singleton_inj.mp last) (notSwitch i now later)

/-- A switch changes no terminated task and resumes none. -/
theorem Final.switch {queue pushed rest : MinHeap TaskPtr}
    {dropped : Multiset TaskPtr} {next : TaskPtr} {i i' : InterruptFrame}
    {now later : Word} (final : Final actions sched)
    (switched : Switched sched i now later queue pushed dropped next rest i'
      sched') :
    Final (actions ++ [.switch i now later]) sched' := by
  have same : ∀ task, Ended actions sched' task ↔ Ended actions sched task := by
    intro task
    rw [Ended, Ended, switched.bootstrap]
  have notTerminate : ∀ task,
      (.switch i now later : Action Ext) ≠ .terminate task :=
    by intro _ equal; cases equal
  constructor
  · intro task isEnded
    rw [ended_snoc_of_ne notTerminate switched.bootstrap] at isEnded
    have terminated := final.state task isEnded
    rw [switched.stateOf, if_neg (switched.next_ne (Or.inr terminated)),
      if_neg]
    · exact terminated
    · rintro ⟨_, runs⟩
      rw [terminated] at runs
      cases runs
  · intro before i now later equal task isEnded
    obtain ⟨rfl, _⟩ := List.append_inj' equal rfl
    rw [switched.currentTask]
    exact (switched.next_ne
      (Or.inr (final.state task ((same task).mp isEnded)))).symm

variable [Zero Ext]

theorem EndedTasks.step (ended : EndedTasks actions sched)
    (wellFormed : WellFormed sched) (step : Step sched action sched') :
    EndedTasks (actions ++ [action]) sched' := by
  cases step with
  | start canCall fits result =>
      obtain ⟨_, queue, pushed, started⟩ :=
        started_of_startTask wellFormed.allocated result
      refine ended.quiet (by intro _ equal; cases equal) ?_ ?_ ?_
      · rw [started.result]
      · rw [started.result]
        exact Nat.le_succ _
      · intro task isTask terminated
        rcases started.isTask.mp isTask with old | rfl
        · rw [Sched.stateOf, started.tasks_old old.2] at terminated
          exact ⟨old, terminated⟩
        · rw [Sched.stateOf, started.tasks_new] at terminated
          cases terminated
  | @mainLoop _ cpuid _ _ booting fits result =>
      obtain ⟨queue, pushed, middle, started, rfl⟩ :=
        mainLoop_cases wellFormed.allocated result
      have isTask' : ∀ task, IsTask (terminateTask
          (withBootstrap middle (sched.started + 1)) (sched.started + 1)) task ↔
            IsTask sched task ∨ task = sched.started + 1 :=
        fun task => started.isTask
      constructor
      · rintro task (earlier | ⟨_, bootstrap⟩)
        · rcases List.mem_append.mp earlier with earlier | last
          · exact (isTask' task).mpr (Or.inl (ended.isTask task (Or.inl earlier)))
          · cases List.mem_singleton.mp last
        · exact (isTask' task).mpr (Or.inr bootstrap)
      · intro task isTask terminated
        rw [stateOf_terminateTask] at terminated
        split at terminated
        · next bootstrap => exact Or.inr ⟨isTask.1, bootstrap⟩
        · next different =>
            have old := ((isTask' task).mp isTask).resolve_right different
            rcases ended.ended task old ((congrArg Task.state
              (started.tasks_old old.2)).symm.trans terminated) with
              earlier | ⟨nonNull, bootstrap⟩
            · exact Or.inl (List.mem_append.mpr (Or.inl earlier))
            · rw [wellFormed.booted.mp booting] at bootstrap
              exact absurd bootstrap nonNull
  | switch nonNull result =>
      obtain ⟨queue, pushed, dropped, next, rest, switched⟩ :=
        switched_of_taskSwitchIsr wellFormed.allocated result
      refine ended.quiet (by intro _ equal; cases equal) switched.bootstrap
        (Nat.le_of_eq switched.started.symm) ?_
      intro task isTask terminated
      rw [IsTask, switched.started] at isTask
      rw [switched.stateOf] at terminated
      split at terminated
      · cases terminated
      · split at terminated
        · cases terminated
        · exact ⟨isTask, terminated⟩
  | @lock mutex canCall booting =>
      have same : SameQueue sched (mutexLock sched mutex) := sameQueue_mutexLock
      refine ended.quiet (by intro _ equal; cases equal) same.bootstrap
        (Nat.le_of_eq same.started.symm) ?_
      intro task isTask terminated
      rw [stateOf_mutexLock] at terminated
      split at terminated
      · cases terminated
      · exact ⟨same.isTask.mp isTask, terminated⟩
  | @unlock mutex canCall =>
      have same : SameQueue sched (mutexUnlock sched mutex) :=
        sameQueue_mutexUnlock
      refine ended.quiet (by intro _ equal; cases equal) same.bootstrap
        (Nat.le_of_eq same.started.symm) ?_
      intro task isTask terminated
      rw [stateOf_mutexUnlock] at terminated
      split at terminated
      · cases terminated
      · exact ⟨same.isTask.mp isTask, terminated⟩
  | @terminate dead nonNull canCall isTask =>
      constructor
      · rintro task (earlier | bootstrap)
        · rcases List.mem_append.mp earlier with earlier | last
          · exact ended.isTask task (Or.inl earlier)
          · cases List.mem_singleton.mp last
            exact isTask
        · exact ended.isTask task (Or.inr bootstrap)
      · intro task task' terminated
        rw [stateOf_terminateTask] at terminated
        split at terminated
        · next same =>
            rw [same]
            exact Or.inl (List.mem_append.mpr
              (Or.inr (List.mem_singleton.mpr rfl)))
        · rcases ended.ended task task' terminated with earlier | bootstrap
          · exact Or.inl (List.mem_append.mpr (Or.inl earlier))
          · exact Or.inr bootstrap
  | @use registers _ _ =>
      have same : SameScheduling sched (useExtended sched registers) :=
        sameScheduling_use registers
      refine ended.quiet (by intro _ equal; cases equal) same.bootstrap
        (Nat.le_of_eq same.started.symm) ?_
      intro task isTask terminated
      rw [same.stateOf] at terminated
      exact ⟨same.sameQueue.isTask.mp isTask, terminated⟩

theorem endedTasks_of_run
    (run : Run Step (bootSched registers) actions sched) :
    EndedTasks actions sched := by
  refine run.induct ?_ fun before sched action sched' run ended step =>
    ended.step (wellFormed_of_run run) step
  constructor
  · rintro task (earlier | ⟨nonNull, bootstrap⟩)
    · cases earlier
    · exact absurd bootstrap nonNull
  · rintro task ⟨nonNull, bound⟩
    exact absurd (Nat.le_zero.mp bound) nonNull

/-- One step leaves terminated tasks alone exactly when it wakes none. -/
theorem Final.step_iff (final : Final actions sched)
    (ended : EndedTasks actions sched) (wellFormed : WellFormed sched)
    (step : Step sched action sched') :
    Final (actions ++ [action]) sched' ↔ WakesLive sched action sched' := by
  cases step with
  | start canCall fits result =>
      refine iff_of_true ?_ (by intro _ equal; cases equal)
      obtain ⟨_, queue, pushed, started⟩ :=
        started_of_startTask wellFormed.allocated result
      refine final.quiet ended (by intro _ equal; cases equal)
        (by intro _ _ _ equal; cases equal) ?_ ?_
      · rw [started.result]
      · intro task isTask terminated
        rw [Sched.stateOf, started.tasks_old isTask.2]
        exact terminated
  | @mainLoop _ cpuid _ _ booting fits result =>
      refine iff_of_true ?_ (by intro _ equal; cases equal)
      obtain ⟨queue, pushed, middle, started, rfl⟩ :=
        mainLoop_cases wellFormed.allocated result
      constructor
      · rintro task (earlier | ⟨_, bootstrap⟩)
        · rw [stateOf_terminateTask]
          split
          · rfl
          · rcases List.mem_append.mp earlier with earlier | last
            · have old := ended.isTask task (Or.inl earlier)
              exact (congrArg Task.state (started.tasks_old old.2)).trans
                (final.state task (Or.inl earlier))
            · cases List.mem_singleton.mp last
        · rw [stateOf_terminateTask]
          exact if_pos bootstrap
      · intro before i now later equal
        obtain ⟨_, last⟩ := List.append_inj' equal rfl
        cases List.singleton_inj.mp last
  | switch nonNull result =>
      refine iff_of_true ?_ (by intro _ equal; cases equal)
      obtain ⟨queue, pushed, dropped, next, rest, switched⟩ :=
        switched_of_taskSwitchIsr wellFormed.allocated result
      exact final.switch switched
  | @lock mutex canCall booting =>
      refine iff_of_true ?_ (by intro _ equal; cases equal)
      refine final.quiet ended (by intro _ equal; cases equal)
        (by intro _ _ _ equal; cases equal) sameQueue_mutexLock.bootstrap ?_
      intro task isTask terminated
      rw [stateOf_mutexLock, if_neg]
      · exact terminated
      · rintro ⟨isLocked, rfl⟩
        rcases canCall with null | runs
        · rw [booting null] at isLocked
          cases isLocked
        · rw [terminated] at runs
          cases runs
  | @unlock mutex canCall =>
      constructor
      · intro final' other equal task member terminated
        cases equal
        obtain ⟨isTask, _, _⟩ := wellFormed.waiting mutex task member
        have notTerminate : ∀ task,
            (.unlock mutex : Action Ext) ≠ .terminate task :=
          by intro _ equal; cases equal
        have isEnded : Ended (actions ++ [.unlock mutex])
            (mutexUnlock sched mutex) task :=
          (ended_snoc_of_ne notTerminate sameQueue_mutexUnlock.bootstrap).mpr
            (ended.ended task isTask terminated)
        have stays := final'.state task isEnded
        rw [stateOf_mutexUnlock, if_pos member] at stays
        cases stays
      · intro live
        refine final.quiet ended (by intro _ equal; cases equal)
          (by intro _ _ _ equal; cases equal) sameQueue_mutexUnlock.bootstrap ?_
        intro task isTask terminated
        rw [stateOf_mutexUnlock, if_neg]
        · exact terminated
        · exact fun member => live mutex rfl task member terminated
  | @terminate dead nonNull canCall isTask =>
      refine iff_of_true ?_ (by intro _ equal; cases equal)
      constructor
      · rintro task (earlier | bootstrap)
        · rw [stateOf_terminateTask]
          split
          · rfl
          · next different =>
              rcases List.mem_append.mp earlier with earlier | last
              · exact final.state task (Or.inl earlier)
              · cases List.mem_singleton.mp last
                exact absurd rfl different
        · rw [stateOf_terminateTask]
          split
          · rfl
          · exact final.state task (Or.inr bootstrap)
      · intro before i now later equal
        obtain ⟨_, last⟩ := List.append_inj' equal rfl
        cases List.singleton_inj.mp last
  | @use registers _ _ =>
      refine iff_of_true ?_ (by intro _ equal; cases equal)
      have same : SameScheduling sched (useExtended sched registers) :=
        sameScheduling_use registers
      refine final.quiet ended (by intro _ equal; cases equal)
        (by intro _ _ _ equal; cases equal) same.bootstrap ?_
      intro task isTask terminated
      rw [same.stateOf]
      exact terminated

theorem final_boot (registers : Ext) : Final [] (bootSched registers) := by
  constructor
  · rintro task (earlier | ⟨nonNull, bootstrap⟩)
    · cases earlier
    · exact absurd bootstrap nonNull
  · intro before i now later equal
    exact absurd equal (by simp)

/-- In a run, terminated tasks stay so and are not resumed, exactly when no
`mutex_unlock` wakes one. -/
theorem terminated_final_iff (registers : Ext) (actions : List (Action Ext)) :
    Always Step (bootSched registers) actions Final ↔
      AlwaysStep Step (bootSched registers) actions WakesLive :=
  always_iff_alwaysStep (final_boot registers)
    fun _ _ _ _ _ _ run final step =>
      final.step_iff (endedTasks_of_run run) (wellFormed_of_run run) step

end Terminated

/-! ### A task that comes back -/

/-- Task 2 blocks on the mutex of task 1, which terminates it, unlocks the mutex
and yields. -/
def revivingActions : List (Action Nat) :=
  [.start 0 0 0 0, .start 0 0 0 0, .mainLoop plainCpuid 0 0,
    .switch zeroFrame 0 0, .lock 0, .switch zeroFrame 10 10, .lock 0,
    .switch zeroFrame 30 30, .terminate 2, .unlock 0,
    .switch zeroFrame 90 90]

/-- After these operations the terminated task 2 runs. -/
theorem revivingActions_not_final :
    ∃ sched, Run Step (bootSched 0) revivingActions sched ∧
      ¬ Final revivingActions sched := by
  have revived : ((performAll (bootSched 0) revivingActions).map fun sched =>
      (sched.currentTask, sched.stateOf 2)) = some (2, .running) := by
    rfl
  obtain ⟨sched, performed, facts⟩ := Option.map_eq_some_iff.mp revived
  obtain ⟨_, runs⟩ := Prod.mk.inj facts
  refine ⟨sched, run_of_performAll Run.nil performed, ?_⟩
  intro final
  have terminated := final.state 2 (Or.inl (by simp [revivingActions]))
  rw [runs] at terminated
  cases terminated

end BeaverOS.Scheduler
