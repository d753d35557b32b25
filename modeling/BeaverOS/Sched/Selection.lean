import BeaverOS.Sched.Tasks

/-!
# Running out of tasks

The selection loop of a switch ends: with a task that can run, or, when there is
none, with a pop of the empty heap.
-/

namespace BeaverOS.Scheduler

open BeaverOS.Heap
open BeaverOS.HeapOrder
open BeaverOS.Isr
open BeaverOS.Transition

/-! ## How a switch can end -/

section Exhaustion

variable {Ext : Type} {sched : Sched Ext} {i : InterruptFrame}
  {now later : Word}

/-- A task is queued that can run, or the preempted task can. -/
def CanSwitch (sched : Sched Ext) : Prop :=
  (∃ task ∈ items sched, sched.stateOf task = .inQueue) ∨
    sched.stateOf sched.currentTask = .running

/-- What a switch should come to: a task that can run is resumed, or there is
none and the processor panics. -/
def SwitchesSafely (sched : Sched Ext) (i : InterruptFrame)
    (now later : Word) : Prop :=
  match taskSwitchIsr sched i now later with
  | .ok (_, sched') =>
      sched'.currentTask ∈ sched.currentTask ::ₘ items sched ∧
        (preempt sched i now).stateOf sched'.currentTask = .inQueue
  | .error (.panic message) =>
      message = "NOTHING TO DO" ∧
        ∀ task ∈ sched.currentTask ::ₘ items sched,
          (preempt sched i now).stateOf task ≠ .inQueue
  | .error _ => False

theorem canSwitch_iff (wellFormed : WellFormed sched)
    (nonNull : sched.currentTask ≠ 0) :
    CanSwitch sched ↔
      ∃ task ∈ sched.currentTask ::ₘ items sched,
        (preempt sched i now).stateOf task = .inQueue := by
  constructor
  · rintro (⟨task, member, queued⟩ | runs)
    · refine ⟨task, Multiset.mem_cons_of_mem member, ?_⟩
      rw [preempt_stateOf]
      split
      · rfl
      · exact queued
    · refine ⟨_, Multiset.mem_cons_self _ _, ?_⟩
      rw [preempt_stateOf, if_pos ⟨rfl, runs⟩]
  · rintro ⟨task, member, queued⟩
    rw [preempt_stateOf] at queued
    split at queued
    · next both =>
        obtain ⟨rfl, runs⟩ := both
        exact Or.inr runs
    · rcases Multiset.mem_cons.mp member with rfl | member
      · exact absurd queued (wellFormed.notQueued nonNull)
      · exact Or.inl ⟨task, member, queued⟩

/-- The two ways a switch can end. -/
theorem taskSwitchIsr_cases (wellFormed : WellFormed sched)
    (nonNull : sched.currentTask ≠ 0) (i : InterruptFrame)
    (now later : Word) :
    CanSwitch sched ∧
        (∃ i' sched', taskSwitchIsr sched i now later = .ok (i', sched')) ∨
      ¬ CanSwitch sched ∧ taskSwitchIsr sched i now later = .error .fault := by
  obtain ⟨queue, found⟩ := wellFormed.hasQueue nonNull
  obtain ⟨pushed, push⟩ :=
    heapPush_spec (compareTasks_self (preempt sched i now).tasks)
      (wellFormed.allocated queue found) sched.currentTask
  have itemsEq : pushed.items = sched.currentTask ::ₘ items sched := by
    rw [push.items, items_of_taskQueue found]
  have noNull : 0 ∉ pushed.items := by
    rw [itemsEq]
    exact fun member => (items_cons_bound wellFormed nonNull member).1 rfl
  have canSwitch : CanSwitch sched ↔ ∃ task ∈ pushed.items,
      ((preempt sched i now).tasks task).state = .inQueue := by
    rw [itemsEq]
    exact canSwitch_iff wellFormed nonNull
  have unfolded : taskSwitchIsr sched i now later =
      (selectTask (preempt sched i now).tasks (pushed.size + 1) pushed).bind
        fun pair => .ok (resume
          { preempt sched i now with
            taskQueue := some pair.2, currentTask := pair.1 } later) := by
    simp only [taskSwitchIsr, preempt_taskQueue, preempt_currentTask, found,
      pushTask, push.result, bind, Except.bind]
    rfl
  by_cases can : CanSwitch sched
  · obtain ⟨next, rest, selects⟩ :=
      selectTask_ok push.allocated noNull (Nat.lt_succ_self _)
        (canSwitch.mp can)
    refine Or.inl ⟨can, ?_⟩
    rw [unfolded, selects]
    exact ⟨_, _, rfl⟩
  · refine Or.inr ⟨can, ?_⟩
    rw [unfolded, selectTask_fault push.allocated noNull (Nat.lt_succ_self _)]
    · rfl
    · exact fun task member queued =>
        can (canSwitch.mpr ⟨task, member, queued⟩)

theorem switchesSafely_iff_of_wellFormed (wellFormed : WellFormed sched)
    (nonNull : sched.currentTask ≠ 0) :
    SwitchesSafely sched i now later ↔ CanSwitch sched := by
  rcases taskSwitchIsr_cases wellFormed nonNull i now later with
    ⟨can, i', sched', result⟩ | ⟨cannot, result⟩
  · obtain ⟨queue, pushed, dropped, next, rest, switched⟩ :=
      switched_of_taskSwitchIsr wellFormed.allocated result
    refine iff_of_true ?_ can
    rw [SwitchesSafely, result]
    simp only
    rw [switched.currentTask]
    exact ⟨switched.next_mem, switched.selected.runs⟩
  · refine iff_of_false ?_ cannot
    rw [SwitchesSafely, result]
    exact id

end Exhaustion

section Runs

variable {Ext : Type} [Zero Ext] {sched : Sched Ext}
  {actions : List (Action Ext)} {registers : Ext}

/-- In every state that operations lead to, the selection loop of a switch ends,
and the switch does what it should exactly when there is a task to run. -/
theorem switchesSafely_iff
    (run : Run Step (bootSched registers) actions sched)
    (nonNull : sched.currentTask ≠ 0) (i : InterruptFrame)
    (now later : Word) :
    taskSwitchIsr sched i now later ≠ .error .unfinished ∧
      (SwitchesSafely sched i now later ↔ CanSwitch sched) := by
  have wellFormed := wellFormed_of_run run
  refine ⟨?_, switchesSafely_iff_of_wellFormed wellFormed nonNull⟩
  rcases taskSwitchIsr_cases wellFormed nonNull i now later with
    ⟨_, i', sched', result⟩ | ⟨_, result⟩
  · rw [result]
    exact nofun
  · rw [result]
    exact nofun

end Runs

/-- The first switch of a system with one task. -/
theorem switchesSafely_iff_oneTask :
    ∃ sched : Sched Nat, sched.currentTask = 2 ∧
      taskSwitchIsr sched zeroFrame 0 0 ≠ .error .unfinished ∧
        (SwitchesSafely sched zeroFrame 0 0 ↔ CanSwitch sched) := by
  have booted : ((performAll (bootSched 0) [.start 0 0 0 0,
      .mainLoop plainCpuid 0 0]).map fun sched : Sched Nat =>
        sched.currentTask) = some 2 := by
    rfl
  obtain ⟨sched, performed, current⟩ := Option.map_eq_some_iff.mp booted
  refine ⟨sched, current, ?_⟩
  apply switchesSafely_iff (run_of_performAll Run.nil performed)
  rw [current]
  decide

/-- Whether a switch pops the empty heap. -/
def faults (sched : Sched Nat) : Bool :=
  match taskSwitchIsr sched zeroFrame 0 0 with
  | .error .fault => true
  | _ => false

/-- The only task is the one that `main_loop` terminates, and the switch after
that pops the empty heap. -/
theorem not_switchesSafely_idle :
    ∃ sched, Run Step (bootSched 0) [.mainLoop plainCpuid 0 0] sched ∧
      sched.currentTask ≠ 0 ∧ ¬ SwitchesSafely sched zeroFrame 0 0 := by
  have idle : ((performAll (bootSched 0) [.mainLoop plainCpuid 0 0]).map
      fun sched => (sched.currentTask, faults sched)) = some (1, true) := by
    rfl
  obtain ⟨sched, performed, facts⟩ := Option.map_eq_some_iff.mp idle
  obtain ⟨current, popped⟩ := Prod.mk.inj facts
  refine ⟨sched, run_of_performAll Run.nil performed, ?_, ?_⟩
  · rw [current]
    decide
  · rw [faults] at popped
    rw [SwitchesSafely]
    split at popped
    · next result =>
        rw [result]
        exact id
    · cases popped

end BeaverOS.Scheduler
