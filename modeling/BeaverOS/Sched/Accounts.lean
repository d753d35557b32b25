import Mathlib.Algebra.BigOperators.Intervals
import Mathlib.Algebra.Order.BigOperators.Group.Finset
import Mathlib.Data.BitVec
import Mathlib.Tactic.Ring
import BeaverOS.Sched.Tasks

/-!
# Virtual time

`total_vtime` and `num_tasks` against the sum and the number of the tasks that
are not terminated. The sums are taken in the 64-bit arithmetic of the program
first; where they are below `2^64` they are the sums of the numbers.
-/

namespace BeaverOS.Scheduler

open BeaverOS.Heap
open BeaverOS.Isr
open BeaverOS.Transition

section Sums

variable {Ext : Type} {sched sched' : Sched Ext} {task : TaskPtr}
  {value : Task Ext → Word}

/-- What one task contributes to a sum over the tasks that live. -/
def share (value : Task Ext → Word) (sched : Sched Ext) (task : TaskPtr) :
    Word :=
  if sched.stateOf task = .terminated then 0 else value (sched.tasks task)

/-- The sum over the tasks that live. -/
def liveSum (value : Task Ext → Word) (sched : Sched Ext) : Word :=
  ∑ task ∈ Finset.Ioc 0 sched.started, share value sched task

theorem mem_tasks : task ∈ Finset.Ioc 0 sched.started ↔ IsTask sched task := by
  rw [Finset.mem_Ioc, IsTask, Nat.pos_iff_ne_zero]

theorem liveSum_congr (started : sched'.started = sched.started)
    (same : ∀ task, IsTask sched task →
      share value sched' task = share value sched task) :
    liveSum value sched' = liveSum value sched := by
  rw [liveSum, liveSum, started]
  exact Finset.sum_congr rfl fun task member => same task (mem_tasks.mp member)

/-- Only one task changes its contribution. -/
theorem liveSum_change (started : sched'.started = sched.started)
    (isTask : IsTask sched task)
    (same : ∀ other, other ≠ task →
      share value sched' other = share value sched other) :
    liveSum value sched' =
      liveSum value sched - share value sched task +
        share value sched' task := by
  have member := mem_tasks.mpr isTask
  have rest : ∑ other ∈ (Finset.Ioc 0 sched.started).erase task,
        share value sched' other =
      ∑ other ∈ (Finset.Ioc 0 sched.started).erase task,
        share value sched other :=
    Finset.sum_congr rfl fun other inside =>
      same other (Finset.mem_erase.mp inside).1
  rw [liveSum, liveSum, started,
    ← Finset.add_sum_erase _ (share value sched) member,
    ← Finset.add_sum_erase _ (share value sched') member, rest]
  ring

/-- A new task adds its contribution. -/
theorem Started.liveSum_eq {record : Task Ext} {queue pushed : MinHeap TaskPtr}
    (started : Started sched record queue pushed sched')
    (lives : record.state ≠ .terminated) :
    liveSum value sched' = liveSum value sched + value record := by
  have startedEq : sched'.started = sched.started + 1 := by
    rw [started.result]
  rw [liveSum, startedEq, Finset.sum_Ioc_succ_top (Nat.zero_le _), liveSum]
  congr 1
  · refine Finset.sum_congr rfl fun task member => ?_
    rw [share, share, Sched.stateOf, started.tasks_old (mem_tasks.mp member).2]
  · rw [share, Sched.stateOf, started.tasks_new, if_neg lives]

theorem totalVtime_terminateTask :
    (terminateTask sched task).totalVtime =
      sched.totalVtime - (sched.tasks task).vtime := by
  simp only [terminateTask, Sched.setState, Sched.modify, Function.update_self]

theorem liveSum_terminateTask (isTask : IsTask sched task) :
    liveSum value (terminateTask sched task) =
      liveSum value sched - share value sched task := by
  have gone : share value (terminateTask sched task) task = 0 := by
    rw [share, stateOf_terminateTask, if_pos rfl, if_pos rfl]
  have changed : liveSum value (terminateTask sched task) =
      liveSum value sched - share value sched task +
        share value (terminateTask sched task) task := by
    refine liveSum_change rfl isTask fun other different => ?_
    rw [share, share, stateOf_terminateTask, if_neg different]
    simp only [terminateTask, Sched.setState, Sched.modify,
      Function.update_of_ne different]
  rw [changed, gone, add_zero]

end Sums

section Switches

variable {Ext : Type} {sched sched' : Sched Ext} {i i' : InterruptFrame}
  {now later : Word} {queue pushed rest : MinHeap TaskPtr}
  {dropped : Multiset TaskPtr} {next : TaskPtr}

/-- A switch terminates no task and revives none. -/
theorem Switched.terminated_iff
    (switched : Switched sched i now later queue pushed dropped next rest i'
      sched') (task : TaskPtr) :
    sched'.stateOf task = .terminated ↔ sched.stateOf task = .terminated := by
  constructor
  · intro terminated
    rw [switched.stateOf] at terminated
    split at terminated
    · cases terminated
    · split at terminated
      · cases terminated
      · exact terminated
  · intro terminated
    rw [switched.stateOf, if_neg (switched.next_ne (Or.inr terminated)),
      if_neg]
    · exact terminated
    · rintro ⟨_, runs⟩
      rw [terminated] at runs
      cases runs

/-- A switch accounts the time of the preempted task, if that still lives. -/
theorem Switched.liveSum_vtime (wellFormed : WellFormed sched)
    (nonNull : sched.currentTask ≠ 0)
    (switched : Switched sched i now later queue pushed dropped next rest i'
      sched') :
    liveSum Task.vtime sched' = liveSum Task.vtime sched +
      if sched.stateOf sched.currentTask = .terminated then 0
      else now - (sched.tasks sched.currentTask).startedAt := by
  have others : ∀ other, other ≠ sched.currentTask →
      share Task.vtime sched' other = share Task.vtime sched other := by
    intro other different
    rw [share, share, switched.vtime,
      preempt_task_of_ne sched i now different]
    simp only [switched.terminated_iff]
  rw [liveSum_change switched.started ⟨nonNull, wellFormed.currentBound⟩ others,
    share, share, switched.vtime, preempt_task_current]
  simp only [switched.terminated_iff, preempted]
  split <;> ring

theorem Switched.liveSum_one
    (switched : Switched sched i now later queue pushed dropped next rest i'
      sched') :
    liveSum (fun _ => 1) sched' = liveSum (fun _ => 1) sched := by
  refine liveSum_congr switched.started fun task _ => ?_
  simp only [share, switched.terminated_iff]

end Switches

/-! ## The accounts -/

section Accounts

variable {Ext : Type} {sched sched' : Sched Ext} {action : Action Ext}

/-- The two totals, as sums of `uint64_t`. -/
structure Accounted (sched : Sched Ext) : Prop where
  numTasks : sched.numTasks = liveSum (fun _ => 1) sched
  totalVtime : sched.totalVtime = liveSum Task.vtime sched

/-- The mean rounds down to zero, or there is no task. -/
def CreditFree (sched : Sched Ext) : Prop :=
  sched.numTasks = 0 ∨ sched.totalVtime < sched.numTasks

theorem meanVtime_eq_zero : meanVtime sched = 0 ↔ CreditFree sched := by
  rw [meanVtime, CreditFree]
  by_cases none : sched.numTasks = 0
  · rw [if_neg (not_not.mpr none)]
    exact iff_of_true rfl (Or.inl none)
  · have positive : 0 < sched.numTasks.toNat :=
      Nat.pos_of_ne_zero fun zero => none (BitVec.eq_of_toNat_eq zero)
    rw [if_pos none, ← BitVec.toNat_inj, BitVec.toNat_udiv]
    constructor
    · intro quotient
      exact Or.inr (BitVec.lt_def.mpr
        (Nat.lt_of_div_eq_zero positive quotient))
    · rintro (zero | less)
      · exact absurd zero none
      · exact Nat.div_eq_of_lt (BitVec.lt_def.mp less)

/-- No credit is given that the total does not have, and no time of a
terminated task goes into the total. -/
def Balanced (sched : Sched Ext) : Action Ext → Sched Ext → Prop
  | .start _ _ _ _, _ => CreditFree sched
  | .mainLoop _ _ _, _ => CreditFree sched
  | .switch _ now _, _ =>
      sched.stateOf sched.currentTask = .terminated →
        now = (sched.tasks sched.currentTask).startedAt
  | _, _ => True

/-- The operations that move virtual time. -/
def Schedules : Action Ext → Prop
  | .start _ _ _ _ => True
  | .mainLoop _ _ _ => True
  | .switch _ _ _ => True
  | .terminate _ => True
  | _ => False

/-- `terminate_task` is called for a task that lives. -/
def TerminatesLive (sched : Sched Ext) (action : Action Ext)
    (_ : Sched Ext) : Prop :=
  ∀ task, action = .terminate task → sched.stateOf task ≠ .terminated

variable [Zero Ext]

/-- One step keeps the accounts exactly when it is balanced. -/
theorem Accounted.step_iff (accounted : Accounted sched)
    (wellFormed : WellFormed sched) (schedules : Schedules action)
    (live : TerminatesLive sched action sched')
    (step : Step sched action sched') :
    Accounted sched' ↔ Balanced sched action sched' := by
  cases step with
  | @start _ start context stack area _ canCall fits result =>
      obtain ⟨_, queue, pushed, started⟩ :=
        started_of_startTask wellFormed.allocated result
      have lives : (newTask sched start context stack area).state ≠
          .terminated := nofun
      have count : sched'.numTasks = liveSum (fun _ => 1) sched' := by
        rw [started.liveSum_eq lives, ← accounted.numTasks, started.result]
      have sum : liveSum Task.vtime sched' =
          sched.totalVtime + meanVtime sched := by
        rw [started.liveSum_eq lives, ← accounted.totalVtime]
        rfl
      have total : sched'.totalVtime = sched.totalVtime := by
        rw [started.result]
      constructor
      · intro accounted'
        have equal := accounted'.totalVtime
        rw [sum, total] at equal
        exact meanVtime_eq_zero.mp (left_eq_add.mp equal)
      · intro balanced
        refine ⟨count, ?_⟩
        rw [sum, total, meanVtime_eq_zero.mpr balanced, add_zero]
  | @mainLoop _ cpuid stack area booting fits result =>
      obtain ⟨queue, pushed, middle, started, rfl⟩ :=
        mainLoop_cases wellFormed.allocated result
      have lives : (newTask (withSaveMode sched cpuid) 0 0 stack area).state ≠
          .terminated := nofun
      -- the bootstrap task is started and terminated again
      have isTask : IsTask (withBootstrap middle (sched.started + 1))
          (sched.started + 1) := started.isTask.mpr (Or.inr rfl)
      have record : (withBootstrap middle (sched.started + 1)).tasks
            (sched.started + 1) =
          newTask (withSaveMode sched cpuid) 0 0 stack area :=
        started.tasks_new
      have sums : ∀ value, liveSum value (terminateTask
          (withBootstrap middle (sched.started + 1)) (sched.started + 1)) =
            liveSum value sched := by
        intro value
        have before : liveSum value
            (withBootstrap middle (sched.started + 1)) =
              liveSum value sched +
                value (newTask (withSaveMode sched cpuid) 0 0 stack area) :=
          started.liveSum_eq lives
        rw [liveSum_terminateTask isTask, before, share, Sched.stateOf, record,
          if_neg lives, add_sub_cancel_right]
      have count : (terminateTask (withBootstrap middle (sched.started + 1))
          (sched.started + 1)).numTasks = sched.numTasks := by
        have more : middle.numTasks = sched.numTasks + 1 := by
          rw [started.result]
          rfl
        change middle.numTasks - 1 = sched.numTasks
        rw [more, add_sub_cancel_right]
      have total : (terminateTask (withBootstrap middle (sched.started + 1))
          (sched.started + 1)).totalVtime =
            sched.totalVtime - meanVtime sched := by
        have same : middle.totalVtime = sched.totalVtime := by
          rw [started.result]
          rfl
        rw [totalVtime_terminateTask, record]
        exact congrArg (· - meanVtime sched) same
      constructor
      · intro accounted'
        have equal := accounted'.totalVtime
        rw [sums, total, ← accounted.totalVtime] at equal
        exact meanVtime_eq_zero.mp (sub_eq_self.mp equal)
      · intro balanced
        constructor
        · rw [sums, count]
          exact accounted.numTasks
        · rw [sums, total, meanVtime_eq_zero.mpr balanced, sub_zero]
          exact accounted.totalVtime
  | switch nonNull result =>
      obtain ⟨queue, pushed, dropped, next, rest, switched⟩ :=
        switched_of_taskSwitchIsr wellFormed.allocated result
      have sum := switched.liveSum_vtime wellFormed nonNull
      have total := switched.totalVtime.trans (preempt_totalVtime sched _ _)
      constructor
      · intro accounted' terminated
        have equal := accounted'.totalVtime
        rw [sum, total, if_pos terminated, add_zero,
          ← accounted.totalVtime] at equal
        exact sub_eq_zero.mp (add_eq_left.mp equal)
      · intro balanced
        constructor
        · rw [switched.numTasks, switched.liveSum_one]
          exact accounted.numTasks
        · rw [sum, total, accounted.totalVtime]
          congr 1
          split
          · next terminated => exact sub_eq_zero.mpr (balanced terminated)
          · rfl
  | lock _ _ => exact schedules.elim
  | unlock _ => exact schedules.elim
  | @terminate task _ _ isTask =>
      refine iff_of_true ?_ trivial
      have alive := live task rfl
      constructor
      · rw [liveSum_terminateTask isTask, share, if_neg alive,
          ← accounted.numTasks]
        rfl
      · rw [liveSum_terminateTask isTask, share, if_neg alive,
          ← accounted.totalVtime]
        exact totalVtime_terminateTask
  | use _ _ => exact schedules.elim

end Accounts

/-! ## The accounts as numbers -/

section Numbers

variable {Ext : Type} {sched sched' : Sched Ext}
  {action : Action Ext} {actions : List (Action Ext)} {registers : Ext}

/-- The tasks that live. -/
def liveTasks (sched : Sched Ext) : Finset TaskPtr :=
  (Finset.Ioc 0 sched.started).filter fun task =>
    sched.stateOf task ≠ .terminated

/-- The totals are the number and the time of the tasks that live. -/
structure Accounts (sched : Sched Ext) : Prop where
  numTasks : sched.numTasks.toNat = (liveTasks sched).card
  totalVtime :
    sched.totalVtime.toNat =
      ∑ task ∈ liveTasks sched, (sched.tasks task).vtime.toNat

/-- The times of all tasks add up to a `uint64_t`. -/
def SumsFit (sched : Sched Ext) : Prop :=
  ∑ task ∈ Finset.Ioc 0 sched.started, (sched.tasks task).vtime.toNat < 2 ^ 64

/-- A new task starts with the rounded down mean of the tasks that live. -/
def StartsAtMean (sched : Sched Ext) (action : Action Ext)
    (sched' : Sched Ext) : Prop :=
  ∀ start context stack area, action = .start start context stack area →
    (sched'.tasks sched'.started).vtime.toNat =
      (∑ task ∈ liveTasks sched, (sched.tasks task).vtime.toNat) /
        (liveTasks sched).card

/-- The total never wraps below zero. -/
def StaysAboveZero (sched : Sched Ext) (action : Action Ext)
    (_ : Sched Ext) : Prop :=
  ∀ task, action = .terminate task →
    (sched.tasks task).vtime.toNat ≤ sched.totalVtime.toNat

theorem toNat_sum (tasks : Finset TaskPtr) (value : TaskPtr → Word) :
    (∑ task ∈ tasks, value task).toNat =
      (∑ task ∈ tasks, (value task).toNat) % 2 ^ 64 := by
  induction tasks using Finset.induction_on with
  | empty => rfl
  | insert task tasks fresh inductionHypothesis =>
      rw [Finset.sum_insert fresh, Finset.sum_insert fresh, BitVec.toNat_add,
        inductionHypothesis, Nat.add_mod_mod]

/-- A live sum that fits is the sum over the tasks that live. -/
theorem toNat_liveSum (value : Task Ext → Word)
    (fits : ∑ task ∈ Finset.Ioc 0 sched.started,
      (value (sched.tasks task)).toNat < 2 ^ 64) :
    (liveSum value sched).toNat =
      ∑ task ∈ liveTasks sched, (value (sched.tasks task)).toNat := by
  have shares : ∀ task ∈ Finset.Ioc 0 sched.started,
      (share value sched task).toNat =
        if sched.stateOf task ≠ .terminated then
          (value (sched.tasks task)).toNat
        else 0 := by
    intro task _
    rw [share]
    by_cases terminated : sched.stateOf task = .terminated
    · rw [if_pos terminated, if_neg (not_not.mpr terminated)]
      rfl
    · rw [if_neg terminated, if_pos terminated]
  rw [liveSum, toNat_sum, Finset.sum_congr rfl shares, ← Finset.sum_filter]
  refine Nat.mod_eq_of_lt (Nat.lt_of_le_of_lt ?_ fits)
  exact Finset.sum_le_sum_of_subset (Finset.filter_subset _ _)

theorem toNat_liveSum_one (bound : sched.started < 2 ^ 64) :
    (liveSum (fun _ => 1) sched).toNat = (liveTasks sched).card := by
  rw [toNat_liveSum, Finset.card_eq_sum_ones]
  · rfl
  · refine Nat.lt_of_le_of_lt (Nat.le_of_eq ?_) bound
    exact (Finset.card_eq_sum_ones _).symm.trans (Nat.card_Ioc 0 _)

theorem accounts_iff (bound : sched.started < 2 ^ 64) (fits : SumsFit sched) :
    Accounts sched ↔ Accounted sched := by
  have count := toNat_liveSum_one bound
  have sum := toNat_liveSum Task.vtime fits
  constructor
  · intro accounts
    exact ⟨BitVec.eq_of_toNat_eq (accounts.numTasks.trans count.symm),
      BitVec.eq_of_toNat_eq (accounts.totalVtime.trans sum.symm)⟩
  · intro accounted
    exact ⟨(congrArg BitVec.toNat accounted.numTasks).trans count,
      (congrArg BitVec.toNat accounted.totalVtime).trans sum⟩

variable [Zero Ext]

theorem started_lt_of_run
    (run : Run Step (bootSched registers) actions sched) :
    sched.started < 2 ^ 64 := by
  induction run with
  | nil => exact Nat.two_pow_pos 64
  | @snoc actions action sched sched' run step inductionHypothesis =>
      have allocated := (wellFormed_of_run run).allocated
      cases step with
      | start _ fits result =>
          obtain ⟨_, queue, pushed, started⟩ :=
            started_of_startTask allocated result
          rw [started.result]
          exact fits
      | mainLoop _ fits result =>
          obtain ⟨queue, pushed, middle, started, rfl⟩ :=
            mainLoop_cases allocated result
          change middle.started < 2 ^ 64
          rw [started.result]
          exact fits
      | switch _ result =>
          obtain ⟨queue, pushed, dropped, next, rest, switched⟩ :=
            switched_of_taskSwitchIsr allocated result
          rw [switched.started]
          exact inductionHypothesis
      | lock _ _ =>
          rw [sameQueue_mutexLock.started]
          exact inductionHypothesis
      | unlock _ =>
          rw [sameQueue_mutexUnlock.started]
          exact inductionHypothesis
      | terminate _ _ _ => exact inductionHypothesis
      | use _ _ =>
          rw [(sameScheduling_use _).started]
          exact inductionHypothesis

/-- The credit of a new task is the mean, when the accounts are right. -/
theorem Accounts.startsAtMean {sched sched' : Sched Ext}
    {action : Action Ext} (accounts : Accounts sched)
    (wellFormed : WellFormed sched) (step : Step sched action sched') :
    StartsAtMean sched action sched' := by
  rintro start context stack area rfl
  cases step with
  | start _ _ result =>
      obtain ⟨_, queue, pushed, started⟩ :=
        started_of_startTask wellFormed.allocated result
      have startedEq : sched'.started = sched.started + 1 := by
        rw [started.result]
      rw [startedEq, started.tasks_new, ← accounts.totalVtime,
        ← accounts.numTasks]
      change (meanVtime sched).toNat = _
      rw [meanVtime]
      split
      · exact BitVec.toNat_udiv
      · next none =>
          rw [not_not.mp none]
          exact (Nat.div_zero _).symm

theorem Accounts.staysAboveZero {sched sched' : Sched Ext}
    {action : Action Ext} (accounts : Accounts sched)
    (live : TerminatesLive sched action sched')
    (step : Step sched action sched') :
    StaysAboveZero sched action sched' := by
  rintro task rfl
  cases step with
  | terminate _ _ isTask =>
      have member : task ∈ liveTasks sched :=
        Finset.mem_filter.mpr ⟨mem_tasks.mpr isTask, live task rfl⟩
      have times : ∀ other ∈ liveTasks sched,
          0 ≤ (sched.tasks other).vtime.toNat := fun _ _ => Nat.zero_le _
      rw [accounts.totalVtime]
      exact Finset.single_le_sum times member

/-- What the totals should be in a whole run. -/
structure AccountsKept (registers : Ext) (actions : List (Action Ext)) :
    Prop where
  accounts :
    Always Step (bootSched registers) actions fun _ sched => Accounts sched
  startsAtMean :
    AlwaysStep Step (bootSched registers) actions StartsAtMean
  staysAboveZero :
    AlwaysStep Step (bootSched registers) actions StaysAboveZero

/-- In a run of these operations, which terminates each task at most once and
whose times fit, the totals are right throughout exactly when every step is
balanced. -/
theorem accounts_kept_iff (registers : Ext) (actions : List (Action Ext))
    (schedules : ∀ action ∈ actions, Schedules action)
    (live : AlwaysStep Step (bootSched registers) actions TerminatesLive)
    (fits : Always Step (bootSched registers) actions
      fun _ sched => SumsFit sched) :
    AccountsKept registers actions ↔
      AlwaysStep Step (bootSched registers) actions Balanced := by
  have steps : Always Step (bootSched registers) actions
        (fun _ sched => Accounts sched) ↔
      AlwaysStep Step (bootSched registers) actions Balanced := by
    apply always_iff_alwaysStep
    · exact ⟨rfl, rfl⟩
    · intro before action after sched sched' split run accounts step
      have run' := run.snoc step
      have fits' : SumsFit sched' := by
        refine fits (before ++ [action]) after sched' ?_ run'
        rw [split, List.append_assoc, List.singleton_append]
      have accounted := (accounts_iff (started_lt_of_run run)
        (fits before _ sched split run)).mp accounts
      rw [accounts_iff (started_lt_of_run run') fits']
      refine accounted.step_iff (wellFormed_of_run run)
        (schedules action ?_)
        (live before action after sched sched' split run step) step
      rw [split]
      exact List.mem_append.mpr (Or.inr (List.mem_cons_self))
  constructor
  · intro kept
    exact steps.mp kept.accounts
  · intro balanced
    have accounts := steps.mpr balanced
    refine ⟨accounts, ?_, ?_⟩
    · intro before action after sched sched' split run step
      exact (accounts before _ sched split run).startsAtMean
        (wellFormed_of_run run) step
    · intro before action after sched sched' split run step
      exact (accounts before _ sched split run).staysAboveZero
        (live before action after sched sched' split run step) step

end Numbers

/-- A task is started and runs from the time 0 on. -/
def balancedActions : List (Action Nat) :=
  [.start 0 0 0 0, .mainLoop plainCpuid 0 0, .switch zeroFrame 0 0]

instance {Ext : Type} (sched : Sched Ext) : Decidable (SumsFit sched) :=
  inferInstanceAs (Decidable (_ < _))

theorem accounts_kept_iff_balancedActions :
    AccountsKept 0 balancedActions ↔
      AlwaysStep Step (bootSched 0) balancedActions Balanced := by
  refine accounts_kept_iff 0 balancedActions ?_ ?_ ?_
  · simp [balancedActions, Schedules]
  · intro before action after sched sched' split _ _ task equal
    have member : action ∈ balancedActions := by
      rw [split]
      exact List.mem_append.mpr (Or.inr List.mem_cons_self)
    rw [equal] at member
    simp [balancedActions] at member
  · exact always_of_inits (by decide)

/-- The first task runs for 10 units of time and then starts a second one. -/
def creditActions : List (Action Nat) :=
  [.start 0 0 0 0, .mainLoop plainCpuid 0 0, .switch zeroFrame 0 0,
    .switch zeroFrame 10 10, .start 0 0 0 0]

/-- The second task has the time 10 as well, but the total is still 10. -/
theorem creditActions_not_accounts :
    ∃ sched, Run Step (bootSched 0) creditActions sched ∧
      (∀ action ∈ creditActions, Schedules action) ∧ SumsFit sched ∧
        ¬ Accounts sched := by
  have credited : ((performAll (bootSched 0) creditActions).map fun sched =>
      (decide (SumsFit sched), sched.totalVtime.toNat,
        ∑ task ∈ liveTasks sched, (sched.tasks task).vtime.toNat)) =
      some (true, 10, 20) := by
    decide
  obtain ⟨sched, performed, facts⟩ := Option.map_eq_some_iff.mp credited
  simp only [Prod.mk.injEq, decide_eq_true_eq] at facts
  obtain ⟨fits, total, sum⟩ := facts
  refine ⟨sched, run_of_performAll Run.nil performed, ?_, fits, ?_⟩
  · simp [creditActions, Schedules]
  · intro accounts
    have equal := accounts.totalVtime
    rw [total, sum] at equal
    cases equal

end BeaverOS.Scheduler
