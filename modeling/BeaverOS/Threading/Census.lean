import Mathlib.Algebra.BigOperators.Ring.Finset
import Mathlib.Tactic.LinearCombination
import BeaverOS.Sched.Accounts
import BeaverOS.Threading.TaskQueue

/-!
# `num_tasks` while tasks are started and terminated

`num_tasks` is the number of the tasks that live, but for the tasks that
`start_task` and `terminate_task` are just about to count. A task that is
preempted while it terminates itself never gets to count itself out.
-/

namespace BeaverOS.Kernel

open BeaverOS.Heap
open BeaverOS.Isr
open BeaverOS.Scheduler
open BeaverOS.Threading
open BeaverOS.Transition

/-- `start_task` has allocated its task and not counted it. -/
def Position.uncounted : Position → Bool
  | .preparing _ .setVtime | .preparing _ .countTask => true
  | _ => false

/-- `terminate_task` has terminated its task and still counts it. -/
def Position.unsubtracted : Position → Bool
  | .ending _ .subtractVtime | .ending _ .subtractCount => true
  | _ => false

/-- The task that is terminated next. -/
def Position.terminates : Position → Option TaskPtr
  | .ending task .setTerminated => some task
  | _ => none

/-- The task that is woken next. -/
def woken : Place → Option TaskPtr
  | .inside _ (.wakeTask task) => some task
  | _ => none

/-! ## Sums over the callers -/

section Sums

variable {stage : Position → Bool} {bound : Nat}
  {positions : TaskPtr → Position} {self : TaskPtr}

/-- What one caller contributes. -/
def weight (stage : Position → Bool) (position : Position) : Word :=
  if stage position = true then 1 else 0

theorem weight_of_true {position : Position} (inside : stage position = true) :
    weight stage position = 1 := if_pos inside

theorem weight_of_false {position : Position}
    (outside : stage position = false) : weight stage position = 0 :=
  if_neg (Bool.not_eq_true _ ▸ outside)

/-- How many callers are at a stage, in the arithmetic of `num_tasks`. -/
def callerSum (stage : Position → Bool) (bound : Nat)
    (positions : TaskPtr → Position) : Word :=
  ∑ self ∈ Finset.range (bound + 1), weight stage (positions self)

/-- One caller goes on. -/
theorem callerSum_update (position : Position) (inside : self ≤ bound) :
    callerSum stage bound (Function.update positions self position) =
      callerSum stage bound positions - weight stage (positions self) +
        weight stage position := by
  have member : self ∈ Finset.range (bound + 1) :=
    Finset.mem_range.mpr (Nat.lt_succ_of_le inside)
  have rest : ∑ other ∈ (Finset.range (bound + 1)).erase self,
        weight stage (Function.update positions self position other) =
      ∑ other ∈ (Finset.range (bound + 1)).erase self,
        weight stage (positions other) := by
    refine Finset.sum_congr rfl fun other inside => ?_
    rw [Function.update_of_ne (Finset.mem_erase.mp inside).1]
  rw [callerSum, callerSum, ← Finset.add_sum_erase _ _ member,
    ← Finset.add_sum_erase _ (fun other => weight stage (positions other))
      member, rest, Function.update_self]
  ring

/-- A caller that is not there yet contributes nothing. -/
theorem callerSum_succ (outside : stage (positions (bound + 1)) = false) :
    callerSum stage (bound + 1) positions =
      callerSum stage bound positions := by
  rw [callerSum, Finset.sum_range_succ, callerSum, weight,
    if_neg (by rw [outside]; exact Bool.false_ne_true), add_zero]

end Sums

section Invariant

variable {Ext : Type} {system system' : System Ext} {sched sched' : Sched Ext}
  {position : Position} {task self : TaskPtr}

/-- The number of the callers at a stage. -/
def callers (system : System Ext) (stage : Position → Bool) :
    Finset TaskPtr :=
  (Finset.range (system.sched.started + 1)).filter fun self =>
    stage (system.position self) = true

theorem callerSum_eq (stage : Position → Bool) :
    callerSum stage system.sched.started system.position =
      ((callers system stage).card : Word) := by
  rw [callers, ← Finset.sum_boole]
  rfl

theorem liveSum_one_eq :
    liveSum (fun _ => 1) sched = ((liveTasks sched).card : Word) := by
  rw [liveTasks, ← Finset.sum_boole, liveSum]
  refine Finset.sum_congr rfl fun task _ => ?_
  rw [share, ite_not]

/-- The invariant of the count. -/
structure Census (system : System Ext) : Prop where
  counted :
    system.sched.numTasks +
        callerSum Position.uncounted system.sched.started system.position =
      liveSum (fun _ => 1) system.sched +
        callerSum Position.unsubtracted system.sched.started system.position
  alive :
    system.sched.currentTask ≠ 0 →
      system.sched.stateOf system.sched.currentTask = .terminated →
        system.sched.currentTask = system.sched.bootstrap ∨
          ∃ statement, system.here =
            .ending system.sched.currentTask statement
  ended :
    ∀ self task statement, system.position self = .ending task statement →
      IsTask system.sched task ∧
        (statement ≠ .setTerminated → system.sched.stateOf task = .terminated)

theorem census_boot [Zero Ext] (registers : Ext) :
    Census (bootSystem registers) where
  counted := by
    rw [callerSum_eq, callerSum_eq, liveSum_one_eq]
    rfl
  alive := fun nonNull => absurd rfl nonNull
  ended := fun _ _ _ stands => Position.noConfusion stands

/-- A task is terminated once, and not woken after that. -/
def EndsOnce (system : System Ext) (event : Event Ext) (_ : System Ext) :
    Prop :=
  match event with
  | .code .statement =>
      ∀ task ∈ system.here.terminates,
        system.sched.stateOf task ≠ .terminated
  | .code .mutexStatement =>
      ∀ task ∈ woken system.threads.here,
        system.sched.stateOf task ≠ .terminated
  | _ => True

instance (system : System Ext) (event : Event Ext) (system' : System Ext) :
    Decidable (EndsOnce system event system') :=
  match event with
  | .code .statement | .code .mutexStatement =>
      inferInstanceAs (Decidable (∀ task ∈ _, _))
  | .code (.start _ _ _ _ _) | .code (.terminate _) | .code (.lock _)
  | .code (.unlock _) | .code (.mainLoop _ _ _) | .code (.use _)
  | .maskedSection | .switch _ _ _ _ => inferInstanceAs (Decidable True)

theorem lives_of_endsOnce (once : EndsOnce system (.code .mutexStatement) system')
    (mutex : Nat) (task : TaskPtr)
    (stands : system.threads.here = .inside mutex (.wakeTask task)) :
    system.sched.stateOf task ≠ .terminated :=
  once task (stands ▸ rfl)

/-- Outside of the functions, the running task lives. -/
theorem Census.lives (census : Census system) (outside : system.here = .outside)
    (runs : system.threads.Runs) :
    system.sched.stateOf system.sched.currentTask ≠ .terminated := by
  intro terminated
  rcases census.alive runs.1 terminated with isBootstrap | ⟨statement, stands⟩
  · exact runs.2 isBootstrap
  · rw [outside] at stands
    cases stands

/-! ## Steps that change no state -/

theorem liveSum_one_congr (started : sched'.started = sched.started)
    (same : ∀ task, IsTask sched task →
      (sched'.stateOf task = .terminated ↔ sched.stateOf task = .terminated)) :
    liveSum (fun _ => 1) sched' = liveSum (fun _ => 1) sched := by
  refine liveSum_congr started fun task isTask => ?_
  simp only [share, same task isTask]

/-- The running task goes on. What it changes of the count is to be
balanced. -/
theorem Census.advance (census : Census system)
    (currentBound : system.sched.currentTask ≤ system.sched.started)
    (moves : system'.position =
      Function.update system.position system.sched.currentTask position)
    (started : system'.sched.started = system.sched.started)
    (current : system'.sched.currentTask = system.sched.currentTask)
    (bootstrap : system'.sched.bootstrap = system.sched.bootstrap)
    (balance : system'.sched.numTasks + weight Position.uncounted position +
        weight Position.unsubtracted system.here +
        liveSum (fun _ => 1) system.sched =
      system.sched.numTasks + weight Position.uncounted system.here +
        weight Position.unsubtracted position +
        liveSum (fun _ => 1) system'.sched)
    (kept : ∀ task, system.sched.stateOf task = .terminated →
      system'.sched.stateOf task = .terminated)
    (alive : system.sched.currentTask ≠ 0 →
      system'.sched.stateOf system.sched.currentTask = .terminated →
        system.sched.currentTask = system.sched.bootstrap ∨
          ∃ statement, position = .ending system.sched.currentTask statement)
    (ended : ∀ task statement, position = .ending task statement →
      IsTask system.sched task ∧ (statement ≠ .setTerminated →
        system'.sched.stateOf task = .terminated)) : Census system' := by
  have here : system'.position system.sched.currentTask = position := by
    rw [moves, Function.update_self]
  constructor
  case counted =>
    rw [moves, started, callerSum_update position currentBound,
      callerSum_update position currentBound]
    linear_combination census.counted + balance
  case alive =>
    intro nonNull terminated
    rw [current] at nonNull terminated
    rw [System.here, current, bootstrap, here]
    exact alive nonNull terminated
  case ended =>
    intro self task statement stands
    rw [IsTask, started]
    by_cases isCurrent : self = system.sched.currentTask
    · rw [isCurrent, here] at stands
      exact ended task statement stands
    · rw [moves, Function.update_of_ne isCurrent] at stands
      obtain ⟨isTask, terminated⟩ := census.ended self task statement stands
      exact ⟨isTask, fun later => kept task (terminated later)⟩

/-- A step that changes neither the position nor who lives. -/
theorem Census.stay (census : Census system)
    (currentBound : system.sched.currentTask ≤ system.sched.started)
    (position : system'.position = system.position)
    (same : SameQueue system.sched system'.sched)
    (numTasks : system'.sched.numTasks = system.sched.numTasks)
    (states : ∀ task, system'.sched.stateOf task = .terminated ↔
      system.sched.stateOf task = .terminated) : Census system' := by
  have moves : system'.position = Function.update system.position
      system.sched.currentTask system.here := by
    rw [position]
    exact (Function.update_eq_self _ _).symm
  refine census.advance currentBound moves same.started same.currentTask
    same.bootstrap ?_ (fun task => (states task).mpr) ?_ ?_
  · rw [numTasks, liveSum_one_congr same.started fun task _ => states task]
  · intro nonNull terminated
    exact census.alive nonNull ((states _).mp terminated)
  · intro task statement stands
    obtain ⟨isTask, terminated⟩ := census.ended _ task statement stands
    exact ⟨isTask, fun later => (states task).mpr (terminated later)⟩

/-! ## Statements -/

/-- A statement of `start_task` leaves the tasks alive, and counts the new task
when it is no longer uncounted. -/
structure Prepares (sched sched' : Sched Ext) (position position' : Position) :
    Prop where
  started : sched'.started = sched.started
  currentTask : sched'.currentTask = sched.currentTask
  bootstrap : sched'.bootstrap = sched.bootstrap
  states : ∀ task, sched'.stateOf task = sched.stateOf task
  counts :
    sched'.numTasks + weight Position.uncounted position' =
      sched.numTasks + weight Position.uncounted position
  preparing :
    ∀ task statement, position ≠ .ending task statement ∧
      position' ≠ .ending task statement

theorem prepares (sched : Sched Ext) (task : TaskPtr) (statement : Preparing) :
    Prepares sched (prepare sched task statement).1 (.preparing task statement)
      (prepare sched task statement).2 := by
  cases statement with
  | setVtime =>
      refine ⟨rfl, rfl, rfl, ?_, rfl, fun _ _ =>
        ⟨Position.noConfusion, Position.noConfusion⟩⟩
      intro other
      simp only [prepare, Sched.stateOf, Sched.modify]
      by_cases same : other = task
      · rw [same, Function.update_self]
      · rw [Function.update_of_ne same]
  | countTask =>
      refine ⟨rfl, rfl, rfl, fun _ => rfl, ?_, fun _ _ =>
        ⟨Position.noConfusion, Position.noConfusion⟩⟩
      exact add_zero _
  | testQueue =>
      have next : (prepare sched task .testQueue).2 =
            .preparing task .makeQueue ∨
          (prepare sched task .testQueue).2 = .queueing task := by
        rw [prepare]
        simp only
        split
        · exact Or.inl rfl
        · exact Or.inr rfl
      rcases next with makes | queues
      · rw [makes]
        exact ⟨rfl, rfl, rfl, fun _ => rfl, rfl, fun _ _ =>
          ⟨Position.noConfusion, Position.noConfusion⟩⟩
      · rw [queues]
        exact ⟨rfl, rfl, rfl, fun _ => rfl, rfl, fun _ _ =>
          ⟨Position.noConfusion, Position.noConfusion⟩⟩
  | makeQueue =>
      exact ⟨rfl, rfl, rfl, fun _ => rfl, rfl, fun _ _ =>
        ⟨Position.noConfusion, Position.noConfusion⟩⟩

theorem weight_unsubtracted
    (notEnding : ∀ task statement, position ≠ .ending task statement) :
    weight Position.unsubtracted position = 0 := by
  cases position with
  | ending task statement => exact absurd rfl (notEnding task statement)
  | outside | preparing task statement | queueing task => rfl

theorem Census.prepare {statement : Preparing} (census : Census system)
    (currentBound : system.sched.currentTask ≤ system.sched.started)
    (stands : system.here = .preparing task statement) :
    Census (system.proceed (prepare system.sched task statement).1
      (prepare system.sched task statement).2) := by
  have spec := prepares system.sched task statement
  refine census.advance currentBound rfl spec.started spec.currentTask
    spec.bootstrap ?_ (fun other => (spec.states other).trans) ?_ ?_
  · have lives := liveSum_one_congr spec.started fun other _ => by
      rw [spec.states other]
    rw [stands, weight_unsubtracted fun task statement =>
      (spec.preparing task statement).1, weight_unsubtracted
        fun task statement => (spec.preparing task statement).2]
    change _ + _ + 0 + _ = _ + _ + 0 + liveSum _ (Kernel.prepare _ _ _).1
    rw [lives, proceed_sched, spec.counts]
  · intro nonNull terminated
    rcases census.alive nonNull ((spec.states _).symm.trans terminated) with
      isBootstrap | ⟨statement', other⟩
    · exact Or.inl isBootstrap
    · rw [stands] at other
      cases other
  · intro other statement' next
    exact absurd next (spec.preparing other statement').2

theorem weight_uncounted_ending (statement : Ending) :
    weight Position.uncounted (.ending task statement) = 0 :=
  weight_of_false rfl

/-- The task that `terminate_task` ends is the only one that may run and be
terminated, but for the end of `main_loop`. -/
theorem Census.running {statement : Ending} (census : Census system)
    (stands : system.here = .ending task statement)
    (nonNull : system.sched.currentTask ≠ 0)
    (gone : system.sched.stateOf system.sched.currentTask = .terminated) :
    system.sched.currentTask = system.sched.bootstrap ∨
      task = system.sched.currentTask := by
  rcases census.alive nonNull gone with isBootstrap | ⟨_, other⟩
  · exact Or.inl isBootstrap
  · rw [stands] at other
    cases other
    exact Or.inr rfl

theorem liveSum_one_setTerminated (isTask : IsTask sched task)
    (lives : sched.stateOf task ≠ .terminated) :
    liveSum (fun _ => 1) (sched.setState task .terminated) =
      liveSum (fun _ => 1) sched - 1 := by
  have states : ∀ other, (sched.setState task .terminated).stateOf other =
      if other = task then .terminated else sched.stateOf other :=
    fun other => stateOf_setState
  have others : ∀ other, other ≠ task →
      share (fun _ => 1) (sched.setState task .terminated) other =
        share (fun _ => 1) sched other := by
    intro other different
    simp only [share, states, if_neg different]
  have gone : share (fun _ => 1) (sched.setState task .terminated) task = 0 := by
    simp only [share, states, if_pos]
  have lived : share (fun _ => 1) sched task = 1 := if_neg lives
  have changed := @liveSum_change Ext sched (sched.setState task .terminated)
    task (fun _ => 1) rfl isTask others
  rw [changed, gone, lived, add_zero]

/-- `task->state = TASK_STATE_TERMINATED`. -/
theorem Census.setTerminated (census : Census system)
    (currentBound : system.sched.currentTask ≤ system.sched.started)
    (stands : system.here = .ending task .setTerminated)
    (lives : system.sched.stateOf task ≠ .terminated) :
    Census (system.proceed (system.sched.setState task .terminated)
      (.ending task .subtractVtime)) := by
  obtain ⟨isTask, -⟩ := census.ended _ task _ stands
  have states : ∀ other,
      (system.sched.setState task .terminated).stateOf other =
        if other = task then .terminated else system.sched.stateOf other :=
    fun other => stateOf_setState
  refine census.advance currentBound rfl rfl rfl rfl ?_ ?_ ?_ ?_
  · have counts : weight Position.unsubtracted (.ending task .subtractVtime) =
        1 := weight_of_true rfl
    have before : weight Position.unsubtracted (.ending task .setTerminated) =
        0 := weight_of_false rfl
    have same : (system.sched.setState task .terminated).numTasks =
        system.sched.numTasks := rfl
    rw [stands, proceed_sched, liveSum_one_setTerminated isTask lives, counts,
      before, same, weight_uncounted_ending, weight_uncounted_ending]
    ring
  · intro other gone
    rw [proceed_sched, states]
    split
    · rfl
    · exact gone
  · intro nonNull gone
    by_cases isCurrent : task = system.sched.currentTask
    · exact Or.inr ⟨_, congrArg (Position.ending · _) isCurrent⟩
    · rw [proceed_sched, states, if_neg (Ne.symm isCurrent)] at gone
      exact (census.running stands nonNull gone).imp_right fun same =>
        absurd same isCurrent
  · intro other statement next
    cases next
    exact ⟨isTask, fun _ => (states task).trans (if_pos rfl)⟩

/-- The later statements of `terminate_task` count the task out, or change
nothing of that. -/
theorem Census.countOut {statement : Ending} (census : Census system)
    (currentBound : system.sched.currentTask ≤ system.sched.started)
    (stands : system.here = .ending task statement)
    (later : statement ≠ .setTerminated)
    (same : SameQueue system.sched sched')
    (tasks : sched'.tasks = system.sched.tasks)
    (next : (∃ statement', position = .ending task statement' ∧
        statement' ≠ .setTerminated) ∨
      position = .outside ∧ task ≠ system.sched.currentTask)
    (counts : sched'.numTasks +
        weight Position.unsubtracted (.ending task statement) =
      system.sched.numTasks + weight Position.unsubtracted position) :
    Census (system.proceed sched' position) := by
  obtain ⟨isTask, terminated⟩ := census.ended _ task _ stands
  have states : ∀ other, sched'.stateOf other = system.sched.stateOf other := by
    intro other
    rw [Sched.stateOf, Sched.stateOf, tasks]
  have lives : liveSum (fun _ => 1) sched' =
      liveSum (fun _ => 1) system.sched :=
    liveSum_one_congr same.started fun other _ => by rw [states]
  have uncounted : weight Position.uncounted position = 0 := by
    rcases next with ⟨statement', rfl, _⟩ | ⟨rfl, _⟩
    · exact weight_uncounted_ending _
    · exact weight_of_false rfl
  refine census.advance currentBound rfl same.started same.currentTask
    same.bootstrap ?_ (fun other => (states other).trans) ?_ ?_
  · rw [stands, proceed_sched, lives, uncounted, weight_uncounted_ending]
    linear_combination counts
  · intro nonNull gone
    rw [proceed_sched, states] at gone
    refine (census.running stands nonNull gone).imp_right fun isCurrent => ?_
    rcases next with ⟨statement', moved, _⟩ | ⟨_, different⟩
    · exact ⟨statement', isCurrent ▸ moved⟩
    · exact absurd isCurrent different
  · intro other statement' moved
    rcases next with ⟨statement', rfl, _⟩ | ⟨rfl, _⟩
    · cases moved
      exact ⟨isTask, fun _ => (states task).trans (terminated later)⟩
    · cases moved

/-- A statement of `terminate_task`. -/
theorem Census.finish {statement : Ending} (census : Census system)
    (currentBound : system.sched.currentTask ≤ system.sched.started)
    (stands : system.here = .ending task statement)
    (once : statement = .setTerminated →
      system.sched.stateOf task ≠ .terminated) :
    Census (system.proceed (finish system.sched task statement).1
      (finish system.sched task statement).2) := by
  cases statement with
  | setTerminated => exact census.setTerminated currentBound stands (once rfl)
  | subtractVtime =>
      exact census.countOut currentBound stands (by decide)
        ⟨rfl, rfl, rfl, rfl⟩ rfl (Or.inl ⟨_, rfl, by decide⟩) rfl
  | subtractCount =>
      refine census.countOut currentBound stands (by decide)
        ⟨rfl, rfl, rfl, rfl⟩ rfl (Or.inl ⟨_, rfl, by decide⟩) ?_
      have before : weight Position.unsubtracted (.ending task .subtractCount) =
          1 := weight_of_true rfl
      have after : weight Position.unsubtracted (.ending task .testCurrent) =
          0 := weight_of_false rfl
      simp only [Kernel.finish, before, after, sub_add_cancel, add_zero]
  | testCurrent =>
      have next : (Kernel.finish system.sched task .testCurrent).2 =
          if task = system.sched.currentTask then .ending task .yieldSelf
          else .outside := rfl
      rw [next]
      refine census.countOut currentBound stands (by decide)
        ⟨rfl, rfl, rfl, rfl⟩ rfl ?_ ?_
      · split
        · exact Or.inl ⟨_, rfl, by decide⟩
        · next different => exact Or.inr ⟨rfl, different⟩
      · split <;> rfl
  | yieldSelf | unreachable =>
      exact census.countOut currentBound stands (by decide)
        ⟨rfl, rfl, rfl, rfl⟩ rfl (Or.inl ⟨_, rfl, by decide⟩) rfl

/-! ## New tasks -/

section Start

variable [Zero Ext] {start context stack : Word} {area : Ext}

theorem stateOf_allocateTask (isOld : task ≤ sched.started) :
    (allocateTask sched start context stack area).stateOf task =
      sched.stateOf task := by
  simp only [allocateTask, Sched.stateOf,
    Function.update_of_ne (Nat.ne_of_lt (Nat.lt_succ_of_le isOld))]

theorem liveSum_one_allocateTask :
    liveSum (fun _ => 1) (allocateTask sched start context stack area) =
      liveSum (fun _ => 1) sched + 1 := by
  have startedEq : (allocateTask sched start context stack area).started =
      sched.started + 1 := rfl
  rw [liveSum, startedEq, Finset.sum_Ioc_succ_top (Nat.zero_le _), liveSum]
  congr 1
  · refine Finset.sum_congr rfl fun task member => ?_
    rw [share, share, stateOf_allocateTask (mem_tasks.mp member).2]
  · have lives : (allocateTask sched start context stack area).stateOf
        (sched.started + 1) ≠ .terminated := by
      simp only [allocateTask, Sched.stateOf, Function.update_self]
      exact fun equal => TaskState.noConfusion equal
    rw [share, if_neg lives]

/-- The new task lives, and its caller has not counted it. -/
theorem Census.allocate (census : Census system) (queued : Queued system)
    (outside : system.here = .outside) :
    Census (system.proceed
      (allocateTask system.sched start context stack area)
      (.preparing (system.sched.started + 1) .setVtime)) := by
  have unborn := queued.unborn (system.sched.started + 1) (Nat.lt_succ_self _)
  have notCurrent : system.sched.started + 1 ≠ system.sched.currentTask :=
    Nat.ne_of_gt (Nat.lt_succ_of_le queued.currentBound)
  have sums : ∀ stage : Position → Bool, stage .outside = false →
      callerSum stage (system.sched.started + 1)
          (Function.update system.position system.sched.currentTask
            (.preparing (system.sched.started + 1) .setVtime)) =
        callerSum stage system.sched.started system.position +
          weight stage (.preparing (system.sched.started + 1) .setVtime) := by
    intro stage none
    rw [callerSum_succ, callerSum_update _ queued.currentBound,
      show system.position _ = _ from outside, weight_of_false none, sub_zero]
    rw [Function.update_of_ne notCurrent, unborn]
    exact none
  constructor
  case counted =>
    change system.sched.numTasks + callerSum _ (system.sched.started + 1)
        (system.proceed _ _).position =
      liveSum _ (allocateTask _ _ _ _ _) +
        callerSum _ (system.sched.started + 1) (system.proceed _ _).position
    have uncounted : weight Position.uncounted
        (.preparing (system.sched.started + 1) .setVtime) = 1 :=
      weight_of_true rfl
    have unsubtracted : weight Position.unsubtracted
        (.preparing (system.sched.started + 1) .setVtime) = 0 :=
      weight_of_false rfl
    rw [proceed_position, sums Position.uncounted rfl,
      sums Position.unsubtracted rfl, liveSum_one_allocateTask, uncounted,
      unsubtracted]
    linear_combination census.counted
  case alive =>
    intro nonNull gone
    rw [proceed_sched] at gone
    rw [show (allocateTask _ _ _ _ _).currentTask = system.sched.currentTask
      from rfl, stateOf_allocateTask queued.currentBound] at gone
    rcases census.alive nonNull gone with isBootstrap | ⟨_, stands⟩
    · exact Or.inl isBootstrap
    · rw [outside] at stands
      cases stands
  case ended =>
    intro self task statement stands
    have moved : self ≠ system.sched.currentTask := by
      rintro rfl
      rw [proceed_position, Function.update_self] at stands
      cases stands
    rw [proceed_position, Function.update_of_ne moved] at stands
    obtain ⟨isTask, terminated⟩ := census.ended self task statement stands
    refine ⟨⟨isTask.1, Nat.le_succ_of_le isTask.2⟩, fun later => ?_⟩
    rw [proceed_sched, stateOf_allocateTask isTask.2]
    exact terminated later

end Start

/-! ## The other steps -/

/-- A call of `terminate_task` counts nothing yet. -/
theorem Census.terminate (census : Census system)
    (currentBound : system.sched.currentTask ≤ system.sched.started)
    (outside : system.here = .outside) (isTask : IsTask system.sched task) :
    Census (system.proceed system.sched (.ending task .setTerminated)) := by
  refine census.advance currentBound rfl rfl rfl rfl ?_ (fun _ => id) ?_ ?_
  · rw [outside, proceed_sched]
    rfl
  · intro nonNull gone
    rcases census.alive nonNull gone with isBootstrap | ⟨_, stands⟩
    · exact Or.inl isBootstrap
    · rw [outside] at stands
      cases stands
  · intro other statement moved
    cases moved
    exact ⟨isTask, fun later => absurd rfl later⟩

/-- The section queues its task. -/
theorem Census.section {queue : MinHeap TaskPtr} (census : Census system)
    (currentBound : system.sched.currentTask ≤ system.sched.started)
    (stands : system.here = .queueing task) :
    Census (system.proceed { system.sched with taskQueue := some queue }
      .outside) := by
  refine census.advance currentBound rfl rfl rfl rfl ?_ (fun _ => id) ?_ ?_
  · rw [stands]
    rfl
  · intro nonNull gone
    rcases census.alive nonNull gone with isBootstrap | ⟨_, other⟩
    · exact Or.inl isBootstrap
    · rw [stands] at other
      cases other
  · intro other statement moved
    cases moved

/-- A statement of `mutex.c` does not change `num_tasks`. -/
theorem numTasks_execute {threads : Threads Ext} :
    (execute threads self).sched.numTasks = threads.sched.numTasks := by
  cases stands : threads.place self with
  | outside => rw [execute, stands]
  | inside mutex statement =>
      rw [execute, stands]
      cases statement with
      | lockSpin | unlockSpin =>
          simp only [spinlockLock]
          split <;> rfl
      | dequeueTask =>
          cases queue : (threads.sched.mutexes mutex).waitingTasks <;>
            simp only [queue] <;> rfl
      | _ => rfl

/-- It revives no task that it does not wake, and terminates none. -/
theorem terminated_execute {threads : Threads Ext}
    (lives : threads.sched.stateOf self ≠ .terminated)
    (wakes : ∀ mutex task, threads.place self = .inside mutex (.wakeTask task) →
      threads.sched.stateOf task ≠ .terminated) (task : TaskPtr) :
    (execute threads self).sched.stateOf task = .terminated ↔
      threads.sched.stateOf task = .terminated := by
  have other : ∀ {changed state}, threads.sched.stateOf changed ≠ .terminated →
      state ≠ TaskState.terminated →
        ((threads.sched.setState changed state).stateOf task = .terminated ↔
          threads.sched.stateOf task = .terminated) := by
    intro changed state lived living
    rw [stateOf_setState]
    by_cases same : task = changed
    · rw [if_pos same, same]
      exact iff_of_false living lived
    · rw [if_neg same]
  cases stands : threads.place self with
  | outside => rw [execute, stands]
  | inside mutex statement =>
      rw [execute, stands]
      cases statement with
      | lockSpin | unlockSpin =>
          simp only [spinlockLock]
          split <;> exact Iff.rfl
      | dequeueTask =>
          cases queue : (threads.sched.mutexes mutex).waitingTasks <;>
            simp only [queue] <;> exact Iff.rfl
      | freezeSelf => exact other lives (by decide)
      | wakeTask woken => exact other (wakes mutex woken stands) (by decide)
      | _ => exact Iff.rfl

/-- A statement of `mutex.c` of a running task. -/
theorem Census.mutexStatement (census : Census system) (queued : Queued system)
    (outside : system.here = .outside) (runs : system.threads.Runs)
    (wakes : ∀ mutex task, system.threads.here = .inside mutex (.wakeTask task) →
      system.sched.stateOf task ≠ .terminated) :
    Census { system with
      threads := execute system.threads system.sched.currentTask } :=
  census.stay queued.currentBound rfl sameQueue_execute numTasks_execute
    (terminated_execute (census.lives outside runs) wakes)

/-- `main_loop` starts the bootstrap task and terminates it. -/
structure Bootstraps (sched sched' : Sched Ext) : Prop where
  started : sched'.started = sched.started + 1
  currentTask : sched'.currentTask = sched.started + 1
  bootstrap : sched'.bootstrap = sched.started + 1
  numTasks : sched'.numTasks = sched.numTasks
  lives : liveSum (fun _ => 1) sched' = liveSum (fun _ => 1) sched
  states :
    ∀ task, task ≤ sched.started → sched'.stateOf task = sched.stateOf task

theorem bootstraps_of_mainLoop [Zero Ext] {cpuid : Cpuid} {stack : Word}
    {area : Ext} (allocated : QueueAllocated sched)
    (result : mainLoop sched cpuid stack area = .ok sched') :
    Bootstraps sched sched' := by
  obtain ⟨queue, pushed, middle, started, rfl⟩ :=
    mainLoop_cases allocated result
  have isTask : IsTask (withBootstrap middle (sched.started + 1))
      (sched.started + 1) := started.isTask.mpr (Or.inr rfl)
  have lived : (newTask (withSaveMode sched cpuid) 0 0 stack area).state ≠
      .terminated := fun equal => TaskState.noConfusion equal
  constructor
  case started =>
    change middle.started = _
    rw [started.result]
    rfl
  case currentTask => rfl
  case bootstrap => rfl
  case numTasks =>
    have more : middle.numTasks = sched.numTasks + 1 := by
      rw [started.result]
      rfl
    change middle.numTasks - 1 = _
    rw [more, add_sub_cancel_right]
  case lives =>
    have more : liveSum (fun _ => 1) middle =
        liveSum (fun _ => 1) (withSaveMode sched cpuid) + 1 :=
      @Started.liveSum_eq Ext _ _ (fun _ => 1) _ _ _ started lived
    have before : liveSum (fun _ => 1)
        (withBootstrap middle (sched.started + 1)) =
          liveSum (fun _ => 1) sched + 1 := more
    have record : (withBootstrap middle (sched.started + 1)).stateOf
        (sched.started + 1) ≠ .terminated := by
      change (middle.tasks (sched.started + 1)).state ≠ _
      rw [show middle.tasks (sched.started + 1) = _ from started.tasks_new]
      exact lived
    rw [liveSum_terminateTask isTask, before, share, if_neg record,
      add_sub_cancel_right]
  case states =>
    intro task isOld
    rw [stateOf_terminateTask, if_neg (Nat.ne_of_lt (Nat.lt_succ_of_le isOld))]
    change (middle.tasks task).state = _
    rw [started.tasks_old isOld]
    rfl

theorem Census.mainLoop (census : Census system) (queued : Queued system)
    (spec : Bootstraps system.sched sched) :
    Census (system.setSched sched) := by
  have unborn := queued.unborn (system.sched.started + 1) (Nat.lt_succ_self _)
  have sums : ∀ stage : Position → Bool, stage .outside = false →
      callerSum stage sched.started system.position =
        callerSum stage system.sched.started system.position := by
    intro stage none
    rw [spec.started]
    exact callerSum_succ (unborn ▸ none)
  constructor
  case counted =>
    change sched.numTasks + callerSum _ sched.started system.position =
      liveSum _ sched + callerSum _ sched.started system.position
    rw [spec.numTasks, spec.lives, sums _ rfl, sums _ rfl]
    exact census.counted
  case alive => exact fun _ _ => Or.inl (spec.currentTask.trans spec.bootstrap.symm)
  case ended =>
    intro self task statement stands
    obtain ⟨isTask, terminated⟩ := census.ended self task statement stands
    change (task ≠ 0 ∧ task ≤ sched.started) ∧
      (statement ≠ .setTerminated → sched.stateOf task = .terminated)
    rw [spec.started, spec.states task isTask.2]
    exact ⟨⟨isTask.1, Nat.le_succ_of_le isTask.2⟩, terminated⟩

/-- A switch counts no task, and resumes one that lives. -/
theorem Census.switch {i i' : InterruptFrame} {now later : Word}
    {queue pushed rest : MinHeap TaskPtr} {dropped : Multiset TaskPtr}
    {next : TaskPtr} (census : Census system)
    (switched : Switched system.sched i now later queue pushed dropped next rest
      i' sched) : Census (system.setSched sched) := by
  constructor
  case counted =>
    change sched.numTasks + callerSum _ sched.started system.position =
      liveSum _ sched + callerSum _ sched.started system.position
    rw [switched.numTasks, switched.liveSum_one, switched.started]
    exact census.counted
  case alive =>
    intro _ (gone : sched.stateOf sched.currentTask = .terminated)
    rw [switched.terminated_iff, switched.currentTask] at gone
    exact absurd rfl (switched.next_ne (Or.inr gone))
  case ended =>
    intro self task statement stands
    obtain ⟨isTask, terminated⟩ := census.ended self task statement stands
    change IsTask sched task ∧
      (statement ≠ .setTerminated → sched.stateOf task = .terminated)
    rw [IsTask, switched.started, switched.terminated_iff]
    exact ⟨isTask, terminated⟩

/-- What comes before a switch does not count either. -/
theorem Census.leave (census : Census system)
    (currentBound : system.sched.currentTask ≤ system.sched.started)
    (interrupt : Interrupt) : Census (system.leave interrupt) := by
  rcases leave_cases system interrupt with
    unmoved | ⟨task, stands, moved⟩ | ⟨mutex, stands, moved⟩
  · rw [unmoved]
    exact census
  · rw [moved]
    exact census.countOut currentBound stands (by decide)
      ⟨rfl, rfl, rfl, rfl⟩ rfl (Or.inl ⟨_, rfl, by decide⟩) rfl
  · have unchanged := leave_sched system interrupt
    rw [moved] at unchanged ⊢
    refine census.stay currentBound rfl ?_ ?_ fun task => ?_
    · rw [unchanged]
      exact ⟨rfl, rfl, rfl, rfl⟩
    · rw [unchanged]
    · rw [unchanged]

/-! ## Tasks that are gone -/

/-- A terminated task that does not run, and where it stands. -/
structure Gone (system : System Ext) (task : TaskPtr) (position : Position) :
    Prop where
  isTask : IsTask system.sched task
  notCurrent : task ≠ system.sched.currentTask
  terminated : system.sched.stateOf task = .terminated
  stands : system.position task = position

/-- The running task goes on, and the others stay where they are. -/
theorem Gone.proceed {next : Position}
    (gone : Gone system self position)
    (started : system.sched.started ≤ sched.started)
    (currentTask : sched.currentTask = system.sched.currentTask)
    (kept : sched.stateOf self = .terminated) :
    Gone (system.proceed sched next) self position where
  isTask := ⟨gone.isTask.1, gone.isTask.2.trans started⟩
  notCurrent := currentTask.symm ▸ gone.notCurrent
  terminated := kept
  stands := by
    rw [proceed_position, Function.update_of_ne gone.notCurrent]
    exact gone.stands

theorem Gone.finish {statement : Ending}
    (gone : Gone system self position) :
    Gone (system.proceed (finish system.sched task statement).1
      (finish system.sched task statement).2) self position := by
  cases statement with
  | setTerminated =>
      refine gone.proceed (Nat.le_refl _) rfl ?_
      have states : (system.sched.setState task .terminated).stateOf self =
          if self = task then .terminated else system.sched.stateOf self :=
        stateOf_setState
      rw [Kernel.finish, states]
      split
      · rfl
      · exact gone.terminated
  | subtractVtime | subtractCount | testCurrent | yieldSelf | unreachable =>
      exact gone.proceed (Nat.le_refl _) rfl gone.terminated

end Invariant

/-! ## Runs -/

section Runs

variable {Ext : Type} [Zero Ext] {system system' : System Ext}
  {event : Event Ext} {events : List (Event Ext)} {registers : Ext}
  {self : TaskPtr}

theorem Census.step (census : Census system) (queued : Queued system)
    (once : EndsOnce system event system')
    (step : Step system event system') : Census system' := by
  have currentBound := queued.currentBound
  cases advanced_of_step step with
  | start free fits => exact census.allocate queued free.1
  | terminate free runs isTask =>
      exact census.terminate currentBound free.1 isTask
  | prepare stands => exact census.prepare currentBound stands
  | @finish task statement stands notYield notUnreachable =>
      refine census.finish currentBound stands ?_
      rintro rfl
      exact once task (stands ▸ rfl)
  | call free runs calls =>
      exact census.stay currentBound rfl ⟨rfl, rfl, rfl, rfl⟩ rfl
        fun _ => Iff.rfl
  | mutexStatement stands notYield runs outside =>
      exact census.mutexStatement queued outside runs (lives_of_endsOnce once)
  | mainLoop free booting fits result =>
      exact census.mainLoop queued
        (bootstraps_of_mainLoop queued.allocated result)
  | @use registers runs =>
      have same := @sameScheduling_use _ system.sched registers
      refine census.stay currentBound rfl same.sameQueue same.numTasks
        fun task => ?_
      change (useExtended system.sched registers).stateOf task = _ ↔ _
      rw [same.stateOf]
  | maskedSection stands found push => exact census.section currentBound stands
  | @switch interrupt i i' now later sched nonNull canLeave result =>
      rw [leave_sched] at result
      obtain ⟨queue, pushed, dropped, next, rest, switched⟩ :=
        switched_of_taskSwitchIsr queued.allocated result
      rw [← leave_sched system interrupt] at switched
      exact (census.leave currentBound interrupt).switch switched

/-- It never runs again. -/
theorem Gone.step {position : Position} (gone : Gone system self position)
    (census : Census system) (queued : Queued system)
    (once : EndsOnce system event system')
    (step : Step system event system') : Gone system' self position := by
  cases advanced_of_step step with
  | start free fits =>
      refine gone.proceed (Nat.le_succ _) rfl ?_
      rw [stateOf_allocateTask gone.isTask.2]
      exact gone.terminated
  | terminate free runs isTask =>
      exact gone.proceed (Nat.le_refl _) rfl gone.terminated
  | @prepare task statement stands =>
      have spec := prepares system.sched task statement
      exact gone.proceed spec.started.ge spec.currentTask
        ((spec.states self).trans gone.terminated)
  | finish stands notYield notUnreachable => exact gone.finish
  | call free runs calls =>
      exact ⟨gone.isTask, gone.notCurrent, gone.terminated, gone.stands⟩
  | mutexStatement stands notYield runs outside =>
      have same := @sameQueue_execute _ system.threads system.sched.currentTask
      refine ⟨same.isTask.mpr gone.isTask, ?_, ?_, gone.stands⟩
      · rw [System.sched, same.currentTask]
        exact gone.notCurrent
      · exact (terminated_execute (census.lives outside runs)
          (lives_of_endsOnce once) self).mpr gone.terminated
  | @mainLoop _ _ _ sched free booting fits result =>
      have spec := bootstraps_of_mainLoop queued.allocated result
      refine ⟨⟨gone.isTask.1, ?_⟩, ?_, ?_, gone.stands⟩
      · change self ≤ sched.started
        rw [spec.started]
        exact Nat.le_succ_of_le gone.isTask.2
      · change self ≠ sched.currentTask
        rw [spec.currentTask]
        exact Nat.ne_of_lt (Nat.lt_succ_of_le gone.isTask.2)
      · exact (spec.states self gone.isTask.2).trans gone.terminated
  | @use registers runs =>
      have same := @sameScheduling_use _ system.sched registers
      refine ⟨same.sameQueue.isTask.mpr gone.isTask, ?_, ?_, gone.stands⟩
      · change self ≠ (useExtended system.sched registers).currentTask
        rw [same.currentTask]
        exact gone.notCurrent
      · exact (same.stateOf self).trans gone.terminated
  | maskedSection stands found push =>
      exact gone.proceed (Nat.le_refl _) rfl gone.terminated
  | @switch interrupt i i' now later sched nonNull canLeave result =>
      rw [leave_sched] at result
      obtain ⟨queue, pushed, dropped, next, rest, switched⟩ :=
        switched_of_taskSwitchIsr queued.allocated result
      have terminated : sched.stateOf self = .terminated :=
        (switched.terminated_iff self).mpr gone.terminated
      refine ⟨?_, ?_, terminated, ?_⟩
      · change self ≠ 0 ∧ self ≤ sched.started
        rw [switched.started]
        exact gone.isTask
      · change self ≠ sched.currentTask
        rw [switched.currentTask]
        exact switched.next_ne (Or.inr gone.terminated)
      · change (system.leave interrupt).position self = position
        rcases leave_cases system interrupt with
          unmoved | ⟨task, _, moved⟩ | ⟨mutex, _, moved⟩
        · rw [unmoved]
          exact gone.stands
        · rw [moved, proceed_position, Function.update_of_ne gone.notCurrent]
          exact gone.stands
        · rw [moved]
          exact gone.stands

/-- A task that has lost the processor while it terminated itself, and has not
counted itself out. -/
def Stranded (system : System Ext) (self : TaskPtr) : Prop :=
  self ≠ system.sched.currentTask ∧
    ∃ statement, system.position self = .ending self statement ∧
      (Position.ending self statement).unsubtracted = true

theorem census_of_run
    (once : AlwaysStep Step (bootSystem registers) events EndsOnce) :
    Always Step (bootSystem registers) events
      fun _ system => Census system :=
  once.always (census_boot registers) fun _ _ _ _ run census step once =>
    census.step (queued_of_run run) once step

/-- Where each task is terminated once, `num_tasks` is the number of the tasks
that live, but for the tasks that somebody is about to count in or out. A task
that is preempted while it terminates itself stays counted for ever. -/
theorem tasks_counted (registers : Ext) (events : List (Event Ext))
    (once : AlwaysStep Step (bootSystem registers) events EndsOnce) :
    Always Step (bootSystem registers) events (fun _ system =>
        system.sched.numTasks +
            ((callers system Position.uncounted).card : Word) =
          ((liveTasks system.sched).card : Word) +
            ((callers system Position.unsubtracted).card : Word)) ∧
      AlwaysStep Step (bootSystem registers) events
        (fun system _ system' =>
          ∀ self, Stranded system self → Stranded system' self) := by
  have always := census_of_run once
  constructor
  · intro before after system split run
    have counted := (always before after system split run).counted
    rw [callerSum_eq, callerSum_eq, liveSum_one_eq] at counted
    exact counted
  · intro before event after system system' split run step self stranded
    obtain ⟨notCurrent, statement, stands, unsubtracted⟩ := stranded
    have census := always before _ system split run
    obtain ⟨isTask, terminated⟩ := census.ended self self statement stands
    have later : statement ≠ .setTerminated := by
      rintro rfl
      cases unsubtracted
    have gone : Gone system self (.ending self statement) :=
      ⟨isTask, notCurrent, terminated later, stands⟩
    have still := gone.step census (queued_of_run run)
      (once before event after system system' split run step) step
    exact ⟨still.notCurrent, statement, still.stands, unsubtracted⟩

end Runs

/-- The first of two tasks terminates itself, and the timer comes before it has
counted itself out. -/
def strandingEvents : List (Event Nat) :=
  let startEvents : List (Event Nat) :=
    [.code (.start 0 0 0 0 0), .code .statement, .code .statement,
      .code .statement]
  startEvents ++ [.code .statement, .maskedSection] ++ startEvents ++
    [.maskedSection, .code (.mainLoop plainCpuid 0 0),
      .switch .timer zeroFrame 0 0, .code (.terminate 1), .code .statement,
      .switch .timer zeroFrame 10 10, .code (.terminate 2), .code .statement]

theorem tasks_counted_strandingEvents :
    Always Step (bootSystem 0) strandingEvents (fun _ system =>
        system.sched.numTasks +
            ((callers system Position.uncounted).card : Word) =
          ((liveTasks system.sched).card : Word) +
            ((callers system Position.unsubtracted).card : Word)) ∧
      AlwaysStep Step (bootSystem 0) strandingEvents
        (fun system _ system' =>
          ∀ self, Stranded system self → Stranded system' self) := by
  apply tasks_counted
  have checked : checkSteps advance
      (fun system event system' => decide (EndsOnce system event system'))
      (bootSystem 0) strandingEvents = true := by
    decide
  intro before event after system system' split run step
  exact of_decide_eq_true (alwaysStep_of_checkSteps checked
    (fun _ _ _ taken => taken) before event after system system' split run step)

end BeaverOS.Kernel
