import BeaverOS.Sched.Tasks

/-!
# The task with the least virtual time

`compare_tasks` returns the difference of two 64-bit times as an `int`, so it
orders only times that are close together. In a run in which the times in the
queue always are, the queue is in order and every switch resumes a task with the
least time. The bootstrap task is never resumed, so that for it the low 32 bits
of its time count, which are all that the comparator sees.
-/

namespace BeaverOS.Scheduler

open BeaverOS.Heap
open BeaverOS.HeapOrder
open BeaverOS.Isr
open BeaverOS.Transition

/-! ## The comparator -/

/-- A 64-bit difference, truncated to an `int`, has the right sign when the
numbers are close. -/
theorem toInt_sub_neg_iff {first second : Word}
    (below : first.toNat < second.toNat + 2 ^ 31)
    (above : second.toNat < first.toNat + 2 ^ 31) :
    ((first - second).setWidth 32).toInt < 0 ↔
      first.toNat < second.toNat := by
  have firstBound := first.isLt
  have secondBound := second.isLt
  rw [BitVec.toInt_eq_toNat_cond, BitVec.toNat_setWidth, BitVec.toNat_sub]
  split <;> omega

section Order

variable {Ext : Type} {sched sched' : Sched Ext} {i i' : InterruptFrame}
  {now later : Word} {tasks tasks' : TaskPtr → Task Ext}
  {task next bootstrap : TaskPtr}
  {queue pushed rest : MinHeap TaskPtr} {dropped : Multiset TaskPtr}

theorem setWidth_sub_eq (first second : Word) :
    (first - second).setWidth 32 =
      first.setWidth 32 - second.setWidth 32 := by
  apply BitVec.eq_of_toNat_eq
  simp only [BitVec.toNat_setWidth, BitVec.toNat_sub]
  omega

/-- The time of a task that counts in the queue: of the bootstrap task, the low
32 bits. -/
def queueTime (bootstrap task : TaskPtr) (vtime : Word) : Word :=
  if task = bootstrap then (vtime.setWidth 32).setWidth 64 else vtime

theorem queueTime_of_ne {bootstrap : TaskPtr} (different : task ≠ bootstrap)
    (vtime : Word) : queueTime bootstrap task vtime = vtime :=
  if_neg different

theorem queueTime_zero (bootstrap task : TaskPtr) :
    queueTime bootstrap task 0 = 0 := by
  rw [queueTime]
  split <;> rfl

/-- The comparator does not see the difference. -/
theorem setWidth_queueTime (bootstrap task : TaskPtr) (vtime : Word) :
    (queueTime bootstrap task vtime).setWidth 32 = vtime.setWidth 32 := by
  rw [queueTime]
  split
  · rw [BitVec.setWidth_setWidth_of_le _ (by decide), BitVec.setWidth_eq]
  · rfl

/-- The order of tasks by time. -/
def Earlier (bootstrap : TaskPtr) (tasks : TaskPtr → Task Ext)
    (first second : TaskPtr) : Prop :=
  (queueTime bootstrap first (tasks first).vtime).toNat ≤
    (queueTime bootstrap second (tasks second).vtime).toNat

theorem totalPreorder_earlier (bootstrap : TaskPtr)
    (tasks : TaskPtr → Task Ext) : TotalPreorder (Earlier bootstrap tasks) :=
  ⟨fun _ _ => Nat.le_total _ _, fun first second => Nat.le_trans first second⟩

/-- Times that the comparator can tell apart. -/
def Close (times : Multiset Word) : Prop :=
  ∀ first ∈ times, ∀ second ∈ times, first.toNat < second.toNat + 2 ^ 31

theorem Close.mono {times fewer : Multiset Word} (close : Close times)
    (sub : fewer ⊆ times) : Close fewer :=
  fun first memberFirst second memberSecond =>
    close first (sub memberFirst) second (sub memberSecond)

/-- On close times the comparator decides the order. -/
theorem decides_compareTasks {members : Multiset TaskPtr}
    (close : Close (members.map fun task =>
      queueTime bootstrap task (tasks task).vtime)) :
    Decides (compareTasks tasks) (Earlier bootstrap tasks) members := by
  intro first memberFirst second memberSecond
  have timeFirst := Multiset.mem_map_of_mem (fun task =>
    queueTime bootstrap task (tasks task).vtime) memberFirst
  have timeSecond := Multiset.mem_map_of_mem (fun task =>
    queueTime bootstrap task (tasks task).vtime) memberSecond
  have seen : ((tasks first).vtime - (tasks second).vtime).setWidth 32 =
      (queueTime bootstrap first (tasks first).vtime -
        queueTime bootstrap second (tasks second).vtime).setWidth 32 := by
    rw [setWidth_sub_eq, setWidth_sub_eq, setWidth_queueTime,
      setWidth_queueTime]
  rw [compareTasks, seen, toInt_sub_neg_iff
    (close _ timeFirst _ timeSecond) (close _ timeSecond _ timeFirst),
    Earlier, Nat.not_le]

/-- The selection loop on an ordered queue returns the first of the tasks that
can run, and leaves an ordered queue. -/
theorem selectTask_least {fuel : Nat} (allocated : Allocated queue)
    (close : Close (queue.items.map fun task =>
      queueTime bootstrap task (tasks task).vtime))
    (ordered : Ordered (Earlier bootstrap tasks) queue.size queue.data)
    (selects : selectTask tasks fuel queue = .ok (next, rest)) :
    (∀ task ∈ queue.items, (tasks task).state = .inQueue →
        Earlier bootstrap tasks next task) ∧
      Ordered (Earlier bootstrap tasks) rest.size rest.data := by
  induction fuel generalizing queue with
  | zero => cases selects
  | succ fuel inductionHypothesis =>
      rw [selectTask] at selects
      by_cases empty : queue.size = 0
      · rw [heapPop_empty empty] at selects
        cases selects
      · obtain ⟨task, queue', popped⟩ :=
          heapPop_spec (compareTasks_self tasks) allocated empty
        have close' : Close (queue'.items.map fun task =>
            queueTime bootstrap task (tasks task).vtime) := by
          refine close.mono (Multiset.map_subset_map ?_)
          rw [popped.items]
          exact Multiset.subset_cons _ _
        have ordered' := popped.ordered (totalPreorder_earlier bootstrap tasks)
          (decides_compareTasks close') ordered
        rw [popped.result] at selects
        simp only at selects
        split at selects
        · cases selects
        · split at selects
          · cases selects
            exact ⟨fun other member _ =>
              popped.least (totalPreorder_earlier bootstrap tasks) ordered
                other member,
              ordered'⟩
          · next stuck =>
              obtain ⟨least, orderedRest⟩ :=
                inductionHypothesis popped.allocated close' ordered' selects
              refine ⟨?_, orderedRest⟩
              intro other member runs
              rw [popped.items] at member
              rcases Multiset.mem_cons.mp member with rfl | member
              · exact absurd runs stuck
              · exact least other member runs

end Order

/-! ## Steps -/

section Steps

variable {Ext : Type} {sched sched' : Sched Ext} {i i' : InterruptFrame}
  {now later : Word} {task next : TaskPtr} {record : Task Ext}
  {queue pushed rest : MinHeap TaskPtr} {dropped : Multiset TaskPtr}
  {action : Action Ext}

/-- The time of a task, when the current one is preempted at `now`. -/
def timeAt (sched : Sched Ext) (now : Word) (task : TaskPtr) : Word :=
  if task = sched.currentTask then
    (sched.tasks task).vtime + (now - (sched.tasks task).startedAt)
  else
    (sched.tasks task).vtime

theorem preempt_vtime (i : InterruptFrame) (task : TaskPtr) :
    ((preempt sched i now).tasks task).vtime = timeAt sched now task := by
  rw [timeAt]
  split
  · next current =>
      rw [current, preempt_task_current]
      rfl
  · next different => rw [preempt_task_of_ne sched i now different]

/-- The times in the queue. -/
def queueTimes (sched : Sched Ext) : Multiset Word :=
  (items sched).map fun task =>
    queueTime sched.bootstrap task (sched.tasks task).vtime

/-- All times in the queue, with the one that the step adds, are close. -/
def CloseStep (sched : Sched Ext) : Action Ext → Sched Ext → Prop
  | .start _ _ _ _, _ | .mainLoop _ _ _, _ =>
      Close (meanVtime sched ::ₘ queueTimes sched)
  | .switch _ now _, _ =>
      Close ((sched.currentTask ::ₘ items sched).map fun task =>
        queueTime sched.bootstrap task (timeAt sched now task))
  | _, _ => True

/-- A switch resumes a task with the least time of those that can run, the
preempted one among them. -/
def Fair (sched : Sched Ext) (action : Action Ext) (sched' : Sched Ext) :
    Prop :=
  ∀ i now later, action = .switch i now later →
    ∀ task ∈ sched.currentTask ::ₘ items sched,
      (preempt sched i now).stateOf task = .inQueue →
        (timeAt sched now sched'.currentTask).toNat ≤
          (timeAt sched now task).toNat

/-- The queue is in order; until the first switch all times are zero, and the
bootstrap task is behind all others. -/
structure TimeOrdered (sched : Sched Ext) : Prop where
  ordered :
    ∀ queue, sched.taskQueue = some queue →
      Ordered (Earlier sched.bootstrap sched.tasks) queue.size queue.data
  early :
    sched.currentTask = sched.bootstrap →
      ∀ task ∈ items sched, (sched.tasks task).vtime = 0
  total : sched.currentTask = 0 → sched.totalVtime = 0
  last :
    sched.currentTask ≠ 0 → sched.currentTask = sched.bootstrap →
      ∀ queue, sched.taskQueue = some queue → ∀ index < queue.size,
        queue.data index = sched.bootstrap → index + 1 = queue.size

/-- Order depends on the times of the queued tasks only. -/
theorem ordered_congr {tasks tasks' : TaskPtr → Task Ext}
    {bootstrap : TaskPtr}
    (same : ∀ task ∈ queue.items, (tasks' task).vtime = (tasks task).vtime)
    (ordered : Ordered (Earlier bootstrap tasks) queue.size queue.data) :
    Ordered (Earlier bootstrap tasks') queue.size queue.data := by
  intro index bound
  rw [Earlier, same _ (mem_contents (by omega)), same _ (mem_contents bound)]
  exact ordered index bound

theorem TimeOrdered.of_sameQueue (timed : TimeOrdered sched)
    (same : SameQueue sched sched')
    (vtime : ∀ task, (sched'.tasks task).vtime = (sched.tasks task).vtime)
    (total : sched.currentTask = 0 →
      sched'.totalVtime = sched.totalVtime) :
    TimeOrdered sched' where
  ordered queue found := by
    rw [same.taskQueue] at found
    rw [same.bootstrap]
    exact ordered_congr (fun task _ => vtime task) (timed.ordered queue found)
  early := by
    rw [same.currentTask, same.bootstrap, same.items_eq]
    intro booting task member
    rw [vtime]
    exact timed.early booting task member
  total := by
    rw [same.currentTask]
    exact fun null => (total null).trans (timed.total null)
  last := by
    rw [same.currentTask, same.bootstrap, same.taskQueue]
    exact timed.last

/-- Preempting the current task leaves the queue in order. -/
theorem TimeOrdered.preempt_ordered (timed : TimeOrdered sched)
    (wellFormed : WellFormed sched) (nonNull : sched.currentTask ≠ 0)
    (found : sched.taskQueue = some queue) :
    Ordered (Earlier sched.bootstrap (preempt sched i now).tasks) queue.size
      queue.data := by
  by_cases booting : sched.currentTask = sched.bootstrap
  · -- only the last task changes its time, and all others have none
    intro index bound
    by_cases isLast : queue.data (index / 2) = sched.bootstrap
    · have last := timed.last nonNull booting queue found (index / 2)
        (by omega) isLast
      have root : index = 0 := by omega
      rw [root]
      exact Nat.le_refl _
    · have parent : queue.data (index / 2) ∈ items sched := by
        rw [items_of_taskQueue found]
        exact mem_contents (by omega)
      rw [Earlier, preempt_task_of_ne sched i now (booting ▸ isLast),
        timed.early booting _ parent, queueTime_zero]
      exact Nat.zero_le _
  · refine ordered_congr (fun task member => ?_) (timed.ordered queue found)
    rw [preempt_task_of_ne]
    rintro rfl
    rw [← items_of_taskQueue found] at member
    exact wellFormed.current booting member

theorem TimeOrdered.switch (timed : TimeOrdered sched)
    (wellFormed : WellFormed sched) (nonNull : sched.currentTask ≠ 0)
    (close : CloseStep sched (.switch i now later) sched')
    (switched : Switched sched i now later queue pushed dropped next rest i'
      sched') :
    TimeOrdered sched' ∧ Fair sched (.switch i now later) sched' := by
  have itemsEq : pushed.items = sched.currentTask ::ₘ items sched := by
    rw [switched.push.items, items_of_taskQueue switched.found]
  have close' : Close (pushed.items.map fun task =>
      queueTime sched.bootstrap task
        ((preempt sched i now).tasks task).vtime) := by
    simp only [preempt_vtime, itemsEq]
    exact close
  have ordered := switched.push.ordered (totalPreorder_earlier _ _)
    (decides_compareTasks close')
    (timed.preempt_ordered wellFormed nonNull switched.found)
  obtain ⟨least, orderedRest⟩ := selectTask_least switched.push.allocated
    close' ordered switched.selects
  have wellFormed' := wellFormed.switch nonNull switched
  have bootstrapNonNull : sched.bootstrap ≠ 0 :=
    fun null => nonNull (wellFormed.booted.mpr null)
  have nextNotBootstrap : next ≠ sched.bootstrap := (switched.next_ne
    (Or.inr (wellFormed.bootstrapEnded bootstrapNonNull))).symm
  constructor
  · constructor
    · intro other found
      rw [switched.taskQueue] at found
      cases found
      rw [switched.bootstrap]
      exact ordered_congr (fun task _ => switched.vtime task) orderedRest
    · rw [switched.currentTask, switched.bootstrap]
      exact fun same => absurd same nextNotBootstrap
    · intro null
      rw [switched.currentTask] at null
      exact absurd null
        (items_cons_bound wellFormed nonNull switched.next_mem).1
    · rw [switched.currentTask, switched.bootstrap]
      exact fun _ same => absurd same nextNotBootstrap
  · intro i now later equal task member queued
    cases equal
    have notBootstrap : task ≠ sched.bootstrap := by
      rintro rfl
      have runs := queued
      rw [preempt_stateOf, wellFormed.bootstrapEnded bootstrapNonNull] at runs
      simp at runs
    have earlier := least task (itemsEq ▸ member) queued
    rw [Earlier, queueTime_of_ne nextNotBootstrap,
      queueTime_of_ne notBootstrap] at earlier
    rw [switched.currentTask, ← preempt_vtime i, ← preempt_vtime i]
    exact earlier

/-- A new task keeps the queue in order. -/
theorem Started.ordered (started : Started sched record queue pushed sched')
    (wellFormed : WellFormed sched) (timed : TimeOrdered sched)
    (close : Close (record.vtime ::ₘ queueTimes sched)) :
    Ordered (Earlier sched.bootstrap sched'.tasks) pushed.size
      pushed.data := by
  have oldTimes : ∀ task ∈ items sched,
      (sched'.tasks task).vtime = (sched.tasks task).vtime := fun task member =>
    congrArg Task.vtime (started.tasks_old (wellFormed.members task member).2)
  have itemsEq : pushed.items = (sched.started + 1) ::ₘ items sched := by
    rw [← items_of_taskQueue started.taskQueue, started.items_eq]
  have tasksEq : sched'.tasks =
      Function.update sched.tasks (sched.started + 1) record := by
    rw [started.result]
  have newTask_ne : sched.started + 1 ≠ sched.bootstrap := by
    have bound := wellFormed.bootstrapBound
    exact Nat.ne_of_gt (Nat.lt_succ_of_le bound)
  have close' : Close (pushed.items.map fun task =>
      queueTime sched.bootstrap task (sched'.tasks task).vtime) := by
    rw [itemsEq, Multiset.map_cons, started.tasks_new,
      queueTime_of_ne newTask_ne, Multiset.map_congr rfl fun task member =>
        congrArg (queueTime sched.bootstrap task) (oldTimes task member)]
    exact close
  have push := started.push
  rw [← tasksEq] at push
  refine push.ordered (totalPreorder_earlier _ _)
    (decides_compareTasks close') ?_
  have found := started.found
  cases found' : sched.taskQueue with
  | none =>
      rw [found'] at found
      rw [← found]
      intro index bound
      exact absurd bound (Nat.not_lt_zero index)
  | some other =>
      rw [found'] at found
      obtain rfl : other = queue := found
      refine ordered_congr (fun task member => ?_) (timed.ordered other found')
      rw [← items_of_taskQueue found'] at member
      exact oldTimes task member

theorem TimeOrdered.start (timed : TimeOrdered sched)
    (wellFormed : WellFormed sched) (canCall : CanCall sched)
    (started : Started sched record queue pushed sched')
    (credit : record.vtime = meanVtime sched)
    (close : Close (meanVtime sched ::ₘ queueTimes sched)) :
    TimeOrdered sched' := by
  have kept : sched'.currentTask = sched.currentTask ∧
      sched'.bootstrap = sched.bootstrap ∧
      sched'.totalVtime = sched.totalVtime := by
    rw [started.result]
    exact ⟨rfl, rfl, rfl⟩
  obtain ⟨currentEq, bootstrapEq, totalEq⟩ := kept
  have idle : sched.currentTask = sched.bootstrap → sched.currentTask = 0 := by
    intro same
    by_contra nonNull
    exact wellFormed.current_ne_bootstrap nonNull canCall same
  constructor
  · intro other found
    rw [started.taskQueue] at found
    cases found
    rw [bootstrapEq]
    exact started.ordered wellFormed timed (credit ▸ close)
  · rw [currentEq, bootstrapEq, started.items_eq]
    intro booting task member
    rcases Multiset.mem_cons.mp member with rfl | member
    · rw [started.tasks_new, credit, meanVtime, timed.total (idle booting)]
      split
      · exact BitVec.zero_udiv
      · rfl
    · rw [started.tasks_old (wellFormed.members task member).2]
      exact timed.early booting task member
  · rw [currentEq, totalEq]
    exact timed.total
  · rw [currentEq, bootstrapEq]
    exact fun nonNull booting => absurd (idle booting) nonNull

/-- When all times are equal, a new task stays behind all others. -/
theorem Started.pushed_data (started : Started sched record queue pushed sched')
    (equal : ∀ task ∈ pushed.items,
      (sched'.tasks task).vtime = record.vtime) :
    pushed.data = Function.update queue.data queue.size (sched.started + 1) := by
  have tasksEq : sched'.tasks =
      Function.update sched.tasks (sched.started + 1) record := by
    rw [started.result]
  have within := started.push.within
  rw [← tasksEq, siftUp_succ (by rw [started.push.size]; omega)] at within
  have stored : ∀ index ≤ queue.size,
      Function.update queue.data queue.size (sched.started + 1) index ∈
        pushed.items := by
    intro index bound
    rw [started.push.items]
    by_cases isNew : index = queue.size
    · rw [isNew, Function.update_self]
      exact Multiset.mem_cons_self _ _
    · rw [Function.update_of_ne isNew]
      exact Multiset.mem_cons_of_mem (mem_contents (by omega))
  have inOrder : ¬ compareTasks sched'.tasks
      (Function.update queue.data queue.size (sched.started + 1) queue.size)
      (Function.update queue.data queue.size (sched.started + 1)
        (queue.size / 2)) < 0 := by
    rw [compareTasks, equal _ (stored queue.size (Nat.le_refl _)),
      equal _ (stored (queue.size / 2) (Nat.div_le_self _ _)), BitVec.sub_self]
    decide
  rw [if_neg inOrder] at within
  exact (Option.some.inj within).symm

/-! ### Operations that leave all times -/

theorem vtime_setState {state : TaskState} (other : TaskPtr) :
    ((sched.setState task state).tasks other).vtime =
      (sched.tasks other).vtime := by
  by_cases same : other = task
  · subst same
    simp only [Sched.setState, Sched.modify, Function.update_self]
  · simp only [Sched.setState, Sched.modify, Function.update_of_ne same]

theorem vtime_terminateTask (other : TaskPtr) :
    ((terminateTask sched task).tasks other).vtime =
      (sched.tasks other).vtime :=
  vtime_setState other

theorem vtime_mutexLock {mutex : Nat} (other : TaskPtr) :
    ((mutexLock sched mutex).tasks other).vtime =
      (sched.tasks other).vtime := by
  by_cases isLocked : (sched.mutexes mutex).locked = true
  · rw [mutexLock_of_locked isLocked]
    exact vtime_setState other
  · rw [mutexLock_of_free isLocked]

theorem totalVtime_mutexLock {mutex : Nat} :
    (mutexLock sched mutex).totalVtime = sched.totalVtime := by
  rw [mutexLock]
  split <;> rfl

theorem vtime_mutexUnlock {mutex : Nat} (other : TaskPtr) :
    ((mutexUnlock sched mutex).tasks other).vtime =
      (sched.tasks other).vtime := by
  rw [mutexUnlock_eq]
  simp only
  split <;> rfl

theorem totalVtime_mutexUnlock {mutex : Nat} :
    (mutexUnlock sched mutex).totalVtime = sched.totalVtime := by
  rw [mutexUnlock_eq]

/-! ### All steps -/

/-- `main_loop` leaves the bootstrap task behind all others. -/
theorem TimeOrdered.bootstrap {cpuid : Cpuid} {stack : Word} {area : Ext}
    [Zero Ext] {middle : Sched Ext} (timed : TimeOrdered sched)
    (wellFormed : WellFormed sched) (booting : sched.currentTask = 0)
    (started : Started (withSaveMode sched cpuid)
      (newTask (withSaveMode sched cpuid) 0 0 stack area) queue pushed middle)
    (close : Close (meanVtime sched ::ₘ queueTimes sched)) :
    TimeOrdered (terminateTask (withBootstrap middle (sched.started + 1))
      (sched.started + 1)) := by
  have same : SameScheduling sched (withSaveMode sched cpuid) :=
    sameScheduling_withSaveMode cpuid
  have timed' : TimeOrdered (withSaveMode sched cpuid) :=
    timed.of_sameQueue same.sameQueue same.vtime fun _ => same.totalVtime
  have between : TimeOrdered middle :=
    timed'.start (wellFormed.same same) (Or.inl booting) started rfl close
  have middleEq : middle.currentTask = middle.bootstrap := by
    rw [started.result]
    exact booting.trans (wellFormed.booted.mp booting).symm
  have noTime : ∀ task ∈ items middle, (middle.tasks task).vtime = 0 :=
    between.early middleEq
  have vtime : ∀ task, ((terminateTask
      (withBootstrap middle (sched.started + 1)) (sched.started + 1)).tasks
        task).vtime = (middle.tasks task).vtime :=
    fun task => vtime_terminateTask task
  constructor
  · intro other found index bound
    -- all times are zero, also as the bootstrap task's
    have parent : other.data (index / 2) ∈ items middle := by
      have itemsEq : items middle = other.items := items_of_taskQueue found
      rw [itemsEq]
      exact mem_contents (by omega)
    rw [Earlier, vtime, noTime _ parent, queueTime_zero]
    exact Nat.zero_le _
  · intro _ task member
    rw [vtime]
    exact noTime task member
  · intro null
    exact absurd null (Nat.succ_ne_zero sched.started)
  · intro _ _ other found index bound isLast
    obtain rfl : pushed = other :=
      Option.some.inj (started.taskQueue.symm.trans found)
    have zero : (newTask (withSaveMode sched cpuid) 0 0 stack area).vtime =
        0 := by
      rw [← started.tasks_new]
      apply noTime
      rw [started.items_eq]
      exact Multiset.mem_cons_self _ _
    have data := started.pushed_data fun task member => by
      rw [← items_of_taskQueue started.taskQueue] at member
      rw [zero]
      exact noTime task member
    rw [started.push.size] at bound ⊢
    by_contra before
    rw [data, Function.update_of_ne (by omega)] at isLast
    have member : queue.data index ∈ items sched := by
      have itemsEq : items middle = (sched.started + 1) ::ₘ items sched :=
        started.items_eq
      rw [items_of_taskQueue started.taskQueue, started.push.items] at itemsEq
      have old : queue.items = items sched :=
        (Multiset.cons_inj_right _).mp itemsEq
      rw [← old]
      exact mem_contents (by omega)
    rw [isLast] at member
    exact Nat.not_succ_le_self _ (wellFormed.members _ member).2

variable [Zero Ext]

/-- A step whose times are close keeps the order, and is fair. -/
theorem TimeOrdered.step (timed : TimeOrdered sched)
    (wellFormed : WellFormed sched) (step : Step sched action sched')
    (close : CloseStep sched action sched') :
    TimeOrdered sched' ∧ Fair sched action sched' := by
  cases step with
  | start canCall fits result =>
      obtain ⟨_, queue, pushed, started⟩ :=
        started_of_startTask wellFormed.allocated result
      exact ⟨timed.start wellFormed canCall started rfl close,
        fun _ _ _ equal => nomatch equal⟩
  | mainLoop booting fits result =>
      obtain ⟨queue, pushed, middle, started, rfl⟩ :=
        mainLoop_cases wellFormed.allocated result
      exact ⟨timed.bootstrap wellFormed booting started close,
        fun _ _ _ equal => nomatch equal⟩
  | switch nonNull result =>
      obtain ⟨queue, pushed, dropped, next, rest, switched⟩ :=
        switched_of_taskSwitchIsr wellFormed.allocated result
      exact timed.switch wellFormed nonNull close switched
  | lock _ _ =>
      exact ⟨timed.of_sameQueue sameQueue_mutexLock vtime_mutexLock
        fun _ => totalVtime_mutexLock, fun _ _ _ equal => nomatch equal⟩
  | unlock _ =>
      exact ⟨timed.of_sameQueue sameQueue_mutexUnlock vtime_mutexUnlock
        fun _ => totalVtime_mutexUnlock, fun _ _ _ equal => nomatch equal⟩
  | terminate nonNull _ _ =>
      exact ⟨timed.of_sameQueue ⟨rfl, rfl, rfl, rfl⟩ vtime_terminateTask
        fun null => absurd null nonNull, fun _ _ _ equal => nomatch equal⟩
  | @use registers _ _ =>
      have same : SameScheduling sched (useExtended sched registers) :=
        sameScheduling_use registers
      exact ⟨timed.of_sameQueue same.sameQueue same.vtime
        fun _ => same.totalVtime, fun _ _ _ equal => nomatch equal⟩

end Steps

/-! ## Runs -/

section Runs

variable {Ext : Type} [Zero Ext] {actions : List (Action Ext)}
  {registers : Ext}

theorem timeOrdered_boot (registers : Ext) :
    TimeOrdered (bootSched registers) := by
  constructor
  · intro queue found
    cases found
  · intro _ task member
    exact absurd member (Multiset.notMem_zero task)
  · exact fun _ => rfl
  · intro nonNull
    exact absurd rfl nonNull

/-- In a run in which the times in the queue are close at every operation, every
switch is fair. -/
theorem fair_of_close
    (close : AlwaysStep Step (bootSched registers) actions CloseStep) :
    AlwaysStep Step (bootSched registers) actions Fair := by
  have timed : Always Step (bootSched registers) actions
      fun _ sched => TimeOrdered sched :=
    close.always (timeOrdered_boot registers)
      fun _ _ _ _ run timed step closeStep =>
        (timed.step (wellFormed_of_run run) step closeStep).1
  intro before action after sched sched' split run step
  exact ((timed before _ sched split run).step (wellFormed_of_run run) step
    (close before action after sched sched' split run step)).2

end Runs

instance (times : Multiset Word) : Decidable (Close times) :=
  -- the instance for all words would try each of them
  @Multiset.decidableForallMultiset _ times _ fun _ =>
    @Multiset.decidableForallMultiset _ times _ fun _ => Nat.decLt _ _

instance {Ext : Type} (sched sched' : Sched Ext) :
    (action : Action Ext) → Decidable (CloseStep sched action sched')
  | .start _ _ _ _ | .mainLoop _ _ _ => inferInstanceAs (Decidable (Close _))
  | .switch _ _ _ => inferInstanceAs (Decidable (Close _))
  | .lock _ | .unlock _ | .terminate _ | .use _ =>
      inferInstanceAs (Decidable True)

/-- Two tasks take turns. -/
def turnActions : List (Action Nat) :=
  [.start 0 0 0 0, .start 0 0 0 0, .mainLoop plainCpuid 0 0,
    .switch zeroFrame 0 0, .switch zeroFrame 10 10]

theorem fair_of_close_turnActions :
    AlwaysStep Step (bootSched 0) turnActions Fair := by
  apply fair_of_close
  have checked : checkSteps perform
      (fun sched action sched' => decide (CloseStep sched action sched'))
      (bootSched 0) turnActions = true := by
    decide
  intro before action after sched sched' split run step
  have close := alwaysStep_of_checkSteps checked
    (fun _ _ _ taken => perform_of_step taken)
    before action after sched sched' split run step
  exact of_decide_eq_true close

/-- The first of two tasks runs for `2^31` units of time. -/
def unfairActions : List (Action Nat) :=
  [.start 0 0 0 0, .start 0 0 0 0, .mainLoop plainCpuid 0 0,
    .switch zeroFrame 0 0]

/-- It is resumed, although the other one has the time 0. -/
theorem unfairActions_not_fair :
    ∃ sched sched' : Sched Nat,
      Run Step (bootSched 0) unfairActions sched ∧
        Step sched (.switch zeroFrame 0x80000000 0x80000000) sched' ∧
          ¬ Fair sched (.switch zeroFrame 0x80000000 0x80000000) sched' := by
  have resumed : ((performAll (bootSched 0) unfairActions).bind fun sched =>
      (perform sched (.switch zeroFrame 0x80000000 0x80000000)).map
        fun sched' =>
          ((timeAt sched 0x80000000 sched'.currentTask).toNat,
            (timeAt sched 0x80000000 2).toNat,
            (preempt sched zeroFrame 0x80000000).stateOf 2,
            decide (2 ∈ sched.currentTask ::ₘ items sched))) =
      some (0x80000000, 0, .inQueue, true) := by
    decide
  obtain ⟨sched, performed, facts⟩ := Option.bind_eq_some_iff.mp resumed
  obtain ⟨sched', switched, facts⟩ := Option.map_eq_some_iff.mp facts
  simp only [Prod.mk.injEq, decide_eq_true_eq] at facts
  obtain ⟨resumedTime, waitingTime, waits, member⟩ := facts
  refine ⟨sched, sched', run_of_performAll Run.nil performed,
    step_of_perform switched, ?_⟩
  intro fair
  have earlier := fair zeroFrame 0x80000000 0x80000000 rfl 2 member waits
  rw [resumedTime, waitingTime] at earlier
  exact absurd earlier (by decide)

end BeaverOS.Scheduler
