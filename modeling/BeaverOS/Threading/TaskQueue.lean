import BeaverOS.Threading.Frozen
import BeaverOS.Threading.System

/-!
# The run queue while tasks are being started

A task that `start_task` is about to queue belongs to one caller, whatever else
happens until then. The queue is made once, no task comes into it twice, and a
task leaves it only to run or when it cannot run.
-/

namespace BeaverOS.Kernel

open BeaverOS.Heap
open BeaverOS.HeapOrder
open BeaverOS.Isr
open BeaverOS.Scheduler
open BeaverOS.Threading
open BeaverOS.Transition

/-- The task that `start_task` has allocated and not queued yet. -/
def Position.pending : Position → Option TaskPtr
  | .preparing task _ => some task
  | .queueing task => some task
  | _ => none

section Invariant

variable {Ext : Type} {system system' : System Ext} {position : Position}
  {task self : TaskPtr}

/-- The invariant of the run queue. -/
structure Queued (system : System Ext) : Prop where
  allocated : QueueAllocated system.sched
  members : ∀ task ∈ items system.sched, IsTask system.sched task
  once :
    ∀ task, task ≠ system.sched.bootstrap →
      (items system.sched).count task ≤ 1
  current :
    system.sched.currentTask ≠ system.sched.bootstrap →
      system.sched.currentTask ∉ items system.sched
  currentBound : system.sched.currentTask ≤ system.sched.started
  bootstrapBound : system.sched.bootstrap ≤ system.sched.started
  booted : system.sched.currentTask = 0 ↔ system.sched.bootstrap = 0
  hasQueue :
    system.sched.currentTask ≠ 0 →
      ∃ queue, system.sched.taskQueue = some queue
  early :
    system.sched.currentTask = 0 →
      ∀ task, task ≠ 0 → system.position task = .outside
  unborn :
    ∀ task, system.sched.started < task → system.position task = .outside
  pending :
    ∀ self task, (system.position self).pending = some task →
      IsTask system.sched task ∧ task ∉ items system.sched ∧
        task ≠ system.sched.currentTask ∧ task ≠ system.sched.bootstrap
  apart :
    ∀ self other task, (system.position self).pending = some task →
      (system.position other).pending = some task → self = other
  making :
    ∀ self task, system.position self = .preparing task .makeQueue →
      system.sched.taskQueue = none
  queueing :
    ∀ self task, system.position self = .queueing task →
      ∃ queue, system.sched.taskQueue = some queue

theorem queued_boot [Zero Ext] (registers : Ext) :
    Queued (bootSystem registers) where
  allocated := by
    intro queue found
    cases found
  members := fun task member => absurd member (Multiset.notMem_zero task)
  once := fun _ _ => Nat.zero_le 1
  current := fun different => absurd rfl different
  currentBound := Nat.le_refl 0
  bootstrapBound := Nat.le_refl 0
  booted := Iff.rfl
  hasQueue := fun nonNull => absurd rfl nonNull
  early := fun _ _ _ => rfl
  unborn := fun _ _ => rfl
  pending := fun _ _ pending => nomatch pending
  apart := fun _ _ _ pending => nomatch pending
  making := fun _ _ stands => nomatch stands
  queueing := fun _ _ stands => nomatch stands

/-! ## Steps that move no task -/

/-- The running task goes on, with the same task pending or with none. -/
theorem Queued.quiet (queued : Queued system)
    (same : SameQueue system.sched system'.sched)
    (moves : system'.position =
      Function.update system.position system.sched.currentTask position)
    (pending : position.pending = none ∨
      position.pending = system.here.pending)
    (making : ∀ task, position = .preparing task .makeQueue →
      system.sched.taskQueue = none)
    (queueing : ∀ task, position = .queueing task →
      ∃ queue, system.sched.taskQueue = some queue) : Queued system' := by
  have here : system'.position system.sched.currentTask = position := by
    rw [moves, Function.update_self]
  have elsewhere : ∀ task, task ≠ system.sched.currentTask →
      system'.position task = system.position task := by
    intro task different
    rw [moves, Function.update_of_ne different]
  have old : ∀ self task, (system'.position self).pending = some task →
      (system.position self).pending = some task := by
    intro self task found
    by_cases isCurrent : self = system.sched.currentTask
    · rw [isCurrent, here] at found
      rcases pending with none | same
      · rw [none] at found
        cases found
      · rw [isCurrent, ← found, same]
    · rw [← elsewhere self isCurrent]
      exact found
  constructor
  case allocated =>
    intro queue found
    rw [same.taskQueue] at found
    exact queued.allocated queue found
  case members =>
    intro task member
    rw [same.items_eq] at member
    exact same.isTask.mpr (queued.members task member)
  case once =>
    rw [same.bootstrap, same.items_eq]
    exact queued.once
  case current =>
    rw [same.currentTask, same.bootstrap, same.items_eq]
    exact queued.current
  case currentBound =>
    rw [same.currentTask, same.started]
    exact queued.currentBound
  case bootstrapBound =>
    rw [same.bootstrap, same.started]
    exact queued.bootstrapBound
  case booted =>
    rw [same.currentTask, same.bootstrap]
    exact queued.booted
  case hasQueue =>
    rw [same.currentTask, same.taskQueue]
    exact queued.hasQueue
  case early =>
    intro booting task nonNull
    rw [same.currentTask] at booting
    rw [elsewhere task fun isCurrent => nonNull (isCurrent.trans booting)]
    exact queued.early booting task nonNull
  case unborn =>
    intro task unborn
    rw [same.started] at unborn
    rw [elsewhere task, queued.unborn task unborn]
    rintro rfl
    exact Nat.not_lt_of_le queued.currentBound unborn
  case pending =>
    intro self task found
    rw [same.isTask, same.items_eq, same.currentTask, same.bootstrap]
    exact queued.pending self task (old self task found)
  case apart =>
    intro self other task first second
    exact queued.apart self other task (old self task first)
      (old other task second)
  case making =>
    intro self task stands
    rw [same.taskQueue]
    by_cases isCurrent : self = system.sched.currentTask
    · rw [isCurrent, here] at stands
      exact making task stands
    · rw [elsewhere self isCurrent] at stands
      exact queued.making self task stands
  case queueing =>
    intro self task stands
    rw [same.taskQueue]
    by_cases isCurrent : self = system.sched.currentTask
    · rw [isCurrent, here] at stands
      exact queueing task stands
    · rw [elsewhere self isCurrent] at stands
      exact queued.queueing self task stands

/-- A step of the running task outside of the two functions. -/
theorem Queued.stay (queued : Queued system)
    (same : SameQueue system.sched system'.sched)
    (position : system'.position = system.position) : Queued system' := by
  refine queued.quiet same ?_ (Or.inr rfl)
    (fun task stands => queued.making _ task stands)
    (fun task stands => queued.queueing _ task stands)
  rw [position]
  exact (Function.update_eq_self _ _).symm

/-! ## New tasks -/

/-- `calloc` returns a task that nobody knows. -/
theorem Queued.allocate [Zero Ext] {start context stack : Word} {area : Ext}
    (queued : Queued system) :
    Queued (system.proceed
      (allocateTask system.sched start context stack area)
      (.preparing (system.sched.started + 1) .setVtime)) := by
  have currentBound := queued.currentBound
  have bootstrapBound := queued.bootstrapBound
  generalize result : system.proceed
    (allocateTask system.sched start context stack area)
    (.preparing (system.sched.started + 1) .setVtime) = system'
  have same : system'.sched.taskQueue = system.sched.taskQueue ∧
      system'.sched.currentTask = system.sched.currentTask ∧
      system'.sched.bootstrap = system.sched.bootstrap ∧
      system'.sched.started = system.sched.started + 1 := by
    rw [← result]
    exact ⟨rfl, rfl, rfl, rfl⟩
  obtain ⟨queueEq, currentEq, bootstrapEq, startedEq⟩ := same
  have itemsEq : items system'.sched = items system.sched := by
    rw [items, items, queueEq]
  have isTask : ∀ task, IsTask system.sched task →
      IsTask system'.sched task := by
    intro task isTask
    rw [IsTask, startedEq]
    exact ⟨isTask.1, Nat.le_succ_of_le isTask.2⟩
  have here : system'.position system.sched.currentTask =
      .preparing (system.sched.started + 1) .setVtime := by
    rw [← result]
    exact Function.update_self _ _ _
  have elsewhere : ∀ task, task ≠ system.sched.currentTask →
      system'.position task = system.position task := by
    intro task different
    rw [← result]
    exact Function.update_of_ne different _ _
  have fresh : ∀ self, (system.position self).pending ≠
      some (system.sched.started + 1) := by
    intro self found
    exact Nat.not_succ_le_self _ (queued.pending self _ found).1.2
  constructor
  case allocated =>
    intro queue found
    rw [queueEq] at found
    exact queued.allocated queue found
  case members =>
    intro task member
    rw [itemsEq] at member
    exact isTask task (queued.members task member)
  case once =>
    rw [itemsEq, bootstrapEq]
    exact queued.once
  case current =>
    rw [itemsEq, currentEq, bootstrapEq]
    exact queued.current
  case currentBound =>
    rw [currentEq, startedEq]
    exact Nat.le_succ_of_le currentBound
  case bootstrapBound =>
    rw [bootstrapEq, startedEq]
    exact Nat.le_succ_of_le bootstrapBound
  case booted =>
    rw [currentEq, bootstrapEq]
    exact queued.booted
  case hasQueue =>
    rw [currentEq, queueEq]
    exact queued.hasQueue
  case early =>
    intro booting task nonNull
    rw [currentEq] at booting
    rw [elsewhere task fun isCurrent => nonNull (isCurrent.trans booting)]
    exact queued.early booting task nonNull
  case unborn =>
    intro task unborn
    rw [startedEq] at unborn
    have beyond := Nat.lt_of_succ_lt unborn
    rw [elsewhere task]
    · exact queued.unborn task beyond
    · rintro rfl
      exact Nat.not_lt_of_le currentBound beyond
  case pending =>
    intro self task found
    rw [itemsEq, currentEq, bootstrapEq]
    by_cases isCurrent : self = system.sched.currentTask
    · rw [isCurrent, here] at found
      cases found
      refine ⟨?_, ?_, Nat.ne_of_gt (Nat.lt_succ_of_le currentBound),
        Nat.ne_of_gt (Nat.lt_succ_of_le bootstrapBound)⟩
      · rw [IsTask, startedEq]
        exact ⟨Nat.succ_ne_zero _, Nat.le_refl _⟩
      · intro member
        exact Nat.not_succ_le_self _ (queued.members _ member).2
    · rw [elsewhere self isCurrent] at found
      obtain ⟨old, rest⟩ := queued.pending self task found
      exact ⟨isTask task old, rest⟩
  case apart =>
    intro self other task first second
    by_cases isSelf : self = system.sched.currentTask
    · by_cases isOther : other = system.sched.currentTask
      · exact isSelf.trans isOther.symm
      · rw [isSelf, here] at first
        cases first
        rw [elsewhere other isOther] at second
        exact absurd second (fresh other)
    · rw [elsewhere self isSelf] at first
      by_cases isOther : other = system.sched.currentTask
      · rw [isOther, here] at second
        cases second
        exact absurd first (fresh self)
      · rw [elsewhere other isOther] at second
        exact queued.apart self other task first second
  case making =>
    intro self task stands
    rw [queueEq]
    by_cases isCurrent : self = system.sched.currentTask
    · rw [isCurrent, here] at stands
      cases stands
    · rw [elsewhere self isCurrent] at stands
      exact queued.making self task stands
  case queueing =>
    intro self task stands
    rw [queueEq]
    by_cases isCurrent : self = system.sched.currentTask
    · rw [isCurrent, here] at stands
      cases stands
    · rw [elsewhere self isCurrent] at stands
      exact queued.queueing self task stands

/-- The first call of `start_task` makes the queue. -/
theorem Queued.make (queued : Queued system)
    (stands : system.here = .preparing task .makeQueue) :
    Queued (system.proceed (prepare system.sched task .makeQueue).1
      (prepare system.sched task .makeQueue).2) := by
  have none : system.sched.taskQueue = none := queued.making _ task stands
  have booting : system.sched.currentTask = 0 := by
    by_contra nonNull
    obtain ⟨queue, found⟩ := queued.hasQueue nonNull
    rw [none] at found
    cases found
  have empty : items system.sched = 0 := by
    rw [items, none]
  generalize result : system.proceed (prepare system.sched task .makeQueue).1
    (prepare system.sched task .makeQueue).2 = system'
  have same : system'.sched.taskQueue = some (makeHeap fun _ => 0) ∧
      system'.sched.currentTask = system.sched.currentTask ∧
      system'.sched.bootstrap = system.sched.bootstrap ∧
      system'.sched.started = system.sched.started := by
    rw [← result]
    exact ⟨rfl, rfl, rfl, rfl⟩
  obtain ⟨queueEq, currentEq, bootstrapEq, startedEq⟩ := same
  have itemsEq : items system'.sched = items system.sched := by
    rw [items_of_taskQueue queueEq, empty]
    exact items_makeHeap _
  have here : system'.position 0 = .queueing task := by
    rw [← booting, ← result]
    exact Function.update_self _ _ _
  have elsewhere : ∀ other, other ≠ 0 → system'.position other = .outside := by
    intro other nonNull
    rw [← queued.early booting other nonNull, ← result]
    exact Function.update_of_ne (booting.symm ▸ nonNull) _ _
  have onlyBoot : ∀ self other, (system'.position self).pending = some other →
      self = 0 ∧ other = task := by
    intro self other found
    by_cases isBoot : self = 0
    · rw [isBoot, here] at found
      exact ⟨isBoot, (Option.some.inj found).symm⟩
    · rw [elsewhere self isBoot] at found
      cases found
  constructor
  case allocated =>
    intro queue found
    rw [queueEq] at found
    cases found
    exact allocated_makeHeap _
  case members =>
    rw [itemsEq, empty]
    exact fun task member => absurd member (Multiset.notMem_zero task)
  case once =>
    rw [itemsEq, bootstrapEq]
    exact queued.once
  case current =>
    rw [itemsEq, currentEq, bootstrapEq]
    exact queued.current
  case currentBound =>
    rw [currentEq, startedEq]
    exact queued.currentBound
  case bootstrapBound =>
    rw [bootstrapEq, startedEq]
    exact queued.bootstrapBound
  case booted =>
    rw [currentEq, bootstrapEq]
    exact queued.booted
  case hasQueue => exact fun _ => ⟨_, queueEq⟩
  case early => exact fun _ => elsewhere
  case unborn =>
    intro other unborn
    exact elsewhere other (Nat.ne_of_gt (Nat.zero_lt_of_lt unborn))
  case pending =>
    intro self other found
    obtain ⟨-, rfl⟩ := onlyBoot self other found
    rw [itemsEq, currentEq, bootstrapEq, IsTask, startedEq]
    refine queued.pending system.sched.currentTask other ?_
    rw [show system.position _ = _ from stands]
    rfl
  case apart =>
    intro self other task first second
    exact (onlyBoot self task first).1.trans (onlyBoot other task second).1.symm
  case making =>
    intro self other stands
    by_cases isBoot : self = 0
    · rw [isBoot, here] at stands
      cases stands
    · rw [elsewhere self isBoot] at stands
      cases stands
  case queueing => exact fun _ _ _ => ⟨_, queueEq⟩

/-- The section queues the task of its caller. -/
theorem pushed_of_pushTask {sched : Sched Ext} {queue pushed : MinHeap TaskPtr}
    (allocated : Allocated queue) (push : pushTask sched queue task = .ok pushed) :
    Allocated pushed ∧ pushed.items = task ::ₘ queue.items := by
  obtain ⟨pushed', spec⟩ :=
    heapPush_spec (compareTasks_self sched.tasks) allocated task
  rw [pushTask, spec.result] at push
  cases push
  exact ⟨spec.allocated, spec.items⟩

theorem Queued.push {queue pushed : MinHeap TaskPtr} (queued : Queued system)
    (stands : system.here = .queueing task)
    (found : system.sched.taskQueue = some queue)
    (push : pushTask system.sched queue task = .ok pushed) :
    Queued (system.proceed { system.sched with taskQueue := some pushed }
      .outside) := by
  obtain ⟨allocated, pushedItems⟩ :=
    pushed_of_pushTask (queued.allocated queue found) push
  have isPending : (system.position system.sched.currentTask).pending =
      some task := by
    rw [show system.position _ = _ from stands]
    rfl
  obtain ⟨isTask, notQueued, notCurrent, notBootstrap⟩ :=
    queued.pending _ task isPending
  generalize result : system.proceed
    { system.sched with taskQueue := some pushed } .outside = system'
  have same : system'.sched.taskQueue = some pushed ∧
      system'.sched.currentTask = system.sched.currentTask ∧
      system'.sched.bootstrap = system.sched.bootstrap ∧
      system'.sched.started = system.sched.started := by
    rw [← result]
    exact ⟨rfl, rfl, rfl, rfl⟩
  obtain ⟨queueEq, currentEq, bootstrapEq, startedEq⟩ := same
  have itemsEq : items system'.sched = task ::ₘ items system.sched := by
    rw [items_of_taskQueue queueEq, pushedItems, items_of_taskQueue found]
  have isTaskIff : ∀ other, IsTask system'.sched other ↔
      IsTask system.sched other := by
    intro other
    rw [IsTask, IsTask, startedEq]
  have here : system'.position system.sched.currentTask = .outside := by
    rw [← result]
    exact Function.update_self _ _ _
  have elsewhere : ∀ other, other ≠ system.sched.currentTask →
      system'.position other = system.position other := by
    intro other different
    rw [← result]
    exact Function.update_of_ne different _ _
  have inside : ∀ {self}, system'.position self ≠ .outside →
      self ≠ system.sched.currentTask ∧
        system'.position self = system.position self := by
    intro self moved
    have different : self ≠ system.sched.currentTask := by
      rintro rfl
      exact moved here
    exact ⟨different, elsewhere self different⟩
  have old : ∀ self other, (system'.position self).pending = some other →
      self ≠ system.sched.currentTask ∧
        (system.position self).pending = some other := by
    intro self other found
    have different : system'.position self ≠ .outside := by
      intro isOutside
      rw [isOutside] at found
      cases found
    obtain ⟨notCurrent, kept⟩ := inside different
    exact ⟨notCurrent, kept ▸ found⟩
  constructor
  case allocated =>
    intro other foundOther
    rw [queueEq] at foundOther
    cases foundOther
    exact allocated
  case members =>
    intro other member
    rw [itemsEq] at member
    rw [isTaskIff]
    rcases Multiset.mem_cons.mp member with rfl | member
    · exact isTask
    · exact queued.members other member
  case once =>
    intro other different
    rw [bootstrapEq] at different
    rw [itemsEq]
    by_cases isNew : other = task
    · rw [isNew, Multiset.count_cons_self,
        Multiset.count_eq_zero_of_notMem notQueued]
    · rw [Multiset.count_cons_of_ne isNew]
      exact queued.once other different
  case current =>
    rw [itemsEq, currentEq, bootstrapEq]
    intro different member
    rcases Multiset.mem_cons.mp member with isNew | member
    · exact notCurrent isNew.symm
    · exact queued.current different member
  case currentBound =>
    rw [currentEq, startedEq]
    exact queued.currentBound
  case bootstrapBound =>
    rw [bootstrapEq, startedEq]
    exact queued.bootstrapBound
  case booted =>
    rw [currentEq, bootstrapEq]
    exact queued.booted
  case hasQueue => exact fun _ => ⟨pushed, queueEq⟩
  case early =>
    intro booting other nonNull
    rw [currentEq] at booting
    rw [elsewhere other fun isCurrent => nonNull (isCurrent.trans booting)]
    exact queued.early booting other nonNull
  case unborn =>
    intro other unborn
    rw [startedEq] at unborn
    rw [elsewhere other, queued.unborn other unborn]
    rintro rfl
    exact Nat.not_lt_of_le queued.currentBound unborn
  case pending =>
    intro self other foundOther
    obtain ⟨notHere, kept⟩ := old self other foundOther
    obtain ⟨isTask, outside, rest⟩ := queued.pending self other kept
    rw [isTaskIff, itemsEq, currentEq, bootstrapEq]
    refine ⟨isTask, ?_, rest⟩
    intro member
    rcases Multiset.mem_cons.mp member with rfl | member
    · exact notHere (queued.apart self _ other kept isPending)
    · exact outside member
  case apart =>
    intro self other task first second
    exact queued.apart self other task (old self task first).2
      (old other task second).2
  case making =>
    intro self other stands
    have moved : system'.position self ≠ .outside := by
      rw [stands]
      exact Position.noConfusion
    rw [(inside moved).2] at stands
    rw [queued.making self other stands] at found
    cases found
  case queueing => exact fun _ _ _ => ⟨pushed, queueEq⟩

/-! ## The boot code -/

/-- `main_loop` starts a task, and runs as it. -/
theorem Queued.mainLoop [Zero Ext] {cpuid : Cpuid} {stack : Word} {area : Ext}
    {sched : Sched Ext} (queued : Queued system) (free : system.Free)
    (booting : system.sched.currentTask = 0)
    (result : Scheduler.mainLoop system.sched cpuid stack area = .ok sched) :
    Queued (system.setSched sched) ∧
      items sched = sched.bootstrap ::ₘ items system.sched := by
  obtain ⟨queue, pushed, middle, started, rfl⟩ :=
    mainLoop_cases queued.allocated result
  have middleItems : items middle =
      (system.sched.started + 1) ::ₘ items system.sched := started.items_eq
  have middleStarted : middle.started = system.sched.started + 1 := by
    rw [started.result]
    rfl
  have outside : ∀ task, system.position task = .outside := by
    intro task
    by_cases isBoot : task = 0
    · rw [isBoot, ← booting]
      exact free.1
    · exact queued.early booting task isBoot
  have isTask : ∀ task, IsTask system.sched task → IsTask middle task := by
    intro task isTask
    rw [IsTask, middleStarted]
    exact ⟨isTask.1, Nat.le_succ_of_le isTask.2⟩
  refine ⟨?_, middleItems⟩
  constructor
  case allocated =>
    intro other (found : middle.taskQueue = some other)
    rw [started.taskQueue] at found
    cases found
    exact started.push.allocated
  case members =>
    intro task (member : task ∈ items middle)
    rw [middleItems] at member
    rcases Multiset.mem_cons.mp member with rfl | member
    · exact ⟨Nat.succ_ne_zero _, Nat.le_of_eq middleStarted.symm⟩
    · exact isTask task (queued.members task member)
  case once =>
    intro task (different : task ≠ system.sched.started + 1)
    change (items middle).count task ≤ 1
    rw [middleItems, Multiset.count_cons_of_ne different]
    by_cases null : task = system.sched.bootstrap
    · rw [null, queued.booted.mp booting, Multiset.count_eq_zero_of_notMem]
      · exact Nat.zero_le 1
      · exact fun member => (queued.members 0 member).1 rfl
    · exact queued.once task null
  case current => exact fun different => absurd rfl different
  case currentBound => exact Nat.le_of_eq middleStarted.symm
  case bootstrapBound => exact Nat.le_of_eq middleStarted.symm
  case booted => exact Iff.rfl
  case hasQueue => exact fun _ => ⟨pushed, started.taskQueue⟩
  case early => exact fun _ task _ => outside task
  case unborn => exact fun task _ => outside task
  case pending =>
    intro self task (pending : (system.position self).pending = _)
    rw [outside self] at pending
    cases pending
  case apart =>
    intro self _ _ (pending : (system.position self).pending = _)
    rw [outside self] at pending
    cases pending
  case making =>
    intro self task (stands : system.position self = _)
    rw [outside self] at stands
    cases stands
  case queueing =>
    intro self task (stands : system.position self = _)
    rw [outside self] at stands
    cases stands

/-! ## Switches -/

/-- A switch moves no task from one position to another. -/
theorem Queued.switch {i i' : InterruptFrame} {now later : Word}
    {queue pushed rest : MinHeap TaskPtr} {dropped : Multiset TaskPtr}
    {next : TaskPtr} {sched : Sched Ext} (queued : Queued system)
    (nonNull : system.sched.currentTask ≠ 0)
    (switched : Switched system.sched i now later queue pushed dropped next rest
      i' sched) : Queued (system.setSched sched) := by
  have isTaskIff : ∀ task, IsTask sched task ↔ IsTask system.sched task := by
    intro task
    rw [IsTask, IsTask, switched.started]
  have known : ∀ task ∈ system.sched.currentTask ::ₘ items system.sched,
      IsTask system.sched task := by
    intro task member
    rcases Multiset.mem_cons.mp member with rfl | member
    · exact ⟨nonNull, queued.currentBound⟩
    · exact queued.members task member
  have nextTask := known next switched.next_mem
  have fewer : items sched ≤
      system.sched.currentTask ::ₘ items system.sched := by
    rw [switched.items_eq]
    exact (Multiset.le_cons_self _ _).trans (Multiset.le_add_left _ _)
  have atMost : ∀ task, task ≠ system.sched.bootstrap →
      (system.sched.currentTask ::ₘ items system.sched).count task ≤ 1 := by
    intro task different
    by_cases isCurrent : task = system.sched.currentTask
    · subst isCurrent
      rw [Multiset.count_cons_self,
        Multiset.count_eq_zero_of_notMem (queued.current different)]
    · rw [Multiset.count_cons_of_ne isCurrent]
      exact queued.once task different
  constructor
  case allocated =>
    intro other (found : sched.taskQueue = some other)
    rw [switched.taskQueue] at found
    cases found
    exact switched.selected.allocated
  case members =>
    intro task member
    exact (isTaskIff task).mpr (known task (Multiset.mem_of_le fewer member))
  case once =>
    intro task (different : task ≠ sched.bootstrap)
    rw [switched.bootstrap] at different
    exact (Multiset.count_le_of_le task fewer).trans (atMost task different)
  case current =>
    intro (different : sched.currentTask ≠ sched.bootstrap)
    change sched.currentTask ∉ items sched
    rw [switched.currentTask] at different ⊢
    rw [switched.bootstrap] at different
    have bound := atMost next different
    rw [switched.items_eq, Multiset.count_add, Multiset.count_cons_self]
      at bound
    exact Multiset.count_eq_zero.mp (by omega)
  case currentBound =>
    change sched.currentTask ≤ sched.started
    rw [switched.currentTask, switched.started]
    exact nextTask.2
  case bootstrapBound =>
    change sched.bootstrap ≤ sched.started
    rw [switched.bootstrap, switched.started]
    exact queued.bootstrapBound
  case booted =>
    change sched.currentTask = 0 ↔ sched.bootstrap = 0
    rw [switched.currentTask, switched.bootstrap]
    exact iff_of_false nextTask.1 fun null => nonNull (queued.booted.mpr null)
  case hasQueue => exact fun _ => ⟨rest, switched.taskQueue⟩
  case early =>
    intro (booting : sched.currentTask = 0)
    rw [switched.currentTask] at booting
    exact absurd booting nextTask.1
  case unborn =>
    intro task (unborn : sched.started < task)
    rw [switched.started] at unborn
    exact queued.unborn task unborn
  case pending =>
    intro self task found
    obtain ⟨isTask, notQueued, notCurrent, notBootstrap⟩ :=
      queued.pending self task found
    have unknown : task ∉ system.sched.currentTask ::ₘ items system.sched := by
      intro member
      rcases Multiset.mem_cons.mp member with isCurrent | member
      · exact notCurrent isCurrent
      · exact notQueued member
    change IsTask sched task ∧ task ∉ items sched ∧
      task ≠ sched.currentTask ∧ task ≠ sched.bootstrap
    rw [isTaskIff, switched.currentTask, switched.bootstrap]
    refine ⟨isTask, ?_, ?_, notBootstrap⟩
    · exact fun member => unknown (Multiset.mem_of_le fewer member)
    · rintro rfl
      exact unknown switched.next_mem
  case apart => exact queued.apart
  case making =>
    intro self task stands
    obtain ⟨found, isSome⟩ := queued.hasQueue nonNull
    rw [queued.making self task stands] at isSome
    cases isSome
  case queueing => exact fun _ _ _ => ⟨rest, switched.taskQueue⟩

/-- Before a switch the task may come to the end of a `yield`. -/
theorem leave_cases (system : System Ext) (interrupt : Interrupt) :
    system.leave interrupt = system ∨
      (∃ task, system.here = .ending task .yieldSelf ∧
        system.leave interrupt =
          system.proceed system.sched (.ending task .unreachable)) ∨
      ∃ mutex, system.threads.here = .inside mutex .yieldSelf ∧
        system.leave interrupt =
          { system with
            threads := execute system.threads system.sched.currentTask } := by
  cases interrupt with
  | timer => exact Or.inl rfl
  | yield =>
      rw [System.leave]
      split
      · next stands => exact Or.inr (Or.inl ⟨_, stands, rfl⟩)
      · next stands _ => exact Or.inr (Or.inr ⟨_, stands, rfl⟩)
      · exact Or.inl rfl

/-- It changes nothing that the scheduler sees. -/
@[simp] theorem leave_sched (system : System Ext) (interrupt : Interrupt) :
    (system.leave interrupt).sched = system.sched := by
  rcases leave_cases system interrupt with
    unmoved | ⟨task, _, moved⟩ | ⟨mutex, stands, moved⟩
  · rw [unmoved]
  · rw [moved]
    rfl
  · rw [moved]
    change (execute system.threads _).sched = _
    rw [execute, show system.threads.place _ = _ from stands]
    rfl

theorem Queued.leave (queued : Queued system) (interrupt : Interrupt) :
    Queued (system.leave interrupt) := by
  rcases leave_cases system interrupt with
    unmoved | ⟨task, _, moved⟩ | ⟨mutex, _, moved⟩
  · rw [unmoved]
    exact queued
  · rw [moved]
    exact queued.quiet ⟨rfl, rfl, rfl, rfl⟩ rfl (Or.inl rfl)
      (fun _ stands => nomatch stands) (fun _ stands => nomatch stands)
  · rw [moved]
    exact queued.stay sameQueue_execute rfl

/-! ## Statements -/

/-- A statement of `start_task`. -/
theorem Queued.prepare {task : TaskPtr} {statement : Preparing}
    (queued : Queued system)
    (stands : system.here = .preparing task statement) :
    Queued (system.proceed (prepare system.sched task statement).1
        (prepare system.sched task statement).2) ∧
      items (prepare system.sched task statement).1 = items system.sched := by
  have samePending : some task = system.here.pending := by
    rw [stands]
    rfl
  cases statement with
  | setVtime =>
      exact ⟨queued.quiet ⟨rfl, rfl, rfl, rfl⟩ rfl (Or.inr samePending)
        (fun _ stands => nomatch stands) (fun _ stands => nomatch stands), rfl⟩
  | countTask =>
      exact ⟨queued.quiet ⟨rfl, rfl, rfl, rfl⟩ rfl (Or.inr samePending)
        (fun _ stands => nomatch stands) (fun _ stands => nomatch stands), rfl⟩
  | testQueue =>
      refine ⟨queued.quiet ⟨rfl, rfl, rfl, rfl⟩ rfl (Or.inr ?_) ?_ ?_, rfl⟩
      · rw [← samePending, Kernel.prepare]
        split <;> rfl
      · intro other next
        rw [Kernel.prepare] at next
        simp only at next
        split at next
        · next isNone => exact Option.isNone_iff_eq_none.mp isNone
        · cases next
      · intro other next
        rw [Kernel.prepare] at next
        simp only at next
        split at next
        · cases next
        · next isSome =>
            exact Option.ne_none_iff_exists'.mp fun none =>
              isSome (Option.isNone_iff_eq_none.mpr none)
  | makeQueue =>
      refine ⟨queued.make stands, ?_⟩
      rw [items, items, queued.making _ task stands]
      exact items_makeHeap _

/-- A statement of `terminate_task`. -/
theorem Queued.finish {task : TaskPtr} {statement : Ending}
    (queued : Queued system) :
    Queued (system.proceed (finish system.sched task statement).1
        (finish system.sched task statement).2) ∧
      items (finish system.sched task statement).1 = items system.sched := by
  have quiet : ∀ {sched position}, SameQueue system.sched sched →
      position = .outside ∨ (∃ statement, position = .ending task statement) →
      Queued (system.proceed sched position) := by
    rintro sched position same (rfl | ⟨statement, rfl⟩) <;>
      exact queued.quiet same rfl (Or.inl rfl)
        (fun _ stands => nomatch stands) (fun _ stands => nomatch stands)
  cases statement with
  | testCurrent =>
      refine ⟨quiet ⟨rfl, rfl, rfl, rfl⟩ ?_, rfl⟩
      rw [Kernel.finish]
      simp only
      split
      · exact Or.inr ⟨_, rfl⟩
      · exact Or.inl rfl
  | setTerminated | subtractVtime | subtractCount | yieldSelf | unreachable =>
      exact ⟨quiet ⟨rfl, rfl, rfl, rfl⟩ (Or.inr ⟨_, rfl⟩), rfl⟩

end Invariant

/-! ## Runs -/

section Runs

variable {Ext : Type} [Zero Ext] {system system' : System Ext}
  {event : Event Ext} {events : List (Event Ext)} {registers : Ext}

/-- What a step does to the tasks in the queue: a section adds the task that its
caller has started, and a switch takes out the task that it resumes and tasks
that cannot run. -/
def MovesTasks (system : System Ext) (event : Event Ext)
    (system' : System Ext) : Prop :=
  match event with
  | .code (.mainLoop _ _ _) =>
      items system'.sched = system'.sched.bootstrap ::ₘ items system.sched
  | .code _ => items system'.sched = items system.sched
  | .maskedSection =>
      ∃ task, system.here = .queueing task ∧
        items system'.sched = task ::ₘ items system.sched
  | .switch _ _ _ _ =>
      ∃ dropped, system.sched.currentTask ::ₘ items system.sched =
          dropped + system'.sched.currentTask ::ₘ items system'.sched ∧
        ∀ task ∈ dropped, system.sched.stateOf task ≠ .inQueue ∧
          (task = system.sched.currentTask →
            system.sched.stateOf task ≠ .running)

theorem Queued.step (queued : Queued system)
    (step : Step system event system') :
    Queued system' ∧ MovesTasks system event system' := by
  cases advanced_of_step step with
  | start free fits => exact ⟨queued.allocate, rfl⟩
  | terminate free runs isTask =>
      exact ⟨queued.quiet ⟨rfl, rfl, rfl, rfl⟩ rfl (Or.inl rfl)
        (fun _ stands => nomatch stands) (fun _ stands => nomatch stands), rfl⟩
  | prepare stands => exact queued.prepare stands
  | finish stands notYield notUnreachable => exact queued.finish
  | call free runs calls =>
      refine ⟨queued.stay ⟨rfl, rfl, rfl, rfl⟩ rfl, ?_⟩
      rcases calls with ⟨rfl, _⟩ | ⟨rfl, _⟩ <;> rfl
  | mutexStatement stands notYield runs outside =>
      exact ⟨queued.stay sameQueue_execute rfl, sameQueue_execute.items_eq⟩
  | mainLoop free booting fits result => exact queued.mainLoop free booting result
  | @use registers runs =>
      have same := (@sameScheduling_use _ system.sched registers).sameQueue
      exact ⟨queued.stay same rfl, same.items_eq⟩
  | @maskedSection task queue pushed stands found push =>
      refine ⟨queued.push stands found push, task, stands, ?_⟩
      have pushedItems :=
        (pushed_of_pushTask (queued.allocated queue found) push).2
      rw [items_of_taskQueue found, ← pushedItems]
      rfl
  | @switch interrupt i i' now later sched nonNull canLeave result =>
      rw [leave_sched] at result
      obtain ⟨queue, pushed, dropped, next, rest, switched⟩ :=
        switched_of_taskSwitchIsr queued.allocated result
      have left := queued.leave interrupt
      rw [← leave_sched system interrupt] at switched nonNull
      refine ⟨left.switch nonNull switched, dropped, ?_, ?_⟩
      · rw [leave_sched] at switched
        rw [switched.items_eq, ← switched.currentTask]
        rfl
      · intro task member
        rw [leave_sched] at switched
        have stuck := switched.selected.dropped task member
        have state := @preempt_stateOf _ system.sched i now task
        rw [show ((preempt system.sched i now).tasks task).state = _ from state]
          at stuck
        split at stuck
        · exact absurd rfl stuck
        · next notRunning =>
            exact ⟨stuck, fun isCurrent runs => notRunning ⟨isCurrent, runs⟩⟩

theorem queued_of_run (run : Run Step (bootSystem registers) events system) :
    Queued system :=
  run.invariant (queued_boot registers) fun _ _ _ queued step =>
    (queued.step step).1

end Runs

end BeaverOS.Kernel
