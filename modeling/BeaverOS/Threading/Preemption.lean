import BeaverOS.Sched.Tasks
import BeaverOS.Threading.Exclusion

/-!
# Preemption inside `mutex_lock`

A task that owns the spinlock of a mutex may be preempted, and must then be in
the run queue until it goes on. Two statements of `mutex_lock` are the
exception: the task has frozen itself, but still owns the spinlock.
-/

namespace BeaverOS.Threading

open BeaverOS.Heap
open BeaverOS.Isr
open BeaverOS.Scheduler
open BeaverOS.Transition

/-- The statements of a frozen task that owns the spinlock. -/
def Statement.freezing : Statement → Bool
  | .enqueueSelf | .unlockFrozen => true
  | _ => false

def Place.freezing : Place → Bool
  | .outside => false
  | .inside _ statement => statement.freezing

/-- A running task is marked as such at all other places, except before it
yields. -/
def Place.awake : Place → Bool
  | .outside => true
  | .inside _ .yieldSelf => false
  | .inside _ statement => !statement.freezing

section Preempted

variable {Ext : Type} {threads threads' : Threads Ext}
  {sched' : Sched Ext} {self task : TaskPtr} {mutex : Nat} {place : Place}
  {i i' : InterruptFrame} {now later : Word}

/-- An owner of a spinlock can always go on: it runs, or the scheduler can pick
it. -/
def OwnersRun (threads : Threads Ext) : Prop :=
  ∀ task mutex, (threads.place task).guards = some mutex →
    task = threads.sched.currentTask ∨
      task ∈ items threads.sched ∧ threads.sched.stateOf task = .inQueue

/-- The running task is not switched away while it is frozen and owns a
spinlock. -/
def SwitchesAwake (threads : Threads Ext) (event : Event Ext)
    (_ : Threads Ext) : Prop :=
  match event with
  | .timer _ _ _ | .yieldSelf _ _ _ => threads.here.freezing = false
  | _ => True

/-- The state of a task that has not frozen itself. -/
abbrev Awake (sched : Sched Ext) (task : TaskPtr) : Prop :=
  sched.stateOf task = .running ∨ sched.stateOf task = .inQueue

/-- What holds in all runs, up to a switch that is not allowed. -/
structure Attended (threads : Threads Ext) : Prop where
  allocated : QueueAllocated threads.sched
  currentBound : threads.sched.currentTask ≤ threads.sched.started
  itemsBound : ∀ task ∈ items threads.sched, task ≤ threads.sched.started
  null : threads.place 0 = .outside
  bootstrap : threads.place threads.sched.bootstrap = .outside
  unborn :
    ∀ task, threads.sched.started < task → threads.place task = .outside
  frozen :
    ∀ task, (threads.place task).freezing = true →
      task = threads.sched.currentTask ∧
        threads.sched.stateOf task = .frozen
  owners : OwnersRun threads
  awake :
    threads.Runs → threads.here.awake = true →
      Awake threads.sched threads.sched.currentTask

theorem attended_fresh [Zero Ext] (registers : Ext) :
    Attended (freshThreads (bootSched registers)) where
  allocated := by
    intro queue found
    cases found
  currentBound := Nat.le_refl 0
  itemsBound := fun task member => absurd member (Multiset.notMem_zero task)
  null := rfl
  bootstrap := rfl
  unborn := fun _ _ => rfl
  frozen := by
    intro task freezing
    cases freezing
  owners := by
    intro task mutex guards
    cases guards
  awake := fun runs _ => absurd rfl runs.1

/-- A place at which a task owns a spinlock is inside of a function. -/
theorem Attended.runs (attended : Attended threads)
    (inside : threads.here ≠ .outside) : threads.Runs := by
  constructor
  · intro null
    rw [Threads.here, null] at inside
    exact inside attended.null
  · intro isBootstrap
    rw [Threads.here, isBootstrap] at inside
    exact inside attended.bootstrap

theorem Place.ne_outside_of_guards (guards : place.guards = some mutex) :
    place ≠ .outside := by
  rintro rfl
  cases guards

theorem Place.awake_of_guards (guards : place.guards = some mutex)
    (notFreezing : place.freezing = false) : place.awake = true := by
  cases place with
  | outside => rfl
  | inside other statement =>
      cases statement <;>
        first
          | rfl
          | exact absurd notFreezing.symm Bool.false_ne_true
          | exact nomatch guards

/-! ## Switches -/

/-- A task that can run and is not chosen stays in the queue. -/
theorem mem_items_of_switched {sched : Sched Ext}
    {queue pushed rest : MinHeap TaskPtr} {dropped : Multiset TaskPtr}
    {next : TaskPtr}
    (switched : Switched sched i now later queue pushed dropped next rest i'
      sched')
    (member : task = sched.currentTask ∨ task ∈ items sched)
    (awake : Awake sched task) (queued :
      task ≠ sched.currentTask → sched.stateOf task = .inQueue)
    (different : task ≠ next) :
    task ∈ items sched' ∧ sched'.stateOf task = .inQueue := by
  have waits : (preempt sched i now).stateOf task = .inQueue := by
    rw [preempt_stateOf]
    split
    · rfl
    · next notCurrent =>
        rcases awake with runs | waits
        · by_cases isCurrent : task = sched.currentTask
          · exact absurd ⟨isCurrent, runs⟩ notCurrent
          · exact queued isCurrent
        · exact waits
  constructor
  · have all : task ∈ sched.currentTask ::ₘ items sched :=
      Multiset.mem_cons.mpr member
    rw [switched.items_eq] at all
    rcases Multiset.mem_add.mp all with isDropped | kept
    · exact absurd waits (switched.selected.dropped task isDropped)
    · exact (Multiset.mem_cons.mp kept).resolve_left different
  · rw [switched.stateOf, if_neg different]
    rw [preempt_stateOf] at waits
    exact waits

/-- A switch away from a task that is not frozen; the task may have come to the
`yield` of `mutex_lock`. -/
theorem Attended.switch (attended : Attended threads)
    (moves : Moves threads threads' threads.sched.currentTask place)
    (guards : place.guards = threads.here.guards)
    (inside : threads.here = .outside → place = .outside)
    (notFreezing : place.freezing = false)
    (switchAwake : threads.here.freezing = false)
    (result : taskSwitchIsr threads.sched i now later = .ok (i', sched'))
    (sched : threads'.sched = sched') : Attended threads' := by
  obtain ⟨queue, pushed, dropped, next, rest, switched⟩ :=
    switched_of_taskSwitchIsr attended.allocated result
  have outsideIff : ∀ task,
      threads.place task = .outside → threads'.place task = .outside := by
    intro task isOutside
    by_cases isCurrent : task = threads.sched.currentTask
    · rw [isCurrent, moves.here]
      rw [isCurrent] at isOutside
      exact inside isOutside
    · rw [moves.elsewhere isCurrent]
      exact isOutside
  have member : next ∈ threads.sched.currentTask ::ₘ items threads.sched := by
    rw [switched.items_eq]
    exact Multiset.mem_add.mpr (Or.inr (Multiset.mem_cons_self _ _))
  have bound : ∀ task ∈ threads.sched.currentTask ::ₘ items threads.sched,
      task ≤ threads.sched.started := by
    intro task member
    rcases Multiset.mem_cons.mp member with rfl | member
    · exact attended.currentBound
    · exact attended.itemsBound task member
  constructor
  case allocated =>
    intro other found
    rw [sched, switched.taskQueue] at found
    cases found
    exact switched.selected.allocated
  case currentBound =>
    rw [sched, switched.currentTask, switched.started]
    exact bound next member
  case itemsBound =>
    intro task kept
    rw [sched, switched.started]
    refine bound task ?_
    rw [switched.items_eq, ← sched]
    exact Multiset.mem_add.mpr (Or.inr (Multiset.mem_cons_of_mem kept))
  case null => exact outsideIff 0 attended.null
  case bootstrap =>
    rw [sched, switched.bootstrap]
    exact outsideIff _ attended.bootstrap
  case unborn =>
    intro task unborn
    rw [sched, switched.started] at unborn
    exact outsideIff task (attended.unborn task unborn)
  case frozen =>
    intro task freezing
    by_cases isCurrent : task = threads.sched.currentTask
    · rw [isCurrent, moves.here, notFreezing] at freezing
      cases freezing
    · rw [moves.elsewhere isCurrent] at freezing
      exact absurd (attended.frozen task freezing).1 isCurrent
  case owners =>
    intro task mutex guarded
    rw [sched, switched.currentTask]
    by_cases isNext : task = next
    · exact Or.inl isNext
    · right
      by_cases isCurrent : task = threads.sched.currentTask
      · rw [isCurrent, moves.here, guards] at guarded
        have awake := attended.awake
          (attended.runs (Place.ne_outside_of_guards guarded))
          (Place.awake_of_guards guarded switchAwake)
        exact mem_items_of_switched switched (Or.inl isCurrent)
          (isCurrent ▸ awake) (fun different => absurd isCurrent different)
          isNext
      · rw [moves.elsewhere isCurrent] at guarded
        obtain ⟨queued, waits⟩ :=
          (attended.owners task mutex guarded).resolve_left isCurrent
        exact mem_items_of_switched switched (Or.inr queued) (Or.inr waits)
          (fun _ => waits) isNext
  case awake =>
    intro _ _
    left
    rw [sched, switched.stateOf, switched.currentTask, if_pos rfl]

/-! ## Statements -/

/-- A statement of the running task. It may wake tasks, and freeze itself. -/
theorem Attended.advance (attended : Attended threads)
    (inside : threads.Runs)
    (moves : Moves threads threads' threads.sched.currentTask place)
    (same : SameQueue threads.sched threads'.sched)
    (states : ∀ task, task ≠ threads.sched.currentTask →
      threads'.sched.stateOf task = threads.sched.stateOf task ∨
        threads'.sched.stateOf task = .inQueue)
    (awake : place.awake = true →
      Awake threads'.sched threads.sched.currentTask)
    (frozen : place.freezing = true →
      threads'.sched.stateOf threads.sched.currentTask = .frozen) :
    Attended threads' := by
  have unmoved : ∀ task, task ≠ threads.sched.currentTask →
      threads.place task = .outside → threads'.place task = .outside :=
    fun task different isOutside =>
      (moves.elsewhere different).trans isOutside
  constructor
  case allocated =>
    intro queue found
    rw [same.taskQueue] at found
    exact attended.allocated queue found
  case currentBound =>
    rw [same.currentTask, same.started]
    exact attended.currentBound
  case itemsBound =>
    rw [same.items_eq, same.started]
    exact attended.itemsBound
  case null => exact unmoved 0 inside.1.symm attended.null
  case bootstrap =>
    rw [same.bootstrap]
    exact unmoved _ inside.2.symm attended.bootstrap
  case unborn =>
    intro task unborn
    rw [same.started] at unborn
    refine unmoved task ?_ (attended.unborn task unborn)
    rintro rfl
    exact Nat.not_lt_of_le attended.currentBound unborn
  case frozen =>
    intro task freezing
    rw [same.currentTask]
    by_cases isCurrent : task = threads.sched.currentTask
    · rw [isCurrent, moves.here] at freezing
      exact ⟨isCurrent, isCurrent ▸ frozen freezing⟩
    · rw [moves.elsewhere isCurrent] at freezing
      exact absurd (attended.frozen task freezing).1 isCurrent
  case owners =>
    intro task mutex guarded
    rw [same.currentTask, same.items_eq]
    by_cases isCurrent : task = threads.sched.currentTask
    · exact Or.inl isCurrent
    · rw [moves.elsewhere isCurrent] at guarded
      obtain ⟨queued, waits⟩ :=
        (attended.owners task mutex guarded).resolve_left isCurrent
      refine Or.inr ⟨queued, ?_⟩
      rcases states task isCurrent with unchanged | woken
      · rw [unchanged]
        exact waits
      · exact woken
  case awake =>
    intro _ isAwake
    rw [same.currentTask]
    rw [Threads.here, same.currentTask, moves.here] at isAwake
    exact awake isAwake

/-- A statement that changes no state. -/
theorem Attended.continue (attended : Attended threads)
    (inside : threads.Runs)
    (moves : Moves threads threads' threads.sched.currentTask place)
    (same : SameQueue threads.sched threads'.sched)
    (states : threads'.sched.tasks = threads.sched.tasks)
    (awake : place.awake = true → threads.here.awake = true)
    (frozen : place.freezing = true → threads.here.freezing = true) :
    Attended threads' := by
  have stateOf : ∀ task,
      threads'.sched.stateOf task = threads.sched.stateOf task := by
    intro task
    rw [Sched.stateOf, states]
  refine attended.advance inside moves same
    (fun task _ => Or.inl (stateOf task)) ?_ ?_
  · intro isAwake
    rw [Awake, stateOf]
    exact attended.awake inside (awake isAwake)
  · intro freezing
    rw [stateOf]
    exact (attended.frozen _ (frozen freezing)).2

theorem Attended.spinlockLock {statement next : Statement}
    (attended : Attended threads)
    (stands : threads.here = .inside mutex statement)
    (isAwake : (Place.inside mutex statement).awake = true)
    (notFreezing : next.freezing = false) :
    Attended
      (spinlockLock threads threads.sched.currentTask mutex next) := by
  have inside : threads.Runs := by
    apply attended.runs
    rw [stands]
    exact Place.noConfusion
  rw [Threading.spinlockLock]
  split
  · have unmoved : Moves threads (threads.setSpinlock mutex 1)
        threads.sched.currentTask threads.here :=
      (Function.update_eq_self _ _).symm
    exact attended.continue inside unmoved ⟨rfl, rfl, rfl, rfl⟩ rfl id id
  · refine attended.continue inside rfl ⟨rfl, rfl, rfl, rfl⟩ rfl ?_ ?_
    · intro _
      rw [stands]
      exact isAwake
    · intro freezing
      rw [Place.freezing, notFreezing] at freezing
      cases freezing

/-- Every statement keeps the invariant, except that a frozen task may come to
the end of its `yield` only by a switch. -/
theorem Attended.execute (attended : Attended threads)
    (notYield : ∀ mutex, threads.here ≠ .inside mutex .yieldSelf) :
    Attended (execute threads threads.sched.currentTask) := by
  cases stands : threads.here with
  | outside =>
      rw [Threading.execute, show threads.place _ = _ from stands]
      exact attended
  | inside mutex statement =>
      have inside : threads.Runs := by
        apply attended.runs
        rw [stands]
        exact Place.noConfusion
      have quiet : ∀ {next : Place} {threads' : Threads Ext},
          Moves threads threads' threads.sched.currentTask next →
          SameQueue threads.sched threads'.sched →
          threads'.sched.tasks = threads.sched.tasks →
          (next.awake = true → (Place.inside mutex statement).awake = true) →
          (next.freezing = true →
            (Place.inside mutex statement).freezing = true) →
          Attended threads' := by
        intro next threads' moves same tasks awake frozen
        rw [← stands] at awake frozen
        exact attended.continue inside moves same tasks awake frozen
      rw [Threading.execute, show threads.place _ = _ from stands]
      cases statement with
      | lockSpin => exact attended.spinlockLock stands rfl rfl
      | lockTest =>
          cases isLocked : (threads.sched.mutexes mutex).locked <;>
            simp only [isLocked, if_true, Bool.false_eq_true, if_false] <;>
              exact quiet rfl ⟨rfl, rfl, rfl, rfl⟩ rfl (fun _ => rfl)
                (fun freezing => absurd freezing Bool.false_ne_true)
      | freezeSelf =>
          refine attended.advance inside rfl ⟨rfl, rfl, rfl, rfl⟩ ?_
            (fun awake => absurd awake Bool.false_ne_true) ?_
          · intro task different
            left
            exact (stateOf_setState).trans (if_neg different)
          · intro _
            exact (stateOf_setState).trans (if_pos rfl)
      | enqueueSelf =>
          exact quiet rfl ⟨rfl, rfl, rfl, rfl⟩ rfl
            (fun awake => absurd awake Bool.false_ne_true) (fun _ => rfl)
      | unlockFrozen =>
          exact quiet rfl ⟨rfl, rfl, rfl, rfl⟩ rfl
            (fun awake => absurd awake Bool.false_ne_true)
            (fun freezing => absurd freezing Bool.false_ne_true)
      | yieldSelf => exact absurd stands (notYield mutex)
      | tryAgain | setLocked | unlockLocked | clearLocked | unlockWoken =>
          exact quiet rfl ⟨rfl, rfl, rfl, rfl⟩ rfl (fun _ => rfl)
            (fun freezing => absurd freezing Bool.false_ne_true)
      | unlockSpin => exact attended.spinlockLock stands rfl rfl
      | dequeueTask =>
          cases waiting : (threads.sched.mutexes mutex).waitingTasks with
          | nil =>
              simp only [waiting]
              exact quiet rfl ⟨rfl, rfl, rfl, rfl⟩ rfl (fun _ => rfl)
                (fun freezing => absurd freezing Bool.false_ne_true)
          | cons task tasks =>
              simp only [waiting]
              split <;>
                exact quiet rfl ⟨rfl, rfl, rfl, rfl⟩ rfl (fun _ => rfl)
                  (fun freezing => absurd freezing Bool.false_ne_true)
      | wakeTask woken =>
          have states : ∀ task,
              (threads.sched.setState woken .inQueue).stateOf task =
                  threads.sched.stateOf task ∨
                (threads.sched.setState woken .inQueue).stateOf task =
                  .inQueue := by
            intro task
            rw [stateOf_setState]
            split
            · exact Or.inr rfl
            · exact Or.inl rfl
          refine attended.advance inside rfl ⟨rfl, rfl, rfl, rfl⟩
            (fun task _ => states task) ?_
            (fun freezing => absurd freezing Bool.false_ne_true)
          intro _
          have before := attended.awake inside (by rw [stands]; rfl)
          rcases states threads.sched.currentTask with unchanged | isWoken
          · exact before.imp unchanged.trans unchanged.trans
          · exact Or.inr isWoken

/-! ## New tasks -/

/-- A new task is in the queue, and outside of the two functions. -/
theorem Attended.start {record : Scheduler.Task Ext}
    {queue pushed : MinHeap TaskPtr}
    (attended : Attended threads)
    (started : Started threads.sched record queue pushed sched') :
    Attended { threads with sched := sched' } := by
  have bound : sched'.started = threads.sched.started + 1 := by
    rw [started.result]
  have current : sched'.currentTask = threads.sched.currentTask := by
    rw [started.result]
  have bootstrap : sched'.bootstrap = threads.sched.bootstrap := by
    rw [started.result]
  have old : ∀ task, task ≤ threads.sched.started →
      sched'.stateOf task = threads.sched.stateOf task := by
    intro task born
    rw [Sched.stateOf, started.tasks_old born]
  constructor
  case allocated =>
    intro other found
    rw [started.taskQueue] at found
    cases found
    exact started.push.allocated
  case currentBound =>
    simp only [current, bound]
    exact Nat.le_succ_of_le attended.currentBound
  case itemsBound =>
    intro task (member : task ∈ items sched')
    rw [started.items_eq] at member
    simp only [bound]
    rcases Multiset.mem_cons.mp member with rfl | member
    · exact Nat.le_refl _
    · exact Nat.le_succ_of_le (attended.itemsBound task member)
  case null => exact attended.null
  case bootstrap =>
    simp only [bootstrap]
    exact attended.bootstrap
  case unborn =>
    intro task unborn
    simp only [bound] at unborn
    exact attended.unborn task (Nat.lt_of_succ_lt unborn)
  case frozen =>
    intro task freezing
    obtain ⟨isCurrent, frozen⟩ := attended.frozen task freezing
    refine ⟨isCurrent.trans current.symm, (old task ?_).trans frozen⟩
    rw [isCurrent]
    exact attended.currentBound
  case owners =>
    intro task mutex guards
    simp only [current]
    rcases attended.owners task mutex guards with isCurrent | ⟨queued, waits⟩
    · exact Or.inl isCurrent
    · refine Or.inr ⟨?_, (old task (attended.itemsBound task queued)).trans
        waits⟩
      rw [started.items_eq]
      exact Multiset.mem_cons_of_mem queued
  case awake =>
    intro runs isAwake
    simp only [Threads.Runs, current, bootstrap] at runs
    simp only [Threads.here, current] at isAwake
    simp only [current, Awake, old _ attended.currentBound]
    exact attended.awake runs isAwake

/-- The scheduler's own variables change, before any task runs. -/
theorem Attended.boot (attended : Attended threads)
    (booting : threads.sched.currentTask = 0)
    (outside : threads.place self = .outside)
    (born : self ≤ threads.sched.started)
    (allocated : QueueAllocated sched')
    (items : items sched' = items threads.sched)
    (current : sched'.currentTask = self) (bootstrap : sched'.bootstrap = self)
    (started : sched'.started = threads.sched.started)
    (stateOf : ∀ task, task ≠ self →
      sched'.stateOf task = threads.sched.stateOf task) :
    Attended { threads with sched := sched' } := by
  have notFreezing : ∀ task, (threads.place task).freezing = true → False := by
    intro task freezing
    have isNull := (attended.frozen task freezing).1.trans booting
    rw [isNull, attended.null] at freezing
    cases freezing
  constructor
  case allocated => exact allocated
  case currentBound =>
    simp only [current, started]
    exact born
  case itemsBound =>
    simp only [items, started]
    exact attended.itemsBound
  case null => exact attended.null
  case bootstrap =>
    simp only [bootstrap]
    exact outside
  case unborn =>
    simp only [started]
    exact attended.unborn
  case frozen => exact fun task freezing => (notFreezing task freezing).elim
  case owners =>
    intro task mutex guards
    have inside := Place.ne_outside_of_guards guards
    have notSelf : task ≠ self := by
      rintro rfl
      exact inside outside
    have notNull : task ≠ threads.sched.currentTask := by
      rintro rfl
      rw [booting] at inside
      exact inside attended.null
    obtain ⟨queued, waits⟩ :=
      (attended.owners task mutex guards).resolve_left notNull
    exact Or.inr ⟨items ▸ queued, (stateOf task notSelf).trans waits⟩
  case awake =>
    intro runs
    exact absurd (current.trans bootstrap.symm) runs.2

/-! ## Runs -/

theorem switch_of_switchThreads
    (result : switchThreads threads i now later = some threads') :
    ∃ i' sched', threads' = { threads with sched := sched' } ∧
      taskSwitchIsr threads.sched i now later = .ok (i', sched') := by
  rw [switchThreads] at result
  split at result
  · cases result
  · split at result
    · next i' sched' switched =>
        cases result
        exact ⟨i', sched', rfl, switched⟩
    · cases result

/-- A switch that is not allowed leaves a frozen owner behind. -/
theorem Attended.not_ownersRun (attended : Attended threads)
    (freezing : threads.here.freezing = true)
    (result : taskSwitchIsr threads.sched i now later = .ok (i', sched'))
    (place : threads'.place = threads.place)
    (sched : threads'.sched = sched') : ¬ OwnersRun threads' := by
  obtain ⟨queue, pushed, dropped, next, rest, switched⟩ :=
    switched_of_taskSwitchIsr attended.allocated result
  have frozen := (attended.frozen _ freezing).2
  have different : threads.sched.currentTask ≠ next := by
    intro same
    have runs := switched.selected.runs
    rw [← same] at runs
    have state : (preempt threads.sched i now).stateOf
        threads.sched.currentTask = .frozen := by
      rw [preempt_stateOf, frozen,
        if_neg (by rintro ⟨_, running⟩; cases running)]
    cases runs.symm.trans state
  have guards : ∃ mutex, threads.here.guards = some mutex := by
    cases stands : threads.here with
    | outside =>
        rw [stands] at freezing
        cases freezing
    | inside mutex statement =>
        rw [stands] at freezing
        refine ⟨mutex, ?_⟩
        cases statement <;> first | rfl | exact nomatch freezing
  obtain ⟨mutex, guards⟩ := guards
  intro owners
  have stuck := owners threads.sched.currentTask mutex (place ▸ guards)
  rw [sched, switched.currentTask] at stuck
  obtain ⟨_, waits⟩ := stuck.resolve_left different
  rw [switched.stateOf, if_neg different, frozen,
    if_neg (by rintro ⟨_, running⟩; cases running)] at waits
  cases waits

variable [Zero Ext] {event : Event Ext}

/-- Every step that is allowed keeps the invariant. -/
theorem Attended.step (attended : Attended threads)
    (step : Schedule threads event threads')
    (allowed : SwitchesAwake threads event threads') : Attended threads' := by
  have same : Moves threads threads threads.sched.currentTask threads.here :=
    (Function.update_eq_self _ _).symm
  cases event with
  | start start context stack area =>
      rw [Schedule, schedule] at step
      split at step
      · split at step
        · next result =>
            cases step
            obtain ⟨_, queue, pushed, started⟩ :=
              started_of_startTask attended.allocated result
            exact attended.start started
        · cases step
      · cases step
  | mainLoop cpuid stack area =>
      rw [Schedule, schedule] at step
      split at step
      · next booting =>
          split at step
          · next result =>
              cases step
              obtain ⟨queue, pushed, middle, started, rfl⟩ :=
                mainLoop_cases attended.allocated result
              have saved : Attended
                  { threads with
                    sched := withSaveMode threads.sched cpuid } :=
                ⟨attended.allocated, attended.currentBound,
                  attended.itemsBound, attended.null, attended.bootstrap,
                  attended.unborn, attended.frozen, attended.owners,
                  attended.awake⟩
              have between : Attended { threads with sched := middle } :=
                saved.start started
              have bound : middle.started = threads.sched.started + 1 := by
                rw [started.result]
                rfl
              have current : middle.currentTask = 0 := by
                rw [started.result]
                exact booting
              refine between.boot current
                (attended.unborn (threads.sched.started + 1)
                  (Nat.lt_succ_self _))
                (Nat.le_of_eq bound.symm) between.allocated rfl rfl rfl rfl ?_
              intro task different
              exact (stateOf_terminateTask).trans (if_neg different)
          · cases step
      · cases step
  | timer i now later =>
      obtain ⟨i', sched', rfl, result⟩ := switch_of_switchThreads step
      exact attended.switch same rfl id allowed allowed result rfl
  | yieldSelf i now later =>
      rw [Schedule, schedule] at step
      split at step
      · next outside =>
          obtain ⟨i', sched', rfl, result⟩ := switch_of_switchThreads step
          exact attended.switch same rfl id allowed allowed result rfl
      · next mutex stands =>
          have moved : Threading.execute threads threads.sched.currentTask =
              threads.goto threads.sched.currentTask
                (.inside mutex .tryAgain) := by
            rw [Threading.execute, show threads.place _ = _ from stands]
          rw [moved] at step
          obtain ⟨i', sched', rfl, result⟩ := switch_of_switchThreads step
          have moves : Moves threads
              { threads.goto threads.sched.currentTask
                (.inside mutex .tryAgain) with sched := sched' }
              threads.sched.currentTask (.inside mutex .tryAgain) := rfl
          refine attended.switch moves ?_ ?_ rfl allowed result rfl
          · rw [stands]
            rfl
          · intro outside
            rw [stands] at outside
            cases outside
      · cases step
  | lock mutex =>
      rw [Schedule, schedule] at step
      split at step
      · next free =>
          cases step
          refine attended.continue free.1 rfl ⟨rfl, rfl, rfl, rfl⟩ rfl
            (fun _ => ?_) (fun freezing => absurd freezing Bool.false_ne_true)
          rw [free.2]
          rfl
      · cases step
  | unlock mutex =>
      rw [Schedule, schedule] at step
      split at step
      · next free =>
          cases step
          refine attended.continue free.1 rfl ⟨rfl, rfl, rfl, rfl⟩ rfl
            (fun _ => ?_) (fun freezing => absurd freezing Bool.false_ne_true)
          rw [free.2]
          rfl
      · cases step
  | statement =>
      rw [Schedule, schedule] at step
      split at step
      · cases step
      · cases step
      · next mutex statement notYield stands =>
          split at step
          · cases step
            refine attended.execute ?_
            intro other isYield
            rw [stands] at isYield
            cases isYield
            exact notYield rfl
          · cases step

/-- In a run, every owner of a spinlock can always go on, exactly when no task
is switched away between the statement that freezes it and the release of the
spinlock. -/
theorem ownersRun_iff (registers : Ext) (events : List (Event Ext)) :
    Always Schedule (freshThreads (bootSched registers)) events
        (fun _ threads => OwnersRun threads) ↔
      AlwaysStep Schedule (freshThreads (bootSched registers)) events
        SwitchesAwake := by
  apply always_iff_of_invariant fun _ threads => Attended threads
  · exact attended_fresh registers
  · intro _ _ _ _ attended step allowed
    exact attended.step step allowed
  · intro _ _ attended
    exact attended.owners
  · intro _ event threads threads' attended step owners
    cases event with
    | timer i now later =>
        obtain ⟨i', sched', rfl, result⟩ := switch_of_switchThreads step
        by_contra freezing
        have left : ({ threads with sched := sched' } : Threads Ext).place =
            threads.place := rfl
        exact attended.not_ownersRun (eq_true_of_ne_false freezing) result left
          rfl owners
    | yieldSelf i now later =>
        rw [Schedule, schedule] at step
        rw [SwitchesAwake]
        split at step
        · next outside =>
            rw [outside]
            rfl
        · next mutex stands =>
            rw [stands]
            rfl
        · cases step
    | _ => trivial

end Preempted

/-! ## A lost owner -/

/-- Task 1 takes a mutex. Task 2 finds it taken, and the timer comes right after
it has frozen itself. -/
def freezingEvents : List (Event Nat) :=
  [.start 0 0 0 0, .start 0 0 0 0, .mainLoop plainCpuid 0 0,
    .timer zeroFrame 0 0, .lock 0, .statement, .statement, .statement,
    .statement, .timer zeroFrame 10 10, .lock 0, .statement, .statement,
    .statement, .timer zeroFrame 30 30]

/-- Then task 1 runs again, and task 2 owns the spinlock for ever. -/
theorem freezingEvents_not_ownersRun :
    ∃ threads, Run Schedule (freshThreads (bootSched 0)) freezingEvents threads ∧
      ¬ OwnersRun threads := by
  have lost : ((performSteps schedule (freshThreads (bootSched 0))
      freezingEvents).map fun threads =>
        (threads.place 2, threads.sched.currentTask,
          threads.sched.stateOf 2)) =
      some (.inside 0 .enqueueSelf, 1, .frozen) := by
    rfl
  obtain ⟨threads, performed, facts⟩ := Option.map_eq_some_iff.mp lost
  simp only [Prod.mk.injEq] at facts
  obtain ⟨stands, current, frozen⟩ := facts
  refine ⟨threads, run_of_performSteps (fun _ _ _ taken => taken) performed, ?_⟩
  intro owners
  have guards : (threads.place 2).guards = some 0 := by
    rw [stands]
    rfl
  rcases owners 2 0 guards with runs | ⟨_, waits⟩
  · rw [current] at runs
    cases runs
  · rw [frozen] at waits
    cases waits

end BeaverOS.Threading
