import BeaverOS.Threading.Preemption
import BeaverOS.Threading.Waiting

/-!
# Where the frozen tasks are

A task freezes itself in `mutex_lock`, enters the waiting queue of the mutex and
yields; `mutex_unlock` takes it out of the queue and marks it as runnable. The
timer may interrupt both functions before any statement. Still every frozen
task is at exactly one of three places: about to enter a queue, once in one
queue, or in the hands of one task that wakes it.
-/

namespace BeaverOS.Threading

open BeaverOS.Heap
open BeaverOS.Isr
open BeaverOS.Scheduler
open BeaverOS.Transition

/-- The places of a frozen task. -/
inductive Spot where
  /-- It has frozen itself in `mutex_lock`, and enters the queue next. -/
  | entering (mutex : Nat)
  | queued (mutex : Nat)
  /-- Another task has taken it out of the queue, and wakes it next. -/
  | taken (waker : TaskPtr) (mutex : Nat)
  deriving DecidableEq, Repr

/-- The statements between the entry into the queue and the next attempt to
lock. -/
def Statement.parked : Statement → Bool
  | .unlockFrozen | .yieldSelf | .tryAgain => true
  | _ => false

/-- The mutex that a task at this place has queued up for. -/
def Place.parkedAt : Place → Option Nat
  | .outside => none
  | .inside mutex statement => if statement.parked then some mutex else none

section Frozen

variable {Ext : Type} {threads threads' : Threads Ext} {sched' : Sched Ext}
  {self task waker : TaskPtr} {mutex other : Nat} {place : Place}
  {i i' : InterruptFrame} {now later : Word}

/-- The tasks in the waiting queue of a mutex. -/
abbrev Threads.waiting (threads : Threads Ext) (mutex : Nat) : List TaskPtr :=
  (threads.sched.mutexes mutex).waitingTasks

/-- A task is at this place. -/
def Threads.At (threads : Threads Ext) (task : TaskPtr) : Spot → Prop
  | .entering mutex => threads.place task = .inside mutex .enqueueSelf
  | .queued mutex => task ∈ threads.waiting mutex
  | .taken waker mutex => threads.place waker = .inside mutex (.wakeTask task)

/-- The frozen tasks are those at one of the places, each is at exactly one, and
in a queue only once. -/
structure FrozenOnce (threads : Threads Ext) : Prop where
  frozen :
    ∀ task spot, threads.At task spot → threads.sched.stateOf task = .frozen
  spot :
    ∀ task, threads.sched.stateOf task = .frozen → ∃! spot, threads.At task spot
  once : ∀ mutex, (threads.waiting mutex).Nodup

/-- Only tasks that exist are anywhere. -/
structure Born (threads : Threads Ext) : Prop where
  allocated : QueueAllocated threads.sched
  currentBound : threads.sched.currentTask ≤ threads.sched.started
  itemsBound : ∀ task ∈ items threads.sched, task ≤ threads.sched.started
  null : threads.place 0 = .outside
  unborn :
    ∀ task, threads.sched.started < task → threads.place task = .outside

/-- A frozen task is about to enter a queue, in a queue, or about to be
woken. -/
structure Parked (threads : Threads Ext) : Prop where
  entering :
    ∀ task mutex, threads.place task = .inside mutex .enqueueSelf →
      threads.sched.stateOf task = .frozen
  waiting :
    ∀ mutex, ∀ task ∈ threads.waiting mutex,
      threads.sched.stateOf task = .frozen ∧
        (threads.place task).parkedAt = some mutex
  once : ∀ mutex, (threads.waiting mutex).Nodup
  woken :
    ∀ waker mutex task, threads.place waker = .inside mutex (.wakeTask task) →
      threads.sched.stateOf task = .frozen ∧
        (threads.place task).parkedAt = some mutex ∧
        task ∉ threads.waiting mutex
  waker :
    ∀ first second mutex other task,
      threads.place first = .inside mutex (.wakeTask task) →
      threads.place second = .inside other (.wakeTask task) → first = second
  frozen :
    ∀ task, threads.sched.stateOf task = .frozen →
      (∃ mutex, threads.place task = .inside mutex .enqueueSelf) ∨
      (∃ mutex, task ∈ threads.waiting mutex) ∨
      ∃ waker mutex, threads.place waker = .inside mutex (.wakeTask task)

/-- The running task is frozen only between the statement that freezes it and
its `yield`. -/
def RunsAwake (threads : Threads Ext) : Prop :=
  threads.sched.stateOf threads.sched.currentTask = .frozen →
    threads.here.freezing = true ∨
      ∃ mutex, threads.here = .inside mutex .yieldSelf

theorem born_fresh [Zero Ext] (registers : Ext) :
    Born (freshThreads (bootSched registers)) where
  allocated := by
    intro queue found
    cases found
  currentBound := Nat.le_refl 0
  itemsBound := fun task member => absurd member (Multiset.notMem_zero task)
  null := rfl
  unborn := fun _ _ => rfl

theorem parked_fresh [Zero Ext] (registers : Ext) :
    Parked (freshThreads (bootSched registers)) where
  entering := by
    intro task mutex stands
    cases stands
  waiting := fun _ task member => absurd member List.not_mem_nil
  once := fun _ => List.nodup_nil
  woken := by
    intro waker mutex task stands
    cases stands
  waker := by
    intro first second mutex other task stands
    cases stands
  frozen := by
    intro task frozen
    cases frozen

theorem runsAwake_fresh [Zero Ext] (registers : Ext) :
    RunsAwake (freshThreads (bootSched registers)) := by
  intro frozen
  cases frozen

/-! ## Where a task is parked -/

theorem waiting_setMutex {fields : Mutex} :
    (threads.setMutex mutex fields).waiting mutex = fields.waitingTasks := by
  simp [Threads.waiting, Threads.setMutex]

theorem waiting_setMutex_of_ne {fields : Mutex} (different : other ≠ mutex) :
    (threads.setMutex mutex fields).waiting other = threads.waiting other := by
  simp [Threads.waiting, Threads.setMutex, Function.update_of_ne different]

theorem Place.ne_outside_of_parkedAt (parked : place.parkedAt = some mutex) :
    place ≠ .outside := by
  rintro rfl
  cases parked

/-- A frozen task is inside of `mutex_lock`. -/
theorem Parked.inside (parked : Parked threads)
    (frozen : threads.sched.stateOf task = .frozen) :
    threads.place task ≠ .outside := by
  rcases parked.frozen task frozen with
    ⟨mutex, entering⟩ | ⟨mutex, member⟩ | ⟨waker, mutex, wakes⟩
  · rw [entering]
    exact Place.noConfusion
  · exact Place.ne_outside_of_parkedAt (parked.waiting mutex task member).2
  · exact Place.ne_outside_of_parkedAt (parked.woken waker mutex task wakes).2.1

/-- The scheduler freezes and wakes nobody. -/
theorem Parked.reschedule (parked : Parked threads)
    (frozen : ∀ task, sched'.stateOf task = .frozen ↔
      threads.sched.stateOf task = .frozen)
    (mutexes : sched'.mutexes = threads.sched.mutexes) :
    Parked { threads with sched := sched' } := by
  refine ⟨?_, ?_, ?_, ?_, parked.waker, ?_⟩
  · intro task mutex stands
    exact (frozen task).mpr (parked.entering task mutex stands)
  · simp only [Threads.waiting, mutexes]
    intro mutex task member
    exact (parked.waiting mutex task member).imp_left (frozen task).mpr
  · simp only [Threads.waiting, mutexes]
    exact parked.once
  · simp only [Threads.waiting, mutexes]
    intro waker mutex task stands
    exact (parked.woken waker mutex task stands).imp_left (frozen task).mpr
  · simp only [Threads.waiting, mutexes]
    intro task isFrozen
    exact parked.frozen task ((frozen task).mp isFrozen)

/-- A move of one task that freezes and wakes nobody, and changes no queue. -/
theorem Parked.move (parked : Parked threads)
    (moves : Moves threads threads' self place)
    (frozen : ∀ task, threads'.sched.stateOf task = threads.sched.stateOf task)
    (queues : ∀ mutex, threads'.waiting mutex = threads.waiting mutex)
    (notEntered : ∀ mutex, threads.place self ≠ .inside mutex .enqueueSelf)
    (notEntering : ∀ mutex, place ≠ .inside mutex .enqueueSelf)
    (notWoke : ∀ mutex task, threads.place self ≠ .inside mutex (.wakeTask task))
    (notWakes : ∀ mutex task, place ≠ .inside mutex (.wakeTask task))
    (stays : threads.sched.stateOf self = .frozen → ∀ mutex,
      (threads.place self).parkedAt = some mutex →
        place.parkedAt = some mutex) : Parked threads' := by
  have parkedAt : ∀ task mutex, threads.sched.stateOf task = .frozen →
      (threads.place task).parkedAt = some mutex →
        (threads'.place task).parkedAt = some mutex := by
    intro task mutex isFrozen isParked
    by_cases isSelf : task = self
    · rw [isSelf] at isFrozen isParked ⊢
      rw [moves.here]
      exact stays isFrozen mutex isParked
    · rw [moves.elsewhere isSelf]
      exact isParked
  have wakes : ∀ waker mutex task,
      threads'.place waker = .inside mutex (.wakeTask task) ↔
        threads.place waker = .inside mutex (.wakeTask task) := by
    intro waker mutex task
    by_cases isSelf : waker = self
    · rw [isSelf, moves.here]
      exact iff_of_false (notWakes mutex task) (notWoke mutex task)
    · rw [moves.elsewhere isSelf]
  have enters : ∀ task mutex,
      threads'.place task = .inside mutex .enqueueSelf ↔
        threads.place task = .inside mutex .enqueueSelf := by
    intro task mutex
    by_cases isSelf : task = self
    · rw [isSelf, moves.here]
      exact iff_of_false (notEntering mutex) (notEntered mutex)
    · rw [moves.elsewhere isSelf]
  refine ⟨?_, ?_, ?_, ?_, ?_, ?_⟩
  · intro task mutex stands
    rw [frozen]
    exact parked.entering task mutex ((enters task mutex).mp stands)
  · intro mutex task member
    rw [queues] at member
    obtain ⟨isFrozen, isParked⟩ := parked.waiting mutex task member
    rw [frozen]
    exact ⟨isFrozen, parkedAt task mutex isFrozen isParked⟩
  · intro mutex
    rw [queues]
    exact parked.once mutex
  · intro waker mutex task stands
    obtain ⟨isFrozen, isParked, notQueued⟩ :=
      parked.woken waker mutex task ((wakes waker mutex task).mp stands)
    rw [frozen, queues]
    exact ⟨isFrozen, parkedAt task mutex isFrozen isParked, notQueued⟩
  · intro first second mutex other task firstWakes secondWakes
    exact parked.waker first second mutex other task
      ((wakes _ _ _).mp firstWakes) ((wakes _ _ _).mp secondWakes)
  · intro task isFrozen
    rw [frozen] at isFrozen
    simp only [enters, wakes, queues]
    exact parked.frozen task isFrozen

/-! ## The statements that freeze and wake -/

/-- A task outside of the parked places is in no queue, and nobody wakes
it. -/
theorem Parked.not_waiting (parked : Parked threads)
    (notParked : (threads.place self).parkedAt = none) :
    (∀ mutex, self ∉ threads.waiting mutex) ∧
      ∀ waker mutex, threads.place waker ≠ .inside mutex (.wakeTask self) := by
  constructor
  · intro mutex member
    rw [(parked.waiting mutex self member).2] at notParked
    cases notParked
  · intro waker mutex stands
    rw [(parked.woken waker mutex self stands).2.1] at notParked
    cases notParked

theorem Parked.freezeSelf (parked : Parked threads)
    (stands : threads.place self = .inside mutex .freezeSelf) :
    Parked (execute threads self) := by
  generalize result : execute threads self = threads'
  rw [Threading.execute, stands] at result
  have moves : Moves threads threads' self (.inside mutex .enqueueSelf) := by
    rw [← result]
    rfl
  have queues : ∀ mutex, threads'.waiting mutex = threads.waiting mutex := by
    rw [← result]
    exact fun _ => rfl
  have states : ∀ task, threads'.sched.stateOf task =
      if task = self then .frozen else threads.sched.stateOf task := by
    rw [← result]
    exact fun _ => stateOf_setState
  have unparked : (threads.place self).parkedAt = none := by
    rw [stands]
    rfl
  obtain ⟨notQueued, notWoken⟩ := parked.not_waiting unparked
  have wakes : ∀ waker other task,
      threads'.place waker = .inside other (.wakeTask task) →
        threads.place waker = .inside other (.wakeTask task) ∧ task ≠ self := by
    intro waker other task wakes
    have before := (moves.not_moved wakes (by simp)).2
    refine ⟨before, ?_⟩
    rintro rfl
    exact notWoken waker other before
  refine ⟨?_, ?_, ?_, ?_, ?_, ?_⟩
  · intro task other entering
    rw [states]
    by_cases isSelf : task = self
    · rw [if_pos isSelf]
    · rw [moves.elsewhere isSelf] at entering
      rw [if_neg isSelf]
      exact parked.entering task other entering
  · intro other task member
    rw [queues] at member
    have notSelf : task ≠ self := by
      rintro rfl
      exact notQueued other member
    rw [states, if_neg notSelf, moves.elsewhere notSelf]
    exact parked.waiting other task member
  · intro other
    rw [queues]
    exact parked.once other
  · intro waker other task stands'
    obtain ⟨before, notSelf⟩ := wakes waker other task stands'
    rw [states, if_neg notSelf, moves.elsewhere notSelf, queues]
    exact parked.woken waker other task before
  · intro first second one two task firstWakes secondWakes
    exact parked.waker first second one two task
      (wakes _ _ _ firstWakes).1 (wakes _ _ _ secondWakes).1
  · intro task frozen
    by_cases isSelf : task = self
    · rw [isSelf]
      exact Or.inl ⟨mutex, moves.here⟩
    · rw [states, if_neg isSelf] at frozen
      simp only [queues, moves.elsewhere isSelf]
      refine (parked.frozen task frozen).imp_right (Or.imp_right ?_)
      rintro ⟨waker, other, before⟩
      refine ⟨waker, other, (moves.elsewhere ?_).trans before⟩
      rintro rfl
      rw [stands] at before
      cases before

theorem Parked.enqueueSelf (parked : Parked threads)
    (stands : threads.place self = .inside mutex .enqueueSelf) :
    Parked (execute threads self) := by
  generalize result : execute threads self = threads'
  rw [Threading.execute, stands] at result
  have moves : Moves threads threads' self (.inside mutex .unlockFrozen) := by
    rw [← result]
    rfl
  have queue : threads'.waiting mutex = threads.waiting mutex ++ [self] := by
    rw [← result]
    exact waiting_setMutex
  have queues : ∀ other, other ≠ mutex →
      threads'.waiting other = threads.waiting other := by
    rw [← result]
    exact fun other => waiting_setMutex_of_ne
  have states : ∀ task,
      threads'.sched.stateOf task = threads.sched.stateOf task := by
    rw [← result]
    exact fun _ => rfl
  have unparked : (threads.place self).parkedAt = none := by
    rw [stands]
    rfl
  obtain ⟨notQueued, notWoken⟩ := parked.not_waiting unparked
  have members : ∀ other task, task ∈ threads'.waiting other →
      task ∈ threads.waiting other ∧ task ≠ self ∨
        task = self ∧ other = mutex := by
    intro other task member
    by_cases isSelf : task = self
    · refine Or.inr ⟨isSelf, ?_⟩
      by_contra different
      rw [queues other different, isSelf] at member
      exact notQueued other member
    · refine Or.inl ⟨?_, isSelf⟩
      by_cases same : other = mutex
      · rw [same, queue, List.mem_append, List.mem_singleton] at member
        exact same ▸ member.resolve_right isSelf
      · rw [queues other same] at member
        exact member
  have kept : ∀ other task, task ∈ threads.waiting other →
      task ∈ threads'.waiting other := by
    intro other task member
    by_cases same : other = mutex
    · rw [same, queue]
      exact List.mem_append_left _ (same ▸ member)
    · rw [queues other same]
      exact member
  refine ⟨?_, ?_, ?_, ?_, ?_, ?_⟩
  · intro task other entering
    rw [states]
    exact parked.entering task other (moves.not_moved entering (by simp)).2
  · intro other task member
    rw [states]
    rcases members other task member with ⟨before, notSelf⟩ | ⟨rfl, rfl⟩
    · rw [moves.elsewhere notSelf]
      exact parked.waiting other task before
    · rw [moves.here]
      exact ⟨parked.entering task other stands, rfl⟩
  · intro other
    by_cases same : other = mutex
    · rw [same, queue, List.nodup_append]
      refine ⟨parked.once mutex, List.nodup_singleton self, ?_⟩
      rintro task member _ isSelf rfl
      rw [List.mem_singleton] at isSelf
      exact notQueued mutex (isSelf ▸ member)
    · rw [queues other same]
      exact parked.once other
  · intro waker other task wakes
    have before := (moves.not_moved wakes (by simp)).2
    have notSelf : task ≠ self := by
      rintro rfl
      exact notWoken waker other before
    obtain ⟨frozen, isParked, outside⟩ :=
      parked.woken waker other task before
    rw [states, moves.elsewhere notSelf]
    refine ⟨frozen, isParked, fun member => ?_⟩
    rcases members other task member with ⟨inside, _⟩ | ⟨isSelf, _⟩
    · exact outside inside
    · exact notSelf isSelf
  · intro first second one two task firstWakes secondWakes
    exact parked.waker first second one two task
      (moves.not_moved firstWakes (by simp)).2
      (moves.not_moved secondWakes (by simp)).2
  · intro task frozen
    rw [states] at frozen
    by_cases isSelf : task = self
    · refine Or.inr (Or.inl ⟨mutex, ?_⟩)
      rw [queue, isSelf]
      exact List.mem_append_right _ List.mem_cons_self
    · rcases parked.frozen task frozen with
        ⟨other, entering⟩ | ⟨other, member⟩ | ⟨waker, other, wakes⟩
      · exact Or.inl ⟨other, (moves.elsewhere isSelf).trans entering⟩
      · exact Or.inr (Or.inl ⟨other, kept other task member⟩)
      · refine Or.inr (Or.inr ⟨waker, other, ?_⟩)
        refine (moves.elsewhere ?_).trans wakes
        rintro rfl
        rw [stands] at wakes
        cases wakes

/-- The first task of the queue is now in the hands of the task that took
it. -/
theorem Parked.dequeueTask {tasks : List TaskPtr} (parked : Parked threads)
    (stands : threads.place self = .inside mutex .dequeueTask)
    (queue : threads.waiting mutex = task :: tasks) (notNull : task ≠ 0) :
    Parked (execute threads self) := by
  generalize result : execute threads self = threads'
  rw [Threading.execute, stands] at result
  simp only [show (threads.sched.mutexes mutex).waitingTasks = _ from queue,
    if_neg notNull] at result
  have moves : Moves threads threads' self (.inside mutex (.wakeTask task)) := by
    rw [← result]
    rfl
  have rest : threads'.waiting mutex = tasks := by
    rw [← result]
    exact waiting_setMutex
  have queues : ∀ other, other ≠ mutex →
      threads'.waiting other = threads.waiting other := by
    rw [← result]
    exact fun other => waiting_setMutex_of_ne
  have states : ∀ task,
      threads'.sched.stateOf task = threads.sched.stateOf task := by
    rw [← result]
    exact fun _ => rfl
  have first : task ∈ threads.waiting mutex := by
    rw [queue]
    exact List.mem_cons_self
  have once : task ∉ tasks ∧ tasks.Nodup := by
    rw [← List.nodup_cons, ← queue]
    exact parked.once mutex
  have unparked : (threads.place self).parkedAt = none := by
    rw [stands]
    rfl
  obtain ⟨notQueued, notWoken⟩ := parked.not_waiting unparked
  have kept : ∀ other found, found ∈ threads'.waiting other →
      found ∈ threads.waiting other := by
    intro other found member
    by_cases same : other = mutex
    · rw [same, rest] at member
      rw [same, queue]
      exact List.mem_cons_of_mem task member
    · rw [queues other same] at member
      exact member
  have wakes : ∀ waker other found,
      threads'.place waker = .inside other (.wakeTask found) →
        (waker = self ∧ other = mutex ∧ found = task) ∨
          (waker ≠ self ∧ threads.place waker = .inside other (.wakeTask found) ∧
            found ≠ task) := by
    intro waker other found wakes
    by_cases isSelf : waker = self
    · rw [isSelf, moves.here] at wakes
      cases wakes
      exact Or.inl ⟨isSelf, rfl, rfl⟩
    · rw [moves.elsewhere isSelf] at wakes
      refine Or.inr ⟨isSelf, wakes, ?_⟩
      rintro rfl
      obtain ⟨_, isParked, outside⟩ := parked.woken waker other found wakes
      rw [(parked.waiting mutex found first).2] at isParked
      cases isParked
      exact outside first
  have parkedAt : ∀ found other, (threads.place found).parkedAt = some other →
      (threads'.place found).parkedAt = some other := by
    intro found other isParked
    rw [moves.elsewhere]
    · exact isParked
    · rintro rfl
      rw [stands] at isParked
      cases isParked
  refine ⟨?_, ?_, ?_, ?_, ?_, ?_⟩
  · intro found other entering
    rw [states]
    exact parked.entering found other (moves.not_moved entering (by simp)).2
  · intro other found member
    rw [states]
    exact (parked.waiting other found (kept other found member)).imp_right
      (parkedAt found other)
  · intro other
    by_cases same : other = mutex
    · rw [same, rest]
      exact once.2
    · rw [queues other same]
      exact parked.once other
  · intro waker other found stands'
    rw [states]
    rcases wakes waker other found stands' with
      ⟨rfl, rfl, rfl⟩ | ⟨_, before, _⟩
    · obtain ⟨frozen, isParked⟩ := parked.waiting other found first
      rw [rest]
      exact ⟨frozen, parkedAt found other isParked, once.1⟩
    · obtain ⟨frozen, isParked, outside⟩ :=
        parked.woken waker other found before
      exact ⟨frozen, parkedAt found other isParked,
        fun member => outside (kept other found member)⟩
  · intro one two mutexOne mutexTwo found oneWakes twoWakes
    rcases wakes one mutexOne found oneWakes with
      ⟨rfl, _, isTask⟩ | ⟨_, oneBefore, notTask⟩
    · rcases wakes two mutexTwo found twoWakes with
        ⟨isSelf, _⟩ | ⟨_, _, notTask⟩
      · exact isSelf.symm
      · exact absurd isTask notTask
    · rcases wakes two mutexTwo found twoWakes with
        ⟨_, _, isTask⟩ | ⟨_, twoBefore, _⟩
      · exact absurd isTask notTask
      · exact parked.waker one two mutexOne mutexTwo found oneBefore twoBefore
  · intro found frozen
    rw [states] at frozen
    rcases parked.frozen found frozen with
      ⟨other, entering⟩ | ⟨other, member⟩ | ⟨waker, other, before⟩
    · refine Or.inl ⟨other, (moves.elsewhere ?_).trans entering⟩
      rintro rfl
      rw [stands] at entering
      cases entering
    · by_cases same : other = mutex
      · rw [same, queue] at member
        rcases List.mem_cons.mp member with rfl | member
        · exact Or.inr (Or.inr ⟨self, mutex, moves.here⟩)
        · exact Or.inr (Or.inl ⟨mutex, rest ▸ member⟩)
      · exact Or.inr (Or.inl ⟨other, (queues other same).symm ▸ member⟩)
    · refine Or.inr (Or.inr ⟨waker, other, (moves.elsewhere ?_).trans before⟩)
      rintro rfl
      rw [stands] at before
      cases before

/-- The woken task leaves the hands of its waker as a runnable one. -/
theorem Parked.wakeTask (parked : Parked threads)
    (stands : threads.place self = .inside mutex (.wakeTask task)) :
    Parked (execute threads self) := by
  generalize result : execute threads self = threads'
  rw [Threading.execute, stands] at result
  have moves : Moves threads threads' self (.inside mutex .dequeueTask) := by
    rw [← result]
    rfl
  have queues : ∀ other, threads'.waiting other = threads.waiting other := by
    rw [← result]
    exact fun _ => rfl
  have states : ∀ found, threads'.sched.stateOf found =
      if found = task then .inQueue else threads.sched.stateOf found := by
    rw [← result]
    exact fun _ => stateOf_setState
  obtain ⟨_, taskParked, outside⟩ := parked.woken self mutex task stands
  have wakes : ∀ waker other found,
      threads'.place waker = .inside other (.wakeTask found) →
        threads.place waker = .inside other (.wakeTask found) ∧
          found ≠ task := by
    intro waker other found wakes
    obtain ⟨notSelf, before⟩ := moves.not_moved wakes (by simp)
    refine ⟨before, ?_⟩
    rintro rfl
    exact notSelf (parked.waker waker self other mutex found before stands)
  have parkedAt : ∀ found other, (threads.place found).parkedAt = some other →
      (threads'.place found).parkedAt = some other := by
    intro found other isParked
    rw [moves.elsewhere]
    · exact isParked
    · rintro rfl
      rw [stands] at isParked
      cases isParked
  have member_ne : ∀ other found, found ∈ threads.waiting other →
      found ≠ task := by
    rintro other found member rfl
    have isParked := (parked.waiting other found member).2
    rw [taskParked] at isParked
    cases isParked
    exact outside member
  refine ⟨?_, ?_, ?_, ?_, ?_, ?_⟩
  · intro found other entering
    have before := (moves.not_moved entering (by simp)).2
    rw [states, if_neg]
    · exact parked.entering found other before
    · rintro rfl
      rw [before] at taskParked
      cases taskParked
  · intro other found member
    rw [queues] at member
    rw [states, if_neg (member_ne other found member)]
    exact (parked.waiting other found member).imp_right (parkedAt found other)
  · intro other
    rw [queues]
    exact parked.once other
  · intro waker other found stands'
    obtain ⟨before, notTask⟩ := wakes waker other found stands'
    rw [states, if_neg notTask, queues]
    exact (parked.woken waker other found before).imp_right
      (And.imp_left (parkedAt found other))
  · intro first second one two found firstWakes secondWakes
    exact parked.waker first second one two found
      (wakes _ _ _ firstWakes).1 (wakes _ _ _ secondWakes).1
  · intro found frozen
    have notTask : found ≠ task := by
      rintro rfl
      rw [states, if_pos rfl] at frozen
      cases frozen
    rw [states, if_neg notTask] at frozen
    simp only [queues]
    rcases parked.frozen found frozen with
      ⟨other, entering⟩ | queued | ⟨waker, other, before⟩
    · refine Or.inl ⟨other, (moves.elsewhere ?_).trans entering⟩
      rintro rfl
      rw [stands] at entering
      cases entering
    · exact Or.inr (Or.inl queued)
    · refine Or.inr (Or.inr ⟨waker, other, (moves.elsewhere ?_).trans before⟩)
      rintro rfl
      rw [stands] at before
      cases before
      exact notTask rfl

/-- A store to `locked`. -/
theorem waiting_setLocked {locked : Bool} :
    (threads.setMutex mutex
      { threads.sched.mutexes mutex with locked := locked }).waiting other =
      threads.waiting other := by
  by_cases same : other = mutex
  · rw [same, waiting_setMutex]
  · rw [waiting_setMutex_of_ne same]

theorem stays_setSpinlock {value : Word}
    (stands : threads.place self = place) :
    Moves threads (threads.setSpinlock mutex value) self place := by
  rw [Moves, ← stands]
  exact (Function.update_eq_self _ _).symm

/-- Every statement of a task keeps the frozen tasks accounted for, if a frozen
task has not come back from its `yield`. -/
theorem Parked.execute (parked : Parked threads)
    (null : threads.place 0 = .outside)
    (awake : threads.sched.stateOf self = .frozen →
      ∀ mutex, threads.place self ≠ .inside mutex .tryAgain) :
    Parked (execute threads self) := by
  cases stands : threads.place self with
  | outside =>
      rw [Threading.execute, stands]
      exact parked
  | inside mutex statement =>
      -- the statements that neither freeze, nor wake, nor change a queue
      have quiet : ∀ {next : Statement} {threads' : Threads Ext},
          Moves threads threads' self (.inside mutex next) →
          (∀ task, threads'.sched.stateOf task = threads.sched.stateOf task) →
          (∀ mutex, threads'.waiting mutex = threads.waiting mutex) →
          (statement ≠ .enqueueSelf ∧ next ≠ .enqueueSelf) →
          (∀ task, statement ≠ .wakeTask task ∧ next ≠ .wakeTask task) →
          (statement.parked = true → next.parked = true) →
          Parked threads' := by
        intro next threads' moves states queues enters wakes stays
        refine parked.move moves states queues ?_ ?_ ?_ ?_ ?_
        · rintro other equal
          rw [stands] at equal
          cases equal
          exact enters.1 rfl
        · rintro other equal
          cases equal
          exact enters.2 rfl
        · rintro other task equal
          rw [stands] at equal
          cases equal
          exact (wakes task).1 rfl
        · rintro other task equal
          cases equal
          exact (wakes task).2 rfl
        · intro _ other isParked
          rw [stands, Place.parkedAt] at isParked
          split at isParked
          · next before =>
              rw [Place.parkedAt, if_pos (stays before)]
              exact isParked
          · cases isParked
      cases statement with
      | freezeSelf => exact parked.freezeSelf stands
      | enqueueSelf => exact parked.enqueueSelf stands
      | wakeTask task => exact parked.wakeTask stands
      | dequeueTask =>
          cases queue : threads.waiting mutex with
          | nil =>
              rw [Threading.execute, stands]
              simp only [show (threads.sched.mutexes mutex).waitingTasks = _
                from queue]
              exact quiet rfl (fun _ => rfl) (fun _ => rfl) (by simp) (by simp)
                (by simp [Statement.parked])
          | cons task tasks =>
              refine parked.dequeueTask stands queue ?_
              rintro rfl
              have first := parked.waiting mutex 0
                (queue ▸ List.mem_cons_self)
              rw [null] at first
              cases first.2
      | tryAgain =>
          rw [Threading.execute, stands]
          refine parked.move rfl (fun _ => rfl) (fun _ => rfl) ?_ (by simp) ?_
            (by simp) ?_
          · simp [stands]
          · simp [stands]
          · intro frozen
            exact absurd stands (awake frozen mutex)
      | lockSpin | unlockSpin =>
          rw [Threading.execute, stands]
          simp only [spinlockLock]
          split
          · exact quiet (stays_setSpinlock stands) (fun _ => rfl)
              (fun _ => rfl) (by simp) (by simp) id
          · exact quiet rfl (fun _ => rfl) (fun _ => rfl) (by simp) (by simp)
              (by simp [Statement.parked])
      | lockTest =>
          rw [Threading.execute, stands]
          cases isLocked : (threads.sched.mutexes mutex).locked <;>
            simp only [isLocked] <;>
              exact quiet rfl (fun _ => rfl) (fun _ => rfl) (by simp) (by simp)
                (by simp [Statement.parked])
      | unlockFrozen | yieldSelf =>
          rw [Threading.execute, stands]
          exact quiet rfl (fun _ => rfl) (fun _ => rfl) (by simp) (by simp)
            (by simp [Statement.parked])
      | setLocked =>
          rw [Threading.execute, stands]
          exact quiet rfl (fun _ => rfl) (fun _ => waiting_setLocked) (by simp)
            (by simp) (by simp [Statement.parked])
      | clearLocked =>
          rw [Threading.execute, stands]
          exact quiet rfl (fun _ => rfl) (fun _ => waiting_setLocked) (by simp)
            (by simp) (by simp [Statement.parked])
      | unlockLocked | unlockWoken =>
          rw [Threading.execute, stands]
          refine parked.move rfl (fun _ => rfl) (fun _ => rfl) ?_ (by simp) ?_
            (by simp) ?_
          · simp [stands]
          · simp [stands]
          · simp [stands, Place.parkedAt, Statement.parked]

/-! ## The other steps -/

/-- A switch freezes and wakes nobody. -/
theorem frozen_iff_of_switched {sched : Sched Ext}
    {queue pushed rest : MinHeap TaskPtr} {dropped : Multiset TaskPtr}
    {next : TaskPtr}
    (switched : Switched sched i now later queue pushed dropped next rest i'
      sched') (task : TaskPtr) :
    sched'.stateOf task = .frozen ↔ sched.stateOf task = .frozen := by
  constructor
  · intro frozen
    rw [switched.stateOf] at frozen
    split at frozen
    · cases frozen
    · split at frozen
      · cases frozen
      · exact frozen
  · intro frozen
    rw [switched.stateOf, if_neg (switched.next_ne (Or.inl frozen)), if_neg]
    · exact frozen
    · rintro ⟨_, runs⟩
      rw [frozen] at runs
      cases runs

theorem sameQueue_spinlockLock {next : Statement} :
    SameQueue threads.sched (spinlockLock threads self mutex next).sched := by
  rw [spinlockLock]
  split <;> exact ⟨rfl, rfl, rfl, rfl⟩

/-- No statement touches the run queue. -/
theorem sameQueue_execute :
    SameQueue threads.sched (execute threads self).sched := by
  cases stands : threads.place self with
  | outside =>
      rw [Threading.execute, stands]
      exact ⟨rfl, rfl, rfl, rfl⟩
  | inside mutex statement =>
      rw [Threading.execute, stands]
      cases statement with
      | lockSpin | unlockSpin => exact sameQueue_spinlockLock
      | dequeueTask =>
          cases queue : (threads.sched.mutexes mutex).waitingTasks <;>
            simp only [queue] <;> exact ⟨rfl, rfl, rfl, rfl⟩
      | _ => exact ⟨rfl, rfl, rfl, rfl⟩

/-- Only `self->state = TASK_STATE_FROZEN` freezes a task, and it freezes the
one that executes it. -/
theorem frozen_of_execute
    (frozen : (execute threads self).sched.stateOf task = .frozen) :
    threads.sched.stateOf task = .frozen ∨
      task = self ∧ ∃ mutex, threads.place self = .inside mutex .freezeSelf := by
  cases stands : threads.place self with
  | outside =>
      rw [Threading.execute, stands] at frozen
      exact Or.inl frozen
  | inside mutex statement =>
      rw [Threading.execute, stands] at frozen
      cases statement with
      | lockSpin | unlockSpin =>
          simp only [spinlockLock] at frozen
          split at frozen <;> exact Or.inl frozen
      | dequeueTask =>
          cases queue : (threads.sched.mutexes mutex).waitingTasks <;>
            simp only [queue] at frozen <;> exact Or.inl frozen
      | freezeSelf =>
          change (threads.sched.setState self .frozen).stateOf task = _ at frozen
          rw [stateOf_setState] at frozen
          split at frozen
          · next isSelf => exact Or.inr ⟨isSelf, mutex, rfl⟩
          · exact Or.inl frozen
      | wakeTask woken =>
          change (threads.sched.setState woken .inQueue).stateOf task = _
            at frozen
          rw [stateOf_setState] at frozen
          split at frozen
          · cases frozen
          · exact Or.inl frozen
      | _ => exact Or.inl frozen

/-- The running task goes on inside of the functions. -/
theorem Born.advance (born : Born threads)
    (inside : threads.here ≠ .outside)
    (elsewhere : ∀ task, task ≠ threads.sched.currentTask →
      threads'.place task = threads.place task)
    (same : SameQueue threads.sched threads'.sched) : Born threads' := by
  refine ⟨?_, ?_, ?_, ?_, ?_⟩
  · intro queue found
    rw [same.taskQueue] at found
    exact born.allocated queue found
  · rw [same.currentTask, same.started]
    exact born.currentBound
  · rw [same.items_eq, same.started]
    exact born.itemsBound
  · rw [elsewhere, born.null]
    intro isCurrent
    rw [Threads.here, ← isCurrent] at inside
    exact inside born.null
  · intro task unborn
    rw [same.started] at unborn
    rw [elsewhere, born.unborn task unborn]
    rintro rfl
    exact Nat.not_lt_of_le born.currentBound unborn

theorem Born.execute (born : Born threads)
    (inside : threads.here ≠ .outside) :
    Born (execute threads threads.sched.currentTask) :=
  born.advance inside (fun _ different => (execute_other different).1)
    sameQueue_execute

/-- A frozen task goes on up to its `yield`. -/
theorem RunsAwake.execute (awake : RunsAwake threads)
    (inside : threads.here ≠ .outside)
    (notYield : ∀ mutex, threads.here ≠ .inside mutex .yieldSelf) :
    RunsAwake (execute threads threads.sched.currentTask) := by
  intro frozen
  rw [Threads.here, sameQueue_execute.currentTask]
  rw [sameQueue_execute.currentTask] at frozen
  rcases frozen_of_execute frozen with before | ⟨_, mutex, stands⟩
  · rcases awake before with freezing | ⟨mutex, stands⟩
    · cases stands : threads.here with
      | outside => exact absurd stands inside
      | inside mutex statement =>
          rw [stands] at freezing
          rw [Threading.execute, show threads.place _ = _ from stands]
          cases statement with
          | enqueueSelf =>
              left
              simp only [Threads.goto, Function.update_self]
              rfl
          | unlockFrozen =>
              exact Or.inr ⟨mutex, Function.update_self _ _ _⟩
          | _ => cases freezing
    · exact absurd stands (notYield mutex)
  · left
    rw [Threading.execute, stands]
    simp only [Threads.goto, Function.update_self]
    rfl

/-- The invariant of a run. -/
structure Accounted (threads : Threads Ext) : Prop where
  born : Born threads
  parked : Parked threads
  awake : RunsAwake threads

theorem accounted_fresh [Zero Ext] (registers : Ext) :
    Accounted (freshThreads (bootSched registers)) :=
  ⟨born_fresh registers, parked_fresh registers, runsAwake_fresh registers⟩

/-- A switch chooses a task that is not frozen. -/
theorem Accounted.switch (born : Born threads) (parked : Parked threads)
    (result : taskSwitchIsr threads.sched i now later = .ok (i', sched')) :
    Accounted { threads with sched := sched' } := by
  obtain ⟨queue, pushed, dropped, next, rest, switched⟩ :=
    switched_of_taskSwitchIsr born.allocated result
  have bound : ∀ task ∈ threads.sched.currentTask ::ₘ items threads.sched,
      task ≤ threads.sched.started := by
    intro task member
    rcases Multiset.mem_cons.mp member with rfl | member
    · exact born.currentBound
    · exact born.itemsBound task member
  refine ⟨⟨?_, ?_, ?_, born.null, ?_⟩, ?_, ?_⟩
  · intro other found
    simp only [switched.taskQueue, Option.some.injEq] at found
    exact found ▸ switched.selected.allocated
  · simp only [switched.currentTask, switched.started]
    exact bound next switched.next_mem
  · intro task kept
    simp only [switched.started]
    refine bound task ?_
    rw [switched.items_eq]
    exact Multiset.mem_add.mpr (Or.inr (Multiset.mem_cons_of_mem kept))
  · simp only [switched.started]
    exact born.unborn
  · exact parked.reschedule (frozen_iff_of_switched switched) switched.mutexes
  · intro frozen
    simp only [switched.stateOf, switched.currentTask, if_true] at frozen
    cases frozen

/-- A new task is not frozen. -/
theorem Accounted.start {record : Scheduler.Task Ext}
    {queue pushed : MinHeap TaskPtr} (accounted : Accounted threads)
    (started : Started threads.sched record queue pushed sched')
    (queued : record.state ≠ .frozen) :
    Accounted { threads with sched := sched' } := by
  have bound : sched'.started = threads.sched.started + 1 := by
    rw [started.result]
  have current : sched'.currentTask = threads.sched.currentTask := by
    rw [started.result]
  have mutexes : sched'.mutexes = threads.sched.mutexes := by
    rw [started.result]
  have born := accounted.born
  have frozen : ∀ task, sched'.stateOf task = .frozen ↔
      threads.sched.stateOf task = .frozen := by
    intro task
    by_cases isNew : task = threads.sched.started + 1
    · have unborn := born.unborn task (by rw [isNew]; exact Nat.lt_succ_self _)
      rw [Sched.stateOf, isNew, started.tasks_new, ← isNew]
      exact iff_of_false queued
        (fun before => accounted.parked.inside before unborn)
    · rw [Sched.stateOf, Sched.stateOf, started.result]
      simp only [Function.update_of_ne isNew]
  refine ⟨⟨?_, ?_, ?_, born.null, ?_⟩, ?_, ?_⟩
  · intro other found
    simp only [started.taskQueue, Option.some.injEq] at found
    exact found ▸ started.push.allocated
  · simp only [current, bound]
    exact Nat.le_succ_of_le born.currentBound
  · intro task (member : task ∈ items sched')
    rw [started.items_eq] at member
    simp only [bound]
    rcases Multiset.mem_cons.mp member with rfl | member
    · exact Nat.le_refl _
    · exact Nat.le_succ_of_le (born.itemsBound task member)
  · intro task unborn
    simp only [bound] at unborn
    exact born.unborn task (Nat.lt_of_succ_lt unborn)
  · exact accounted.parked.reschedule frozen mutexes
  · intro isFrozen
    simp only [frozen, current] at isFrozen
    simp only [Threads.here, current]
    exact accounted.awake isFrozen

/-- The bootstrap task has never called `mutex_lock`, and is not frozen. -/
theorem Accounted.boot (accounted : Accounted threads)
    (outside : threads.place self = .outside)
    (born : self ≤ threads.sched.started) :
    Accounted { threads with
      sched := terminateTask (withBootstrap threads.sched self) self } := by
  have stateOf : ∀ task,
      (terminateTask (withBootstrap threads.sched self) self).stateOf task =
        if task = self then .terminated else threads.sched.stateOf task :=
    fun _ => stateOf_terminateTask
  refine ⟨⟨accounted.born.allocated, born, accounted.born.itemsBound,
    accounted.born.null, accounted.born.unborn⟩, ?_, ?_⟩
  · refine accounted.parked.reschedule (fun task => ?_) rfl
    rw [stateOf]
    by_cases isSelf : task = self
    · rw [if_pos isSelf]
      refine iff_of_false TaskState.noConfusion fun frozen => ?_
      exact accounted.parked.inside frozen (isSelf ▸ outside)
    · rw [if_neg isSelf]
  · intro frozen
    rw [stateOf] at frozen
    split at frozen
    · cases frozen
    · next notSelf => exact absurd rfl notSelf

/-- A running task calls one of the two functions. -/
theorem Accounted.call {first : Statement} (accounted : Accounted threads)
    (free : threads.Runs ∧ threads.here = .outside)
    (spins : first.freezing = false)
    (notWake : ∀ task, first ≠ .wakeTask task) :
    Accounted (call threads threads.sched.currentTask mutex first) := by
  have born := accounted.born
  have moves : Moves threads
      (Threading.call threads threads.sched.currentTask mutex first)
      threads.sched.currentTask (.inside mutex first) := rfl
  have notFrozen : threads.sched.stateOf threads.sched.currentTask ≠ .frozen :=
    fun frozen => accounted.parked.inside frozen free.2
  have notEntering : ∀ other, Place.inside mutex first ≠
      .inside other .enqueueSelf := by
    rintro other equal
    cases equal
    cases spins
  refine ⟨⟨born.allocated, born.currentBound, born.itemsBound, ?_, ?_⟩, ?_, ?_⟩
  · exact (moves.elsewhere free.1.1.symm).trans born.null
  · intro task unborn
    refine (moves.elsewhere ?_).trans (born.unborn task unborn)
    rintro rfl
    exact Nat.not_lt_of_le born.currentBound unborn
  · refine accounted.parked.move moves (fun _ => rfl) (fun _ => rfl) ?_
      notEntering ?_ ?_ (fun frozen => absurd frozen notFrozen)
    · simp [show threads.place _ = _ from free.2]
    · simp [show threads.place _ = _ from free.2]
    · rintro other task equal
      exact notWake task (Place.inside.inj equal).2
  · exact fun frozen => absurd frozen notFrozen

/-! ## The place of a frozen task -/

/-- A task at one of the places is frozen. -/
theorem Parked.frozen_of_at {spot : Spot} (parked : Parked threads)
    (found : threads.At task spot) : threads.sched.stateOf task = .frozen := by
  cases spot with
  | entering mutex => exact parked.entering task mutex found
  | queued mutex => exact (parked.waiting mutex task found).1
  | taken waker mutex => exact (parked.woken waker mutex task found).1

/-- A task is at one place only. -/
theorem Parked.spot_unique {first second : Spot} (parked : Parked threads)
    (one : threads.At task first) (two : threads.At task second) :
    first = second := by
  have notParked : ∀ mutex, threads.At task (.entering mutex) →
      (threads.place task).parkedAt = none := by
    intro mutex entering
    rw [show threads.place task = _ from entering]
    rfl
  have notTaken : ∀ mutex waker other, threads.At task (.queued mutex) →
      ¬ threads.At task (.taken waker other) := by
    intro mutex waker other queued taken
    obtain ⟨_, isParked, outside⟩ := parked.woken waker other task taken
    rw [(parked.waiting mutex task queued).2] at isParked
    cases isParked
    exact outside queued
  cases first with
  | entering mutex =>
      obtain ⟨notQueued, notWoken⟩ := parked.not_waiting (notParked mutex one)
      cases second with
      | entering other =>
          exact congrArg _ (Place.inside.inj (one.symm.trans two)).1
      | queued other => exact absurd two (notQueued other)
      | taken waker other => exact absurd two (notWoken waker other)
  | queued mutex =>
      cases second with
      | entering other =>
          exact absurd one ((parked.not_waiting (notParked other two)).1 mutex)
      | queued other =>
          have same := (parked.waiting mutex task one).2
          rw [(parked.waiting other task two).2] at same
          exact congrArg _ (Option.some.inj same).symm
      | taken waker other => exact absurd two (notTaken mutex waker other one)
  | taken waker mutex =>
      cases second with
      | entering other =>
          exact absurd one
            ((parked.not_waiting (notParked other two)).2 waker mutex)
      | queued other => exact absurd one (notTaken other waker mutex two)
      | taken another other =>
          have same := parked.waker waker another mutex other task one two
          subst same
          exact congrArg _ (Place.inside.inj (one.symm.trans two)).1

theorem Parked.frozenOnce (parked : Parked threads) : FrozenOnce threads where
  frozen := fun _ _ => parked.frozen_of_at
  spot := by
    intro task frozen
    have found : ∃ spot, threads.At task spot := by
      rcases parked.frozen task frozen with
        ⟨mutex, entering⟩ | ⟨mutex, queued⟩ | ⟨waker, mutex, taken⟩
      · exact ⟨.entering mutex, entering⟩
      · exact ⟨.queued mutex, queued⟩
      · exact ⟨.taken waker mutex, taken⟩
    obtain ⟨spot, found⟩ := found
    exact ⟨spot, found, fun other two => parked.spot_unique two found⟩
  once := parked.once

/-! ## Runs -/

variable [Zero Ext] {event : Event Ext}

/-- Every step of the processor keeps the frozen tasks accounted for. -/
theorem Accounted.step (accounted : Accounted threads)
    (step : Schedule threads event threads') : Accounted threads' := by
  have born := accounted.born
  cases event with
  | start start context stack area =>
      rw [Schedule, schedule] at step
      split at step
      · split at step
        · next result =>
            cases step
            obtain ⟨_, queue, pushed, started⟩ :=
              started_of_startTask born.allocated result
            exact accounted.start started (by simp [newTask])
        · cases step
      · cases step
  | mainLoop cpuid stack area =>
      rw [Schedule, schedule] at step
      split at step
      · split at step
        · next result =>
            cases step
            obtain ⟨queue, pushed, middle, started, rfl⟩ :=
              mainLoop_cases born.allocated result
            have saved : Accounted
                { threads with sched := withSaveMode threads.sched cpuid } :=
              ⟨⟨born.allocated, born.currentBound, born.itemsBound, born.null,
                born.unborn⟩, accounted.parked.reschedule (fun _ => Iff.rfl) rfl,
                accounted.awake⟩
            have between : Accounted { threads with sched := middle } :=
              saved.start started (by simp [newTask])
            have bound : middle.started = threads.sched.started + 1 := by
              rw [started.result]
              rfl
            exact between.boot
              (born.unborn (threads.sched.started + 1) (Nat.lt_succ_self _))
              (Nat.le_of_eq bound.symm)
        · cases step
      · cases step
  | timer i now later =>
      obtain ⟨i', sched', rfl, result⟩ := switch_of_switchThreads step
      exact Accounted.switch born accounted.parked result
  | yieldSelf i now later =>
      rw [Schedule, schedule] at step
      split at step
      · obtain ⟨i', sched', rfl, result⟩ := switch_of_switchThreads step
        exact Accounted.switch born accounted.parked result
      · next mutex stands =>
          have inside : threads.here ≠ .outside := by
            rw [stands]
            exact Place.noConfusion
          have notLast : threads.sched.stateOf threads.sched.currentTask =
              .frozen → ∀ other, threads.here ≠ .inside other .tryAgain := by
            rintro _ other equal
            rw [stands] at equal
            cases equal
          obtain ⟨i', sched', rfl, result⟩ := switch_of_switchThreads step
          exact Accounted.switch (born.execute inside)
            (accounted.parked.execute born.null notLast) result
      · cases step
  | lock mutex =>
      rw [Schedule, schedule] at step
      split at step
      · next free =>
          cases step
          exact accounted.call free rfl (fun _ => Statement.noConfusion)
      · cases step
  | unlock mutex =>
      rw [Schedule, schedule] at step
      split at step
      · next free =>
          cases step
          exact accounted.call free rfl (fun _ => Statement.noConfusion)
      · cases step
  | statement =>
      rw [Schedule, schedule] at step
      split at step
      · cases step
      · cases step
      · next mutex statement notYield stands =>
          split at step
          · cases step
            have inside : threads.here ≠ .outside := by
              rw [stands]
              exact Place.noConfusion
            have notLast : threads.sched.stateOf threads.sched.currentTask =
                .frozen → ∀ other, threads.here ≠ .inside other .tryAgain := by
              intro frozen other last
              rcases accounted.awake frozen with freezing | ⟨mutex, isYield⟩
              · rw [last] at freezing
                cases freezing
              · rw [last] at isYield
                cases isYield
            refine ⟨born.execute inside, accounted.parked.execute born.null
              notLast, accounted.awake.execute inside ?_⟩
            intro other isYield
            rw [stands] at isYield
            cases isYield
            exact notYield rfl
          · cases step

/-- In every run, no task is lost while it is frozen, and none is woken twice:
the timer may come before any statement. -/
theorem frozen_accounted (registers : Ext) (events : List (Event Ext)) :
    Always Schedule (freshThreads (bootSched registers)) events
      fun _ threads => FrozenOnce threads := by
  intro before after threads split run
  have accounted : Accounted threads :=
    run.invariant (accounted_fresh registers)
      fun _ _ _ accounted step => accounted.step step
  exact accounted.parked.frozenOnce

end Frozen

end BeaverOS.Threading
