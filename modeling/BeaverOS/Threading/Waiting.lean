import BeaverOS.Threading.Exclusion

/-!
# Nobody waits for a free mutex

A task enters the waiting queue of a mutex only while the mutex is locked, and
the task that clears `locked` empties the queue before it releases the spinlock.
So whenever the queue is not empty, some task owns the mutex, and will empty the
queue when it calls `mutex_unlock`, or is about to empty it already.
-/

namespace BeaverOS.Threading

open BeaverOS.Scheduler
open BeaverOS.Transition

section Waiting

variable {Ext : Type} {threads threads' : Threads Ext}
  {self task : TaskPtr} {mutex other : Nat} {place : Place}

/-- The task is in the loop of `mutex_unlock`. -/
def Drains (threads : Threads Ext) (task : TaskPtr) (mutex : Nat) : Prop :=
  threads.place task = .inside mutex .dequeueTask ∨
    ∃ woken, threads.place task = .inside mutex (.wakeTask woken)

/-- The task has seen the mutex locked, and is about to enter the queue. -/
def Joins (threads : Threads Ext) (task : TaskPtr) (mutex : Nat) : Prop :=
  threads.place task = .inside mutex .freezeSelf ∨
    threads.place task = .inside mutex .enqueueSelf

/-- The tasks that wait for the mutex are attended to. -/
structure Attentive (threads : Threads Ext) (mutex : Nat) : Prop where
  joins :
    ∀ task, Joins threads task mutex →
      (threads.sched.mutexes mutex).locked = true
  waiting :
    (threads.sched.mutexes mutex).waitingTasks ≠ [] →
      (threads.sched.mutexes mutex).locked = true ∨
        ∃ task, Drains threads task mutex
  owned :
    (threads.sched.mutexes mutex).locked = true →
      ∃ task, Owns threads task mutex
  nonnull : 0 ∉ (threads.sched.mutexes mutex).waitingTasks

theorem attentive_fresh (sched : Sched Ext) (mutex : Nat) :
    Attentive (freshThreads sched) mutex where
  joins := by
    rintro task (stands | stands) <;> cases stands
  waiting := fun some => absurd rfl some
  owned := by
    intro locked
    cases locked
  nonnull := List.not_mem_nil

/-! ## Moves -/

/-- Who joins has not moved, unless it has moved there. -/
theorem Joins.unmoved (joins : Joins threads' task mutex)
    (moves : Moves threads threads' self place)
    (notFreeze : place ≠ .inside mutex .freezeSelf)
    (notEnqueue : place ≠ .inside mutex .enqueueSelf) :
    Joins threads task mutex :=
  joins.imp (fun stands => (moves.not_moved stands notFreeze).2)
    fun stands => (moves.not_moved stands notEnqueue).2

/-- An owner is one after the move of another task. -/
theorem Owns.moved (owns : Owns threads task mutex)
    (moves : Moves threads threads' self place)
    (holders : threads'.holders mutex = threads.holders mutex)
    (notOwner : threads.place self ≠ .inside mutex .unlockLocked) :
    Owns threads' task mutex := by
  rw [Owns, holders]
  refine owns.imp_right fun stands => ?_
  have notSelf : task ≠ self := by
    rintro rfl
    exact notOwner stands
  rw [moves.elsewhere notSelf]
  exact stands

/-- A task that empties the queue still does so after the move of another
task. -/
theorem Drains.moved (drains : Drains threads task mutex)
    (moves : Moves threads threads' self place)
    (different : ¬ Drains threads self mutex) :
    Drains threads' task mutex := by
  have notSelf : task ≠ self := by
    rintro rfl
    exact different drains
  rw [Drains, moves.elsewhere notSelf]
  exact drains

/-- A move that leaves the mutex as it is. -/
theorem Attentive.move (attentive : Attentive threads mutex) (self : TaskPtr)
    (moves : Moves threads threads' self place)
    (mutexes : threads'.sched.mutexes mutex = threads.sched.mutexes mutex)
    (holders : threads'.holders mutex = threads.holders mutex)
    (joins :
      place = .inside mutex .freezeSelf ∨ place = .inside mutex .enqueueSelf →
        (threads.sched.mutexes mutex).locked = true)
    (drains : Drains threads self mutex → Drains threads' self mutex)
    (notOwner : threads.place self ≠ .inside mutex .unlockLocked) :
    Attentive threads' mutex := by
  refine ⟨?_, ?_, ?_, ?_⟩
  · intro task joining
    rw [mutexes]
    by_cases isSelf : task = self
    · rw [Joins, isSelf, moves.here] at joining
      exact joins joining
    · rw [Joins, moves.elsewhere isSelf] at joining
      exact attentive.joins task joining
  · intro some
    rw [mutexes] at some ⊢
    refine (attentive.waiting some).imp_right ?_
    rintro ⟨task, draining⟩
    by_cases selfDrains : Drains threads self mutex
    · exact ⟨self, drains selfDrains⟩
    · exact ⟨task, draining.moved moves selfDrains⟩
  · intro locked
    rw [mutexes] at locked
    obtain ⟨task, owns⟩ := attentive.owned locked
    exact ⟨task, owns.moved moves holders notOwner⟩
  · rw [mutexes]
    exact attentive.nonnull

/-- A move that has nothing to do with the mutex. -/
theorem Attentive.elsewhere (attentive : Attentive threads mutex)
    (moves : Moves threads threads' self place)
    (mutexes : threads'.sched.mutexes mutex = threads.sched.mutexes mutex)
    (holders : threads'.holders mutex = threads.holders mutex)
    (before : ∀ statement, threads.place self ≠ .inside mutex statement)
    (after : ∀ statement, place ≠ .inside mutex statement) :
    Attentive threads' mutex := by
  refine attentive.move self moves mutexes holders ?_ ?_ (before _)
  · rintro (same | same)
    · exact absurd same (after _)
    · exact absurd same (after _)
  · rintro (stands | ⟨woken, stands⟩)
    · exact absurd stands (before _)
    · exact absurd stands (before _)

/-! ## Statements -/

/-- A statement of one mutex leaves another one alone. -/
theorem execute_elsewhere (stands : ∃ statement,
    threads.place self = .inside mutex statement) (different : other ≠ mutex) :
    (∃ place, Moves threads (execute threads self) self place ∧
        ∀ statement, place ≠ .inside other statement) ∧
      (execute threads self).sched.mutexes other =
        threads.sched.mutexes other ∧
      (execute threads self).holders other = threads.holders other := by
  obtain ⟨statement, stands⟩ := stands
  have goes : ∀ next : Statement, ∀ statement,
      Place.inside mutex next ≠ .inside other statement :=
    fun next statement same => different (Place.inside.inj same).1.symm
  have leaves : ∀ statement, Place.outside ≠ .inside other statement :=
    fun _ => Place.noConfusion
  have updated : ∀ fields : Mutex,
      Function.update threads.sched.mutexes mutex fields other =
        threads.sched.mutexes other :=
    fun fields => Function.update_of_ne different _ _
  have updatedHolders : ∀ holders : Finset TaskPtr,
      Function.update threads.holders mutex holders other =
        threads.holders other :=
    fun holders => Function.update_of_ne different _ _
  have tests : ∀ next : Statement,
      (∃ place, Moves threads (spinlockLock threads self mutex next) self
          place ∧ ∀ statement, place ≠ .inside other statement) ∧
        (spinlockLock threads self mutex next).sched.mutexes other =
          threads.sched.mutexes other ∧
        (spinlockLock threads self mutex next).holders other =
          threads.holders other := by
    intro next
    rw [spinlockLock]
    split
    · refine ⟨⟨threads.place self, ?_, ?_⟩, rfl, rfl⟩
      · exact (Function.update_eq_self self threads.place).symm
      · rw [stands]
        exact goes statement
    · exact ⟨⟨_, rfl, goes next⟩, rfl, rfl⟩
  rw [Threading.execute, stands]
  cases statement with
  | lockSpin => exact tests .lockTest
  | unlockSpin => exact tests .clearLocked
  | lockTest | freezeSelf | unlockFrozen | yieldSelf | tryAgain | wakeTask _ =>
      exact ⟨⟨_, rfl, goes _⟩, rfl, rfl⟩
  | unlockWoken => exact ⟨⟨_, rfl, leaves⟩, rfl, rfl⟩
  | enqueueSelf | setLocked => exact ⟨⟨_, rfl, goes _⟩, updated _, rfl⟩
  | unlockLocked => exact ⟨⟨_, rfl, leaves⟩, rfl, updatedHolders _⟩
  | clearLocked =>
      exact ⟨⟨_, rfl, goes _⟩, updated _, updatedHolders _⟩
  | dequeueTask =>
      cases waiting : (threads.sched.mutexes mutex).waitingTasks with
      | nil =>
          simp only [waiting]
          exact ⟨⟨_, rfl, goes _⟩, rfl, rfl⟩
      | cons task tasks =>
          simp only [waiting]
          exact ⟨⟨_, rfl, goes _⟩, updated _, rfl⟩

/-- A round of `spinlock_lock`. -/
theorem Attentive.spinlockLock {next : Statement}
    (attentive : Attentive threads mutex)
    (notFreeze : next ≠ .freezeSelf) (notEnqueue : next ≠ .enqueueSelf)
    (notDraining : ¬ Drains threads self mutex)
    (notOwner : threads.place self ≠ .inside mutex .unlockLocked) :
    Attentive (spinlockLock threads self mutex next) mutex := by
  rw [Threading.spinlockLock]
  split
  · exact ⟨attentive.joins, attentive.waiting, attentive.owned,
      attentive.nonnull⟩
  · refine attentive.move self rfl rfl rfl ?_
      (fun drains => absurd drains notDraining) notOwner
    rintro (same | same)
    · exact absurd (Place.inside.inj same).2 notFreeze
    · exact absurd (Place.inside.inj same).2 notEnqueue

/-- The task that has seen the mutex locked enters the queue. -/
theorem Attentive.enqueueSelf (attentive : Attentive threads mutex)
    (stands : threads.place self = .inside mutex .enqueueSelf)
    (isTask : self ≠ 0) :
    Attentive (execute threads self) mutex := by
  have locked := attentive.joins self (Or.inr stands)
  generalize result : execute threads self = threads'
  rw [Threading.execute, stands] at result
  have mutexes : threads'.sched.mutexes mutex =
      { threads.sched.mutexes mutex with
        waitingTasks :=
          (threads.sched.mutexes mutex).waitingTasks ++ [self] } := by
    rw [← result]
    exact Function.update_self _ _ _
  have moves : Moves threads threads' self (.inside mutex .unlockFrozen) := by
    rw [← result]
    rfl
  have holders : threads'.holders = threads.holders := by
    rw [← result]
    rfl
  refine ⟨?_, ?_, ?_, ?_⟩
  · intro _ _
    rw [mutexes]
    exact locked
  · intro _
    rw [mutexes]
    exact Or.inl locked
  · intro _
    obtain ⟨task, owns⟩ := attentive.owned locked
    exact ⟨task, owns.moved moves (by rw [holders]) (by rw [stands]; simp)⟩
  · rw [mutexes, List.mem_append, List.mem_singleton, not_or]
    exact ⟨attentive.nonnull, isTask.symm⟩

/-- The mutex is taken by the task at the statement. -/
theorem Attentive.setLocked (attentive : Attentive threads mutex)
    (stands : threads.place self = .inside mutex .setLocked) :
    Attentive (execute threads self) mutex := by
  generalize result : execute threads self = threads'
  rw [Threading.execute, stands] at result
  have mutexes : threads'.sched.mutexes mutex =
      { threads.sched.mutexes mutex with locked := true } := by
    rw [← result]
    exact Function.update_self _ _ _
  have moves : Moves threads threads' self (.inside mutex .unlockLocked) := by
    rw [← result]
    rfl
  refine ⟨?_, ?_, ?_, ?_⟩
  · intro _ _
    rw [mutexes]
  · intro _
    rw [mutexes]
    exact Or.inl rfl
  · exact fun _ => ⟨self, Or.inr moves.here⟩
  · rw [mutexes]
    exact attentive.nonnull

/-- The owner returns from `mutex_lock`. -/
theorem Attentive.unlockLocked (attentive : Attentive threads mutex)
    (stands : threads.place self = .inside mutex .unlockLocked) :
    Attentive (execute threads self) mutex := by
  generalize result : execute threads self = threads'
  rw [Threading.execute, stands] at result
  have sched : threads'.sched = threads.sched := by
    rw [← result]
    rfl
  have holders : threads'.holders mutex =
      insert self (threads.holders mutex) := by
    rw [← result]
    exact Function.update_self _ _ _
  have moves : Moves threads threads' self .outside := by
    rw [← result]
    rfl
  have notDraining : ¬ Drains threads self mutex := by
    rintro (drains | ⟨woken, drains⟩) <;> rw [stands] at drains <;> cases drains
  refine ⟨?_, ?_, ?_, ?_⟩
  · intro task joins
    rw [sched]
    exact attentive.joins task (joins.unmoved moves (by simp) (by simp))
  · intro some
    rw [sched] at some ⊢
    refine (attentive.waiting some).imp_right ?_
    rintro ⟨task, drains⟩
    exact ⟨task, drains.moved moves notDraining⟩
  · intro _
    refine ⟨self, Or.inl ?_⟩
    rw [holders]
    exact Finset.mem_insert_self _ _
  · rw [sched]
    exact attentive.nonnull

/-- The owner clears the flag, and is about to empty the queue. -/
theorem Attentive.clearLocked (attentive : Attentive threads mutex)
    (exclusive : Exclusive threads)
    (stands : threads.place self = .inside mutex .clearLocked) :
    Attentive (execute threads self) mutex := by
  generalize result : execute threads self = threads'
  rw [Threading.execute, stands] at result
  have mutexes : threads'.sched.mutexes mutex =
      { threads.sched.mutexes mutex with locked := false } := by
    rw [← result]
    exact Function.update_self _ _ _
  have moves : Moves threads threads' self (.inside mutex .dequeueTask) := by
    rw [← result]
    rfl
  have guards : (threads.place self).guards = some mutex := by
    rw [stands]
    rfl
  refine ⟨?_, ?_, ?_, ?_⟩
  · -- Another task that has seen the flag would own the spinlock as well.
    intro task joining
    exfalso
    have joins := joining.unmoved moves (by simp) (by simp)
    have alone : task = self := by
      refine exclusive.alone task self mutex ?_ guards
      rcases joins with equal | equal <;> rw [equal] <;> rfl
    rw [alone, Joins, stands] at joins
    rcases joins with equal | equal <;> cases equal
  · exact fun _ => Or.inr ⟨self, Or.inl moves.here⟩
  · intro locked
    rw [mutexes] at locked
    cases locked
  · rw [mutexes]
    exact attentive.nonnull

/-- The next task leaves the queue, or the queue is empty. -/
theorem Attentive.dequeueTask (attentive : Attentive threads mutex)
    (stands : threads.place self = .inside mutex .dequeueTask) :
    Attentive (execute threads self) mutex := by
  generalize result : execute threads self = threads'
  rw [Threading.execute, stands] at result
  have notOwner : threads.place self ≠ .inside mutex .unlockLocked := by
    rw [stands]
    simp
  cases waiting : (threads.sched.mutexes mutex).waitingTasks with
  | nil =>
      simp only [waiting] at result
      have sched : threads'.sched = threads.sched := by
        rw [← result]
        rfl
      have moves : Moves threads threads' self
          (.inside mutex .unlockWoken) := by
        rw [← result]
        rfl
      have holders : threads'.holders = threads.holders := by
        rw [← result]
        rfl
      refine ⟨?_, ?_, ?_, ?_⟩
      · intro task joins
        rw [sched]
        exact attentive.joins task (joins.unmoved moves (by simp) (by simp))
      · intro some
        rw [sched] at some
        exact absurd waiting some
      · intro locked
        rw [sched] at locked
        obtain ⟨task, owns⟩ := attentive.owned locked
        exact ⟨task, owns.moved moves (by rw [holders]) notOwner⟩
      · rw [sched]
        exact attentive.nonnull
  | cons woken tasks =>
      have nonnull : woken ≠ 0 ∧ 0 ∉ tasks := by
        have absent := attentive.nonnull
        rw [waiting, List.mem_cons, not_or] at absent
        exact ⟨Ne.symm absent.1, absent.2⟩
      simp only [waiting, if_neg nonnull.1] at result
      have mutexes : threads'.sched.mutexes mutex =
          { threads.sched.mutexes mutex with waitingTasks := tasks } := by
        rw [← result]
        exact Function.update_self _ _ _
      have moves : Moves threads threads' self
          (.inside mutex (.wakeTask woken)) := by
        rw [← result]
        rfl
      have holders : threads'.holders = threads.holders := by
        rw [← result]
        rfl
      refine ⟨?_, ?_, ?_, ?_⟩
      · intro task joins
        rw [mutexes]
        exact attentive.joins task (joins.unmoved moves (by simp) (by simp))
      · exact fun _ => Or.inr ⟨self, Or.inr ⟨woken, moves.here⟩⟩
      · intro locked
        rw [mutexes] at locked
        obtain ⟨task, owns⟩ := attentive.owned locked
        exact ⟨task, owns.moved moves (by rw [holders]) notOwner⟩
      · rw [mutexes]
        exact nonnull.2

/-- Every statement of the mutex keeps its queue attended to. -/
theorem Attentive.execute (attentive : Attentive threads mutex)
    (exclusive : Exclusive threads) {statement : Statement}
    (stands : threads.place self = .inside mutex statement)
    (isTask : self ≠ 0) : Attentive (execute threads self) mutex := by
  have notDraining (notDequeue : statement ≠ .dequeueTask)
      (notWake : ∀ woken, statement ≠ .wakeTask woken) :
      ¬ Drains threads self mutex := by
    rintro (drains | ⟨woken, drains⟩)
    · rw [stands] at drains
      exact notDequeue (Place.inside.inj drains).2
    · rw [stands] at drains
      exact notWake woken (Place.inside.inj drains).2
  have notOwner (different : statement ≠ .unlockLocked) :
      threads.place self ≠ .inside mutex .unlockLocked := by
    rw [stands]
    exact fun same => different (Place.inside.inj same).2
  cases statement with
  | lockSpin =>
      rw [Threading.execute, stands]
      exact attentive.spinlockLock (by simp) (by simp)
        (notDraining (by simp) (by simp)) (notOwner (by simp))
  | unlockSpin =>
      rw [Threading.execute, stands]
      exact attentive.spinlockLock (by simp) (by simp)
        (notDraining (by simp) (by simp)) (notOwner (by simp))
  | lockTest =>
      rw [Threading.execute, stands]
      refine attentive.move self rfl rfl rfl ?_
        (fun drains => absurd drains (notDraining (by simp) (by simp)))
        (notOwner (by simp))
      cases (threads.sched.mutexes mutex).locked with
      | true => exact fun _ => rfl
      | false => simp
  | freezeSelf =>
      rw [Threading.execute, stands]
      exact attentive.move self rfl rfl rfl
        (fun _ => attentive.joins self (Or.inl stands))
        (fun drains => absurd drains (notDraining (by simp) (by simp)))
        (notOwner (by simp))
  | unlockFrozen | yieldSelf | tryAgain | unlockWoken =>
      rw [Threading.execute, stands]
      exact attentive.move self rfl rfl rfl (by simp)
        (fun drains => absurd drains (notDraining (by simp) (by simp)))
        (notOwner (by simp))
  | wakeTask woken =>
      rw [Threading.execute, stands]
      refine attentive.move self rfl rfl rfl (by simp) (fun _ => ?_)
        (notOwner (by simp))
      exact Or.inl (Function.update_self _ _ _)
  | enqueueSelf => exact attentive.enqueueSelf stands isTask
  | setLocked => exact attentive.setLocked stands
  | unlockLocked => exact attentive.unlockLocked stands
  | clearLocked => exact attentive.clearLocked exclusive stands
  | dequeueTask => exact attentive.dequeueTask stands

/-! ## Runs -/

/-- Every step keeps all queues attended to, unless `NULL` locks a mutex. -/
theorem Attentive.step {turn : Turn}
    (attentive : ∀ mutex, Attentive threads mutex)
    (exclusive : Exclusive threads) (null : threads.place 0 = .outside)
    (step : Interleave threads turn threads') (mutex : Nat) :
    Attentive threads' mutex := by
  cases step with
  | @lock self called outside =>
      refine (attentive mutex).move self rfl rfl rfl (by simp) ?_ ?_
      · rintro (stands | ⟨woken, stands⟩) <;> rw [outside] at stands <;>
          cases stands
      · rw [outside]
        exact Place.noConfusion
  | @unlock self called outside _ =>
      refine (attentive mutex).move self rfl rfl rfl (by simp) ?_ ?_
      · rintro (stands | ⟨woken, stands⟩) <;> rw [outside] at stands <;>
          cases stands
      · rw [outside]
        exact Place.noConfusion
  | @statement self inside =>
      have isTask : self ≠ 0 := by
        rintro rfl
        exact inside null
      cases stands : threads.place self with
      | outside => exact absurd stands inside
      | inside called statement =>
          by_cases same : mutex = called
          · subst same
            exact (attentive mutex).execute exclusive stands isTask
          · obtain ⟨⟨place, moves, after⟩, mutexes, holders⟩ :=
              execute_elsewhere ⟨statement, stands⟩ same
            refine (attentive mutex).elsewhere moves mutexes holders ?_ after
            intro other equal
            rw [stands] at equal
            exact same (Place.inside.inj equal).1.symm
  | scheduler same =>
      obtain ⟨mutexes, _, place, holders⟩ := same
      obtain ⟨joins, waiting, owned, nonnull⟩ := attentive mutex
      refine ⟨?_, ?_, ?_, ?_⟩
      · rw [mutexes]
        unfold Joins
        rw [place]
        exact joins
      · rw [mutexes]
        unfold Drains
        rw [place]
        exact waiting
      · rw [mutexes]
        unfold Owns
        rw [place, holders]
        exact owned
      · rw [mutexes]
        exact nonnull

/-- A statement does not move another task, nor make it an owner. -/
theorem execute_other (different : task ≠ self) :
    (execute threads self).place task = threads.place task ∧
      ∀ mutex, task ∈ (execute threads self).holders mutex →
        task ∈ threads.holders mutex := by
  have moved : ∀ place, Function.update threads.place self place task =
      threads.place task :=
    fun place => Function.update_of_ne different _ _
  have tests : ∀ mutex next,
      (spinlockLock threads self mutex next).place task =
          threads.place task ∧
        ∀ other, task ∈ (spinlockLock threads self mutex next).holders other →
          task ∈ threads.holders other := by
    intro mutex next
    rw [spinlockLock]
    split
    · exact ⟨rfl, fun _ member => member⟩
    · exact ⟨moved _, fun _ member => member⟩
  cases stands : threads.place self with
  | outside =>
      rw [Threading.execute, stands]
      exact ⟨rfl, fun _ member => member⟩
  | inside mutex statement =>
      rw [Threading.execute, stands]
      cases statement with
      | lockSpin | unlockSpin => exact tests mutex _
      | lockTest | freezeSelf | enqueueSelf | unlockFrozen | yieldSelf
      | tryAgain | setLocked | wakeTask _ | unlockWoken =>
          exact ⟨moved _, fun _ member => member⟩
      | unlockLocked =>
          refine ⟨moved _, fun other member => ?_⟩
          change task ∈ Function.update threads.holders mutex _ other at member
          by_cases same : other = mutex
          · subst same
            rw [Function.update_self] at member
            exact (Finset.mem_insert.mp member).resolve_left different
          · rw [Function.update_of_ne same] at member
            exact member
      | clearLocked =>
          refine ⟨moved _, fun other member => ?_⟩
          change task ∈ Function.update threads.holders mutex _ other at member
          by_cases same : other = mutex
          · subst same
            rw [Function.update_self] at member
            exact Finset.mem_of_mem_erase member
          · rw [Function.update_of_ne same] at member
            exact member
      | dequeueTask =>
          cases waiting : (threads.sched.mutexes mutex).waitingTasks with
          | nil =>
              simp only [waiting]
              exact ⟨moved _, fun _ member => member⟩
          | cons woken tasks =>
              simp only [waiting]
              exact ⟨moved _, fun _ member => member⟩

/-- `NULL` is outside of both functions, and owns nothing. -/
structure NullOutside (threads : Threads Ext) : Prop where
  place : threads.place 0 = .outside
  holders : ∀ mutex, 0 ∉ threads.holders mutex

theorem NullOutside.step {turn : Turn} (null : NullOutside threads)
    (step : Interleave threads turn threads')
    (notNull : ∀ mutex, turn ≠ .lock 0 mutex) : NullOutside threads' := by
  cases step with
  | @lock self mutex outside =>
      have different : (0 : TaskPtr) ≠ self := by
        rintro rfl
        exact notNull mutex rfl
      exact ⟨(Function.update_of_ne different _ _).trans null.place,
        null.holders⟩
  | @unlock self mutex outside holds =>
      have different : (0 : TaskPtr) ≠ self := by
        rintro rfl
        exact null.holders mutex holds
      exact ⟨(Function.update_of_ne different _ _).trans null.place,
        null.holders⟩
  | @statement self inside =>
      have different : (0 : TaskPtr) ≠ self := by
        rintro rfl
        exact inside null.place
      obtain ⟨place, holders⟩ := @execute_other Ext threads self 0 different
      exact ⟨place.trans null.place,
        fun mutex member => null.holders mutex (holders mutex member)⟩
  | scheduler same =>
      refine ⟨?_, ?_⟩
      · rw [same.place]
        exact null.place
      · rw [same.holders]
        exact null.holders

end Waiting

/-- However the tasks take turns, a task that waits for a mutex waits for one
that another task owns, or whose queue is just being emptied. -/
theorem waiters_attended {Ext : Type} (sched : Sched Ext) (turns : List Turn)
    (mutex : Nat) (notNull : ∀ called, Turn.lock 0 called ∉ turns) :
    Always Interleave (freshThreads sched) turns fun _ threads =>
      (threads.sched.mutexes mutex).waitingTasks ≠ [] →
        ∃ task, Owns threads task mutex ∨ Drains threads task mutex := by
  intro before after threads split run some
  have notNull' : ∀ called, Turn.lock 0 called ∉ before := by
    intro called member
    refine notNull called ?_
    rw [split]
    exact List.mem_append_left _ member
  obtain ⟨_, _, attentive⟩ : Exclusive threads ∧ NullOutside threads ∧
      ∀ mutex, Attentive threads mutex := by
    clear split some
    induction run with
    | nil =>
        exact ⟨exclusive_fresh sched,
          ⟨rfl, fun _ => Finset.notMem_empty 0⟩, attentive_fresh sched⟩
    | @snoc before turn threads threads' run step inductionHypothesis =>
        obtain ⟨exclusive, null, attentive⟩ :=
          inductionHypothesis fun called member =>
            notNull' called (List.mem_append_left _ member)
        refine ⟨exclusive.step step, null.step step ?_,
          Attentive.step attentive exclusive null.place step⟩
        rintro called rfl
        exact notNull' called (List.mem_append_right _ List.mem_cons_self)
  rcases (attentive mutex).waiting some with locked | ⟨task, drains⟩
  · obtain ⟨task, owns⟩ := (attentive mutex).owned locked
    exact ⟨task, Or.inl owns⟩
  · exact ⟨task, Or.inr drains⟩

/-- Task 1 has the mutex, and task 2 waits for it. -/
theorem waiters_attended_two :
    ∃ threads : Threads Nat,
      (threads.sched.mutexes 0).waitingTasks = [2] ∧
        ∃ task, Owns threads task 0 ∨ Drains threads task 0 := by
  have run := (@Run.nil (Threads Nat) Turn Interleave
    (freshThreads (bootSched 0))).snoc (@Interleave.lock _ _ 1 0 rfl)
  have tests := (run.snoc (@Interleave.statement _ _ 1 (by decide))).snoc
    (@Interleave.statement _ _ 1 (by decide))
  have taken := (tests.snoc (@Interleave.statement _ _ 1 (by decide))).snoc
    (@Interleave.statement _ _ 1 (by decide))
  have second := taken.snoc (@Interleave.lock _ _ 2 0 rfl)
  have frozen := (second.snoc (@Interleave.statement _ _ 2 (by decide))).snoc
    (@Interleave.statement _ _ 2 (by decide))
  have waits := (frozen.snoc (@Interleave.statement _ _ 2 (by decide))).snoc
    (@Interleave.statement _ _ 2 (by decide))
  refine ⟨_, rfl, (waiters_attended (bootSched 0) _ 0 ?_).last waits ?_⟩
  · simp
  · exact List.cons_ne_nil _ _

end BeaverOS.Threading
