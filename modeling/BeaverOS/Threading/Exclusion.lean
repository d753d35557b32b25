import BeaverOS.Threading.Mutex

/-!
# Mutual exclusion

Two locks are at work. The spinlock of a mutex admits one task to the guarded
statements; they keep `locked` in step with the tasks that own the mutex.
-/

namespace BeaverOS.Threading

open BeaverOS.Scheduler
open BeaverOS.Transition

/-- The statements between a successful test-and-set and the release. -/
def Statement.guarded : Statement → Bool
  | .lockSpin | .yieldSelf | .tryAgain | .unlockSpin => false
  | _ => true

/-- The mutex whose spinlock a task at this place owns. -/
def Place.guards : Place → Option Nat
  | .outside => none
  | .inside mutex statement => if statement.guarded then some mutex else none

section Invariant

variable {Ext : Type} {threads threads' : Threads Ext}
  {self task other : TaskPtr} {mutex : Nat} {place : Place}

/-- The task has set `locked` and has not cleared it since. -/
def Owns (threads : Threads Ext) (task : TaskPtr) (mutex : Nat) : Prop :=
  task ∈ threads.holders mutex ∨
    threads.place task = .inside mutex .unlockLocked

/-- The invariant of the two locks. -/
structure Exclusive (threads : Threads Ext) : Prop where
  spinlock :
    ∀ task mutex, (threads.place task).guards = some mutex →
      threads.spinlock mutex ≠ 0
  alone :
    ∀ task other mutex, (threads.place task).guards = some mutex →
      (threads.place other).guards = some mutex → task = other
  free :
    ∀ task mutex, threads.place task = .inside mutex .setLocked →
      (threads.sched.mutexes mutex).locked = false
  leaves :
    ∀ task mutex,
      threads.place task = .inside mutex .unlockSpin ∨
        threads.place task = .inside mutex .clearLocked →
      task ∈ threads.holders mutex
  locked :
    ∀ task mutex, Owns threads task mutex →
      (threads.sched.mutexes mutex).locked = true
  owner :
    ∀ task other mutex, Owns threads task mutex → Owns threads other mutex →
      task = other

theorem exclusive_fresh (sched : Sched Ext) : Exclusive (freshThreads sched) where
  spinlock := fun _ _ guards => nomatch guards
  alone := fun _ _ _ guards => nomatch guards
  free := fun _ _ equal => nomatch equal
  leaves := by
    rintro task mutex (equal | equal) <;> cases equal
  locked := by
    rintro task mutex (holds | equal)
    · exact absurd holds (Finset.notMem_empty task)
    · cases equal
  owner := by
    rintro task other mutex (holds | equal) _
    · exact absurd holds (Finset.notMem_empty task)
    · cases equal

/-! ## The parts of a step -/

/-- Of the places, only that of one task changes. -/
def Moves (threads threads' : Threads Ext) (self : TaskPtr) (place : Place) :
    Prop :=
  threads'.place = Function.update threads.place self place

/-- The flags of the mutexes are the same. -/
def SameLocked (threads threads' : Threads Ext) : Prop :=
  ∀ mutex, (threads'.sched.mutexes mutex).locked =
    (threads.sched.mutexes mutex).locked

theorem Moves.here (moves : Moves threads threads' self place) :
    threads'.place self = place := by
  rw [moves, Function.update_self]

theorem Moves.elsewhere (moves : Moves threads threads' self place)
    (different : task ≠ self) : threads'.place task = threads.place task := by
  rw [moves, Function.update_of_ne different]

/-- A task at a place that is not the new one has not moved. -/
theorem Moves.not_moved {found : Place}
    (moves : Moves threads threads' self place)
    (equal : threads'.place task = found) (different : place ≠ found) :
    task ≠ self ∧ threads.place task = found := by
  have notSelf : task ≠ self := by
    rintro rfl
    exact different (moves.here.symm.trans equal)
  exact ⟨notSelf, (moves.elsewhere notSelf).symm.trans equal⟩

/-- A move that does not enter or leave the guarded statements. -/
theorem Moves.guards (moves : Moves threads threads' self place)
    (same : place.guards = (threads.place self).guards) (task : TaskPtr) :
    (threads'.place task).guards = (threads.place task).guards := by
  by_cases isSelf : task = self
  · rw [isSelf, moves.here, same]
  · rw [moves.elsewhere isSelf]

/-- Unless the mover now owns a mutex, the same tasks own it. -/
theorem Moves.owns (moves : Moves threads threads' self place)
    (holders : threads'.holders = threads.holders)
    (notOwner : ∀ mutex, place ≠ .inside mutex .unlockLocked)
    (owned : Owns threads' task mutex) : Owns threads task mutex := by
  rcases owned with holds | equal
  · rw [holders] at holds
    exact Or.inl holds
  · exact Or.inr (moves.not_moved equal (notOwner mutex)).2

theorem sameLocked_setMutex (threads : Threads Ext) (tasks : List TaskPtr) :
    SameLocked threads
      (threads.setMutex mutex
        { threads.sched.mutexes mutex with waitingTasks := tasks }) := by
  intro other
  by_cases same : other = mutex
  · subst same
    simp [Threads.setMutex]
  · simp [Threads.setMutex, Function.update_of_ne same]

/-! ## Steps that change no lock -/

/-- A move within the guarded statements, or outside of them. -/
theorem Exclusive.move (exclusive : Exclusive threads) (self : TaskPtr)
    (moves : Moves threads threads' self place)
    (spinlock : threads'.spinlock = threads.spinlock)
    (holders : threads'.holders = threads.holders)
    (locked : SameLocked threads threads')
    (guards : place.guards = (threads.place self).guards)
    (free : ∀ mutex, place = .inside mutex .setLocked →
      (threads.sched.mutexes mutex).locked = false)
    (leaves : ∀ mutex,
      place = .inside mutex .unlockSpin ∨ place = .inside mutex .clearLocked →
        self ∈ threads.holders mutex)
    (notOwner : ∀ mutex, place ≠ .inside mutex .unlockLocked) :
    Exclusive threads' := by
  have guards' := moves.guards guards
  constructor
  · intro task mutex guarded
    rw [guards'] at guarded
    rw [spinlock]
    exact exclusive.spinlock task mutex guarded
  · intro task other mutex first second
    rw [guards'] at first second
    exact exclusive.alone task other mutex first second
  · intro task mutex equal
    rw [locked]
    by_cases same : task = self
    · rw [same, moves.here] at equal
      exact free mutex equal
    · rw [moves.elsewhere same] at equal
      exact exclusive.free task mutex equal
  · intro task mutex equal
    rw [holders]
    by_cases same : task = self
    · rw [same, moves.here] at equal
      rw [same]
      exact leaves mutex equal
    · rw [moves.elsewhere same] at equal
      exact exclusive.leaves task mutex equal
  · intro task mutex owned
    rw [locked]
    exact exclusive.locked task mutex (moves.owns holders notOwner owned)
  · intro task other mutex first second
    exact exclusive.owner task other mutex (moves.owns holders notOwner first)
      (moves.owns holders notOwner second)

/-! ## The spinlock -/

/-- A test-and-set of a lock that is taken. -/
theorem Exclusive.setTaken (exclusive : Exclusive threads) :
    Exclusive (threads.setSpinlock mutex 1) := by
  refine ⟨?_, exclusive.alone, exclusive.free, exclusive.leaves,
    exclusive.locked, exclusive.owner⟩
  intro task other guards
  by_cases same : other = mutex
  · subst same
    simp [Threads.setSpinlock]
  · simp only [Threads.setSpinlock, Function.update_of_ne same]
    exact exclusive.spinlock task other guards

/-- A test-and-set of a free lock. -/
theorem Exclusive.acquire {next : Statement} (exclusive : Exclusive threads)
    (moves : Moves threads threads' self (.inside mutex next))
    (free : threads.spinlock mutex = 0)
    (spinlock : threads'.spinlock = Function.update threads.spinlock mutex 1)
    (holders : threads'.holders = threads.holders)
    (locked : SameLocked threads threads') (guarded : next.guarded = true)
    (notSet : next ≠ .setLocked) (notOwner : next ≠ .unlockLocked)
    (leaves : next = .clearLocked → self ∈ threads.holders mutex) :
    Exclusive threads' := by
  have nobody : ∀ task, (threads.place task).guards ≠ some mutex :=
    fun task guards => exclusive.spinlock task mutex guards free
  have guardsHere : (threads'.place self).guards = some mutex := by
    rw [moves.here, Place.guards, if_pos guarded]
  have notOwner' : ∀ other,
      Place.inside mutex next ≠ .inside other .unlockLocked := by
    intro other equal
    exact notOwner (Place.inside.inj equal).2
  constructor
  · intro task other guards
    by_cases same : other = mutex
    · rw [spinlock, same, Function.update_self]
      decide
    · rw [spinlock, Function.update_of_ne same]
      by_cases isSelf : task = self
      · rw [isSelf, guardsHere] at guards
        exact absurd (Option.some.inj guards).symm same
      · rw [moves.elsewhere isSelf] at guards
        exact exclusive.spinlock task other guards
  · intro first second other guardsFirst guardsSecond
    by_cases isFirst : first = self
    · by_cases isSecond : second = self
      · exact isFirst.trans isSecond.symm
      · rw [isFirst, guardsHere] at guardsFirst
        rw [moves.elsewhere isSecond, ← guardsFirst] at guardsSecond
        exact absurd guardsSecond (nobody second)
    · rw [moves.elsewhere isFirst] at guardsFirst
      by_cases isSecond : second = self
      · rw [isSecond, guardsHere] at guardsSecond
        rw [← guardsSecond] at guardsFirst
        exact absurd guardsFirst (nobody first)
      · rw [moves.elsewhere isSecond] at guardsSecond
        exact exclusive.alone first second other guardsFirst guardsSecond
  · intro task other equal
    rw [locked]
    have different : Place.inside mutex next ≠ .inside other .setLocked :=
      fun stands => notSet (Place.inside.inj stands).2
    exact exclusive.free task other (moves.not_moved equal different).2
  · intro task other equal
    rw [holders]
    by_cases isSelf : task = self
    · rw [isSelf, moves.here] at equal
      rw [isSelf]
      rcases equal with equal | equal
      · obtain ⟨_, rfl⟩ := Place.inside.inj equal
        cases guarded
      · obtain ⟨rfl, isClear⟩ := Place.inside.inj equal
        exact leaves isClear
    · rw [moves.elsewhere isSelf] at equal
      exact exclusive.leaves task other equal
  · intro task other owned
    rw [locked]
    exact exclusive.locked task other (moves.owns holders notOwner' owned)
  · intro first second other ownsFirst ownsSecond
    exact exclusive.owner first second other
      (moves.owns holders notOwner' ownsFirst)
      (moves.owns holders notOwner' ownsSecond)

/-- The release of the spinlock. -/
theorem Exclusive.release (exclusive : Exclusive threads)
    (guards : (threads.place self).guards = some mutex)
    (moves : Moves threads threads' self place)
    (spinlock : threads'.spinlock = Function.update threads.spinlock mutex 0)
    (locked : SameLocked threads threads') (unguarded : place.guards = none)
    (notLeaving : ∀ mutex, place ≠ .inside mutex .unlockSpin)
    (holders : ∀ task mutex, task ∈ threads.holders mutex →
      task ∈ threads'.holders mutex)
    (owns : ∀ task mutex, Owns threads' task mutex → Owns threads task mutex) :
    Exclusive threads' := by
  have others : ∀ task other, (threads'.place task).guards = some other →
      task ≠ self ∧ (threads.place task).guards = some other := by
    intro task other guarded
    have notSelf : task ≠ self := by
      rintro rfl
      rw [moves.here, unguarded] at guarded
      cases guarded
    exact ⟨notSelf, moves.elsewhere notSelf ▸ guarded⟩
  have notGuarded : ∀ other (statement : Statement),
      statement.guarded = true → place ≠ .inside other statement := by
    rintro other statement isGuarded rfl
    rw [Place.guards, if_pos isGuarded] at unguarded
    cases unguarded
  constructor
  · intro task other guarded
    obtain ⟨notSelf, before⟩ := others task other guarded
    have different : other ≠ mutex := by
      rintro rfl
      exact notSelf (exclusive.alone task self other before guards)
    rw [spinlock, Function.update_of_ne different]
    exact exclusive.spinlock task other before
  · intro first second other guardsFirst guardsSecond
    exact exclusive.alone first second other
      (others first other guardsFirst).2 (others second other guardsSecond).2
  · intro task other equal
    rw [locked]
    exact exclusive.free task other
      (moves.not_moved equal (notGuarded other _ rfl)).2
  · rintro task other (equal | equal)
    · exact holders task other (exclusive.leaves task other
        (Or.inl (moves.not_moved equal (notLeaving other)).2))
    · exact holders task other (exclusive.leaves task other
        (Or.inr (moves.not_moved equal (notGuarded other _ rfl)).2))
  · intro task other owned
    rw [locked]
    exact exclusive.locked task other (owns task other owned)
  · intro first second other ownsFirst ownsSecond
    exact exclusive.owner first second other (owns first other ownsFirst)
      (owns second other ownsSecond)

/-! ## The flag -/

/-- The store that takes the mutex. -/
theorem Exclusive.setLocked (exclusive : Exclusive threads)
    (stands : threads.place self = .inside mutex .setLocked) :
    Exclusive
      ((threads.setMutex mutex
        { threads.sched.mutexes mutex with locked := true }).goto self
          (.inside mutex .unlockLocked)) := by
  generalize result : (threads.setMutex mutex
    { threads.sched.mutexes mutex with locked := true }).goto self
      (.inside mutex .unlockLocked) = threads'
  have moves : Moves threads threads' self (.inside mutex .unlockLocked) := by
    rw [← result]
    rfl
  have spinlock : threads'.spinlock = threads.spinlock := by
    rw [← result]
    rfl
  have holders : threads'.holders = threads.holders := by
    rw [← result]
    rfl
  have mutexes : threads'.sched.mutexes =
      Function.update threads.sched.mutexes mutex
        { threads.sched.mutexes mutex with locked := true } := by
    rw [← result]
    rfl
  have isFree := exclusive.free self mutex stands
  have nobody : ∀ task, ¬ Owns threads task mutex := by
    intro task owned
    rw [exclusive.locked task mutex owned] at isFree
    cases isFree
  have guards := moves.guards (by rw [stands]; rfl)
  have owns : ∀ task other, Owns threads' task other →
      task = self ∧ other = mutex ∨
        other ≠ mutex ∧ Owns threads task other := by
    intro task other owned
    by_cases isMutex : other = mutex
    · refine Or.inl ⟨?_, isMutex⟩
      by_contra notSelf
      rw [isMutex] at owned
      rcases owned with holds | equal
      · rw [holders] at holds
        exact nobody task (Or.inl holds)
      · rw [moves.elsewhere notSelf] at equal
        exact nobody task (Or.inr equal)
    · refine Or.inr ⟨isMutex, ?_⟩
      rcases owned with holds | equal
      · rw [holders] at holds
        exact Or.inl holds
      · exact Or.inr (moves.not_moved equal fun same =>
          isMutex (Place.inside.inj same).1.symm).2
  constructor
  · intro task other guarded
    rw [guards] at guarded
    rw [spinlock]
    exact exclusive.spinlock task other guarded
  · intro first second other guardsFirst guardsSecond
    rw [guards] at guardsFirst guardsSecond
    exact exclusive.alone first second other guardsFirst guardsSecond
  · intro task other equal
    obtain ⟨notSelf, before⟩ := moves.not_moved equal (by simp)
    have different : other ≠ mutex := by
      rintro rfl
      refine notSelf (exclusive.alone task self other ?_ ?_)
      · rw [before]
        rfl
      · rw [stands]
        rfl
    rw [mutexes, Function.update_of_ne different]
    exact exclusive.free task other before
  · rintro task other (equal | equal)
    · rw [holders]
      exact exclusive.leaves task other
        (Or.inl (moves.not_moved equal (by simp)).2)
    · rw [holders]
      exact exclusive.leaves task other
        (Or.inr (moves.not_moved equal (by simp)).2)
  · intro task other owned
    rw [mutexes]
    rcases owns task other owned with ⟨_, rfl⟩ | ⟨different, before⟩
    · rw [Function.update_self]
    · rw [Function.update_of_ne different]
      exact exclusive.locked task other before
  · intro first second other ownsFirst ownsSecond
    rcases owns first other ownsFirst with ⟨rfl, rfl⟩ | ⟨different, first'⟩
    · rcases owns second other ownsSecond with ⟨rfl, _⟩ | ⟨different, _⟩
      · rfl
      · exact absurd rfl different
    · rcases owns second other ownsSecond with ⟨_, same⟩ | ⟨_, second'⟩
      · exact absurd same different
      · exact exclusive.owner first second other first' second'

/-- The store that gives the mutex back. -/
theorem Exclusive.clearLocked (exclusive : Exclusive threads)
    (stands : threads.place self = .inside mutex .clearLocked) :
    Exclusive
      (((threads.setMutex mutex
        { threads.sched.mutexes mutex with locked := false }).setHolders mutex
          ((threads.holders mutex).erase self)).goto self
            (.inside mutex .dequeueTask)) := by
  generalize result : ((threads.setMutex mutex
    { threads.sched.mutexes mutex with locked := false }).setHolders mutex
      ((threads.holders mutex).erase self)).goto self
        (.inside mutex .dequeueTask) = threads'
  have moves : Moves threads threads' self (.inside mutex .dequeueTask) := by
    rw [← result]
    rfl
  have spinlock : threads'.spinlock = threads.spinlock := by
    rw [← result]
    rfl
  have holders : threads'.holders =
      Function.update threads.holders mutex
        ((threads.holders mutex).erase self) := by
    rw [← result]
    rfl
  have mutexes : threads'.sched.mutexes =
      Function.update threads.sched.mutexes mutex
        { threads.sched.mutexes mutex with locked := false } := by
    rw [← result]
    rfl
  have holds := exclusive.leaves self mutex (Or.inr stands)
  have only : ∀ task, Owns threads task mutex → task = self :=
    fun task owned => exclusive.owner task self mutex owned (Or.inl holds)
  have guards := moves.guards (by rw [stands]; rfl)
  have owns : ∀ task other, Owns threads' task other →
      other ≠ mutex ∧ Owns threads task other := by
    intro task other owned
    by_cases isMutex : other = mutex
    · rw [isMutex] at owned
      rcases owned with member | equal
      · rw [holders, Function.update_self] at member
        exact absurd (only task (Or.inl (Finset.mem_of_mem_erase member)))
          (Finset.ne_of_mem_erase member)
      · obtain ⟨notSelf, before⟩ := moves.not_moved equal (by simp)
        exact absurd (only task (Or.inr before)) notSelf
    · refine ⟨isMutex, ?_⟩
      rcases owned with member | equal
      · rw [holders, Function.update_of_ne isMutex] at member
        exact Or.inl member
      · exact Or.inr (moves.not_moved equal (by simp)).2
  constructor
  · intro task other guarded
    rw [guards] at guarded
    rw [spinlock]
    exact exclusive.spinlock task other guarded
  · intro first second other guardsFirst guardsSecond
    rw [guards] at guardsFirst guardsSecond
    exact exclusive.alone first second other guardsFirst guardsSecond
  · intro task other equal
    have before := (moves.not_moved equal (by simp)).2
    rw [mutexes]
    by_cases same : other = mutex
    · rw [same, Function.update_self]
    · rw [Function.update_of_ne same]
      exact exclusive.free task other before
  · intro task other equal
    have before : task ≠ self ∧ (threads.place task = .inside other .unlockSpin ∨
        threads.place task = .inside other .clearLocked) := by
      rcases equal with equal | equal
      · have unmoved := moves.not_moved equal (by simp)
        exact ⟨unmoved.1, Or.inl unmoved.2⟩
      · have unmoved := moves.not_moved equal (by simp)
        exact ⟨unmoved.1, Or.inr unmoved.2⟩
    have member := exclusive.leaves task other before.2
    rw [holders]
    by_cases same : other = mutex
    · subst same
      rw [Function.update_self]
      exact Finset.mem_erase.mpr ⟨before.1, member⟩
    · rw [Function.update_of_ne same]
      exact member
  · intro task other owned
    obtain ⟨different, before⟩ := owns task other owned
    rw [mutexes, Function.update_of_ne different]
    exact exclusive.locked task other before
  · intro first second other ownsFirst ownsSecond
    exact exclusive.owner first second other (owns first other ownsFirst).2
      (owns second other ownsSecond).2

/-! ## All statements -/

/-- A move that changes nothing else. -/
theorem Exclusive.goto (exclusive : Exclusive threads)
    (guards : place.guards = (threads.place self).guards)
    (free : ∀ mutex, place = .inside mutex .setLocked →
      (threads.sched.mutexes mutex).locked = false)
    (leaves : ∀ mutex,
      place = .inside mutex .unlockSpin ∨ place = .inside mutex .clearLocked →
        self ∈ threads.holders mutex)
    (notOwner : ∀ mutex, place ≠ .inside mutex .unlockLocked) :
    Exclusive (threads.goto self place) :=
  exclusive.move self rfl rfl rfl (fun _ => rfl) guards free leaves
    notOwner

theorem Exclusive.spinlockLock {next : Statement}
    (exclusive : Exclusive threads)
    (guarded : next.guarded = true) (notSet : next ≠ .setLocked)
    (notOwner : next ≠ .unlockLocked)
    (leaves : next = .clearLocked → self ∈ threads.holders mutex) :
    Exclusive (spinlockLock threads self mutex next) := by
  by_cases free : threads.spinlock mutex = 0
  · rw [Threading.spinlockLock, if_neg (not_not_intro free)]
    have moves : Moves threads
        ((threads.setSpinlock mutex 1).goto self (.inside mutex next)) self
        (.inside mutex next) := rfl
    exact exclusive.acquire moves free rfl rfl (fun _ => rfl) guarded notSet
      notOwner leaves
  · rw [Threading.spinlockLock, if_pos free]
    exact exclusive.setTaken

/-- A release after which the task owns what it owned before. -/
theorem Exclusive.releaseSpinlock (exclusive : Exclusive threads)
    (guards : (threads.place self).guards = some mutex)
    (unguarded : place.guards = none)
    (notLeaving : ∀ mutex, place ≠ .inside mutex .unlockSpin)
    (notOwner : ∀ mutex, place ≠ .inside mutex .unlockLocked) :
    Exclusive ((threads.setSpinlock mutex 0).goto self place) := by
  have moves : Moves threads ((threads.setSpinlock mutex 0).goto self place)
      self place := rfl
  exact exclusive.release guards moves rfl (fun _ => rfl) unguarded notLeaving
    (fun _ _ member => member) fun _ _ owned => moves.owns rfl notOwner owned

/-- The task that has taken the mutex returns with it. -/
theorem Exclusive.unlockLocked (exclusive : Exclusive threads)
    (stands : threads.place self = .inside mutex .unlockLocked) :
    Exclusive
      (((threads.setSpinlock mutex 0).setHolders mutex
        (insert self (threads.holders mutex))).goto self .outside) := by
  generalize result : ((threads.setSpinlock mutex 0).setHolders mutex
    (insert self (threads.holders mutex))).goto self .outside = threads'
  have moves : Moves threads threads' self .outside := by
    rw [← result]
    rfl
  have holders : threads'.holders =
      Function.update threads.holders mutex
        (insert self (threads.holders mutex)) := by
    rw [← result]
    rfl
  have guards : (threads.place self).guards = some mutex := by
    rw [stands]
    rfl
  refine exclusive.release guards moves ?_ ?_ rfl
    (fun _ => Place.noConfusion) ?_ ?_
  · rw [← result]
    rfl
  · rw [← result]
    exact fun _ => rfl
  · intro task other member
    rw [holders]
    by_cases same : other = mutex
    · subst same
      rw [Function.update_self]
      exact Finset.mem_insert_of_mem member
    · rw [Function.update_of_ne same]
      exact member
  · rintro task other (member | equal)
    · rw [holders] at member
      by_cases same : other = mutex
      · subst same
        rw [Function.update_self] at member
        rcases Finset.mem_insert.mp member with rfl | member
        · exact Or.inr stands
        · exact Or.inl member
      · rw [Function.update_of_ne same] at member
        exact Or.inl member
    · exact Or.inr (moves.not_moved equal (by simp)).2

/-- Every statement keeps the invariant. -/
theorem Exclusive.execute (exclusive : Exclusive threads) (self : TaskPtr) :
    Exclusive (execute threads self) := by
  cases stands : threads.place self with
  | outside =>
      rw [Threading.execute, stands]
      exact exclusive
  | inside mutex statement =>
      have guards : (threads.place self).guards =
          (Place.inside mutex statement).guards := by
        rw [stands]
      rw [Threading.execute, stands]
      cases statement with
      | lockSpin =>
          exact exclusive.spinlockLock rfl (by simp) (by simp) (by simp)
      | lockTest =>
          cases isLocked : (threads.sched.mutexes mutex).locked with
          | true =>
              simp only [isLocked, if_true]
              exact exclusive.goto guards.symm (by simp) (by simp) (by simp)
          | false =>
              simp only [isLocked, Bool.false_eq_true, if_false]
              refine exclusive.goto guards.symm ?_ (by simp) (by simp)
              intro other same
              cases same
              exact isLocked
      | freezeSelf =>
          exact exclusive.move self rfl rfl rfl (fun _ => rfl)
            guards.symm (by simp) (by simp) (by simp)
      | enqueueSelf =>
          exact exclusive.move self rfl rfl rfl
            (sameLocked_setMutex threads _) guards.symm (by simp) (by simp)
            (by simp)
      | unlockFrozen =>
          exact exclusive.releaseSpinlock guards rfl (by simp) (by simp)
      | yieldSelf =>
          exact exclusive.goto guards.symm (by simp) (by simp) (by simp)
      | tryAgain =>
          exact exclusive.goto guards.symm (by simp) (by simp) (by simp)
      | setLocked => exact exclusive.setLocked stands
      | unlockLocked => exact exclusive.unlockLocked stands
      | unlockSpin =>
          refine exclusive.spinlockLock rfl (by simp) (by simp) fun _ => ?_
          exact exclusive.leaves self mutex (Or.inl stands)
      | clearLocked => exact exclusive.clearLocked stands
      | dequeueTask =>
          cases waiting : (threads.sched.mutexes mutex).waitingTasks with
          | nil =>
              simp only [waiting]
              exact exclusive.goto guards.symm (by simp) (by simp) (by simp)
          | cons task tasks =>
              simp only [waiting]
              refine exclusive.move self rfl rfl rfl
                (sameLocked_setMutex threads _) ?_ ?_ ?_ ?_ <;> split <;>
                  first | exact guards.symm | simp
      | wakeTask task =>
          exact exclusive.move self rfl rfl rfl (fun _ => rfl)
            guards.symm (by simp) (by simp) (by simp)
      | unlockWoken =>
          exact exclusive.releaseSpinlock guards rfl (by simp) (by simp)

/-- Every step keeps the invariant. -/
theorem Exclusive.step {turn : Turn} (exclusive : Exclusive threads)
    (step : Interleave threads turn threads') : Exclusive threads' := by
  cases step with
  | @lock self mutex outside =>
      refine exclusive.goto ?_ (by simp) (by simp) (by simp)
      rw [outside]
      rfl
  | @unlock self mutex outside holds =>
      refine exclusive.goto ?_ (by simp) ?_ (by simp)
      · rw [outside]
        rfl
      · rintro other (same | same)
        · cases same
          exact holds
        · cases same
  | @statement self _ => exact exclusive.execute self
  | scheduler same =>
      obtain ⟨mutexes, spinlock, place, holders⟩ := same
      constructor
      · rw [spinlock, place]
        exact exclusive.spinlock
      · rw [place]
        exact exclusive.alone
      · rw [place, mutexes]
        exact exclusive.free
      · rw [place, holders]
        exact exclusive.leaves
      · rw [mutexes]
        unfold Owns
        rw [place, holders]
        exact exclusive.locked
      · unfold Owns
        rw [place, holders]
        exact exclusive.owner

/-! ## Runs -/

/-- At most one task is between the return of `mutex_lock` and the store that
clears `locked`, and `locked` is set while there is one. -/
structure MutuallyExclusive (threads : Threads Ext) (mutex : Nat) : Prop where
  alone :
    ∀ first ∈ threads.holders mutex, ∀ second ∈ threads.holders mutex,
      first = second
  locked :
    ∀ task ∈ threads.holders mutex,
      (threads.sched.mutexes mutex).locked = true

/-- However the tasks take turns, a mutex excludes them from each other. -/
theorem mutexLock_excludes (sched : Sched Ext) (turns : List Turn)
    (mutex : Nat) :
    Always Interleave (freshThreads sched) turns
      fun _ threads => MutuallyExclusive threads mutex := by
  intro before after threads _ run
  have exclusive : Exclusive threads :=
    run.invariant (exclusive_fresh sched)
      fun _ _ _ exclusive step => exclusive.step step
  constructor
  · intro first holdsFirst second holdsSecond
    exact exclusive.owner first second mutex (Or.inl holdsFirst)
      (Or.inl holdsSecond)
  · intro task holds
    exact exclusive.locked task mutex (Or.inl holds)

end Invariant

end BeaverOS.Threading
