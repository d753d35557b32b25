import BeaverOS.Threading.QueueLock

/-!
# Sections with interrupts masked

Whoever holds `queue_lock` has interrupts masked, so no other section and no
switch comes in between, and the lock is free whenever one of them wants it. The
interrupt flag that `start_task` restores is the one that it was called with,
also if its caller was switched away in the meantime.
-/

namespace BeaverOS.Kernel

open BeaverOS.Heap
open BeaverOS.Isr
open BeaverOS.Scheduler
open BeaverOS.Threading
open BeaverOS.Transition

/-! ## The saved frames -/

section Frames

variable {Ext : Type} {system system' : System Ext} {task : TaskPtr}

/-- The frame that a task was interrupted with. -/
abbrev savedFrame (sched : Sched Ext) (task : TaskPtr) : InterruptFrame :=
  (sched.tasks task).savedState

theorem savedFrame_modify {sched : Sched Ext}
    {change : Scheduler.Task Ext → Scheduler.Task Ext}
    (kept : ∀ record, (change record).savedState = record.savedState)
    (other : TaskPtr) :
    savedFrame (sched.modify task change) other = savedFrame sched other := by
  by_cases same : other = task
  · rw [savedFrame, Sched.modify, same]
    simp only [Function.update_self, kept]
  · rw [savedFrame, Sched.modify]
    simp only [Function.update_of_ne same]

theorem savedFrame_fill {sched : Sched Ext} (area : Ext) (other : TaskPtr) :
    savedFrame (sched.modify task fun record =>
        { record with processorExtendedState := area }) other =
      savedFrame sched other :=
  savedFrame_modify (by exact fun _ => rfl) other

theorem savedFrame_credit {sched : Sched Ext} (credit : Word)
    (other : TaskPtr) :
    savedFrame (sched.modify task fun record =>
        { record with vtime := credit }) other =
      savedFrame sched other :=
  savedFrame_modify (by exact fun _ => rfl) other

theorem savedFrame_useExtended {sched : Sched Ext} (registers : Ext)
    (other : TaskPtr) :
    savedFrame (useExtended sched registers) other = savedFrame sched other := by
  rw [useExtended, saveExtendedStateIsr]
  split
  · split
    · simp only
      split
      · exact savedFrame_fill _ other
      · rfl
    · rfl
  · rfl

theorem savedFrame_setState {sched : Sched Ext} {state : TaskState}
    (other : TaskPtr) :
    savedFrame (sched.setState task state) other = savedFrame sched other :=
  savedFrame_modify (by exact fun _ => rfl) other

theorem savedFrame_execute {threads : Threads Ext} {self : TaskPtr}
    (other : TaskPtr) :
    savedFrame (execute threads self).sched other =
      savedFrame threads.sched other := by
  cases stands : threads.place self with
  | outside => rw [execute, stands]
  | inside mutex statement =>
      rw [execute, stands]
      cases statement with
      | lockSpin | unlockSpin =>
          simp only [spinlockLock]
          split <;> rfl
      | dequeueTask =>
          cases queue : (threads.sched.mutexes mutex).waitingTasks <;>
            simp only [queue] <;> rfl
      | freezeSelf | wakeTask woken => exact savedFrame_setState other
      | _ => rfl

/-- The running code leaves the saved frames, and is in `start_task` only if it
was before. -/
structure KeepsFrames (system system' : System Ext) : Prop where
  currentTask : system'.sched.currentTask = system.sched.currentTask
  saved : ∀ task, savedFrame system'.sched task = savedFrame system.sched task
  pending :
    ∀ self task, (system'.position self).pending = some task →
      (system.position self).pending ≠ none

theorem KeepsFrames.proceed {sched : Sched Ext} {position : Position}
    (currentTask : sched.currentTask = system.sched.currentTask)
    (saved : ∀ task, savedFrame sched task = savedFrame system.sched task)
    (pending : position.pending = none ∨ system.here.pending ≠ none) :
    KeepsFrames system (system.proceed sched position) := by
  refine ⟨currentTask, saved, ?_⟩
  intro self task found
  by_cases isCurrent : self = system.sched.currentTask
  · subst isCurrent
    rw [show (system.proceed sched position).position _ = _ from
      Function.update_self _ _ _] at found
    rcases pending with none | some
    · rw [none] at found
      cases found
    · exact some
  · rw [show (system.proceed sched position).position self = _ from
      Function.update_of_ne isCurrent _ _] at found
    rw [found]
    exact Option.some_ne_none _

/-- Of the code, only a call of `start_task` and `main_loop` may do more. -/
theorem keepsFrames_of_advanced [Zero Ext] {code : Code Ext}
    (advanced : Advanced system (.code code) system')
    (notStart : ∀ start context ring stack area,
      code ≠ .start start context ring stack area)
    (notMain : ∀ cpuid stack area, code ≠ .mainLoop cpuid stack area) :
    KeepsFrames system system' := by
  have stays : ∀ self task, (system.position self).pending = some task →
      (system.position self).pending ≠ none := by
    intro self task found
    rw [found]
    exact Option.some_ne_none _
  cases advanced with
  | start free fits => exact absurd rfl (notStart _ _ _ _ _)
  | terminate free runs isTask =>
      exact KeepsFrames.proceed rfl (fun _ => rfl) (Or.inl rfl)
  | @prepare task statement stands =>
      have isPending : system.here.pending ≠ none := by
        rw [stands]
        exact Option.some_ne_none _
      cases statement with
      | setVtime =>
          exact KeepsFrames.proceed rfl (savedFrame_credit _)
            (Or.inr isPending)
      | countTask | testQueue | makeQueue =>
          exact KeepsFrames.proceed rfl (fun _ => rfl) (Or.inr isPending)
  | @finish task statement stands notYield notUnreachable =>
      cases statement with
      | setTerminated =>
          exact KeepsFrames.proceed rfl savedFrame_setState (Or.inl rfl)
      | testCurrent =>
          refine KeepsFrames.proceed rfl (fun _ => rfl) (Or.inl ?_)
          rw [finish]
          simp only
          split <;> rfl
      | subtractVtime | subtractCount | yieldSelf | unreachable =>
          exact KeepsFrames.proceed rfl (fun _ => rfl) (Or.inl rfl)
  | call free runs calls => exact ⟨rfl, fun _ => rfl, stays⟩
  | mutexStatement stands notYield runs outside =>
      exact ⟨sameQueue_execute.currentTask, savedFrame_execute, stays⟩
  | mainLoop free booting fits result => exact absurd rfl (notMain _ _ _)
  | @use registers runs =>
      exact ⟨(sameScheduling_use registers).currentTask,
        savedFrame_useExtended registers, stays⟩

end Frames

/-! ## The invariant -/

section Invariant

variable {Ext : Type} {cpu cpu' : Cpu Ext} {handler : Handler}
  {self task : TaskPtr} {masking : Masking}

/-- The statements after a test-and-set that found the lock free. -/
def Masked.locks : Masked → Bool
  | .pushTask | .unlockQueue => true
  | _ => false

def Handling.locks : Handling → Bool
  | .pushCurrent | .popTask | .unlockQueue => true
  | _ => false

/-- Before these statements the running task's interrupt flag is in the frame on
the stack, and not in the task. -/
def Handling.onStack : Handling → Bool
  | .save | .sendEoi | .iret => true
  | _ => false

/-- The interrupt flag that a task goes on with. -/
def Cpu.flagOf (cpu : Cpu Ext) (self : TaskPtr) : Bool :=
  let saved := interruptFlag (savedFrame cpu.sched self).rflags
  match cpu.handler with
  | none => if self = cpu.sched.currentTask then cpu.interrupts else saved
  | some handler =>
      if self = cpu.sched.currentTask ∧ handler.statement.onStack = true then
        interruptFlag handler.frame.rflags
      else
        saved

/-- The invariant of the lock and of the interrupt flag. -/
structure Guarded (cpu : Cpu Ext) : Prop where
  locked :
    cpu.queueLock ≠ 0 →
      (∃ handler, cpu.handler = some handler ∧
        handler.statement.locks = true) ∨
      ∃ masking, cpu.masking = some masking ∧ masking.statement.locks = true
  masked :
    ∀ task masking, cpu.masked task = some masking →
      cpu.handler = none ∧ task = cpu.sched.currentTask ∧
        cpu.interrupts = false ∧ masking.flags = cpu.called task
  entered :
    ∀ masking, cpu.masking = some masking →
      masking.statement = .lockQueue ∨ masking.statement = .pushTask →
        ∃ task, cpu.system.here = .queueing task
  quiet : cpu.handler ≠ none → cpu.interrupts = false
  inService :
    cpu.inService = true →
      ∃ handler, cpu.handler = some handler ∧ handler.interrupt = .timer ∧
        handler.statement ≠ .iret
  flags :
    ∀ self task, (cpu.system.position self).pending = some task →
      cpu.masked self = none → cpu.flagOf self = cpu.called self

theorem guarded_boot [Zero Ext] (registers : Ext) (interrupts : Bool) :
    Guarded (bootCpu registers interrupts) where
  locked := fun locked => absurd rfl locked
  masked := by
    intro _ _ found
    cases found
  entered := by
    intro _ found
    cases found
  quiet := fun handled => absurd rfl handled
  inService := by
    intro inService
    cases inService
  flags := by
    intro _ _ found
    cases found

/-- Between interrupts and outside of the section nobody has the lock. -/
theorem Guarded.idle (guarded : Guarded cpu) (unhandled : cpu.handler = none)
    (unmasked : cpu.masking = none) :
    cpu.queueLock = 0 ∧ cpu.inService = false ∧
      ∀ task, cpu.masked task = none := by
  refine ⟨?_, ?_, ?_⟩
  · by_contra locked
    rcases guarded.locked locked with ⟨handler, handled, _⟩ |
      ⟨masking, found, _⟩
    · rw [unhandled] at handled
      cases handled
    · rw [unmasked] at found
      cases found
  · by_contra inService
    obtain ⟨handler, handled, _⟩ :=
      guarded.inService (Bool.eq_true_of_not_eq_false inService)
    rw [unhandled] at handled
    cases handled
  · intro task
    cases found : cpu.masked task with
    | none => rfl
    | some masking =>
        obtain ⟨_, isCurrent, _⟩ := guarded.masked task masking found
        rw [isCurrent] at found
        rw [Cpu.masking, found] at unmasked
        cases unmasked

/-- Outside of handlers and of the section only the flags are to be proved. -/
theorem guarded_of_idle (unhandled : cpu.handler = none)
    (unlocked : cpu.queueLock = 0) (acknowledged : cpu.inService = false)
    (unmasked : ∀ task, cpu.masked task = none)
    (flags : ∀ self task, (cpu.system.position self).pending = some task →
      cpu.flagOf self = cpu.called self) : Guarded cpu where
  locked := fun locked => absurd unlocked locked
  masked task masking found := by
    rw [unmasked] at found
    cases found
  entered masking found := by
    rw [Cpu.masking, unmasked] at found
    cases found
  quiet := fun handled => absurd unhandled handled
  inService inService := by
    rw [acknowledged] at inService
    cases inService
  flags := fun self task found _ => flags self task found

/-! ## The code between interrupts -/

theorem flagOf_of_idle (unhandled : cpu.handler = none) (self : TaskPtr) :
    cpu.flagOf self =
      if self = cpu.sched.currentTask then cpu.interrupts
      else interruptFlag (savedFrame cpu.sched self).rflags := by
  rw [Cpu.flagOf, unhandled]

theorem Guarded.keepsFrames {system' : System Ext} (guarded : Guarded cpu)
    (unhandled : cpu.handler = none) (unmasked : cpu.masking = none)
    (kept : KeepsFrames cpu.system system') :
    Guarded { cpu with system := system' } := by
  obtain ⟨unlocked, acknowledged, allUnmasked⟩ :=
    guarded.idle unhandled unmasked
  refine guarded_of_idle unhandled unlocked acknowledged allUnmasked ?_
  intro self task found
  obtain ⟨before, isPending⟩ :=
    Option.ne_none_iff_exists'.mp (kept.pending self task found)
  refine (flagOf_of_idle (by exact unhandled) self).trans ?_
  refine Eq.trans ?_ (guarded.flags self before isPending (allUnmasked self))
  rw [flagOf_of_idle unhandled]
  change (if self = system'.sched.currentTask then _
    else interruptFlag (savedFrame system'.sched self).rflags) = _
  rw [kept.currentTask, kept.saved]

/-- A call of `start_task`. -/
theorem Guarded.start [Zero Ext] {start context stack : Word} {area : Ext}
    (guarded : Guarded cpu) (queued : Queued cpu.system)
    (unhandled : cpu.handler = none) (unmasked : cpu.masking = none) :
    Guarded { cpu with
      system := cpu.system.proceed
        (allocateTask cpu.sched start context stack area)
        (.preparing (cpu.sched.started + 1) .setVtime)
      called := cpu.calls (.start start context 0 stack area) } := by
  obtain ⟨unlocked, acknowledged, allUnmasked⟩ :=
    guarded.idle unhandled unmasked
  refine guarded_of_idle unhandled unlocked acknowledged allUnmasked ?_
  intro self task found
  refine (flagOf_of_idle (by exact unhandled) self).trans ?_
  change (if self = cpu.sched.currentTask then cpu.interrupts else _) =
    Function.update cpu.called cpu.sched.currentTask cpu.interrupts self
  by_cases isCurrent : self = cpu.sched.currentTask
  · rw [if_pos isCurrent, isCurrent, Function.update_self]
  · rw [if_neg isCurrent, Function.update_of_ne isCurrent]
    have unmoved : (cpu.system.position self).pending = some task := by
      rw [← found]
      exact congrArg Position.pending
        (Function.update_of_ne isCurrent _ _).symm
    have old : self ≠ cpu.sched.started + 1 := by
      rintro rfl
      rw [queued.unborn _ (Nat.lt_succ_self _)] at unmoved
      cases unmoved
    have before := guarded.flags self task unmoved (allUnmasked self)
    rw [flagOf_of_idle unhandled, if_neg isCurrent] at before
    rw [← before]
    change interruptFlag (Function.update cpu.sched.tasks _ _ self).savedState.rflags
      = _
    rw [Function.update_of_ne old]

/-- `main_loop`, while no task is being started. -/
theorem Guarded.mainLoop {sched : Sched Ext} (guarded : Guarded cpu)
    (queued : Queued cpu.system) (free : cpu.system.Free)
    (booting : cpu.sched.currentTask = 0) (unhandled : cpu.handler = none)
    (unmasked : cpu.masking = none) :
    Guarded { cpu with system := cpu.system.setSched sched } := by
  obtain ⟨unlocked, acknowledged, allUnmasked⟩ :=
    guarded.idle unhandled unmasked
  refine guarded_of_idle unhandled unlocked acknowledged allUnmasked ?_
  intro self task (found : (cpu.system.position self).pending = some task)
  have outside : cpu.system.position self = .outside := by
    by_cases isBoot : self = 0
    · rw [isBoot, ← booting]
      exact free.1
    · exact queued.early booting self isBoot
  rw [outside] at found
  cases found

theorem Guarded.code [Zero Ext] {code : Code Ext} {system' : System Ext}
    (guarded : Guarded cpu) (queued : Queued cpu.system)
    (unhandled : cpu.handler = none) (unmasked : cpu.masking = none)
    (ran : runCode cpu.system code = some system') :
    Guarded { cpu with system := system', called := cpu.calls code } := by
  have advanced := advanced_of_runCode ran
  cases code with
  | start start context ring stack area =>
      cases advanced with
      | start free fits => exact guarded.start queued unhandled unmasked
      | call free runs calls =>
          rcases calls with ⟨isLock, _⟩ | ⟨isUnlock, _⟩
          · cases isLock
          · cases isUnlock
  | mainLoop cpuid stack area =>
      cases advanced with
      | mainLoop free booting fits result =>
          exact guarded.mainLoop queued free booting unhandled unmasked
      | call free runs calls =>
          rcases calls with ⟨isLock, _⟩ | ⟨isUnlock, _⟩
          · cases isLock
          · cases isUnlock
  | _ =>
      exact guarded.keepsFrames unhandled unmasked
        (keepsFrames_of_advanced advanced
          (fun _ _ _ _ _ isStart => by cases isStart)
          (fun _ _ _ isMain => by cases isMain))

/-! ## The section -/

/-- The section is of the running task. -/
theorem Guarded.only_current (guarded : Guarded cpu)
    (different : task ≠ cpu.sched.currentTask) : cpu.masked task = none := by
  cases found : cpu.masked task with
  | none => rfl
  | some masking =>
      exact absurd (guarded.masked task masking found).2.1 different

theorem Guarded.unacknowledged (guarded : Guarded cpu)
    (unhandled : cpu.handler = none) : cpu.inService = false := by
  by_contra inService
  obtain ⟨handler, handled, _⟩ :=
    guarded.inService (Bool.eq_true_of_not_eq_false inService)
  rw [unhandled] at handled
  cases handled

/-- A task that is switched away keeps its interrupt flag in its frame. -/
theorem Guarded.saved (guarded : Guarded cpu) (unhandled : cpu.handler = none)
    (different : self ≠ cpu.sched.currentTask)
    (pending : (cpu.system.position self).pending = some task) :
    interruptFlag (savedFrame cpu.sched self).rflags = cpu.called self := by
  rw [← guarded.flags self task pending (guarded.only_current different),
    flagOf_of_idle unhandled, if_neg different]

/-- `cli_save`. -/
theorem Guarded.mask (guarded : Guarded cpu) (unhandled : cpu.handler = none)
    (unmasked : cpu.masking = none)
    (stands : cpu.system.here = .queueing task) :
    Guarded { cpu.setMasking (some ⟨cpu.interrupts, .lockQueue⟩) with
      interrupts := false } := by
  obtain ⟨unlocked, acknowledged, allUnmasked⟩ :=
    guarded.idle unhandled unmasked
  have called : cpu.interrupts = cpu.called cpu.sched.currentTask := by
    have isPending : (cpu.system.position cpu.sched.currentTask).pending =
        some task := by
      rw [show cpu.system.position _ = _ from stands]
      rfl
    rw [← guarded.flags _ task isPending (allUnmasked _),
      flagOf_of_idle unhandled, if_pos rfl]
  constructor
  case locked => exact fun locked => absurd unlocked locked
  case masked =>
    intro other masking found
    change Function.update cpu.masked cpu.sched.currentTask _ other = _ at found
    by_cases isCurrent : other = cpu.sched.currentTask
    · rw [isCurrent, Function.update_self] at found
      cases found
      exact ⟨unhandled, isCurrent, rfl, isCurrent ▸ called⟩
    · rw [Function.update_of_ne isCurrent, allUnmasked] at found
      cases found
  case entered => exact fun _ _ _ => ⟨task, stands⟩
  case quiet => exact fun _ => rfl
  case inService =>
    intro (inService : cpu.inService = true)
    rw [acknowledged] at inService
    cases inService
  case flags =>
    intro self other isPending found
    change Function.update cpu.masked cpu.sched.currentTask _ self = _ at found
    by_cases isCurrent : self = cpu.sched.currentTask
    · rw [isCurrent, Function.update_self] at found
      cases found
    · refine (flagOf_of_idle (by exact unhandled) self).trans ?_
      rw [if_neg (by exact isCurrent)]
      exact guarded.saved unhandled isCurrent isPending

/-- A statement inside of the section. -/
theorem Guarded.remask {system' : System Ext} {lock : Word} {flags : Bool}
    {statement next : Masked} (guarded : Guarded cpu)
    (stands : cpu.masking = some ⟨flags, statement⟩)
    (current : system'.sched.currentTask = cpu.sched.currentTask)
    (saved : ∀ task, savedFrame system'.sched task = savedFrame cpu.sched task)
    (position : ∀ task, task ≠ cpu.sched.currentTask →
      system'.position task = cpu.system.position task)
    (locks : lock ≠ 0 → next.locks = true)
    (entered : next = .lockQueue ∨ next = .pushTask →
      ∃ task, system'.here = .queueing task) :
    Guarded { cpu.setMasking (some ⟨flags, next⟩) with
      system := system'
      queueLock := lock } := by
  obtain ⟨unhandled, _, quiet, called⟩ := guarded.masked _ _ stands
  have here : Function.update cpu.masked cpu.sched.currentTask
      (some ⟨flags, next⟩) cpu.sched.currentTask = some ⟨flags, next⟩ :=
    Function.update_self _ _ _
  have masking : ({ cpu.setMasking (some ⟨flags, next⟩) with
      system := system', queueLock := lock } : Cpu Ext).masking =
        some ⟨flags, next⟩ := by
    rw [Cpu.masking, Cpu.sched, current]
    exact here
  constructor
  case locked =>
    intro locked
    exact Or.inr ⟨_, masking, locks locked⟩
  case masked =>
    intro task other found
    change Function.update cpu.masked cpu.sched.currentTask _ task = _ at found
    by_cases isCurrent : task = cpu.sched.currentTask
    · rw [isCurrent, here] at found
      cases found
      refine ⟨unhandled, isCurrent.trans current.symm, quiet, ?_⟩
      rw [isCurrent]
      exact called
    · rw [Function.update_of_ne isCurrent, guarded.only_current isCurrent]
        at found
      cases found
  case entered =>
    intro other found atEntry
    rw [masking] at found
    cases found
    exact entered atEntry
  case quiet => exact fun _ => quiet
  case inService =>
    intro (inService : cpu.inService = true)
    rw [guarded.unacknowledged unhandled] at inService
    cases inService
  case flags =>
    intro self task isPending found
    change Function.update cpu.masked cpu.sched.currentTask _ self = _ at found
    by_cases isCurrent : self = cpu.sched.currentTask
    · rw [isCurrent, here] at found
      cases found
    · refine (flagOf_of_idle (by exact unhandled) self).trans ?_
      change (if self = system'.sched.currentTask then cpu.interrupts
        else interruptFlag (savedFrame system'.sched self).rflags) = _
      rw [current, if_neg isCurrent, saved]
      change (system'.position self).pending = _ at isPending
      rw [position self isCurrent] at isPending
      exact guarded.saved unhandled isCurrent isPending

/-- `rflags_restore`. -/
theorem Guarded.unmask {flags : Bool} (guarded : Guarded cpu)
    (stands : cpu.masking = some ⟨flags, .restoreFlags⟩) :
    Guarded { cpu.setMasking none with interrupts := flags } := by
  obtain ⟨unhandled, _, quiet, called⟩ := guarded.masked _ _ stands
  have unlocked : cpu.queueLock = 0 := by
    by_contra locked
    rcases guarded.locked locked with ⟨handler, handled, _⟩ |
      ⟨masking, found, locks⟩
    · rw [unhandled] at handled
      cases handled
    · rw [stands] at found
      cases found
      cases locks
  refine guarded_of_idle unhandled unlocked (guarded.unacknowledged unhandled)
    ?_ ?_
  · intro task
    change Function.update cpu.masked cpu.sched.currentTask none task = none
    by_cases isCurrent : task = cpu.sched.currentTask
    · rw [isCurrent, Function.update_self]
    · rw [Function.update_of_ne isCurrent]
      exact guarded.only_current isCurrent
  · intro self task isPending
    refine (flagOf_of_idle (by exact unhandled) self).trans ?_
    change (if self = cpu.sched.currentTask then flags
      else interruptFlag (savedFrame cpu.sched self).rflags) = cpu.called self
    by_cases isCurrent : self = cpu.sched.currentTask
    · rw [if_pos isCurrent, isCurrent]
      exact called
    · rw [if_neg isCurrent]
      exact guarded.saved unhandled isCurrent isPending

theorem Guarded.runMasked (guarded : Guarded cpu)
    (unhandled : cpu.handler = none) (ran : runMasked cpu = some cpu') :
    Guarded cpu' := by
  rw [Kernel.runMasked] at ran
  split at ran
  · next unmasked =>
      split at ran
      · next stands =>
          cases ran
          exact guarded.mask unhandled unmasked stands
      · cases ran
  · next flags stands =>
      have here := guarded.entered _ stands (Or.inl rfl)
      cases ran
      rw [lockQueue]
      split
      · next locked =>
          exact ⟨fun _ => guarded.locked locked, guarded.masked,
            guarded.entered, guarded.quiet, guarded.inService, guarded.flags⟩
      · exact guarded.remask stands rfl (fun _ => rfl) (fun _ _ => rfl)
          (fun _ => rfl) (fun _ => here)
  · next flags stands =>
      obtain ⟨system', pushed, result⟩ := Option.bind_eq_some_iff.mp ran
      cases result
      obtain ⟨task, queue, pushed, _, _, _, rfl⟩ := runSection_cases pushed
      exact guarded.remask stands rfl (fun _ => rfl)
        (fun _ different => Function.update_of_ne different _ _) (fun _ => rfl)
        (fun entry => by rcases entry with entry | entry <;> cases entry)
  · next flags stands =>
      cases ran
      exact guarded.remask stands rfl (fun _ => rfl) (fun _ _ => rfl)
        (fun locked => absurd rfl locked)
        (fun entry => by rcases entry with entry | entry <;> cases entry)
  · next flags stands =>
      cases ran
      exact guarded.unmask stands

/-! ## Interrupts -/

/-- While an interrupt is handled, nobody is in the section. -/
theorem Guarded.unmasked (guarded : Guarded cpu)
    (handled : cpu.handler ≠ none) (task : TaskPtr) : cpu.masked task = none := by
  cases found : cpu.masked task with
  | none => rfl
  | some masking => exact absurd (guarded.masked task masking found).1 handled

/-- While an interrupt is handled, only the flags and the lock are to be
proved. -/
theorem guarded_of_handler (handled : cpu.handler = some handler)
    (quiet : cpu.interrupts = false) (unmasked : ∀ task, cpu.masked task = none)
    (locked : cpu.queueLock ≠ 0 → handler.statement.locks = true)
    (inService : cpu.inService = true →
      handler.interrupt = .timer ∧ handler.statement ≠ .iret)
    (flags : ∀ self task, (cpu.system.position self).pending = some task →
      cpu.flagOf self = cpu.called self) : Guarded cpu where
  locked := fun isLocked => Or.inl ⟨handler, handled, locked isLocked⟩
  masked task masking found := by
    rw [unmasked] at found
    cases found
  entered masking found := by
    rw [Cpu.masking, unmasked] at found
    cases found
  quiet := fun _ => quiet
  inService := fun serving => ⟨handler, handled, inService serving⟩
  flags := fun self task found _ => flags self task found

theorem flagOf_of_handler (handled : cpu.handler = some handler)
    (self : TaskPtr) :
    cpu.flagOf self =
      if self = cpu.sched.currentTask ∧ handler.statement.onStack = true then
        interruptFlag handler.frame.rflags
      else interruptFlag (savedFrame cpu.sched self).rflags := by
  rw [Cpu.flagOf, handled]

theorem leave_pending {system : System Ext} {interrupt : Interrupt}
    (pending : ((system.leave interrupt).position self).pending = some task) :
    (system.position self).pending = some task := by
  rcases leave_cases system interrupt with
    unmoved | ⟨other, _, moved⟩ | ⟨mutex, _, moved⟩
  · rw [unmoved] at pending
    exact pending
  · rw [moved] at pending
    by_cases isCurrent : self = system.sched.currentTask
    · rw [isCurrent, show (system.proceed system.sched _).position _ = _ from
        Function.update_self _ _ _] at pending
      cases pending
    · rw [show (system.proceed system.sched _).position self = _ from
        Function.update_of_ne isCurrent _ _] at pending
      exact pending
  · rw [moved] at pending
    exact pending

/-- An interrupt comes. -/
theorem Guarded.interrupt {interrupt : Interrupt} {frame : InterruptFrame}
    (guarded : Guarded cpu) (unhandled : cpu.handler = none)
    (interruptible : cpu.Interruptible interrupt frame) :
    Guarded { cpu with
      system := cpu.system.leave interrupt
      interrupts := false
      inService := cpu.inService || interrupt = .timer
      handler := some ⟨interrupt, frame, .save⟩ } := by
  obtain ⟨_, _, frameFlag, allowed⟩ := interruptible
  have unmasked : cpu.masking = none := by
    cases interrupt with
    | timer =>
        cases found : cpu.masking with
        | none => rfl
        | some masking =>
            have quiet := (guarded.masked _ _ found).2.2.1
            rw [allowed.1] at quiet
            cases quiet
    | yield => exact allowed
  obtain ⟨unlocked, acknowledged, allUnmasked⟩ :=
    guarded.idle unhandled unmasked
  refine guarded_of_handler rfl rfl allUnmasked
    (fun locked => absurd unlocked locked) ?_ ?_
  · intro (serving : (cpu.inService || decide (interrupt = .timer)) = true)
    rw [acknowledged, Bool.false_or, decide_eq_true_eq] at serving
    exact ⟨serving, fun atEnd => Handling.noConfusion atEnd⟩
  · intro self task isPending
    have before := guarded.flags self task (leave_pending isPending)
      (allUnmasked self)
    rw [flagOf_of_idle unhandled] at before
    have sameSched : (cpu.system.leave interrupt).sched = cpu.sched :=
      leave_sched cpu.system interrupt
    refine Eq.trans (flagOf_of_handler rfl self) (Eq.trans ?_ before)
    by_cases isCurrent : self = cpu.sched.currentTask
    · rw [if_pos isCurrent, ← frameFlag]
      exact if_pos ⟨isCurrent.trans (congrArg Sched.currentTask sameSched).symm,
        rfl⟩
    · rw [if_neg isCurrent, ← sameSched]
      refine if_neg ?_
      rintro ⟨same, _⟩
      exact isCurrent (same.trans (congrArg Sched.currentTask sameSched))

/-! ## Handlers -/

/-- A statement of the handler: what it has to show of the flags. -/
theorem Guarded.handle {sched : Sched Ext} {frame : InterruptFrame}
    {statement : Handling} {lock : Word} {serving : Bool}
    (guarded : Guarded cpu) (handled : cpu.handler = some handler)
    (locked : lock ≠ 0 → statement.locks = true)
    (inService : serving = true →
      handler.interrupt = .timer ∧ statement ≠ .iret)
    (flags : ∀ self, (if self = sched.currentTask ∧ statement.onStack = true
        then interruptFlag frame.rflags
        else interruptFlag (savedFrame sched self).rflags) =
      cpu.flagOf self) :
    Guarded { cpu with
      system := cpu.system.setSched sched
      queueLock := lock
      inService := serving
      handler := some ⟨handler.interrupt, frame, statement⟩ } := by
  have isHandled : cpu.handler ≠ none := by
    rw [handled]
    exact Option.some_ne_none _
  refine guarded_of_handler rfl (guarded.quiet isHandled)
    (guarded.unmasked isHandled) locked inService ?_
  intro self task isPending
  have before := guarded.flags self task isPending
    (guarded.unmasked isHandled self)
  refine Eq.trans (flagOf_of_handler rfl self) (Eq.trans ?_ before)
  exact flags self

theorem savedFrame_preempt {sched : Sched Ext} {i : InterruptFrame} {now : Word} :
    savedFrame (preempt sched i now) self =
      if self = sched.currentTask then i else savedFrame sched self := by
  by_cases isCurrent : self = sched.currentTask
  · rw [if_pos isCurrent, isCurrent, savedFrame, preempt_task_current]
    rfl
  · rw [if_neg isCurrent, savedFrame, preempt_task_of_ne sched i now isCurrent]

theorem resume_frame {sched : Sched Ext} {later : Word} :
    (resume sched later).1 = savedFrame sched sched.currentTask ∧
      (resume sched later).2.currentTask = sched.currentTask ∧
      ∀ self, savedFrame (resume sched later).2 self =
        savedFrame sched self := by
  rw [resume_eq]
  refine ⟨rfl, rfl, ?_⟩
  intro self
  change (Function.update sched.tasks sched.currentTask (resumed sched later)
    self).savedState = (sched.tasks self).savedState
  by_cases isCurrent : self = sched.currentTask
  · rw [isCurrent, Function.update_self]
    rfl
  · rw [Function.update_of_ne isCurrent]

theorem offStack {statement : Handling} {isCurrent : Prop}
    [Decidable isCurrent] {inFrame saved : Bool}
    (off : statement.onStack = false) :
    (if isCurrent ∧ statement.onStack = true then inFrame else saved) =
      saved := by
  refine if_neg ?_
  rintro ⟨_, on⟩
  rw [off] at on
  cases on

theorem Guarded.runHandler {time : Word} (guarded : Guarded cpu)
    (handled : cpu.handler = some handler)
    (ran : runHandler cpu handler time = some cpu') : Guarded cpu' := by
  have isHandled : cpu.handler ≠ none := by
    rw [handled]
    exact Option.some_ne_none _
  have serving : cpu.inService = true →
      handler.interrupt = .timer ∧ handler.statement ≠ .iret := by
    intro inService
    obtain ⟨other, handled', isTimer, notEnd⟩ := guarded.inService inService
    obtain rfl := Option.some.inj (handled.symm.trans handled')
    exact ⟨isTimer, notEnd⟩
  have locked : cpu.queueLock ≠ 0 → handler.statement.locks = true := by
    intro isLocked
    rcases guarded.locked isLocked with ⟨other, handled', locks⟩ |
      ⟨masking, found, _⟩
    · obtain rfl := Option.some.inj (handled.symm.trans handled')
      exact locks
    · rw [Cpu.masking, guarded.unmasked isHandled] at found
      cases found
  have flagOf := fun self => flagOf_of_handler handled self
  obtain ⟨interrupt, frame, statement⟩ := handler
  cases statement with
  | save =>
      cases ran
      refine guarded.handle handled
        (fun isLocked => Bool.noConfusion (locked isLocked))
        (fun inService => ⟨(serving inService).1,
          fun atEnd => Handling.noConfusion atEnd⟩) ?_
      intro self
      refine Eq.trans (offStack rfl) ?_
      rw [flagOf, savedFrame_preempt]
      by_cases isCurrent : self = cpu.sched.currentTask
      · rw [if_pos isCurrent, if_pos ⟨isCurrent, rfl⟩]
      · rw [if_neg isCurrent, if_neg fun both => isCurrent both.1]
  | lockQueue =>
      cases ran
      rw [lockQueue]
      split
      · next isLocked => exact Bool.noConfusion (locked isLocked)
      · exact @Guarded.handle _ cpu _ cpu.sched frame .pushCurrent 1
          cpu.inService guarded handled (fun _ => rfl)
          (fun inService => ⟨(serving inService).1,
            fun atEnd => Handling.noConfusion atEnd⟩) fun self =>
            (offStack rfl).trans ((flagOf self).trans (offStack rfl)).symm
  | pushCurrent =>
      simp only [Kernel.runHandler] at ran
      split at ran
      · cases ran
      · split at ran
        · cases ran
        · cases ran
          exact guarded.handle handled (fun _ => rfl)
            (fun inService => ⟨(serving inService).1,
              fun atEnd => Handling.noConfusion atEnd⟩) fun self =>
              (offStack rfl).trans ((flagOf self).trans (offStack rfl)).symm
  | popTask =>
      simp only [Kernel.runHandler] at ran
      split at ran
      · cases ran
      · split at ran
        · cases ran
        · split at ran
          · cases ran
          · cases ran
            refine guarded.handle handled ?_ ?_ ?_
            · intro _
              split <;> rfl
            · refine fun inService => ⟨(serving inService).1, ?_⟩
              split <;> exact fun atEnd => Handling.noConfusion atEnd
            · intro self
              refine Eq.trans (offStack ?_)
                ((flagOf self).trans (offStack rfl)).symm
              split <;> rfl
  | unlockQueue =>
      cases ran
      exact @Guarded.handle _ cpu _ cpu.sched frame .resumeTask 0
        cpu.inService guarded handled (fun isLocked => absurd rfl isLocked)
        (fun inService => ⟨(serving inService).1,
          fun atEnd => Handling.noConfusion atEnd⟩) fun self =>
          (offStack rfl).trans ((flagOf self).trans (offStack rfl)).symm
  | resumeTask =>
      cases ran
      obtain ⟨frameEq, current, saved⟩ := @resume_frame _ cpu.sched time
      refine @Guarded.handle _ cpu ⟨interrupt, frame, .resumeTask⟩
        (resume cpu.sched time).2 (resume cpu.sched time).1
        (if interrupt = .timer then .sendEoi else .iret) cpu.queueLock
        cpu.inService guarded handled
        (fun isLocked => Bool.noConfusion (locked isLocked))
        ?_ ?_
      · intro inService
        obtain ⟨isTimer, _⟩ := serving inService
        refine ⟨isTimer, ?_⟩
        rw [if_pos isTimer]
        exact fun atEnd => Handling.noConfusion atEnd
      · intro self
        refine Eq.trans ?_ ((flagOf self).trans (offStack rfl)).symm
        rw [frameEq, current, saved]
        by_cases isCurrent : self = cpu.sched.currentTask
        · rw [isCurrent, ite_self]
        · exact if_neg fun both => isCurrent both.1
  | sendEoi =>
      cases ran
      exact @Guarded.handle _ cpu _ cpu.sched frame .iret cpu.queueLock false
        guarded handled (fun isLocked => Bool.noConfusion (locked isLocked))
        (fun inService => Bool.noConfusion inService) fun self => by
          rw [flagOf]
          rfl
  | iret =>
      cases ran
      refine guarded_of_idle rfl ?_ ?_ (guarded.unmasked isHandled) ?_
      · by_contra isLocked
        cases locked isLocked
      · by_contra inService
        exact (serving (Bool.eq_true_of_not_eq_false inService)).2 rfl
      · intro self task isPending
        rw [flagOf_of_idle rfl]
        refine Eq.trans ?_ (guarded.flags self task isPending
          (guarded.unmasked isHandled self))
        rw [flagOf]
        by_cases isCurrent : self = cpu.sched.currentTask
        · rw [if_pos isCurrent, if_pos ⟨isCurrent, rfl⟩]
        · rw [if_neg isCurrent, if_neg fun both => isCurrent both.1]

/-! ## Who wants the lock -/

theorem masking_of_masked {masking : Option Masking}
    (masked : cpu'.masked =
      Function.update cpu.masked cpu.sched.currentTask masking)
    (current : cpu'.sched.currentTask = cpu.sched.currentTask) :
    cpu'.masking = masking := by
  rw [Cpu.masking, masked, current, Function.update_self]

/-- A test-and-set of the lock comes next. -/
def Cpu.AtLock (cpu : Cpu Ext) : Prop :=
  (∃ handler, cpu.handler = some handler ∧ handler.statement = .lockQueue) ∨
    ∃ masking, cpu.masking = some masking ∧ masking.statement = .lockQueue

theorem Guarded.free (guarded : Guarded cpu) (atLock : cpu.AtLock) :
    cpu.queueLock = 0 := by
  by_contra isLocked
  rcases guarded.locked isLocked with ⟨handler, handled, locks⟩ |
    ⟨masking, found, locks⟩
  · rcases atLock with ⟨other, handled', stands⟩ | ⟨masking, found, _⟩
    · obtain rfl := Option.some.inj (handled.symm.trans handled')
      rw [stands] at locks
      cases locks
    · rw [(guarded.masked _ _ found).1] at handled
      cases handled
  · rcases atLock with ⟨other, handled, _⟩ | ⟨other, found', stands⟩
    · rw [(guarded.masked _ _ found).1] at handled
      cases handled
    · obtain rfl := Option.some.inj (found.symm.trans found')
      rw [stands] at locks
      cases locks

theorem Guarded.quietLock (guarded : Guarded cpu) (isLocked : cpu.queueLock ≠ 0) :
    cpu.interrupts = false := by
  rcases guarded.locked isLocked with ⟨handler, handled, _⟩ |
    ⟨masking, found, _⟩
  · apply guarded.quiet
    rw [handled]
    exact Option.some_ne_none _
  · exact (guarded.masked _ _ found).2.2.1

end Invariant

/-! ## Runs -/

section Runs

variable {Ext : Type} [Zero Ext] {registers : Ext} {cpu cpu' : Cpu Ext}
  {event : CpuEvent Ext} {handler : Handler}

theorem ShowsRun.queued (shown : ShowsRun registers cpu)
    (unhandled : cpu.handler = none) : Queued cpu.system := by
  obtain ⟨events, system, run, shows'⟩ := shown
  cases shows' with
  | running _ same =>
      rw [same]
      exact queued_of_run run
  | switched handler handled _ _ =>
      rw [unhandled] at handled
      cases handled
  | switching handler _ handled _ _ _ _ =>
      rw [unhandled] at handled
      cases handled

theorem Guarded.step (guarded : Guarded cpu) (shown : ShowsRun registers cpu)
    (step : CpuStep cpu event cpu') : Guarded cpu' := by
  cases event with
  | code code =>
      rw [CpuStep, advanceCpu] at step
      split at step
      · next allowed =>
          obtain ⟨system', ran, result⟩ := Option.bind_eq_some_iff.mp step
          cases result
          exact guarded.code (shown.queued allowed.1) allowed.1 allowed.2 ran
      · cases step
  | masked =>
      rw [CpuStep, advanceCpu] at step
      split at step
      · next unhandled => exact guarded.runMasked unhandled step
      · cases step
  | interrupt interrupt frame =>
      rw [CpuStep, advanceCpu] at step
      split at step
      · next allowed =>
          cases step
          exact guarded.interrupt allowed.1 allowed.2
      · cases step
  | handler time =>
      rw [CpuStep, advanceCpu] at step
      split at step
      · cases step
      · next handler handled => exact guarded.runHandler handled step

/-- The next statement of the section. -/
def Masking.next (masking : Masking) : Option Masking :=
  match masking.statement with
  | .lockQueue => some { masking with statement := .pushTask }
  | .pushTask => some { masking with statement := .unlockQueue }
  | .unlockQueue => some { masking with statement := .restoreFlags }
  | .restoreFlags => none

/-- What the lock and the mask are for. -/
structure LockSafe (cpu : Cpu Ext) : Prop where
  /-- Nobody waits for the lock. -/
  free : cpu.AtLock → cpu.queueLock = 0
  /-- Who has it is not interrupted. -/
  quiet : cpu.queueLock ≠ 0 → cpu.interrupts = false
  /-- The section goes on to its end, and leaves the interrupt flag as the caller
  of `start_task` had it. -/
  returns :
    ∀ masking, cpu.masking = some masking →
      ∃ cpu', CpuStep cpu .masked cpu' ∧ cpu'.masking = masking.next ∧
        (masking.statement = .restoreFlags →
          cpu'.interrupts = cpu.called cpu.sched.currentTask)
  /-- A switch goes on, as long as it does not run out of tasks. -/
  switches :
    ∀ handler, cpu.handler = some handler → handler.statement ≠ .popTask →
      ∀ time, ∃ cpu', CpuStep cpu (.handler time) cpu' ∧
        ∀ handler', cpu'.handler = some handler' →
          handler'.statement ≠ handler.statement

/-- Each statement of the section can be executed. -/
theorem Guarded.returns {masking : Masking} (guarded : Guarded cpu)
    (shown : ShowsRun registers cpu) (stands : cpu.masking = some masking) :
    ∃ cpu', CpuStep cpu .masked cpu' ∧ cpu'.masking = masking.next ∧
      (masking.statement = .restoreFlags →
        cpu'.interrupts = cpu.called cpu.sched.currentTask) := by
  obtain ⟨unhandled, _, _, called⟩ := guarded.masked _ _ stands
  have runs : ∀ {cpu'}, Kernel.runMasked cpu = some cpu' →
      CpuStep cpu .masked cpu' := by
    intro cpu' ran
    rw [CpuStep, advanceCpu, if_pos unhandled, ran]
  obtain ⟨flags, statement⟩ := masking
  cases statement with
  | lockQueue =>
      have free := guarded.free (Or.inr ⟨_, stands, rfl⟩)
      refine ⟨_, runs (by rw [Kernel.runMasked, stands]), ?_,
        fun atEnd => Masked.noConfusion atEnd⟩
      rw [lockQueue, if_neg fun locked => locked free]
      exact masking_of_masked rfl rfl
  | pushTask =>
      have queued := shown.queued unhandled
      obtain ⟨task, here⟩ := guarded.entered _ stands (Or.inr rfl)
      obtain ⟨queue, found⟩ := queued.queueing _ task here
      obtain ⟨pushed, push⟩ := heapPush_spec
        (compareTasks_self cpu.sched.tasks) (queued.allocated queue found) task
      have section' : runSection cpu.system = some (cpu.system.proceed
          { cpu.sched with taskQueue := some pushed } .outside) := by
        rw [runSection, here, found]
        simp only [Scheduler.pushTask, push.result]
      refine ⟨_, runs (by rw [Kernel.runMasked, stands, section']; rfl), ?_,
        fun atEnd => Masked.noConfusion atEnd⟩
      exact masking_of_masked rfl rfl
  | unlockQueue =>
      refine ⟨_, runs (by rw [Kernel.runMasked, stands]), ?_,
        fun atEnd => Masked.noConfusion atEnd⟩
      exact masking_of_masked rfl rfl
  | restoreFlags =>
      refine ⟨_, runs (by rw [Kernel.runMasked, stands]), ?_, fun _ => called⟩
      exact masking_of_masked rfl rfl

/-- The run queue while the handler is about to push. -/
theorem ShowsRun.pushes (shown : ShowsRun registers cpu)
    (handled : cpu.handler = some handler)
    (stands : handler.statement = .pushCurrent) :
    ∃ queue, cpu.sched.taskQueue = some queue ∧ Allocated queue := by
  obtain ⟨events, system, run, shows'⟩ := shown
  have queued := queued_of_run run
  cases shows' with
  | running unhandled _ =>
      rw [unhandled] at handled
      cases handled
  | switched other handled' atEnd _ =>
      obtain rfl := Option.some.inj (handled.symm.trans handled')
      rw [stands] at atEnd
      rcases atEnd with atEnd | atEnd <;> cases atEnd
  | switching other sched handled' nonNull _ same progress =>
      obtain rfl := Option.some.inj (handled.symm.trans handled')
      rw [stands] at progress
      have schedEq : cpu.sched = sched := by
        rw [Cpu.sched, same]
        rfl
      obtain ⟨queue, found⟩ := queued.hasQueue nonNull
      refine ⟨queue, ?_, queued.allocated queue found⟩
      rw [schedEq, ← found]
      cases progress with
      | pushCurrent now => exact preempt_taskQueue _ _ _
      | selected atEnd => rcases atEnd with atEnd | atEnd <;> cases atEnd

/-- Each statement of the handler can be executed, unless no task is left. -/
theorem Guarded.switches (guarded : Guarded cpu)
    (shown : ShowsRun registers cpu) (handled : cpu.handler = some handler)
    (notPop : handler.statement ≠ .popTask) (time : Word) :
    ∃ cpu', CpuStep cpu (.handler time) cpu' ∧
      ∀ handler', cpu'.handler = some handler' →
        handler'.statement ≠ handler.statement := by
  have runs : ∀ {cpu'},
      Kernel.runHandler cpu handler time = some cpu' →
      CpuStep cpu (.handler time) cpu' := by
    intro cpu' ran
    rw [CpuStep, advanceCpu, handled]
    exact ran
  have pushes := shown.pushes handled
  have free := fun stands => guarded.free (Or.inl ⟨handler, handled, stands⟩)
  obtain ⟨interrupt, frame, statement⟩ := handler
  have goesOn : ∀ {cpu' : Cpu Ext} {other : InterruptFrame} {next : Handling},
      cpu'.handler = some ⟨interrupt, other, next⟩ → next ≠ statement →
      ∀ handler', cpu'.handler = some handler' →
        handler'.statement ≠ statement := by
    intro cpu' other next handled' different handler' found
    obtain rfl := Option.some.inj (handled'.symm.trans found)
    exact different
  cases statement with
  | save | unlockQueue | sendEoi =>
      exact ⟨_, runs rfl, goesOn rfl fun equal => Handling.noConfusion equal⟩
  | lockQueue =>
      refine ⟨_, runs rfl, ?_⟩
      rw [lockQueue, if_neg fun locked => locked (free rfl)]
      exact goesOn rfl fun equal => Handling.noConfusion equal
  | pushCurrent =>
      obtain ⟨queue, found, allocated⟩ := pushes rfl
      obtain ⟨pushed, push⟩ := heapPush_spec
        (compareTasks_self cpu.sched.tasks) allocated cpu.sched.currentTask
      refine ⟨_, runs (by
        simp only [Kernel.runHandler, found, Scheduler.pushTask, push.result]
        rfl), ?_⟩
      exact goesOn rfl fun equal => Handling.noConfusion equal
  | popTask => exact absurd rfl notPop
  | resumeTask =>
      refine ⟨_, runs rfl, goesOn rfl ?_⟩
      split <;> exact fun equal => Handling.noConfusion equal
  | iret =>
      refine ⟨_, runs rfl, fun _ found => ?_⟩
      cases found

theorem guarded_of_run {interrupts : Bool} {events : List (CpuEvent Ext)}
    (run : Run CpuStep (bootCpu registers interrupts) events cpu) :
    ShowsRun registers cpu ∧ Guarded cpu := by
  induction run with
  | nil => exact ⟨⟨[], _, Run.nil, Shows.running rfl rfl⟩, guarded_boot _ _⟩
  | snoc _ step inductionHypothesis =>
      obtain ⟨shown, guarded⟩ := inductionHypothesis
      exact ⟨shown.step step, guarded.step shown step⟩

/-- In every run of the processor, with timer interrupts wherever they can come,
`queue_lock` is free when it is taken, so neither `start_task` nor
`task_switch_isr` ever spins on it; and the run shows one in which the masked
section of `start_task` and each switch happen in one step. -/
theorem queue_lock_safe {Ext : Type} [Zero Ext] (registers : Ext)
    (interrupts : Bool) (events : List (CpuEvent Ext)) :
    Always CpuStep (bootCpu registers interrupts) events fun _ cpu =>
      ShowsRun registers cpu ∧ LockSafe cpu := by
  intro before after cpu _ run
  obtain ⟨shown, guarded⟩ := guarded_of_run run
  exact ⟨shown, guarded.free, guarded.quietLock,
    fun _ stands => guarded.returns shown stands,
    fun _ handled notPop time => guarded.switches shown handled notPop time⟩

end Runs

end BeaverOS.Kernel
