import BeaverOS.Isr.Dispatch
import BeaverOS.Sched.ExtendedState
import BeaverOS.Sched.Tasks
import Mathlib.Logic.Relation

/-!
# Interrupted tasks

A processor that runs tasks. Every interrupt goes through the stub of its vector
and the common part; the handler leaves the frame alone, or is
`task_switch_isr`. The stub loads the vector into `rcx` before `rcx` is saved,
so a task goes on as it was interrupted where `rcx` held the vector already.
-/

namespace BeaverOS.Transparency

open BeaverOS.ByteMemory
open BeaverOS.Isr
open BeaverOS.Scheduler
open BeaverOS.StackMachine
open BeaverOS.Transition

/-! ## The system -/

/-- How a task was interrupted. -/
structure Interruption where
  context : Context
  vector : Nat

/-- The processor, the scheduler, and how each task was last interrupted. -/
structure System (Ext : Type) where
  context : Context
  memory : Memory
  sched : Sched Ext
  interrupted : TaskPtr → Option Interruption

/-- What happens on the processor. The last argument of an interrupt is the
machine when the handler returns. -/
inductive Event where
  | execute (context : Context) (memory : Memory)
  | call
  | interrupt (vector : Nat) (error : Option (BitVec 32))
      (handled : Machine Register)
  | taskSwitch (vector : Nat) (error : Option (BitVec 32)) (now later : Word)
      (handled : Machine Register)

/-- Whether the event ends with `iretq`. -/
def Event.Returns : Event → Prop
  | .execute _ _ => False
  | .call => False
  | .interrupt _ _ _ => True
  | .taskSwitch _ _ _ _ _ => True

section Model

variable {Ext : Type} {sched sched' : Sched Ext} {system system' : System Ext}
  {machine handled : Machine Register} {vector : Nat}
  {error : Option (BitVec 32)} {cIsrTable : Word}

/-- A call into the scheduler that switches no task. -/
inductive Call [Zero Ext] : Sched Ext → Sched Ext → Prop
  | operation {sched sched' : Sched Ext} {action : Action Ext} :
      (∀ i now later, action ≠ .switch i now later) →
      Step sched action sched' →
      Call sched sched'
  | saveExtendedState {sched : Sched Ext} :
      sched.currentTask ≠ 0 →
      Call sched (saveExtendedStateIsr sched)

/-- An interrupt has brought the machine to the call of its handler. -/
structure Arrives (cIsrTable : Word) (system : System Ext) (vector : Nat)
    (error : Option (BitVec 32)) (machine : Machine Register) : Prop where
  inside : vector < 256
  pushes : error.isSome = pushesErrorCode vector
  entered :
    ∃ err, stubError vector = some err ∧
      machine =
        atCall cIsrTable system.context system.memory vector err error

/-- The system when the handler has returned. -/
def System.leave (system : System Ext) (vector : Nat)
    (handled : Machine Register) (sched' : Sched Ext) : System Ext where
  context := leaveIsr handled
  memory := handled.memory
  sched := sched'
  interrupted :=
    Function.update system.interrupted system.sched.currentTask
      (some ⟨system.context, vector⟩)

/-- One event. Code changes registers and memory as it likes, and so does a
handler, its frame and its stack pointer apart. -/
inductive Moves [Zero Ext] (cIsrTable : Word) :
    System Ext → Event → System Ext → Prop
  | execute {system : System Ext} {context : Context} {memory : Memory} :
      Moves cIsrTable system (.execute context memory)
        { system with context := context, memory := memory }
  | call {system : System Ext} {sched' : Sched Ext} :
      Call system.sched sched' →
      Moves cIsrTable system .call { system with sched := sched' }
  | interrupt {system : System Ext} {vector : Nat}
      {error : Option (BitVec 32)} {machine handled : Machine Register}
      {sched' : Sched Ext} :
      Arrives cIsrTable system vector error machine →
      handled.registers .rsp = machine.registers .rsp →
      readFrame handled.memory (machine.registers .rdi) =
        readFrame machine.memory (machine.registers .rdi) →
      Relation.ReflTransGen Call system.sched sched' →
      sched'.currentTask = system.sched.currentTask →
      Moves cIsrTable system (.interrupt vector error handled)
        (system.leave vector handled sched')
  | taskSwitch {system : System Ext} {vector : Nat}
      {error : Option (BitVec 32)} {machine handled : Machine Register}
      {now later : Word} {i' : InterruptFrame} {sched' : Sched Ext} :
      Arrives cIsrTable system vector error machine →
      handled.registers .rsp = machine.registers .rsp →
      system.sched.currentTask ≠ 0 →
      taskSwitchIsr system.sched
          (readFrame machine.memory (machine.registers .rdi)) now later =
        .ok (i', sched') →
      readFrame handled.memory (machine.registers .rdi) = i' →
      Moves cIsrTable system (.taskSwitch vector error now later handled)
        (system.leave vector handled sched')

/-- The system when no task was interrupted yet. -/
def bootSystem [Zero Ext] (context : Context) (memory : Memory)
    (registers : Ext) : System Ext where
  context := context
  memory := memory
  sched := bootSched registers
  interrupted := fun _ => none

/-- Where the event resumes a task that was interrupted, its registers are what
they were. -/
def Transparent (_ : System Ext) (event : Event) (system' : System Ext) :
    Prop :=
  event.Returns →
    ∀ interruption,
      system'.interrupted system'.sched.currentTask = some interruption →
        system'.context = interruption.context

/-- Where the event resumes a task that was interrupted, `rcx` held the vector
when it was. -/
def ArrivedWithVector (_ : System Ext) (event : Event)
    (system' : System Ext) : Prop :=
  event.Returns →
    ∀ interruption,
      system'.interrupted system'.sched.currentTask = some interruption →
        interruption.context.registers .rcx =
          BitVec.ofNat 64 interruption.vector

/-! ## The frame of an interruption -/

/-- The registers as the frame of the interrupt has them. -/
def Interruption.saved (interruption : Interruption) : Context :=
  { interruption.context with
    registers := savedRegisters interruption.context interruption.vector }

theorem Interruption.saved_eq_iff (interruption : Interruption) :
    interruption.saved = interruption.context ↔
      interruption.context.registers .rcx =
        BitVec.ofNat 64 interruption.vector := by
  constructor
  · intro same
    have rcx := congrArg (fun context => context.registers .rcx) same
    exact rcx.symm
  · intro held
    have registers :
        savedRegisters interruption.context interruption.vector =
          interruption.context.registers := by
      funext register
      rw [savedRegisters]
      split
      · next isRcx => rw [isRcx, held]
      · rfl
    rw [saved, registers]

theorem context_arrivalFrame (context : Context) (vector : Nat)
    (error : Option (BitVec 32)) :
    (arrivalFrame context vector error).context =
      (Interruption.mk context vector).saved := by
  have registers : (arrivalFrame context vector error).register =
      savedRegisters context vector := by
    funext register
    cases register <;> rfl
  rw [InterruptFrame.context, registers]
  rfl

theorem Arrives.atCall (arrives : Arrives cIsrTable system vector error machine) :
    AtCall cIsrTable system.context system.memory vector error machine := by
  obtain ⟨err, stub, rfl⟩ := arrives.entered
  have agrees : error.isSome = err :=
    arrives.pushes.trans (stubError_eq arrives.inside stub).symm
  exact atCall_spec cIsrTable system.context system.memory vector agrees

/-- The handler finds the frame of the interruption. -/
theorem Arrives.readFrame
    (arrives : Arrives cIsrTable system vector error machine) :
    readFrame machine.memory (machine.registers .rdi) =
      arrivalFrame system.context vector error :=
  arrives.atCall.readFrame

/-- The frame that the handler leaves is what goes on. -/
theorem Arrives.leaveIsr
    (arrives : Arrives cIsrTable system vector error machine)
    (sameStack : handled.registers .rsp = machine.registers .rsp) :
    leaveIsr handled =
      (Isr.readFrame handled.memory (machine.registers .rdi)).context := by
  have aligned : (handled.registers .rsp).toNat % 8 = 0 := by
    rw [sameStack]
    exact arrives.atCall.stack.aligned
  rw [leaveIsr_eq aligned, sameStack, arrives.atCall.rdi]

/-! ## Calls into the scheduler -/

/-- Tasks keep their frames, and no task that was preempted is put on the
processor. -/
structure KeepsFrames (sched sched' : Sched Ext) : Prop where
  started : sched.started ≤ sched'.started
  savedState :
    ∀ task, task ≤ sched.started →
      (sched'.tasks task).savedState = (sched.tasks task).savedState
  currentTask :
    sched.currentTask = 0 ∨ sched'.currentTask = sched.currentTask

theorem KeepsFrames.trans {sched'' : Sched Ext}
    (first : KeepsFrames sched sched') (second : KeepsFrames sched' sched'') :
    KeepsFrames sched sched'' where
  started := first.started.trans second.started
  savedState task bound :=
    (second.savedState task (bound.trans first.started)).trans
      (first.savedState task bound)
  currentTask := by
    rcases first.currentTask with booting | kept
    · exact Or.inl booting
    · rw [← kept]
      exact second.currentTask

theorem savedState_modify {task : TaskPtr}
    {change : Scheduler.Task Ext → Scheduler.Task Ext}
    (keeps : ∀ record, (change record).savedState = record.savedState)
    (other : TaskPtr) :
    ((sched.modify task change).tasks other).savedState =
      (sched.tasks other).savedState := by
  rw [Sched.modify]
  by_cases same : other = task
  · rw [same]
    simp only [Function.update_self]
    exact keeps _
  · simp only [Function.update_of_ne same]

theorem keepsFrames_modify {task : TaskPtr}
    {change : Scheduler.Task Ext → Scheduler.Task Ext}
    (keeps : ∀ record, (change record).savedState = record.savedState) :
    KeepsFrames sched (sched.modify task change) :=
  ⟨Nat.le_refl _, fun other _ => savedState_modify keeps other, Or.inr rfl⟩

theorem keepsFrames_setState (task : TaskPtr) (state : TaskState) :
    KeepsFrames sched (sched.setState task state) :=
  keepsFrames_modify fun _ => rfl

theorem keepsFrames_saveExtendedStateIsr :
    KeepsFrames sched (saveExtendedStateIsr sched) := by
  cases mode : sched.extendedStateSaveMode with
  | fxsaveLazy =>
      have area : KeepsFrames sched
          (sched.modify sched.sseStateOwner fun record =>
            { record with processorExtendedState := sched.extendedRegisters }) :=
        keepsFrames_modify fun _ => rfl
      rw [saveExtendedStateIsr_eq mode]
      refine ⟨Nat.le_refl _, fun task bound => ?_, Or.inr rfl⟩
      simp only
      split
      · exact area.savedState task bound
      · rfl
  | xsaveEager =>
      simp only [saveExtendedStateIsr, mode]
      exact ⟨Nat.le_refl _, fun _ _ => rfl, Or.inr rfl⟩
  | xsaveoptEager =>
      simp only [saveExtendedStateIsr, mode]
      exact ⟨Nat.le_refl _, fun _ _ => rfl, Or.inr rfl⟩

theorem keepsFrames_useExtended (registers : Ext) :
    KeepsFrames sched (useExtended sched registers) := by
  rw [useExtended]
  split
  · have kept : KeepsFrames sched (saveExtendedStateIsr sched) :=
      keepsFrames_saveExtendedStateIsr
    exact ⟨kept.started, kept.savedState, kept.currentTask⟩
  · exact ⟨Nat.le_refl _, fun _ _ => rfl, Or.inr rfl⟩

theorem keepsFrames_mutexLock (mutex : Nat) :
    KeepsFrames sched (mutexLock sched mutex) := by
  rw [mutexLock]
  split
  · have frozen : KeepsFrames sched
        (sched.setState sched.currentTask .frozen) :=
      keepsFrames_setState sched.currentTask .frozen
    exact ⟨frozen.started, frozen.savedState, frozen.currentTask⟩
  · exact ⟨Nat.le_refl _, fun _ _ => rfl, Or.inr rfl⟩

theorem keepsFrames_mutexUnlock (mutex : Nat) :
    KeepsFrames sched (mutexUnlock sched mutex) := by
  rw [mutexUnlock_eq]
  refine ⟨Nat.le_refl _, fun task _ => ?_, Or.inr rfl⟩
  simp only
  split <;> rfl

theorem keepsFrames_terminateTask (task : TaskPtr) :
    KeepsFrames sched (terminateTask sched task) := by
  have ended : KeepsFrames sched (sched.setState task .terminated) :=
    keepsFrames_setState task .terminated
  exact ⟨ended.started, ended.savedState, ended.currentTask⟩

theorem keepsFrames_start {record : Scheduler.Task Ext}
    {queue pushed : Heap.MinHeap TaskPtr}
    (started : Started sched record queue pushed sched') :
    KeepsFrames sched sched' := by
  refine ⟨?_, fun task bound => ?_, ?_⟩
  · rw [started.result]
    exact Nat.le_succ _
  · rw [started.tasks_old bound]
  · rw [started.result]
    exact Or.inr rfl

variable [Zero Ext]

theorem keepsFrames_of_step {action : Action Ext}
    (wellFormed : WellFormed sched)
    (notSwitch : ∀ i now later, action ≠ .switch i now later)
    (step : Step sched action sched') : KeepsFrames sched sched' := by
  cases step with
  | start canCall fits result =>
      obtain ⟨_, queue, pushed, started⟩ :=
        started_of_startTask wellFormed.allocated result
      exact keepsFrames_start started
  | @mainLoop _ cpuid _ _ booting fits result =>
      obtain ⟨queue, pushed, middle, started, rfl⟩ :=
        mainLoop_cases wellFormed.allocated result
      have spawned : KeepsFrames (withSaveMode sched cpuid) middle :=
        keepsFrames_start started
      have ended : KeepsFrames middle
          (terminateTask middle (sched.started + 1)) :=
        keepsFrames_terminateTask (sched.started + 1)
      have both := spawned.trans ended
      exact ⟨both.started, both.savedState, Or.inl booting⟩
  | @switch _ i i' now later nonNull result =>
      exact absurd rfl (notSwitch i now later)
  | @lock mutex canCall booting => exact keepsFrames_mutexLock mutex
  | @unlock mutex canCall => exact keepsFrames_mutexUnlock mutex
  | @terminate task nonNull canCall isTask =>
      exact keepsFrames_terminateTask task
  | @use registers nonNull canCall => exact keepsFrames_useExtended registers

theorem Call.keeps (call : Call sched sched')
    (wellFormed : WellFormed sched) :
    WellFormed sched' ∧ KeepsFrames sched sched' := by
  cases call with
  | operation notSwitch step =>
      exact ⟨wellFormed.step step,
        keepsFrames_of_step wellFormed notSwitch step⟩
  | saveExtendedState nonNull =>
      exact ⟨wellFormed.same sameScheduling_saveExtendedStateIsr,
        keepsFrames_saveExtendedStateIsr⟩

theorem calls_keep (calls : Relation.ReflTransGen Call sched sched')
    (wellFormed : WellFormed sched) :
    WellFormed sched' ∧ KeepsFrames sched sched' := by
  induction calls with
  | refl =>
      exact ⟨wellFormed, Nat.le_refl _, fun _ _ => rfl, Or.inr rfl⟩
  | tail calls call inductionHypothesis =>
      obtain ⟨between, kept⟩ := inductionHypothesis
      obtain ⟨ended, last⟩ := call.keeps between
      exact ⟨ended, kept.trans last⟩

/-! ## The saved frames -/

/-- Each task that waits to be resumed has the frame of its interruption. -/
structure Recorded (system : System Ext) : Prop where
  wellFormed : WellFormed system.sched
  bound :
    ∀ task interruption, system.interrupted task = some interruption →
      task ≤ system.sched.started
  saved :
    ∀ task interruption, task ≠ 0 → task ≠ system.sched.currentTask →
      system.interrupted task = some interruption →
        (system.sched.tasks task).savedState.context = interruption.saved

omit [Zero Ext] in
theorem Recorded.keeps (recorded : Recorded system)
    (wellFormed : WellFormed sched')
    (kept : KeepsFrames system.sched sched') :
    Recorded { system with sched := sched' } where
  wellFormed := wellFormed
  bound task interruption last :=
    (recorded.bound task interruption last).trans kept.started
  saved task interruption nonNull waits last := by
    have waited : task ≠ system.sched.currentTask := by
      rcases kept.currentTask with booting | current
      · rw [booting]
        exact nonNull
      · rw [← current]
        exact waits
    change (sched'.tasks task).savedState.context = interruption.saved
    rw [kept.savedState task (recorded.bound task interruption last)]
    exact recorded.saved task interruption nonNull waited last

omit [Zero Ext] in
theorem Recorded.leave (recorded : Recorded system)
    (wellFormed : WellFormed sched')
    (started : system.sched.started ≤ sched'.started)
    (savedCurrent :
      system.sched.currentTask ≠ 0 →
        system.sched.currentTask ≠ sched'.currentTask →
        (sched'.tasks system.sched.currentTask).savedState.context =
          (Interruption.mk system.context vector).saved)
    (savedOther :
      ∀ task, task ≤ system.sched.started → task ≠ sched'.currentTask →
        task ≠ system.sched.currentTask →
          (sched'.tasks task).savedState =
            (system.sched.tasks task).savedState) :
    Recorded (system.leave vector handled sched') where
  wellFormed := wellFormed
  bound task interruption last := by
    change Function.update system.interrupted system.sched.currentTask
      (some ⟨system.context, vector⟩) task = some interruption at last
    change task ≤ sched'.started
    by_cases current : task = system.sched.currentTask
    · rw [current]
      exact recorded.wellFormed.currentBound.trans started
    · rw [Function.update_of_ne current] at last
      exact (recorded.bound task interruption last).trans started
  saved task interruption nonNull waits last := by
    change Function.update system.interrupted system.sched.currentTask
      (some ⟨system.context, vector⟩) task = some interruption at last
    change task ≠ sched'.currentTask at waits
    change (sched'.tasks task).savedState.context = interruption.saved
    by_cases current : task = system.sched.currentTask
    · rw [current, Function.update_self] at last
      rw [← Option.some.inj last, current]
      exact savedCurrent (current ▸ nonNull) (current ▸ waits)
    · rw [Function.update_of_ne current] at last
      rw [savedOther task (recorded.bound task interruption last) waits current]
      exact recorded.saved task interruption nonNull current last

theorem Recorded.step {event : Event} (recorded : Recorded system)
    (moves : Moves cIsrTable system event system') : Recorded system' := by
  have wellFormed := recorded.wellFormed
  cases moves with
  | execute =>
      exact ⟨wellFormed, recorded.bound, recorded.saved⟩
  | call call =>
      obtain ⟨ended, kept⟩ := call.keeps wellFormed
      exact recorded.keeps ended kept
  | @interrupt vector error machine handled sched' arrives sameStack
      sameFrame calls sameTask =>
      obtain ⟨ended, kept⟩ := calls_keep calls wellFormed
      apply recorded.leave ended kept.started
      · intro _ different
        exact absurd sameTask.symm different
      · intro task bound _ _
        exact kept.savedState task bound
  | @taskSwitch vector error machine handled now later i' sched' arrives
      sameStack nonNull result sameFrame =>
      obtain ⟨queue, pushed, dropped, next, rest, switched⟩ :=
        switched_of_taskSwitchIsr wellFormed.allocated result
      have current := switched.currentTask
      apply recorded.leave (wellFormed.switch nonNull switched)
      · exact Nat.le_of_eq switched.started.symm
      · intro _ different
        rw [current] at different
        rw [switched.tasks_of_ne different, preempt_task_current, preempted,
          arrives.readFrame]
        exact context_arrivalFrame system.context vector error
      · intro task _ notNext notCurrent
        rw [current] at notNext
        rw [switched.tasks_of_ne notNext, preempt_task_of_ne _ _ _ notCurrent]

/-- A task that is resumed goes on with the registers of its frame. -/
theorem Recorded.resumes {event : Event} {interruption : Interruption}
    (recorded : Recorded system) (moves : Moves cIsrTable system event system')
    (returns : event.Returns)
    (last : system'.interrupted system'.sched.currentTask =
      some interruption) :
    system'.context = interruption.saved := by
  have wellFormed := recorded.wellFormed
  cases moves with
  | execute => exact returns.elim
  | call call => exact returns.elim
  | @interrupt vector error machine handled sched' arrives sameStack
      sameFrame calls sameTask =>
      change Function.update system.interrupted system.sched.currentTask
        (some ⟨system.context, vector⟩) sched'.currentTask =
          some interruption at last
      rw [sameTask, Function.update_self] at last
      change leaveIsr handled = interruption.saved
      rw [arrives.leaveIsr sameStack, sameFrame, arrives.readFrame,
        ← Option.some.inj last]
      exact context_arrivalFrame system.context vector error
  | @taskSwitch vector error machine handled now later i' sched' arrives
      sameStack nonNull result sameFrame =>
      obtain ⟨queue, pushed, dropped, next, rest, switched⟩ :=
        switched_of_taskSwitchIsr wellFormed.allocated result
      change Function.update system.interrupted system.sched.currentTask
        (some ⟨system.context, vector⟩) sched'.currentTask =
          some interruption at last
      change leaveIsr handled = interruption.saved
      rw [arrives.leaveIsr sameStack, sameFrame, switched.frame_eq]
      rw [switched.currentTask] at last
      by_cases same : next = system.sched.currentTask
      · rw [same, Function.update_self] at last
        rw [same, preempt_task_current, preempted, arrives.readFrame,
          ← Option.some.inj last]
        exact context_arrivalFrame system.context vector error
      · have queued : next ∈ items system.sched :=
          (Multiset.mem_cons.mp switched.next_mem).resolve_left same
        rw [Function.update_of_ne same] at last
        rw [preempt_task_of_ne _ _ _ same]
        exact recorded.saved next interruption
          (wellFormed.members next queued).1 same last

theorem recorded_boot (context : Context) (memory : Memory)
    (registers : Ext) : Recorded (bootSystem context memory registers) where
  wellFormed := wellFormed_boot registers
  bound task interruption last := by cases last
  saved task interruption nonNull waits last := by cases last

/-! ## Runs -/

variable {events : List Event}

theorem Recorded.transparent_iff {event : Event} (recorded : Recorded system)
    (moves : Moves cIsrTable system event system') :
    Transparent system event system' ↔
      ArrivedWithVector system event system' := by
  have each : ∀ interruption, event.Returns →
      system'.interrupted system'.sched.currentTask = some interruption →
        (system'.context = interruption.context ↔
          interruption.context.registers .rcx =
            BitVec.ofNat 64 interruption.vector) := by
    intro interruption returns last
    rw [recorded.resumes moves returns last]
    exact interruption.saved_eq_iff
  constructor
  · intro transparent returns interruption last
    exact (each interruption returns last).mp
      (transparent returns interruption last)
  · intro arrived returns interruption last
    exact (each interruption returns last).mpr
      (arrived returns interruption last)

/-- A run resumes every task as it was interrupted exactly where each task that
it resumes was interrupted with the vector in `rcx`. -/
theorem tasks_transparent_iff (cIsrTable : Word) (context : Context)
    (memory : Memory) (registers : Ext) (events : List Event) :
    AlwaysStep (Moves cIsrTable) (bootSystem context memory registers) events
        Transparent ↔
      AlwaysStep (Moves cIsrTable) (bootSystem context memory registers) events
        ArrivedWithVector := by
  have each : ∀ before event system system',
      Run (Moves cIsrTable) (bootSystem context memory registers) before
          system →
        Moves cIsrTable system event system' →
          (Transparent system event system' ↔
            ArrivedWithVector system event system') := by
    intro before event system system' run moves
    have recorded : Recorded system :=
      run.invariant (recorded_boot context memory registers)
        fun _ _ _ recorded moves => recorded.step moves
    exact recorded.transparent_iff moves
  constructor
  · intro transparent before event after system system' split run moves
    exact (each before event system system' run moves).mp
      (transparent before event after system system' split run moves)
  · intro arrived before event after system system' split run moves
    exact (each before event system system' run moves).mpr
      (arrived before event after system system' split run moves)

/-! ## Switches at interrupts -/

/-- The words of a frame in memory. -/
def frameWords (frame : InterruptFrame) : List Word :=
  popped.map frame.register ++
    [(frame.vector ++ frame.error : BitVec 64), frame.rip,
      (frame.ign2 ++ (frame.ign1 ++ frame.cs) : BitVec 64), frame.rflags,
      frame.rsp, (frame.ign4 ++ (frame.ign3 ++ frame.ss) : BitVec 64)]

omit [Zero Ext] in
theorem extractLsb'_packed (high : BitVec 32) (middle low : BitVec 16) :
    (high ++ (middle ++ low) : Word).extractLsb' 0 16 = low ∧
      (high ++ (middle ++ low) : Word).extractLsb' 16 16 = middle ∧
      (high ++ (middle ++ low) : Word).extractLsb' 32 32 = high := by
  refine ⟨?_, ?_, BitVec.extractLsb'_append_eq_left⟩
  · rw [BitVec.extractLsb'_append_eq_of_add_le (by decide)]
    exact BitVec.extractLsb'_append_eq_right
  · rw [BitVec.extractLsb'_append_eq_of_add_le (by decide)]
    exact BitVec.extractLsb'_append_eq_left

omit [Zero Ext] in
theorem frameOfWords_frameWords (frame : InterruptFrame) :
    frameOfWords (fun index => (frameWords frame).getD index 0) = frame := by
  have code := extractLsb'_packed frame.ign2 frame.ign1 frame.cs
  have stack := extractLsb'_packed frame.ign4 frame.ign3 frame.ss
  refine InterruptFrame.mk.injEq .. |>.mpr ⟨rfl, rfl, rfl, rfl, rfl, rfl, rfl,
    rfl, rfl, rfl, rfl, rfl, rfl, rfl, rfl, ?_, ?_, rfl, code.1, code.2.1,
    code.2.2, rfl, rfl, stack.1, stack.2.1, stack.2.2⟩
  · exact BitVec.extractLsb'_append_eq_right
  · exact BitVec.extractLsb'_append_eq_left

omit [Zero Ext] in
/-- A handler can leave any frame. -/
theorem exists_readFrame (frame : InterruptFrame) {address : Word}
    (aligned : address.toNat % 8 = 0)
    (room : address.toNat + 8 * 21 ≤ 2 ^ 64) :
    ∃ memory, readFrame memory address = frame := by
  refine ⟨ofWords fun place =>
    (frameWords frame).getD (place - address.toNat / 8) 0, ?_⟩
  refine Eq.trans ?_ (frameOfWords_frameWords frame)
  apply frameOfWords_congr
  intro index inside
  have place : (address + BitVec.ofNat 64 (8 * index)).toNat =
      8 * (address.toNat / 8 + index) := by
    rw [BitVec.toNat_add, BitVec.toNat_ofNat]
    omega
  rw [wordAt, place, readWord_ofWords, Nat.add_sub_cancel_left]

omit [Zero Ext] in
/-- The handler's `rdi` points to the frame, below the stack of the code that
is interrupted. -/
theorem Arrives.room (arrives : Arrives cIsrTable system vector error machine)
    (deep : 8 * 21 ≤ (alignedRsp system.context).toNat) :
    (machine.registers .rdi).toNat + 8 * 21 ≤ 2 ^ 64 := by
  have bound := (alignedRsp system.context).isLt
  rw [arrives.atCall.rdi, arrives.atCall.pushed.sp_eq,
    BitVec.toNat_sub_of_le (by rw [BitVec.le_def]; exact deep)]
  change (alignedRsp system.context).toNat - 8 * 21 + 8 * 21 ≤ 2 ^ 64
  omega

/-- Every switch of the scheduler is one that an interrupt can make. -/
theorem exists_taskSwitch (cIsrTable : Word) {err : Bool} {now later : Word}
    (inside : vector < 256) (stub : stubError vector = some err)
    (pushes : error.isSome = pushesErrorCode vector)
    (deep : 8 * 21 ≤ (alignedRsp system.context).toNat)
    (step : Step system.sched
      (.switch (arrivalFrame system.context vector error) now later) sched') :
    ∃ handled, Moves cIsrTable system
      (.taskSwitch vector error now later handled)
      (system.leave vector handled sched') := by
  obtain ⟨machine, arrives⟩ :
      ∃ machine, Arrives cIsrTable system vector error machine :=
    ⟨_, inside, pushes, err, stub, rfl⟩
  cases step with
  | @switch _ _ i' _ _ nonNull result =>
      have aligned : (machine.registers .rdi).toNat % 8 = 0 := by
        rw [arrives.atCall.rdi]
        exact arrives.atCall.stack.aligned
      obtain ⟨memory, isFrame⟩ :=
        exists_readFrame i' aligned (arrives.room deep)
      rw [← arrives.readFrame] at result
      exact ⟨{ machine with memory := memory },
        Moves.taskSwitch arrives rfl nonNull result isFrame⟩

end Model

/-! ### A task that is resumed with another `rcx` -/

/-- The boot code. -/
def bootContext : Context where
  registers := fun register => if register = .rsp then 0x8000 else 0
  rip := 0x1000
  cs := 0x08
  rflags := 2
  ss := 0x10

/-- A task that has 5 in `rcx`. -/
def busyContext : Context where
  registers := fun register =>
    if register = .rsp then 0x9000 else if register = .rcx then 5 else 0
  rip := 0x2000
  cs := 0x08
  rflags := 1 <<< 9
  ss := 0x10

/-- Task 1 is started, gets the processor when the boot code yields, and is
preempted by the timer while nothing else can run. -/
theorem task_preempted :
    ∃ first second third last : Sched Nat,
      Step (bootSched 0) (.start 0x2000 0 0x8000 0) first ∧
        Step first (.mainLoop plainCpuid 0 0) second ∧
        Step second (.switch (arrivalFrame bootContext 0x42 none) 0 0) third ∧
        Step third (.switch (arrivalFrame busyContext 0x43 none) 1 1) last ∧
        third.currentTask = 1 ∧ last.currentTask = 1 := by
  refine ⟨_, _, _, _, step_of_perform rfl, step_of_perform rfl,
    step_of_perform rfl, step_of_perform rfl, rfl, rfl⟩

/-- The timer interrupts task 1 while 5 is in `rcx`, and the task goes on with
the vector there. -/
theorem timer_changes_rcx :
    ∃ handled handled' : Machine Register,
      ¬ AlwaysStep (Moves 0x200000#64)
        (bootSystem bootContext smallTable (0 : Nat))
        [.call, .call, .taskSwitch 0x42 none 0 0 handled,
          .execute busyContext smallTable,
          .taskSwitch 0x43 none 1 1 handled'] Transparent := by
  obtain ⟨first, second, third, last, start, mainLoop, yield, timer, current,
    current'⟩ := task_preempted
  let waiting : System Nat := ⟨bootContext, smallTable, second, fun _ => none⟩
  have deep : 8 * 21 ≤ (alignedRsp bootContext).toNat := by decide
  obtain ⟨handled, yields⟩ : ∃ handled, Moves 0x200000#64 waiting
      (.taskSwitch 0x42 none 0 0 handled) (waiting.leave 0x42 handled third) :=
    exists_taskSwitch 0x200000#64 (by decide) (show stubError 0x42 = some false
      from rfl) rfl deep yield
  let busy : System Nat :=
    { waiting.leave 0x42 handled third with
      context := busyContext, memory := smallTable }
  have deep' : 8 * 21 ≤ (alignedRsp busyContext).toNat := by decide
  obtain ⟨handled', fires⟩ : ∃ handled, Moves 0x200000#64 busy
      (.taskSwitch 0x43 none 1 1 handled) (busy.leave 0x43 handled last) :=
    exists_taskSwitch 0x200000#64 (by decide) (show stubError 0x43 = some false
      from rfl) rfl deep' timer
  have starts : Moves 0x200000#64 (bootSystem bootContext smallTable 0) .call
      ⟨bootContext, smallTable, first, fun _ => none⟩ :=
    Moves.call (Call.operation (by intro _ _ _ same; cases same) start)
  have boots : Moves 0x200000#64 ⟨bootContext, smallTable, first, fun _ => none⟩
      .call waiting :=
    Moves.call (Call.operation (by intro _ _ _ same; cases same) mainLoop)
  have run : Run (Moves 0x200000#64) (bootSystem bootContext smallTable 0)
      [.call, .call, .taskSwitch 0x42 none 0 0 handled,
        .execute busyContext smallTable] busy :=
    (((Run.nil.snoc starts).snoc boots).snoc yields).snoc Moves.execute
  refine ⟨handled, handled', fun transparent => ?_⟩
  have interrupted : (busy.leave 0x43 handled' last).interrupted
      last.currentTask = some ⟨busyContext, 0x43⟩ := by
    change Function.update _ third.currentTask _ last.currentTask = _
    rw [current, current', Function.update_self]
  have recorded : Recorded busy :=
    run.invariant (recorded_boot bootContext smallTable 0)
      fun _ _ _ recorded moves => recorded.step moves
  have restored := recorded.resumes fires trivial interrupted
  have same := transparent _ _ [] busy _ rfl run fires trivial _ interrupted
  have held := (Interruption.saved_eq_iff _).mp (restored.symm.trans same)
  exact absurd held (by decide)

end BeaverOS.Transparency
