import BeaverOS.Threading.TaskQueue

/-!
# The lock of the run queue

`start_task` takes `queue_lock` with interrupts masked, and `task_switch_isr`
takes it inside of an interrupt. Here both are taken apart, with the interrupt
flag, the frame on the stack and the lock as the processor sees them. Each run
shows a run of the system in which a section and a switch are one step.
-/

namespace BeaverOS.Kernel

open BeaverOS.Heap
open BeaverOS.Isr
open BeaverOS.Scheduler
open BeaverOS.Threading
open BeaverOS.Transition

/-- The statements of `start_task` after `cli_save`. -/
inductive Masked where
  /-- `spinlock_lock(&queue_lock, 1)`. -/
  | lockQueue
  /-- `heap_push(task_queue, task)`. -/
  | pushTask
  /-- `spinlock_unlock(&queue_lock)`. -/
  | unlockQueue
  /-- `rflags_restore(_flags)`. -/
  | restoreFlags
  deriving DecidableEq, Repr

/-- A task in the section, with the interrupt flag in `_flags`. -/
structure Masking where
  flags : Bool
  statement : Masked
  deriving DecidableEq, Repr

/-- The statements of an interrupt, from its gate to `iretq`. -/
inductive Handling where
  /-- `task_switch_isr` up to the lock. -/
  | save
  /-- `spinlock_lock(&queue_lock, 1)`. -/
  | lockQueue
  /-- `heap_push(task_queue, PLS->current_task)`. -/
  | pushCurrent
  /-- One round of the loop around `heap_pop(task_queue)`. -/
  | popTask
  /-- `spinlock_unlock(&queue_lock)`. -/
  | unlockQueue
  /-- `task_switch_isr` after the lock. -/
  | resumeTask
  /-- `apic_eoi()`, in `apic_timer_fired_isr`. -/
  | sendEoi
  | iret
  deriving DecidableEq, Repr

/-- An interrupt that is being handled, with its frame. -/
structure Handler where
  interrupt : Interrupt
  frame : InterruptFrame
  statement : Handling

/-- The processor. `called` is the interrupt flag with which a task has called
`start_task` last. -/
structure Cpu (Ext : Type) where
  system : System Ext
  queueLock : Word
  interrupts : Bool
  /-- A timer interrupt has come and is not acknowledged. -/
  inService : Bool
  masked : TaskPtr → Option Masking
  called : TaskPtr → Bool
  handler : Option Handler

/-- `RFLAGS_INTERRUPT_FLAG`. -/
def interruptFlag (flags : Word) : Bool :=
  flags.getLsbD 9

section Model

variable {Ext : Type}

abbrev Cpu.sched (cpu : Cpu Ext) : Sched Ext :=
  cpu.system.sched

/-- The part of the masked section that the running task is in. -/
abbrev Cpu.masking (cpu : Cpu Ext) : Option Masking :=
  cpu.masked cpu.sched.currentTask

def Cpu.setMasking (cpu : Cpu Ext) (masking : Option Masking) : Cpu Ext :=
  { cpu with
    masked := Function.update cpu.masked cpu.sched.currentTask masking }

def Cpu.setSched (cpu : Cpu Ext) (sched : Sched Ext) : Cpu Ext :=
  { cpu with system := cpu.system.setSched sched }

def Cpu.handle (cpu : Cpu Ext) (handler : Handler) (statement : Handling) :
    Cpu Ext :=
  { cpu with handler := some { handler with statement := statement } }

/-- One round of `spinlock_lock(&queue_lock, 1)`: the test-and-set, and what
comes next if the lock was free. -/
def lockQueue (cpu : Cpu Ext) (next : Cpu Ext → Cpu Ext) : Cpu Ext :=
  let old := cpu.queueLock
  let cpu := { cpu with queueLock := 1 }
  if old ≠ 0 then cpu else next cpu

/-- `cli_save` and the statements after it. -/
def runMasked (cpu : Cpu Ext) : Option (Cpu Ext) :=
  match cpu.masking with
  | none =>
      match cpu.system.here with
      | .queueing _ =>
          some { cpu.setMasking (some ⟨cpu.interrupts, .lockQueue⟩) with
            interrupts := false }
      | _ => none
  | some ⟨flags, .lockQueue⟩ =>
      some (lockQueue cpu fun cpu =>
        cpu.setMasking (some ⟨flags, .pushTask⟩))
  | some ⟨flags, .pushTask⟩ => do
      let system ← runSection cpu.system
      some { cpu.setMasking (some ⟨flags, .unlockQueue⟩) with system := system }
  | some ⟨flags, .unlockQueue⟩ =>
      some { cpu.setMasking (some ⟨flags, .restoreFlags⟩) with queueLock := 0 }
  | some ⟨flags, .restoreFlags⟩ =>
      some { cpu.setMasking none with interrupts := flags }

/-- A statement of the handler, with `time` the time stamp counter if the
statement reads it. -/
def runHandler (cpu : Cpu Ext) (handler : Handler) (time : Word) :
    Option (Cpu Ext) :=
  match handler.statement with
  | .save =>
      some ((cpu.setSched (preempt cpu.sched handler.frame time)).handle handler
        .lockQueue)
  | .lockQueue =>
      some (lockQueue cpu fun cpu => cpu.handle handler .pushCurrent)
  | .pushCurrent =>
      match cpu.sched.taskQueue with
      | none => none
      | some queue =>
          match pushTask cpu.sched queue cpu.sched.currentTask with
          | .error _ => none
          | .ok queue =>
              some ((cpu.setSched
                { cpu.sched with taskQueue := some queue }).handle handler
                  .popTask)
  | .popTask =>
      match cpu.sched.taskQueue with
      | none => none
      | some queue =>
          match heapPop (compareTasks cpu.sched.tasks) queue with
          | none => none
          | some (task, queue) =>
              -- `PANIC("NOTHING TO DO")`
              if task = 0 then
                none
              else
                some ((cpu.setSched
                  { cpu.sched with
                    taskQueue := some queue
                    currentTask := task }).handle handler
                      (if cpu.sched.stateOf task = .inQueue then .unlockQueue
                        else .popTask))
  | .unlockQueue =>
      some ({ cpu with queueLock := 0 }.handle handler .resumeTask)
  | .resumeTask =>
      let (frame, sched) := resume cpu.sched time
      some ((cpu.setSched sched).handle { handler with frame := frame }
        (if handler.interrupt = .timer then .sendEoi else .iret))
  | .sendEoi => some ({ cpu with inService := false }.handle handler .iret)
  | .iret =>
      some { cpu with
        interrupts := interruptFlag handler.frame.rflags
        handler := none }

/-- A call of `start_task` notes the interrupt flag. -/
def Cpu.calls (cpu : Cpu Ext) : Code Ext → TaskPtr → Bool
  | .start _ _ _ _ _ =>
      Function.update cpu.called cpu.sched.currentTask cpu.interrupts
  | _ => cpu.called

/-- Whether an interrupt with this frame can come now. -/
def Cpu.Interruptible (cpu : Cpu Ext) (interrupt : Interrupt)
    (frame : InterruptFrame) : Prop :=
  cpu.sched.currentTask ≠ 0 ∧
    cpu.system.canLeave interrupt = true ∧
    interruptFlag frame.rflags = cpu.interrupts ∧
    match interrupt with
    | .timer => cpu.interrupts = true ∧ cpu.inService = false
    | .yield => cpu.masking = none

instance (cpu : Cpu Ext) (interrupt : Interrupt) (frame : InterruptFrame) :
    Decidable (cpu.Interruptible interrupt frame) :=
  match interrupt with
  | .timer => inferInstanceAs (Decidable (_ ∧ _ ∧ _ ∧ _ ∧ _))
  | .yield => inferInstanceAs (Decidable (_ ∧ _ ∧ _ ∧ _))

/-- What happens on the processor. -/
inductive CpuEvent (Ext : Type) where
  | code (code : Code Ext)
  | masked
  | interrupt (interrupt : Interrupt) (frame : InterruptFrame)
  | handler (time : Word)

/-- What an event does, if it can happen. The gates are interrupt gates: they
clear the interrupt flag. -/
def advanceCpu [Zero Ext] (cpu : Cpu Ext) :
    CpuEvent Ext → Option (Cpu Ext)
  | .code code =>
      if cpu.handler = none ∧ cpu.masking = none then do
        let system ← runCode cpu.system code
        some { cpu with
          system := system
          called := cpu.calls code }
      else
        none
  | .masked => if cpu.handler = none then runMasked cpu else none
  | .interrupt interrupt frame =>
      if cpu.handler = none ∧ cpu.Interruptible interrupt frame then
        some { cpu with
          system := cpu.system.leave interrupt
          interrupts := false
          inService := cpu.inService || interrupt = .timer
          handler := some ⟨interrupt, frame, .save⟩ }
      else
        none
  | .handler time =>
      match cpu.handler with
      | none => none
      | some handler => runHandler cpu handler time

/-- The steps of the processor. -/
def CpuStep [Zero Ext] (cpu : Cpu Ext) (event : CpuEvent Ext)
    (cpu' : Cpu Ext) : Prop :=
  advanceCpu cpu event = some cpu'

/-- The lock is free, and no interrupt has come. -/
def bootCpu [Zero Ext] (registers : Ext) (interrupts : Bool) : Cpu Ext :=
  { system := bootSystem registers
    queueLock := 0
    interrupts := interrupts
    inService := false
    masked := fun _ => none
    called := fun _ => false
    handler := none }

end Model

/-! ## The runs that are shown -/

section Simulation

variable {Ext : Type} {cpu cpu' : Cpu Ext} {system system' : System Ext}
  {handler : Handler} {before sched : Sched Ext} {i : InterruptFrame}

/-- How far `task_switch_isr` has come, from the scheduler's variables before
it. -/
inductive Progress (before : Sched Ext) (i : InterruptFrame) :
    Handling → Sched Ext → Prop
  | save : Progress before i .save before
  | lockQueue (now : Word) :
      Progress before i .lockQueue (preempt before i now)
  | pushCurrent (now : Word) :
      Progress before i .pushCurrent (preempt before i now)
  | popTask {now : Word} {queue pushed rest : MinHeap TaskPtr}
      {current : TaskPtr} {fuel : Nat} :
      before.taskQueue = some queue →
      pushTask (preempt before i now) queue before.currentTask = .ok pushed →
      rest.size < fuel →
      -- what is left of the loop finds what all of it finds
      selectTask (preempt before i now).tasks (pushed.size + 1) pushed =
        selectTask (preempt before i now).tasks fuel rest →
      Progress before i .popTask
        { preempt before i now with
          taskQueue := some rest
          currentTask := current }
  | selected {now : Word} {queue pushed rest : MinHeap TaskPtr}
      {next : TaskPtr} {statement : Handling} :
      statement = .unlockQueue ∨ statement = .resumeTask →
      before.taskQueue = some queue →
      pushTask (preempt before i now) queue before.currentTask = .ok pushed →
      selectTask (preempt before i now).tasks (pushed.size + 1) pushed =
        .ok (next, rest) →
      Progress before i statement
        { preempt before i now with
          taskQueue := some rest
          currentTask := next }

/-- The processor shows a state of the system: up to the end of
`task_switch_isr` the one before the switch, and after it the one after. -/
inductive Shows (cpu : Cpu Ext) (system : System Ext) : Prop
  | running : cpu.handler = none → cpu.system = system → Shows cpu system
  | switched (handler : Handler) :
      cpu.handler = some handler →
      handler.statement = .sendEoi ∨ handler.statement = .iret →
      cpu.system = system →
      Shows cpu system
  | switching (handler : Handler) (sched : Sched Ext) :
      cpu.handler = some handler →
      system.sched.currentTask ≠ 0 →
      system.canLeave handler.interrupt = true →
      cpu.system = (system.leave handler.interrupt).setSched sched →
      Progress system.sched handler.frame handler.statement sched →
      Shows cpu system

theorem heapPop_size {α : Type} {cmp : α → α → Int} {heap rest : MinHeap α}
    {item : α} (popped : heapPop cmp heap = some (item, rest)) :
    heap.size = rest.size + 1 := by
  by_cases empty : heap.size = 0
  · rw [heapPop_empty empty] at popped
    cases popped
  · simp only [heapPop, if_neg empty, Option.bind_eq_bind, Option.pure_def,
      Option.bind_eq_some_iff, Option.some.injEq] at popped
    obtain ⟨_, _, _, _, _, _, _, _, result⟩ := popped
    obtain ⟨-, rfl⟩ := Prod.mk.inj result
    exact (Nat.succ_pred_eq_of_ne_zero empty).symm

theorem setSched_setSched (system : System Ext) (sched sched' : Sched Ext) :
    (system.setSched sched).setSched sched' = system.setSched sched' := rfl

theorem selectTask_popped {tasks : TaskPtr → Scheduler.Task Ext}
    {queue rest : MinHeap TaskPtr} {task : TaskPtr} {fuel : Nat}
    (popped : heapPop (compareTasks tasks) queue = some (task, rest))
    (nonNull : task ≠ 0) :
    selectTask tasks (fuel + 1) queue =
      if (tasks task).state = .inQueue then .ok (task, rest)
      else selectTask tasks fuel rest := by
  rw [selectTask, popped]
  simp only [if_neg nonNull]

/-- A switch that has found its next task is a switch as a whole. -/
theorem step_switch [Zero Ext] {interrupt : Interrupt} {now later : Word}
    {queue pushed rest : MinHeap TaskPtr} {next : TaskPtr}
    (nonNull : system.sched.currentTask ≠ 0)
    (canLeave : system.canLeave interrupt = true)
    (found : system.sched.taskQueue = some queue)
    (push : pushTask (preempt system.sched i now) queue
      system.sched.currentTask = .ok pushed)
    (selected : selectTask (preempt system.sched i now).tasks
      (pushed.size + 1) pushed = .ok (next, rest)) :
    Step system (.switch interrupt i now later)
      ((system.leave interrupt).setSched
        (resume
          { preempt system.sched i now with
            taskQueue := some rest
            currentTask := next } later).2) := by
  rw [Step, advance, runSwitch, if_pos ⟨nonNull, canLeave⟩]
  simp only [leave_sched, taskSwitchIsr, preempt_taskQueue, found,
    preempt_currentTask, push, selected, bind, Except.bind, pure, Except.pure]

/-- A statement of the handler, up to the end of `task_switch_isr`. -/
theorem Shows.switching_step [Zero Ext] {time : Word}
    (handled : cpu.handler = some handler)
    (nonNull : system.sched.currentTask ≠ 0)
    (canLeave : system.canLeave handler.interrupt = true)
    (stands : cpu.system = (system.leave handler.interrupt).setSched sched)
    (progress :
      Progress system.sched handler.frame handler.statement sched)
    (result : runHandler cpu handler time = some cpu') :
    Shows cpu' system ∨
      ∃ event system', Step system event system' ∧ Shows cpu' system' := by
  have schedEq : cpu.sched = sched := by
    rw [Cpu.sched, stands]
    rfl
  have goesOn : ∀ {cpu' : Cpu Ext} {statement sched'},
      cpu'.handler = some { handler with statement := statement } →
      cpu'.system = (system.leave handler.interrupt).setSched sched' →
      Progress system.sched handler.frame statement sched' →
      Shows cpu' system := fun handled' stands' progress' =>
    Shows.switching _ _ handled' nonNull canLeave stands' progress'
  have stores : ∀ sched', cpu.system.setSched sched' =
      (system.leave handler.interrupt).setSched sched' := by
    intro sched'
    rw [stands, setSched_setSched]
  obtain ⟨interrupt, frame, statement⟩ := handler
  simp only at canLeave stands progress goesOn stores
  simp only [runHandler, schedEq] at result
  cases progress with
  | save =>
      cases result
      exact Or.inl (goesOn rfl (stores _) (Progress.lockQueue time))
  | lockQueue now =>
      left
      simp only [Kernel.lockQueue] at result
      split at result
      · cases result
        exact goesOn handled stands (Progress.lockQueue now)
      · cases result
        exact goesOn rfl stands (Progress.pushCurrent now)
  | pushCurrent now =>
      simp only [preempt_taskQueue, preempt_currentTask] at result
      split at result
      · cases result
      · next queue found =>
          split at result
          · cases result
          · next pushed push =>
              cases result
              exact Or.inl (goesOn rfl (stores _)
                (Progress.popTask found push (Nat.lt_succ_self _) rfl))
  | @popTask now queue pushed rest current fuel found push enough same =>
      left
      obtain ⟨fuel, rfl⟩ := Nat.exists_eq_succ_of_ne_zero
        (Nat.ne_of_gt (Nat.zero_lt_of_lt enough))
      simp only at result
      split at result
      · cases result
      · next next rest' popped =>
          split at result
          · cases result
          · next nonNull' =>
              rw [selectTask_popped popped nonNull'] at same
              cases result
              have fewer := heapPop_size popped
              split
              · next runs =>
                  rw [if_pos runs] at same
                  exact goesOn rfl (stores _)
                    (Progress.selected (Or.inl rfl) found push same)
              · next stuck =>
                  rw [if_neg stuck] at same
                  exact goesOn rfl (stores _)
                    (Progress.popTask found push (by omega) same)
  | @selected now queue pushed rest next _ atEnd found push selected =>
      rcases atEnd with rfl | rfl
      · cases result
        exact Or.inl (goesOn rfl stands
          (Progress.selected (Or.inr rfl) found push selected))
      · cases result
        refine Or.inr ⟨_, _, step_switch nonNull canLeave found push selected,
          Shows.switched _ rfl ?_ (stores _)⟩
        cases interrupt with
        | timer => exact Or.inl rfl
        | yield => exact Or.inr rfl

/-- Each step of the processor is a step of the system, or one that the system
does not see. -/
theorem Shows.step [Zero Ext] {event : CpuEvent Ext}
    (shown : Shows cpu system) (step : CpuStep cpu event cpu') :
    Shows cpu' system ∨
      ∃ event system', Step system event system' ∧ Shows cpu' system' := by
  have idle : cpu.handler = none → cpu.system = system := by
    intro none
    cases shown with
    | running _ same => exact same
    | switched handler handled _ _ =>
        rw [none] at handled
        cases handled
    | switching handler _ handled _ _ _ _ =>
        rw [none] at handled
        cases handled
  cases event with
  | code code =>
      rw [CpuStep, advanceCpu] at step
      split at step
      · next allowed =>
          obtain ⟨system', ran, result⟩ := Option.bind_eq_some_iff.mp step
          cases result
          rw [idle allowed.1] at ran
          exact Or.inr ⟨.code code, system', ran, Shows.running allowed.1 rfl⟩
      · cases step
  | masked =>
      rw [CpuStep, advanceCpu] at step
      split at step
      · next none =>
          have same := idle none
          rw [runMasked] at step
          split at step
          · split at step
            · cases step
              exact Or.inl (Shows.running none same)
            · cases step
          · cases step
            left
            rw [Kernel.lockQueue]
            split
            · exact Shows.running none same
            · exact Shows.running none same
          · obtain ⟨system', ran, result⟩ := Option.bind_eq_some_iff.mp step
            cases result
            rw [same] at ran
            exact Or.inr ⟨.maskedSection, system', ran, Shows.running none rfl⟩
          · cases step
            exact Or.inl (Shows.running none same)
          · cases step
            exact Or.inl (Shows.running none same)
      · cases step
  | interrupt interrupt frame =>
      rw [CpuStep, advanceCpu] at step
      split at step
      · next allowed =>
          cases step
          have same := idle allowed.1
          obtain ⟨nonNull, canLeave, _⟩ := allowed.2
          rw [same] at canLeave
          rw [Cpu.sched, same] at nonNull
          refine Or.inl (Shows.switching _ system.sched rfl nonNull canLeave ?_
            Progress.save)
          rw [same, ← leave_sched system interrupt]
          rfl
      · cases step
  | handler time =>
      rw [CpuStep, advanceCpu] at step
      split at step
      · cases step
      · next handler handled =>
          cases shown with
          | running none _ =>
              rw [none] at handled
              cases handled
          | switched other handled' atEnd same =>
              obtain rfl : other = handler :=
                Option.some.inj (handled'.symm.trans handled)
              left
              rcases atEnd with atEnd | atEnd
              · rw [runHandler, atEnd] at step
                cases step
                exact Shows.switched _ rfl (Or.inr rfl) same
              · rw [runHandler, atEnd] at step
                cases step
                exact Shows.running rfl same
          | switching other sched handled' nonNull canLeave stands progress =>
              obtain rfl : other = handler :=
                Option.some.inj (handled'.symm.trans handled)
              exact Shows.switching_step handled nonNull canLeave stands progress
                step

/-- Some run of the system is shown. -/
def ShowsRun [Zero Ext] (registers : Ext) (cpu : Cpu Ext) : Prop :=
  ∃ events system, Run Step (bootSystem registers) events system ∧
    Shows cpu system

theorem ShowsRun.step [Zero Ext] {registers : Ext} {event : CpuEvent Ext}
    (shown : ShowsRun registers cpu) (step : CpuStep cpu event cpu') :
    ShowsRun registers cpu' := by
  obtain ⟨events, system, run, shows'⟩ := shown
  rcases shows'.step step with hidden | ⟨event, system', taken, shown'⟩
  · exact ⟨events, system, run, hidden⟩
  · exact ⟨events ++ [event], system', run.snoc taken, shown'⟩

end Simulation

end BeaverOS.Kernel
