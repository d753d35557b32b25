import BeaverOS.Isr.Frame
import BeaverOS.Lib.StackMachine

/-!
# The interrupt path

`isr/idt/default.s`: the stubs that `GEN_ISR` generates, and the common part
that saves the registers, calls the handler with a pointer to the frame, and
restores the registers from the frame. The processor pushes the first part of
the frame, and `iretq` pops it.
-/

namespace BeaverOS.Isr

open BeaverOS.ByteMemory
open BeaverOS.StackMachine

/-! ## The processor -/

/-- The general-purpose registers. -/
inductive Register where
  | rax | rbx | rcx | rdx | rdi | rsi | rbp | rsp
  | r8 | r9 | r10 | r11 | r12 | r13 | r14 | r15
  deriving DecidableEq, Repr

/-- The registers that an interrupt must not change. -/
structure Context where
  registers : Register → Word
  rip : Word
  cs : BitVec 16
  rflags : Word
  ss : BitVec 16

/-- Whether the processor pushes an error code for an exception. -/
def pushesErrorCode (vector : Nat) : Bool :=
  [8, 10, 11, 12, 13, 14, 17, 21, 29, 30].contains vector

/-- The processor aligns the stack and pushes where to return to. -/
def deliver (context : Context) (memory : Memory)
    (error : Option (BitVec 32)) : Machine Register :=
  let rsp := context.registers .rsp
  let machine : Machine Register :=
    { registers := Function.update context.registers .rsp (rsp &&& ~~~15#64)
      memory := memory }
  let machine := pushWord .rsp machine (context.ss.setWidth 64)
  let machine := pushWord .rsp machine rsp
  let machine := pushWord .rsp machine context.rflags
  let machine := pushWord .rsp machine (context.cs.setWidth 64)
  let machine := pushWord .rsp machine context.rip
  match error with
  | some code => pushWord .rsp machine (code.setWidth 64)
  | none => machine

/-- The processor returns. -/
def iretq (machine : Machine Register) : Context :=
  let word := wordAt machine.memory (machine.registers .rsp)
  { registers := Function.update machine.registers .rsp (word 3)
    rip := word 0
    cs := (word 1).setWidth 16
    rflags := word 2
    ss := (word 4).setWidth 16 }

/-! ## The code -/

/-- The uses of `GEN_ISR`, with their arguments `n`, `to` and `err`. -/
def genIsr : List (Nat × Nat × Bool) :=
  [(0, 8, false), (8, 9, true), (10, 15, true), (16, 17, false),
    (17, 18, true), (18, 20, false), (30, 31, true), (32, 64, false),
    (64, 128, false), (128, 192, false), (192, 256, false)]

/-- The argument `err` of the stub for a vector, if there is one. -/
def stubError (vector : Nat) : Option Bool :=
  (genIsr.find? fun use => use.1 ≤ vector && vector < use.2.1).map
    fun use => use.2.2

/-- `.isr_n`, up to the jump. -/
def isr (n : Nat) (err : Bool) : List (Instruction Register) :=
  (if err then [] else [.pushImm 0]) ++ [.movImm (BitVec.ofNat 64 n) .rcx]

/-- The registers of the first `.irp`. -/
def pushed : List Register :=
  [.rax, .rbx, .rcx, .rdx, .rdi, .rsi, .rbp, .r8, .r9, .r10, .r11, .r12, .r13,
    .r14, .r15]

/-- The registers of the second `.irp`. -/
def popped : List Register :=
  [.r15, .r14, .r13, .r12, .r11, .r10, .r9, .r8, .rbp, .rsi, .rdi, .rdx, .rcx,
    .rbx, .rax]

/-- `.isr_common_part` up to the call, with the address of `_c_isr_table`. -/
def isrCommonEntry (cIsrTable : Word) : List (Instruction Register) :=
  [.movl .rcx 4 .rsp] ++ pushed.map .push ++
    [.mov .rsp .rdi, .movImm cIsrTable .rax, .load .rax .rcx .rax]

/-- `.isr_common_part` from the call to `iretq`. -/
def isrCommonExit : List (Instruction Register) :=
  popped.map .pop ++ [.addImm 8 .rsp]

/-- The machine at the call of the handler. -/
def atCall (cIsrTable : Word) (context : Context) (memory : Memory)
    (vector : Nat) (err : Bool) (error : Option (BitVec 32)) :
    Machine Register :=
  executeAll .rsp (deliver context memory error)
    (isr vector err ++ isrCommonEntry cIsrTable)

/-- What runs after the handler has returned. -/
def leaveIsr (machine : Machine Register) : Context :=
  iretq (executeAll .rsp machine isrCommonExit)

/-! ## The frame -/

/-- The frame whose words are given. Two or more fields of a word are packed
into it from its low end. -/
def frameOfWords (word : Nat → Word) : InterruptFrame where
  r15 := word 0
  r14 := word 1
  r13 := word 2
  r12 := word 3
  r11 := word 4
  r10 := word 5
  r9 := word 6
  r8 := word 7
  rbp := word 8
  rsi := word 9
  rdi := word 10
  rdx := word 11
  rcx := word 12
  rbx := word 13
  rax := word 14
  error := (word 15).extractLsb' 0 32
  vector := (word 15).extractLsb' 32 32
  rip := word 16
  cs := (word 17).extractLsb' 0 16
  ign1 := (word 17).extractLsb' 16 16
  ign2 := (word 17).extractLsb' 32 32
  rflags := word 18
  rsp := word 19
  ss := (word 20).extractLsb' 0 16
  ign3 := (word 20).extractLsb' 16 16
  ign4 := (word 20).extractLsb' 32 32

/-- The frame that a pointer points to. -/
def readFrame (memory : Memory) (i : Word) : InterruptFrame :=
  frameOfWords (wordAt memory i)

/-- The saved value of a register. -/
def InterruptFrame.register (frame : InterruptFrame) : Register → Word
  | .rax => frame.rax
  | .rbx => frame.rbx
  | .rcx => frame.rcx
  | .rdx => frame.rdx
  | .rdi => frame.rdi
  | .rsi => frame.rsi
  | .rbp => frame.rbp
  | .rsp => frame.rsp
  | .r8 => frame.r8
  | .r9 => frame.r9
  | .r10 => frame.r10
  | .r11 => frame.r11
  | .r12 => frame.r12
  | .r13 => frame.r13
  | .r14 => frame.r14
  | .r15 => frame.r15

/-- The context that a frame describes. -/
def InterruptFrame.context (frame : InterruptFrame) : Context where
  registers := frame.register
  rip := frame.rip
  cs := frame.cs
  rflags := frame.rflags
  ss := frame.ss

/-- The frame of an interrupt as the processor and the stub make it: the stub
uses `rcx` for the vector before it is saved. -/
def arrivalFrame (context : Context) (vector : Nat)
    (error : Option (BitVec 32)) : InterruptFrame where
  r15 := context.registers .r15
  r14 := context.registers .r14
  r13 := context.registers .r13
  r12 := context.registers .r12
  r11 := context.registers .r11
  r10 := context.registers .r10
  r9 := context.registers .r9
  r8 := context.registers .r8
  rbp := context.registers .rbp
  rsi := context.registers .rsi
  rdi := context.registers .rdi
  rdx := context.registers .rdx
  rcx := BitVec.ofNat 64 vector
  rbx := context.registers .rbx
  rax := context.registers .rax
  error := error.getD 0
  vector := BitVec.ofNat 32 vector
  rip := context.rip
  cs := context.cs
  ign1 := 0
  ign2 := 0
  rflags := context.rflags
  rsp := context.registers .rsp
  ss := context.ss
  ign3 := 0
  ign4 := 0

section Frames

variable {machine : Machine Register} {words : List Word} {memory : Memory}
  {address : Word} {context : Context} {vector : Nat} {err : Bool}
  {error : Option (BitVec 32)} {cIsrTable : Word}

theorem frameOfWords_congr {first second : Nat → Word}
    (same : ∀ index, index < 21 → first index = second index) :
    frameOfWords first = frameOfWords second := by
  simp only [frameOfWords, same _ (show 0 < 21 by decide),
    same _ (show 1 < 21 by decide), same _ (show 2 < 21 by decide),
    same _ (show 3 < 21 by decide), same _ (show 4 < 21 by decide),
    same _ (show 5 < 21 by decide), same _ (show 6 < 21 by decide),
    same _ (show 7 < 21 by decide), same _ (show 8 < 21 by decide),
    same _ (show 9 < 21 by decide), same _ (show 10 < 21 by decide),
    same _ (show 11 < 21 by decide), same _ (show 12 < 21 by decide),
    same _ (show 13 < 21 by decide), same _ (show 14 < 21 by decide),
    same _ (show 15 < 21 by decide), same _ (show 16 < 21 by decide),
    same _ (show 17 < 21 by decide), same _ (show 18 < 21 by decide),
    same _ (show 19 < 21 by decide), same _ (show 20 < 21 by decide)]

/-- The frame on a stack. -/
theorem readFrame_of_holdsAt (holds : HoldsAt memory address words)
    (long : words.length = 21) :
    readFrame memory address = frameOfWords fun index => words.getD index 0 := by
  apply frameOfWords_congr
  intro index inside
  refine holds.wordAt_eq ?_
  have found : words[index]? = some words[index] :=
    List.getElem?_eq_getElem (by omega)
  rw [List.getD_eq_getElem?_getD, found]
  rfl

/-! ## Entry -/

theorem toNat_and_aligned (rsp : Word) : (rsp &&& ~~~15#64).toNat % 8 = 0 := by
  have low : (rsp &&& ~~~15#64) &&& 7#64 = 0#64 := by
    rw [BitVec.and_assoc, show ~~~15#64 &&& 7#64 = 0#64 by decide,
      BitVec.and_zero]
  have bits := congrArg BitVec.toNat low
  rw [BitVec.toNat_and] at bits
  exact (Nat.and_two_pow_sub_one_eq_mod _ 3).symm.trans bits

/-- The stack that the processor pushes on. -/
def alignedRsp (context : Context) : Word :=
  context.registers .rsp &&& ~~~15#64

/-- The part of the frame that the processor pushes. -/
def returnWords (context : Context) : List Word :=
  [context.rip, context.cs.setWidth 64, context.rflags,
    context.registers .rsp, context.ss.setWidth 64]

/-- The stack when the stub starts. -/
theorem stack_deliver (context : Context) (memory : Memory)
    (error : Option (BitVec 32)) :
    Stack .rsp (deliver context memory error)
        ((error.map fun code => code.setWidth 64).toList ++
          returnWords context) ∧
      Pushed .rsp (deliver context memory error) (alignedRsp context) memory
        (5 + error.toList.length) := by
  have empty : Stack .rsp
      { registers := Function.update context.registers .rsp
          (context.registers .rsp &&& ~~~15#64)
        memory := memory } [] := by
    refine ⟨?_, trivial⟩
    change (Function.update context.registers .rsp
      (context.registers .rsp &&& ~~~15#64) .rsp).toNat % 8 = 0
    rw [Function.update_self]
    exact toNat_and_aligned (context.registers .rsp)
  have clear : Pushed .rsp
      { registers := Function.update context.registers .rsp
          (context.registers .rsp &&& ~~~15#64)
        memory := memory } (alignedRsp context) memory 0 := by
    refine ⟨?_, AgreeOff.refl _ _⟩
    change Function.update context.registers .rsp
      (context.registers .rsp &&& ~~~15#64) .rsp = _
    rw [Function.update_self, Nat.mul_zero]
    exact (BitVec.sub_zero _).symm
  have returns := ((((empty.pushWord (by simp)
    (context.ss.setWidth 64)).pushWord (by simp)
    (context.registers .rsp)).pushWord (by simp)
    context.rflags).pushWord (by simp)
    (context.cs.setWidth 64)).pushWord (by simp) context.rip
  have changed := ((((clear.pushWord (context.ss.setWidth 64)).pushWord
    (context.registers .rsp)).pushWord context.rflags).pushWord
    (context.cs.setWidth 64)).pushWord context.rip
  cases error with
  | none => exact ⟨returns, changed⟩
  | some code =>
      exact ⟨returns.pushWord (by simp) (code.setWidth 64),
        changed.pushWord (code.setWidth 64)⟩

theorem registers_deliver {register : Register} (different : register ≠ .rsp) :
    (deliver context memory error).registers register =
      context.registers register := by
  have top : ∀ value, Function.update context.registers .rsp value register =
      context.registers register := fun value =>
    Function.update_of_ne different _ _
  cases error with
  | none =>
      simp only [deliver, pushWord_of_ne different]
      exact top _
  | some code =>
      simp only [deliver, pushWord_of_ne different]
      exact top _

/-- The registers as the stub saves them. -/
def savedRegisters (context : Context) (vector : Nat) (register : Register) :
    Word :=
  if register = .rcx then BitVec.ofNat 64 vector
  else context.registers register

/-- Whether or not there is an error code, the stub goes on with a word for it
on the stack, and with the vector in `rcx`. -/
theorem stack_isr (context : Context) (memory : Memory) (vector : Nat)
    (agrees : error.isSome = err) :
    Stack .rsp
        (executeAll .rsp (deliver context memory error) (isr vector err))
        ((error.getD 0).setWidth 64 :: returnWords context) ∧
      Pushed .rsp
        (executeAll .rsp (deliver context memory error) (isr vector err))
        (alignedRsp context) memory 6 ∧
      ∀ register, register ≠ .rsp →
        (executeAll .rsp (deliver context memory error)
            (isr vector err)).registers register =
          savedRegisters context vector register := by
  subst agrees
  obtain ⟨start, changed⟩ := stack_deliver context memory error
  cases error with
  | none =>
      have zero := start.pushWord (by simp [returnWords]) 0#64
      refine ⟨zero.set (by decide), (changed.pushWord 0#64).set (by decide),
        fun register different => ?_⟩
      have pushed : (execute .rsp (deliver context memory none)
          (.pushImm 0)).registers register = context.registers register :=
        (pushWord_of_ne different).trans (registers_deliver different)
      exact registers_set.trans (by rw [pushed, savedRegisters])
  | some code =>
      refine ⟨start.set (by decide), changed.set (by decide),
        fun register different => ?_⟩
      exact registers_set.trans
        (by rw [registers_deliver different, savedRegisters])

/-- The machine at the call of the handler. -/
structure AtCall (cIsrTable : Word) (context : Context) (memory : Memory)
    (vector : Nat) (error : Option (BitVec 32))
    (machine : Machine Register) : Prop where
  stack :
    Stack .rsp machine
      (popped.map (savedRegisters context vector) ++
        ((BitVec.ofNat 32 vector ++ error.getD 0 : BitVec 64) ::
          returnWords context))
  pushed : Pushed .rsp machine (alignedRsp context) memory 21
  rdi : machine.registers .rdi = machine.registers .rsp
  rax :
    machine.registers .rax =
      readWord machine.memory
        (cIsrTable + 8#64 * BitVec.ofNat 64 vector).toNat

/-- The stub and the common part build the frame. -/
theorem atCall_spec (cIsrTable : Word) (context : Context) (memory : Memory)
    (vector : Nat) (agrees : error.isSome = err) :
    AtCall cIsrTable context memory vector error
      (atCall cIsrTable context memory vector err error) := by
  obtain ⟨start, changed, registers⟩ :=
    stack_isr context memory vector agrees
  generalize entered : executeAll .rsp (deliver context memory error)
    (isr vector err) = machine at start changed registers
  have rcx : (machine.registers .rcx).setWidth 32 =
      BitVec.ofNat 32 vector := by
    rw [registers .rcx (by decide)]
    exact BitVec.setWidth_ofNat_of_le (by decide) vector
  have low : ((error.getD 0).setWidth 64).setWidth 32 = error.getD 0 :=
    BitVec.setWidth_setWidth_of_le _ (by decide) |>.trans (BitVec.setWidth_eq _)
  have vectored := start.movl rfl (by simp [returnWords]) .rcx
  rw [rcx, low] at vectored
  have marked := changed.movl start.aligned rfl .rcx
  have saved := vectored.pushes pushed (by decide)
    (by simp [returnWords, pushed])
  have stored := marked.pushes pushed
  have order : pushed.reverse = popped := rfl
  have values : popped.map machine.registers =
      popped.map (savedRegisters context vector) :=
    List.map_congr_left fun register member => registers register (by
      rintro rfl
      exact absurd member (by decide))
  change Stack Register.rsp _ (pushed.reverse.map machine.registers ++ _) at saved
  rw [order, values] at saved
  have code : atCall cIsrTable context memory vector err error =
      executeAll .rsp
        (executeAll .rsp (execute .rsp machine (.movl .rcx 4 .rsp))
          (pushed.map .push))
        [.mov .rsp .rdi, .movImm cIsrTable .rax, .load .rax .rcx .rax] := by
    rw [atCall, isrCommonEntry, executeAll_append, entered, executeAll_append,
      executeAll_append]
    rfl
  have vectorKept : (executeAll .rsp
      (execute .rsp machine (.movl .rcx 4 .rsp))
      (pushed.map .push)).registers .rcx = BitVec.ofNat 64 vector :=
    (pushes_registers (by decide)).trans (registers .rcx (by decide))
  rw [code]
  generalize executeAll .rsp (execute .rsp machine (.movl .rcx 4 .rsp))
    (pushed.map .push) = framed at saved stored vectorKept
  refine ⟨((saved.set (by decide)).set (by decide)).set (by decide),
    ((stored.set (by decide)).set (by decide)).set (by decide), ?_, ?_⟩
  · rfl
  · rw [← vectorKept]
    rfl

/-- A selector in a word of its own. -/
theorem extractLsb'_selector (selector : BitVec 16) :
    (selector.setWidth 64).extractLsb' 0 16 = selector ∧
      (selector.setWidth 64).extractLsb' 16 16 = 0#16 ∧
      (selector.setWidth 64).extractLsb' 32 32 = 0#32 := by
  have bound := selector.isLt
  refine ⟨?_, ?_, ?_⟩
  · apply BitVec.eq_of_toNat_eq
    rw [BitVec.extractLsb'_toNat, BitVec.toNat_setWidth]
    simp only [Nat.shiftRight_zero]
    omega
  · apply BitVec.eq_of_toNat_eq
    rw [BitVec.extractLsb'_toNat, BitVec.toNat_setWidth,
      Nat.shiftRight_eq_div_pow]
    simp only [BitVec.toNat_ofNat]
    omega
  · apply BitVec.eq_of_toNat_eq
    rw [BitVec.extractLsb'_toNat, BitVec.toNat_setWidth,
      Nat.shiftRight_eq_div_pow]
    simp only [BitVec.toNat_ofNat]
    omega

/-- `rdi` points to the frame of the interrupt. -/
theorem AtCall.readFrame {machine : Machine Register}
    (called : AtCall cIsrTable context memory vector error machine) :
    readFrame machine.memory (machine.registers .rdi) =
      arrivalFrame context vector error := by
  have low : (BitVec.ofNat 32 vector ++ error.getD 0 : Word).extractLsb' 0 32 =
      error.getD 0 := BitVec.extractLsb'_append_eq_right
  have high : (BitVec.ofNat 32 vector ++ error.getD 0 : Word).extractLsb' 32
      32 = BitVec.ofNat 32 vector := BitVec.extractLsb'_append_eq_left
  rw [called.rdi, readFrame_of_holdsAt called.stack.holds rfl]
  refine InterruptFrame.mk.injEq .. |>.mpr ⟨rfl, rfl, rfl, rfl, rfl, rfl, rfl,
    rfl, rfl, rfl, rfl, rfl, rfl, rfl, rfl, low, high, rfl, ?_, ?_, ?_, rfl,
    rfl, ?_, ?_, ?_⟩
  · exact (extractLsb'_selector context.cs).1
  · exact (extractLsb'_selector context.cs).2.1
  · exact (extractLsb'_selector context.cs).2.2
  · exact (extractLsb'_selector context.ss).1
  · exact (extractLsb'_selector context.ss).2.1
  · exact (extractLsb'_selector context.ss).2.2

/-! ## Exit -/

theorem setWidth_eq_selector (word : Word) :
    word.setWidth 16 = word.extractLsb' 0 16 := by
  apply BitVec.eq_of_toNat_eq
  rw [BitVec.extractLsb'_toNat, BitVec.toNat_setWidth]
  simp only [Nat.shiftRight_zero]

/-- The context that the frame describes is restored, whatever the handler has
left in it. -/
theorem leaveIsr_eq {machine : Machine Register}
    (aligned : (machine.registers .rsp).toNat % 8 = 0) :
    leaveIsr machine =
      (Isr.readFrame machine.memory (machine.registers .rsp)).context := by
  have framed : Stack .rsp machine
      ((List.range 21).map
        (wordAt machine.memory (machine.registers .rsp))) :=
    ⟨aligned, holdsAt_wordAt _ _ _⟩
  generalize isWord : wordAt machine.memory (machine.registers .rsp) = word
    at framed
  have frameEq : Isr.readFrame machine.memory (machine.registers .rsp) =
      frameOfWords word := by
    rw [Isr.readFrame, isWord]
  have words : (List.range 21).map word =
      popped.map (frameOfWords word).register ++
        [word 15, word 16, word 17, word 18, word 19, word 20] := rfl
  rw [words] at framed
  obtain ⟨left, registers⟩ := framed.pops (by decide)
  rw [frameEq, leaveIsr, isrCommonExit, executeAll_append]
  generalize executeAll .rsp machine (popped.map .pop) = restored
    at left registers
  have returns : HoldsAt restored.memory (restored.registers .rsp + 8#64)
      [word 16, word 17, word 18, word 19, word 20] := left.holds.2
  have top : (executeAll .rsp restored [.addImm 8 .rsp]).registers .rsp =
      restored.registers .rsp + 8#64 := registers_set.trans (if_pos rfl)
  have memoryEq : (executeAll .rsp restored [.addImm 8 .rsp]).memory =
      restored.memory := rfl
  rw [iretq, InterruptFrame.context, Context.mk.injEq, top, memoryEq]
  refine ⟨?_, returns.wordAt_eq rfl, ?_, returns.wordAt_eq rfl, ?_⟩
  · funext register
    by_cases isTop : register = .rsp
    · rw [isTop, Function.update_self]
      exact returns.wordAt_eq rfl
    · rw [Function.update_of_ne isTop]
      have saved : register ∈ popped := by
        cases register <;> first | exact absurd rfl isTop | decide
      refine (Function.update_of_ne isTop _ _).trans ?_
      exact (registers register isTop).trans (if_pos saved)
  · rw [setWidth_eq_selector]
    exact congrArg _ (returns.wordAt_eq rfl)
  · rw [setWidth_eq_selector]
    exact congrArg _ (returns.wordAt_eq rfl)

end Frames

end BeaverOS.Isr
