import Mathlib.Data.Nat.Basic

/-!
# The interrupt frame

`interrupt_frame_t` of `isr/idt.h`: what the interrupt path leaves on the stack
for the handler, from the lowest address up.
-/

namespace BeaverOS.Isr

/-- A `uint64_t`. -/
abbrev Word := BitVec 64

/-- `interrupt_frame_t`. -/
structure InterruptFrame where
  r15 : Word
  r14 : Word
  r13 : Word
  r12 : Word
  r11 : Word
  r10 : Word
  r9 : Word
  r8 : Word
  rbp : Word
  rsi : Word
  rdi : Word
  rdx : Word
  rcx : Word
  rbx : Word
  rax : Word
  error : BitVec 32
  vector : BitVec 32
  rip : Word
  cs : BitVec 16
  ign1 : BitVec 16
  ign2 : BitVec 32
  rflags : Word
  rsp : Word
  ss : BitVec 16
  ign3 : BitVec 16
  ign4 : BitVec 32
  deriving DecidableEq, Repr

/-- A frame of zero bytes. -/
def zeroFrame : InterruptFrame where
  r15 := 0
  r14 := 0
  r13 := 0
  r12 := 0
  r11 := 0
  r10 := 0
  r9 := 0
  r8 := 0
  rbp := 0
  rsi := 0
  rdi := 0
  rdx := 0
  rcx := 0
  rbx := 0
  rax := 0
  error := 0
  vector := 0
  rip := 0
  cs := 0
  ign1 := 0
  ign2 := 0
  rflags := 0
  rsp := 0
  ss := 0
  ign3 := 0
  ign4 := 0

end BeaverOS.Isr
