import BeaverOS.Memory.Paging

/-!
# Linked addresses

The symbols that `linker.ld` places at the end of the address space, each below
the one before it, and the beginning of the heap behind the kernel image.
-/

namespace BeaverOS.Linker

open BeaverOS.Paging

/-- `_phys_window_size`. -/
def physWindowSize : Word := 4#64

/-- `_phys_window_pages`. -/
def physWindowPages : Word :=
  0xfffffffffffff000#64 - 0x1000#64 * (physWindowSize - 1#64)

/-- `_phys_window_pt`. -/
def physWindowPt : Word := physWindowPages - 0x1000#64

/-- `_idt_page`. -/
def idtPage : Word := physWindowPt - 0x1000#64

/-- `_gdt_page`. -/
def gdtPage : Word := idtPage - 0x1000#64

/-- `_apic_page`, which is also `_kernel_stack_top`. -/
def apicPage : Word := gdtPage - 0x1000#64

/-- `_kernel_stack_bottom`, which is also `_isr_stack_top`. -/
def kernelStackBottom : Word := apicPage - 0x1000#64

/-- `_isr_stack_bottom`. -/
def isrStackBottom : Word := kernelStackBottom - 0x1000#64

/-- `_first_mb`. -/
def firstMb : Word := isrStackBottom - 0x100000#64

/-- `_prog_break_end`. -/
def progBreakEnd : Word := firstMb

theorem toNat_progBreakEnd : progBreakEnd.toNat = 0xffffffffffef6000 := by
  decide

/-- A value of `_prog_break_begin`: the aligned end of the kernel image, which
begins at -512G. -/
structure IsProgBreakBegin (progBreakBegin : Word) : Prop where
  aligned : progBreakBegin.toNat % 4096 = 0
  image : 0xffffff8000000000 ≤ progBreakBegin.toNat
  room : progBreakBegin.toNat ≤ progBreakEnd.toNat

end BeaverOS.Linker
