import BeaverOS.Lib.TranslationCache
import BeaverOS.Memory.Ownership

/-!
# The mapper on a processor with a TLB

`memory/mapper.c` once more, on a processor that translates every address, that
of the window and of the window's page table included, with what it keeps of
earlier translations. It reads and drops translations as it likes between any
two accesses. `phys_look` and `map_page` invalidate with `invlpg` what they have
changed.
-/

namespace BeaverOS.Tlb

open BeaverOS.ByteMemory
open BeaverOS.TranslationCache
open BeaverOS.Paging
open BeaverOS.Window
open BeaverOS.PageTree

/-- `_phys_window_pages`: the window is the end of the address space. -/
def physWindowPages (layout : Layout) : Word :=
  0#64 - BitVec.ofNat 64 (pageSize * layout.windowSize)

/-- `_phys_window_pt`, the page before the window. -/
def physWindowPt (layout : Layout) : Word :=
  physWindowPages layout - 0x1000#64

/-- What the tables say of a page. -/
def pageWalk (memory : Memory) (root : Nat) (page : Word) :
    Option (Word × Word) :=
  if IsPage page then translation memory root page else none

/-- The processor and the variables of `memory/mapper.c`. `cr3` holds `pml4`.
What happens to the cache before each access is for the processor to decide. -/
structure Processor where
  mem : Memory
  /-- `_phys_window`. -/
  physWindow : Word
  pml4 : Word
  firstFreeBlock : Word
  cache : Cache Word (Word × Word)
  activity : Nat → List (Activity Word)
  time : Nat

/-- The processor attends to its cache. -/
def Processor.settle (cpu : Processor) : Processor :=
  { cpu with
    cache := refresh (pageWalk cpu.mem cpu.pml4.toNat) cpu.cache
      (cpu.activity cpu.time)
    time := cpu.time + 1 }

/-- The translation that an access to the page uses. -/
def Processor.translate (cpu : Processor) (page : Word) :
    Option (Word × Word) :=
  lookup (pageWalk cpu.mem cpu.pml4.toNat) cpu.cache page

/-- The physical byte behind a virtual address. -/
def Processor.physical (cpu : Processor) (address : Word) :
    Except Halt Nat :=
  match physicalAddress cpu.translate address with
  | some (cell, _) => .ok cell
  | none => .error .fault

/-- Read `count` bytes, least significant byte first. -/
def Processor.readBytes (cpu : Processor) (address : Word) :
    Nat → Except Halt Nat
  | 0 => .ok 0
  | count + 1 => do
      let cell ← cpu.physical address
      let rest ← cpu.readBytes (address + 1#64) count
      return (cpu.mem cell).toNat + 256 * rest

/-- The memory after the low `count` bytes of a value are stored, on top of
`memory`. -/
def Processor.writeBytes (cpu : Processor) (memory : Memory) (address : Word)
    (value : Nat) : Nat → Except Halt Memory
  | 0 => .ok memory
  | count + 1 => do
      let cell ← cpu.physical address
      cpu.writeBytes (Function.update memory cell (BitVec.ofNat 8 value))
        (address + 1#64) (value / 256) count

/-- Read a word. -/
def load (cpu : Processor) (pointer : Word) : Except Halt (Word × Processor) := do
  let cpu := cpu.settle
  let value ← cpu.readBytes pointer 8
  return (BitVec.ofNat 64 value, cpu)

/-- Store a word. -/
def store (cpu : Processor) (pointer value : Word) : Except Halt Processor := do
  let cpu := cpu.settle
  let mem ← cpu.writeBytes cpu.mem pointer value.toNat 8
  return { cpu with mem := mem }

/-- `memset`, which begins with the last byte. -/
def memset (cpu : Processor) (pointer : Word) (byte : BitVec 8) :
    Nat → Except Halt Processor
  | 0 => .ok cpu
  | num + 1 => do
      let cpu := cpu.settle
      let cell ← cpu.physical (pointer + BitVec.ofNat 64 num)
      memset { cpu with mem := Function.update cpu.mem cell byte } pointer byte
        num

/-- `invlpg`. -/
def invlpg (cpu : Processor) (address : Word) : Processor :=
  let cpu := cpu.settle
  { cpu with cache := invalidate cpu.cache (pageOf address) }

/-! ## `memory/mapper.c` -/

/-- The loop of `phys_look` up to window page `count`. -/
def writeSlots (layout : Layout) (alignedPhys : Word) (cpu : Processor) :
    Nat → Except Halt Processor
  | 0 => .ok cpu
  | page + 1 => do
      let cpu ← writeSlots layout alignedPhys cpu page
      let cpu ← store cpu
        (physWindowPt layout +
          BitVec.ofNat 64 (8 * (pageTableSize - layout.windowSize + page)))
        ((alignedPhys + (BitVec.ofNat 64 page <<< 12)) ||| pagePBit |||
          pageRwBit)
      return invlpg cpu
        (physWindowPages layout + (BitVec.ofNat 64 page <<< 12))

/-- `phys_look`. -/
def physLook (layout : Layout) (cpu : Processor) (phys : Word) :
    Except Halt Processor := do
  let alignedPhys := pageAddrBits &&& phys
  let cpu ← writeSlots layout alignedPhys cpu layout.windowSize
  return { cpu with
    physWindow := phys - alignedPhys + physWindowPages layout }

/-- Store a `page_header_t` at the window pointer. -/
def storeHeader (cpu : Processor) (size next : Word) :
    Except Halt Processor := do
  let cpu ← store cpu cpu.physWindow size
  store cpu (cpu.physWindow + 8#64) next

/-- `add_phys_mem`. -/
def addPhysMem (layout : Layout) (cpu : Processor)
    (physMemStart length : Word) : Except Halt Processor := do
  let cpu ← physLook layout cpu physMemStart
  let cpu ← storeHeader cpu (length / 4096#64) cpu.firstFreeBlock
  return { cpu with firstFreeBlock := physMemStart }

/-- `free_page`. -/
def freePage (layout : Layout) (cpu : Processor) (page : Word) :
    Except Halt Processor := do
  let cpu ← physLook layout cpu page
  let cpu ← storeHeader cpu 1#64 cpu.firstFreeBlock
  return { cpu with firstFreeBlock := page }

/-- `alloc_page`. -/
def allocPage (layout : Layout) (cpu : Processor) :
    Except Halt (Word × Processor) := do
  if cpu.firstFreeBlock = 0#64 then
    throw (.panic "no memory availible")
  else
    let ret := cpu.firstFreeBlock
    let cpu ← physLook layout cpu cpu.firstFreeBlock
    let (size, cpu) ← load cpu cpu.physWindow
    let (next, cpu) ← load cpu (cpu.physWindow + 8#64)
    if size = 1#64 then
      return (ret, { cpu with firstFreeBlock := next })
    else
      let cpu := { cpu with firstFreeBlock := cpu.firstFreeBlock + 4096#64 }
      let cpu ← physLook layout cpu cpu.firstFreeBlock
      let cpu ← storeHeader cpu (size - 1#64) next
      return (ret, cpu)

/-- `calloc_page`. -/
def callocPage (layout : Layout) (cpu : Processor) :
    Except Halt (Word × Processor) := do
  let (ret, cpu) ← allocPage layout cpu
  let cpu ← physLook layout cpu ret
  let cpu ← memset cpu cpu.physWindow 0 4096
  return (ret, cpu)

/-- `PHYS_WINDOW(page_table_entry_t) + BITS(virt, low, high)`. -/
def pointerTo (cpu : Processor) (virt : Word) (low high : Nat) : Word :=
  cpu.physWindow + 8#64 * bits virt low high

/-- `unmap_page` below the page table `pt`. -/
def unmapLeaf (layout : Layout) (cpu : Processor) (pt virt : Word) :
    Except Halt Processor := do
  let cpu ← physLook layout cpu pt
  let pte := pointerTo cpu virt 12 21
  let (entry, cpu) ← load cpu pte
  if Has entry pagePBit then
    let cpu ←
      if Has entry pageFBit then
        freePage layout cpu (frameOf entry)
      else
        pure cpu
    let (entry, cpu) ← load cpu pte
    store cpu pte (entry &&& ~~~pagePBit)
  else
    return cpu

/-- `unmap_page`. -/
def unmapPage (layout : Layout) (cpu : Processor) (virt : Word) :
    Except Halt Processor := do
  let cpu ← physLook layout cpu cpu.pml4
  let (pml4e, cpu) ← load cpu (pointerTo cpu virt 39 48)
  if ¬ Has pml4e pagePBit then
    return cpu
  else
    let cpu ← physLook layout cpu (frameOf pml4e)
    let (pdpe, cpu) ← load cpu (pointerTo cpu virt 30 39)
    if ¬ Has pdpe pagePBit then
      return cpu
    else
      let cpu ← physLook layout cpu (frameOf pdpe)
      let (pde, cpu) ← load cpu (pointerTo cpu virt 21 30)
      if ¬ Has pde pagePBit then
        return cpu
      else
        unmapLeaf layout cpu (frameOf pde) virt

/-- One upper level of `map_page`. -/
def mapLevel (layout : Layout) (cpu : Processor) (table virt : Word)
    (low high : Nat) (flags : Word) : Except Halt (Word × Processor) := do
  let cpu ← physLook layout cpu table
  let pointer := pointerTo cpu virt low high
  let (entry, cpu) ← load cpu pointer
  let cpu ← store cpu pointer (entry ||| flags)
  let (entry, cpu) ← load cpu pointer
  let cpu ←
    if ¬ Has entry pagePBit then do
      let (page, cpu) ← callocPage layout cpu
      store cpu pointer page
    else
      pure cpu
  let (entry, cpu) ← load cpu pointer
  return (frameOf entry, cpu)

/-- The frame that the leaf entry gets, and the frame it gives back. -/
def leafTarget (layout : Layout) (cpu : Processor) (pte phys : Word) :
    Except Halt (Word × Processor) := do
  let (entry, cpu) ← load cpu pte
  if phys = mapAnon then
    if Has entry pagePBit then
      return (frameOf entry, cpu)
    else
      allocPage layout cpu
  else
    if phys ≠ frameOf entry ∧ Has entry pageFBit then
      let cpu ← freePage layout cpu (frameOf entry)
      return (phys, cpu)
    else
      return (phys, cpu)

/-- The last level of `map_page`. -/
def mapLeaf (layout : Layout) (cpu : Processor) (pt virt phys flags : Word) :
    Except Halt Processor := do
  let cpu ← physLook layout cpu pt
  let pte := pointerTo cpu virt 12 21
  let (phys, cpu) ← leafTarget layout cpu pte phys
  let cpu ← physLook layout cpu pt
  let cpu ← store cpu pte (flags &&& ptFlagsMask)
  let (entry, cpu) ← load cpu pte
  store cpu pte (entry ||| phys)

/-- `map_page`. -/
def mapPage (layout : Layout) (cpu : Processor) (virt phys flags : Word) :
    Except Halt Processor := do
  if ¬ (bits virt 47 64 = 0#64 ∨ bits virt 47 64 = 0x1ffff#64) then
    throw (.assertion
      "BITS(virt, 47, 64) == 0 || BITS(virt, 47, 64) == 0x1ffff")
  else if ¬ virt &&& 0xfff#64 = 0#64 then
    throw (.assertion "((uint64_t) virt & (PAGE_SIZE - 1)) == 0")
  else if ¬ phys &&& ~~~pageAddrBits = 0#64 then
    throw (.assertion "((uint64_t) phys & ~PAGE_ADDR_BITS) == 0")
  else if ¬ Has flags pagePBit then
    let cpu ← unmapPage layout cpu virt
    return invlpg cpu virt
  else
    let (pdp, cpu) ←
      mapLevel layout cpu cpu.pml4 virt 39 48 (flags &&& pml4FlagsMask)
    let (pd, cpu) ←
      mapLevel layout cpu pdp virt 30 39 (flags &&& pdpFlagsMask)
    let (pt, cpu) ←
      mapLevel layout cpu pd virt 21 30 (flags &&& pdFlagsMask)
    let cpu ← mapLeaf layout cpu pt virt phys flags
    return invlpg cpu virt

def perform (layout : Layout) (cpu : Processor) :
    Ownership.Operation → Except Halt Processor
  | .addPhysMem physMemStart length =>
      addPhysMem layout cpu physMemStart length
  | .mapPage virt phys flags => mapPage layout cpu virt phys flags

/-- The calls one after another. -/
def performAll (layout : Layout) (cpu : Processor)
    (operations : List Ownership.Operation) : Except Halt Processor :=
  operations.foldlM (perform layout) cpu

end BeaverOS.Tlb
