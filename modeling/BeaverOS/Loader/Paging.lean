import BeaverOS.Memory.PageTree
import BeaverOS.Memory.Window

/-!
# The loader's page tables

`loader/paging.c`: the 32-bit loader allocates frames by moving a pointer up
and builds the page tables that the 64-bit kernel starts with. Paging is still
off, so pointers are physical addresses.
-/

namespace BeaverOS.LoaderPaging

open BeaverOS.ByteMemory
open BeaverOS.RadixTree
open BeaverOS.Paging
open BeaverOS.Window
open BeaverOS.PageTree

/-- A pointer of the 32-bit loader. -/
abbrev Pointer := BitVec 32

/-- The state of `loader/paging.c` with physical memory. -/
structure Loader where
  mem : Memory
  usedMemory : Pointer
  pml4 : Pointer

/-- `ALIGN_TO_NEXT_PAGE`. -/
def alignToNextPage (address : Pointer) : Pointer :=
  ((address - 1#32) &&& ~~~0xfff#32) + 4096#32

/-- `extend_used_memory`. -/
def extendUsedMemory (state : Loader) (newAddr : Pointer) : Loader :=
  let newAddr := alignToNextPage newAddr
  if state.usedMemory < newAddr then
    { state with usedMemory := newAddr }
  else
    state

/-- `new_phys_page`. -/
def newPhysPage (state : Loader) : Pointer × Loader :=
  (state.usedMemory, { state with usedMemory := state.usedMemory + 4096#32 })

/-- `new_phys_zero_page`. -/
def newPhysZeroPage (state : Loader) : Pointer × Loader :=
  let (ret, state) := newPhysPage state
  (ret, { state with mem := fill state.mem ret.toNat 4096 0 })

/-- `table + BITS(virt, low, high)`. -/
def entryPointer (table : Pointer) (virt : Word) (low high : Nat) : Pointer :=
  table + 8#32 * (bits virt low high).setWidth 32

/-- `*entry`. -/
def loadEntry (state : Loader) (entry : Pointer) : Word :=
  readWord state.mem entry.toNat

/-- `*entry = value`. -/
def storeEntry (state : Loader) (entry : Pointer) (value : Word) : Loader :=
  { state with mem := writeWord state.mem entry.toNat value }

/-- `*entry |= flags`. -/
def orEntry (state : Loader) (entry : Pointer) (flags : Word) : Loader :=
  storeEntry state entry (loadEntry state entry ||| flags)

/-- `if (!(*entry & PAGE_P_BIT)) *entry = (uint32_t) new_phys_zero_page()`. -/
def ensureTable (state : Loader) (entry : Pointer) : Loader :=
  if ¬ Has (loadEntry state entry) pagePBit then
    let (page, state) := newPhysZeroPage state
    storeEntry state entry (page.setWidth 64)
  else
    state

/-- `(void *) (uint32_t) (*entry & PAGE_ADDR_BITS)`. -/
def tableAt (state : Loader) (entry : Pointer) : Pointer :=
  (frameOf (loadEntry state entry)).setWidth 32

/-- `if (!pml4) pml4 = new_phys_zero_page()`. -/
def ensureRoot (state : Loader) : Loader :=
  if state.pml4 = 0#32 then
    let (page, state) := newPhysZeroPage state
    { state with pml4 := page }
  else
    state

/-- `map_page` of the loader. -/
def mapPage (state : Loader) (virt phys flags : Word) :
    Except Halt Loader := do
  if ¬ (bits virt 47 64 = 0#64 ∨ bits virt 47 64 = 0x1ffff#64) then
    throw (.assertion
      "BITS(virt, 47, 64) == 0 || BITS(virt, 47, 64) == 0x1ffff")
  else if ¬ virt &&& 0xfff#64 = 0#64 then
    throw (.assertion "(virt & (PAGE_SIZE - 1)) == 0")
  else if ¬ phys &&& ~~~pageAddrBits = 0#64 then
    throw (.assertion "(phys & ~PAGE_ADDR_BITS) == 0")
  else
    let state := ensureRoot state
    let pml4e := entryPointer state.pml4 virt 39 48
    let state := ensureTable state pml4e
    let pdpe := entryPointer (tableAt state pml4e) virt 30 39
    let state := ensureTable state pdpe
    let pde := entryPointer (tableAt state pdpe) virt 21 30
    let state := ensureTable state pde
    let pte := entryPointer (tableAt state pde) virt 12 21
    let flags := flags ||| pagePBit
    let state := orEntry state pml4e (flags &&& pml4FlagsMask)
    let state := orEntry state pdpe (flags &&& pdpFlagsMask)
    let state := orEntry state pde (flags &&& pdFlagsMask)
    let state := storeEntry state pte (flags &&& ptFlagsMask)
    return orEntry state pte phys

/-! ## Pointers -/

section Pointers

variable {state : Loader} {table entry : Pointer} {virt flags : Word}
  {low : Nat}

theorem toNat_entryPointer (virt : Word) (low : Nat)
    (aligned : table.toNat % 4096 = 0) :
    (entryPointer table virt low (low + 9)).toNat =
      entryAddress table.toNat (indexAt virt low) := by
  have bound := (indexAt virt low).isLt
  have index := toNat_bits_eq_index virt low
  have tableBound := table.isLt
  rw [entryPointer, BitVec.toNat_add, BitVec.toNat_mul,
    BitVec.toNat_setWidth, index, entryAddress]
  simp only [BitVec.toNat_ofNat]
  omega

/-- The aligned address is the least multiple of 4096 from `address` on,
unless that is 4 GiB. -/
theorem toNat_alignToNextPage (address : Pointer) :
    (alignToNextPage address).toNat =
      (address.toNat + 4095) / 4096 * 4096 % 2 ^ 32 := by
  have mask : ∀ word : Pointer,
      (word &&& ~~~0xfff#32).toNat = word.toNat / 4096 * 4096 := by
    intro word
    have low : word.toNat % 4096 = (word &&& 0xfff#32).toNat := by
      rw [BitVec.toNat_and]
      exact (Nat.and_two_pow_sub_one_eq_mod word.toNat 12).symm
    have split := toNat_split word 0xfff#32
    omega
  have bound := address.isLt
  rw [alignToNextPage, BitVec.toNat_add, mask, BitVec.toNat_sub]
  simp only [BitVec.toNat_ofNat]
  by_cases zero : address.toNat = 0
  · rw [zero]
    decide
  · omega

end Pointers

end BeaverOS.LoaderPaging
