import BeaverOS.Boot.EarlyMain
import BeaverOS.Loader.Elf64
import BeaverOS.Loader.Identity

/-!
# The main function of the loader

`loader/boot/main.c`, with the assembly of `cpuid.S` and `long_mode.S`: the
loader finds the kernel among the modules of the multiboot2 information
structure, loads it, maps the memory in use to itself, and enters the kernel in
long mode. The screen is left out; a `PANIC` ends the function.
-/

namespace BeaverOS.LoaderMain

open BeaverOS.Loop
open BeaverOS.ByteMemory
open BeaverOS.Paging
open BeaverOS.Window
open BeaverOS.LoaderPaging
open BeaverOS.Elf64

/-! ## The processor -/

/-- What `cpuid` leaves in the registers that the loader reads. -/
structure CpuidLeaf where
  eax : BitVec 32
  edx : BitVec 32

/-- The processor that the loader runs on: its flags, the flags that `popfl`
leaves for a value, the answers of `cpuid`, and the control registers. -/
structure Processor where
  flags : BitVec 32
  popfl : BitVec 32 → BitVec 32
  cpuid : BitVec 32 → CpuidLeaf
  cr0 : BitVec 32
  cr4 : BitVec 32
  efer : Word

def flagsIdBit : BitVec 32 := 1#32 <<< 21

def cpuidLmBit : BitVec 32 := 1#32 <<< 29

def cr4PaeBit : BitVec 32 := 1#32 <<< 5

def cr0PgBit : BitVec 32 := 1#32 <<< 31

def eferLmeBit : Word := 1#64 <<< 8

/-- `check_cpuid`: whether the ID flag can be changed. -/
def checkCpuid (processor : Processor) : Bool :=
  processor.popfl (processor.flags ^^^ flagsIdBit) ≠ processor.flags

/-- `check_long_mode`. -/
def checkLongMode (processor : Processor) : Bool :=
  if (processor.cpuid 0x80000000#32).eax < 0x80000001#32 then
    false
  else
    (processor.cpuid 0x80000001#32).edx &&& cpuidLmBit ≠ 0#32

/-- The registers that the kernel starts with. -/
structure Entered where
  rip : Word
  rdi : Word
  rsi : Word
  cr0 : BitVec 32
  cr3 : Pointer
  cr4 : BitVec 32
  efer : Word

/-- `enable_long_mode`, up to its jump to the kernel. -/
def enableLongMode (processor : Processor) (pml4 : Pointer)
    (kernelEntry : Word) (multiboot usedMem : Pointer) : Entered where
  rip := kernelEntry
  rdi := multiboot.setWidth 64
  rsi := usedMem.setWidth 64
  cr0 := processor.cr0 ||| cr0PgBit
  cr3 := pml4
  cr4 := processor.cr4 ||| cr4PaeBit
  efer := processor.efer ||| eferLmeBit

/-! ## The modules -/

/-- A `uint32_t` behind a pointer. -/
def readDword (memory : Memory) (pointer : Pointer) : BitVec 32 :=
  BitVec.ofNat 32 (readLE memory pointer.toNat 4)

/-- `multiboot2_header->total_size`. -/
def totalSize (memory : Memory) (multiboot : Pointer) : BitVec 32 :=
  readDword memory multiboot

/-- `tag->type`. -/
def tagType (memory : Memory) (tag : Pointer) : BitVec 32 :=
  readDword memory tag

/-- `tag->size`. -/
def tagSize (memory : Memory) (tag : Pointer) : BitVec 32 :=
  readDword memory (tag + 4#32)

/-- `multiboot2_next_tag`, for pointers of 32 bits. -/
def multiboot2NextTag (memory : Memory) (tag : Pointer) : Pointer :=
  (tag + tagSize memory tag + 7#32) &&& -8#32

def multiboot2ModuleTag : BitVec 32 := 3

/-- `kernel_start` and `kernel_end`. -/
structure Kernel where
  start : Pointer
  stop : Pointer
  deriving DecidableEq

/-- `mod_start` and `mod_end` of a module tag. -/
def moduleAt (memory : Memory) (tag : Pointer) : Kernel where
  start := readDword memory (tag + 8#32)
  stop := readDword memory (tag + 12#32)

/-- The tag is a module whose string is `BEAVEROS`. -/
def isKernel (memory : Memory) (tag : Pointer) : Bool :=
  tagType memory tag = multiboot2ModuleTag ∧
    strcmpIsZero memory (literal "BEAVEROS") (tag + 16#32)

/-- The body of the loop over the tags. -/
def visitTag (memory : Memory) (_ : Nat) (visit : Pointer × Kernel) :
    Except Halt (Pointer × Kernel) :=
  let (tag, kernel) := visit
  .ok (multiboot2NextTag memory tag,
    if isKernel memory tag then moduleAt memory tag else kernel)

/-- The condition of that loop. -/
def MoreTags (memory : Memory) (_ : Nat) (visit : Pointer × Kernel) : Prop :=
  tagType memory visit.1 ≠ EarlyMain.multiboot2EndTag

instance (memory : Memory) (i : Nat) (visit : Pointer × Kernel) :
    Decidable (MoreTags memory i visit) :=
  inferInstanceAs (Decidable (_ ≠ _))

/-- The loop over the tags. All tags but the first are aligned to eight bytes:
a walk that visits more than `2 ^ 29 + 1` does not end. -/
def findKernel (memory : Memory) (multiboot : Pointer) :
    Except Halt Kernel :=
  (whileLoop (MoreTags memory) (visitTag memory) .fault (2 ^ 29 + 1) 0
    (multiboot + 8#32, ⟨0#32, 0#32⟩)).map Prod.snd

/-! ## The whole function -/

/-- `loader_main`. -/
def loaderMain (processor : Processor) (eax ebx : Pointer) (state : Loader) :
    Except Halt (Entered × Loader) := do
  if eax ≠ 0x36d76289#32 then
    throw (.panic "not loaded by multiboot2 loader")
  else if ¬ checkCpuid processor then
    throw (.panic "CPU doesn't support cpuid instruction")
  else if ¬ checkLongMode processor then
    throw (.panic "CPU doesn't support long mode")
  else
    let state := extendUsedMemory state (ebx + totalSize state.mem ebx)
    let kernel ← findKernel state.mem ebx
    if kernel.start = 0#32 then
      throw (.panic "kernel not found")
    else if kernel.start &&& 0xfff#32 ≠ 0#32 then
      throw (.panic "kernel not aligned")
    else
      let state := extendUsedMemory state kernel.stop
      let (verdict, state) ← loadKernel kernel.start state
      match verdict with
      | .refused _ => throw (.panic "can't load kernel")
      | .loaded kernelEntry =>
          let state ← setupIdentityPaging state
          return (enableLongMode processor state.pml4 kernelEntry ebx
            state.usedMemory, state)

/-! ## Finding the kernel -/

/-- Where the tags of a structure lie. -/
def tagPlaces : Nat → List EarlyMain.Tag → List Pointer
  | _, [] => []
  | address, tag :: tags =>
      BitVec.ofNat 32 address ::
        tagPlaces ((address + tag.size + 7) / 8 * 8) tags

/-- The last module with the kernel's name. -/
def kernelModule (memory : Memory) (places : List Pointer) :
    Option Pointer :=
  (places.filter (isKernel memory)).getLast?

section Find

variable {memory : Memory} {limit address : Nat} {tag : EarlyMain.Tag}
  {tags : List EarlyMain.Tag} {kernel : Kernel} {multiboot place : Pointer}

/-- Below 4 GiB, the loader reads what the kernel reads. -/
theorem readDword_eq (small : address < 2 ^ 32) :
    readDword memory (BitVec.ofNat 32 address) =
      EarlyMain.readDword memory (BitVec.ofNat 64 address) := by
  rw [readDword, EarlyMain.readDword, BitVec.toNat_ofNat, BitVec.toNat_ofNat,
    Nat.mod_eq_of_lt small, Nat.mod_eq_of_lt (by omega)]

theorem tagType_eq (small : address < 2 ^ 32) :
    tagType memory (BitVec.ofNat 32 address) =
      EarlyMain.tagType memory (BitVec.ofNat 64 address) :=
  readDword_eq small

theorem tagSize_eq (small : address + 4 < 2 ^ 32) :
    tagSize memory (BitVec.ofNat 32 address) =
      EarlyMain.tagSize memory (BitVec.ofNat 64 address) := by
  rw [tagSize, EarlyMain.tagSize, ← BitVec.ofNat_add, ← BitVec.ofNat_add]
  exact readDword_eq small

theorem toNat_and_neg_eight (pointer : Pointer) :
    (pointer &&& -8#32).toNat = pointer.toNat / 8 * 8 := by
  have low : pointer.toNat % 8 = (pointer &&& 7#32).toNat := by
    rw [BitVec.toNat_and]
    exact (Nat.and_two_pow_sub_one_eq_mod pointer.toNat 3).symm
  have split := toNat_split pointer 7#32
  rw [show -8#32 = ~~~7#32 by decide]
  omega

/-- One step to the next tag. -/
theorem multiboot2NextTag_eq
    (found : EarlyMain.TagIn memory (BitVec.ofNat 64 address) tag)
    (small : address + tag.size + 7 < 2 ^ 32) :
    multiboot2NextTag memory (BitVec.ofNat 32 address) =
      BitVec.ofNat 32 ((address + tag.size + 7) / 8 * 8) := by
  have long := found.size_ge
  have sizeEq := found.tagSize
  rw [← tagSize_eq (by omega)] at sizeEq
  apply BitVec.eq_of_toNat_eq
  rw [multiboot2NextTag, toNat_and_neg_eight, BitVec.toNat_add,
    BitVec.toNat_add, sizeEq]
  simp only [BitVec.toNat_ofNat]
  omega

/-- The loop comes to every tag, and keeps the last kernel that it meets. -/
theorem tagLoop_eq
    (found : EarlyMain.TagsIn memory limit address tags)
    (small : limit < 2 ^ 32) {i fuel : Nat} (enough : tags.length < fuel) :
    (whileLoop (MoreTags memory) (visitTag memory) Halt.fault fuel i
        (BitVec.ofNat 32 address, kernel)).map Prod.snd =
      .ok ((kernelModule memory (tagPlaces address tags)).elim kernel
        (moduleAt memory)) := by
  induction found generalizing kernel i fuel with
  | @last address isEnd inside =>
      obtain ⟨fuel, rfl⟩ := Nat.exists_eq_succ_of_ne_zero
        (Nat.ne_zero_of_lt enough)
      have ends : ¬ MoreTags memory i (BitVec.ofNat 32 address, kernel) := by
        intro more
        exact more ((tagType_eq (by omega)).trans isEnd)
      rw [whileLoop, if_neg ends]
      rfl
  | @next address tag tags here rest inductionHypothesis =>
      obtain ⟨fuel, rfl⟩ := Nat.exists_eq_succ_of_ne_zero
        (Nat.ne_zero_of_lt enough)
      have bound := rest.bound
      have long := here.size_ge
      have more : MoreTags memory i (BitVec.ofNat 32 address, kernel) := by
        rw [MoreTags, tagType_eq (by omega)]
        cases here with
        | memoryMap isMap =>
            rw [isMap]
            decide
        | other notEnd notMap long typeEq =>
            rw [typeEq]
            exact notEnd
      rw [List.length_cons] at enough
      have stepped := @inductionHypothesis
        (if isKernel memory (BitVec.ofNat 32 address) then
          moduleAt memory (BitVec.ofNat 32 address) else kernel) (i + 1) fuel
        (by omega)
      rw [← multiboot2NextTag_eq here (by omega)] at stepped
      rw [whileLoop, if_pos more]
      refine stepped.trans (congrArg Except.ok ?_)
      rw [kernelModule, kernelModule, tagPlaces, List.filter_cons]
      split
      · next isHere =>
          rw [List.getLast?_cons]
          cases (List.filter (isKernel memory) (tagPlaces _ tags)).getLast?
            <;> rfl
      · rfl

/-- The walk finds the last module with the kernel's name. -/
theorem findKernel_eq
    (found : EarlyMain.TagsIn memory limit (multiboot.toNat + 8) tags)
    (small : limit < 2 ^ 32) :
    findKernel memory multiboot =
      .ok ((kernelModule memory (tagPlaces (multiboot.toNat + 8) tags)).elim
        ⟨0#32, 0#32⟩ (moduleAt memory)) := by
  have bound := found.bound
  have first : multiboot + 8#32 = BitVec.ofNat 32 (multiboot.toNat + 8) := by
    rw [BitVec.ofNat_add, BitVec.ofNat_toNat, BitVec.setWidth_eq]
  rw [findKernel, first]
  exact tagLoop_eq found small (by omega)

end Find

end BeaverOS.LoaderMain
