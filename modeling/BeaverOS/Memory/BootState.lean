import BeaverOS.Memory.MapperState

/-!
# The smallest boot states

The states that the kernel can start from when the loader has mapped nothing
but one stretch of 2 MiB at the end of the address space: one table at each
level, the last of them the window's page table. The leaf entries and the size
of the one free block are arbitrary.
-/

namespace BeaverOS.BootState

open BeaverOS.ByteMemory
open BeaverOS.BlockChain
open BeaverOS.RadixTree
open BeaverOS.Paging
open BeaverOS.Window
open BeaverOS.FrameAllocator
open BeaverOS.PageTree
open BeaverOS.MapperState

/-- The linker script's four window pages. -/
def bootLayout : Layout :=
  ⟨0x4000, 4, by decide, by decide, fourPages_pos, fourPages_le⟩

/-- The 64-bit words of memory: the last entries of the three upper tables,
the leaf entries, and the size of the free block. -/
def bootWord (flags : Word) (leaf : Nat → Word) (count : Nat)
    (position : Nat) : Word :=
  if position = 1023 then 0x2000#64 ||| flags
  else if position = 1535 then 0x3000#64 ||| flags
  else if position = 2047 then 0x4000#64 ||| flags
  else if 2048 ≤ position ∧ position < 2560 then leaf (position - 2048)
  else if position = 8192 then BitVec.ofNat 64 count
  else 0#64

/-- The boot state with these leaf entries and `count` free frames. -/
def bootState (flags : Word) (leaf : Nat → Word) (count : Nat) : Mapper where
  mem := ofWords (bootWord flags leaf count)
  windowBase := 0#64
  physWindow := 0#64
  pml4 := 0x1000#64
  firstFreeBlock := if count = 0 then 0#64 else 0x10000#64

/-- The page whose leaf entry is `leaf index`. -/
def bootPage (index : Index) : Word :=
  0xffffffffffe00000#64 + BitVec.ofNat 64 (4096 * index.val)

section Boot

variable {flags : Word} {leaf : Nat → Word} {count : Nat} {index : Index}

theorem readEntry_boot (frame : Nat) :
    readEntry (bootState flags leaf count).mem (4096 * frame) index =
      bootWord flags leaf count (512 * frame + index.val) := by
  have position :
      entryAddress (4096 * frame) index = 8 * (512 * frame + index.val) := by
    simp only [entryAddress]
    omega
  rw [readEntry, position]
  exact readWord_ofWords _ _

theorem readEntry_boot_leaf :
    readEntry (bootState flags leaf count).mem 0x4000 index =
      leaf index.val := by
  have bound := index.isLt
  rw [show 0x4000 = 4096 * 4 from rfl, readEntry_boot, bootWord,
    if_neg (by omega), if_neg (by omega), if_neg (by omega),
    if_pos (by omega)]
  exact congrArg leaf (by omega)

/-- A table of the boot state leads to the next one, and nowhere else. -/
theorem child_boot (leaf : Nat → Word) (count : Nat) (index : Index)
    (present : Has flags pagePBit)
    (noAddress : flags &&& pageAddrBits = 0#64) {frame : Nat}
    (lower : 1 ≤ frame) (upper : frame ≤ 3) :
    child (bootState flags leaf count).mem (4096 * frame) index =
      if index = 511 then some (4096 * (frame + 1)) else none := by
  have bound := index.isLt
  have cases : frame = 1 ∨ frame = 2 ∨ frame = 3 := by omega
  by_cases last : index = 511
  · have linked : ∀ address : Word, IsFrame address →
        Has (address ||| flags) pagePBit ∧
          frameOf (address ||| flags) = address := by
      intro address isFrame
      refine ⟨has_or.mpr (Or.inr present), ?_⟩
      rw [frameOf_or, frameOf_of_isFrame isFrame, frameOf, noAddress,
        BitVec.or_zero]
    rw [child, readEntry_boot, if_pos last, last]
    rcases cases with rfl | rfl | rfl
    · have entry := linked 0x2000#64 (by decide)
      exact (if_pos entry.1).trans (congrArg _ (congrArg _ entry.2))
    · have entry := linked 0x3000#64 (by decide)
      exact (if_pos entry.1).trans (congrArg _ (congrArg _ entry.2))
    · have entry := linked 0x4000#64 (by decide)
      exact (if_pos entry.1).trans (congrArg _ (congrArg _ entry.2))
  · have notLast : index.val ≠ 511 := fun equal => last (Fin.ext equal)
    have empty :
        bootWord flags leaf count (512 * frame + index.val) = 0#64 := by
      rw [bootWord, if_neg (by omega), if_neg (by omega), if_neg (by omega),
        if_neg (by omega), if_neg (by omega)]
    rw [child, readEntry_boot, empty, if_neg (by decide), if_neg last]

/-- The walks of the boot state follow the last entries. -/
theorem walk_boot (present : Has flags pagePBit)
    (noAddress : flags &&& pageAddrBits = 0#64) {table : Nat} :
    ∀ path : List Index, path.length ≤ 3 →
      walk (child (bootState flags leaf count).mem) 0x1000 path =
          some table →
        path = List.replicate path.length 511 ∧
          table = 4096 * (path.length + 1) := by
  intro path
  induction path using List.reverseRecOn generalizing table with
  | nil =>
      intro _ reached
      cases reached
      exact ⟨rfl, rfl⟩
  | append_singleton path last inductionHypothesis =>
      intro short reached
      rw [List.length_append, List.length_singleton] at short
      rw [walk_snoc] at reached
      obtain ⟨parent, before, linked⟩ := Option.bind_eq_some_iff.mp reached
      obtain ⟨pathEq, rfl⟩ := inductionHypothesis (by omega) before
      rw [child_boot _ _ _ present noAddress (by omega) (by omega)] at linked
      split at linked
      · next isLast =>
        cases linked
        refine ⟨?_, ?_⟩
        · rw [List.length_append, List.length_singleton,
            List.replicate_succ', ← pathEq, isLast]
        · rw [List.length_append, List.length_singleton]
      · cases linked

/-- The tables of the boot state. -/
theorem bootState_tables (present : Has flags pagePBit)
    (noAddress : flags &&& pageAddrBits = 0#64) :
    Tables bootLayout (bootState flags leaf count).mem 0x1000 := by
  refine ⟨⟨by decide, by decide, ?_⟩, ?_⟩
  · intro left right table leftShort rightShort leftWalk rightWalk
    obtain ⟨leftEq, leftTable⟩ :=
      walk_boot present noAddress left leftShort leftWalk
    obtain ⟨rightEq, rightTable⟩ :=
      walk_boot present noAddress right rightShort rightWalk
    have lengths : left.length = right.length := by omega
    rw [leftEq, rightEq, lengths]
  · have step : ∀ frame, 1 ≤ frame → frame ≤ 3 →
        child (bootState flags leaf count).mem (4096 * frame) 511 =
          some (4096 * (frame + 1)) :=
      fun frame lower upper =>
        (child_boot _ _ _ present noAddress lower upper).trans (if_pos rfl)
    have first := step 1 (by decide) (by decide)
    have second := step 2 (by decide) (by decide)
    have third := step 3 (by decide) (by decide)
    exact (walk_cons_of_child first).trans
      ((walk_cons_of_child second).trans (walk_cons_of_child third))

theorem bootState_isTable (present : Has flags pagePBit)
    (noAddress : flags &&& pageAddrBits = 0#64) {table : Nat}
    (isTable : IsTable (bootState flags leaf count).mem 0x1000 table) :
    0x1000 ≤ table ∧ table ≤ 0x4000 := by
  obtain ⟨path, short, reached⟩ := isTable
  have found := (walk_boot present noAddress path short reached).2
  omega

/-- Every boot state is well formed. -/
theorem bootState_wellFormed (present : Has flags pagePBit)
    (noAddress : flags &&& pageAddrBits = 0#64) (small : count < 2 ^ 30) :
    WellFormed bootLayout (bootState flags leaf count)
      (blockFrames 4096 0x10000 count) where
  tables := bootState_tables present noAddress
  free := by
    by_cases none : count = 0
    · rw [FreeList, none, blockFrames_zero]
      exact Chain.nil
    · have first : (bootState flags leaf count).firstFreeBlock =
          0x10000#64 := if_neg none
      rw [first]
      exact freeList_ofWords (by decide) (by decide)
        (Nat.pos_of_ne_zero none)
        (by omega : 0x10000 + 4096 * count ≤ 2 ^ 52) rfl rfl
  distinct := blockFrames_nodup (by decide)
  tables_used := by
    intro table isTable member
    obtain ⟨position, _, rfl⟩ := mem_blockFrames.mp member
    have bounds := bootState_isTable present noAddress isTable
    omega

theorem toNat_bootPage :
    (bootPage index).toNat = 0xffffffffffe00000 + 4096 * index.val := by
  have bound := index.isLt
  rw [bootPage, BitVec.toNat_add, BitVec.toNat_ofNat, BitVec.toNat_ofNat]
  omega

theorem bootPage_path :
    upperPath (bootPage index) = windowPath ∧
      leafIndex (bootPage index) = index := by
  have bound := index.isLt
  simp only [upperPath, windowPath, leafIndex, List.cons.injEq, Fin.ext_iff,
    indexAt_val, toNat_bootPage, and_true]
  omega

theorem isPage_bootPage : IsPage (bootPage index) := by
  have bound := index.isLt
  have value : (bootPage index).toNat = 0xffffffffffe00000 + 4096 * index.val :=
    toNat_bootPage
  refine isPage_of_toNat (Or.inr ?_) ?_
  · omega
  · omega

theorem leafTable_boot (present : Has flags pagePBit)
    (noAddress : flags &&& pageAddrBits = 0#64) :
    leafTable (bootState flags leaf count).mem 0x1000 (bootPage index) =
      some 0x4000 := by
  rw [leafTable, bootPage_path.1]
  exact (bootState_tables present noAddress).window

/-- The leaf entries of the boot state. -/
theorem leafEntry_boot (present : Has flags pagePBit)
    (noAddress : flags &&& pageAddrBits = 0#64) :
    leafEntry (bootState flags leaf count).mem 0x1000 (bootPage index) =
      some (leaf index.val) := by
  rw [leafEntry_of_leafTable (leafTable_boot present noAddress),
    bootPage_path.2, readEntry_boot_leaf]

/-- No page but those of the last 2 MiB has a leaf entry. -/
theorem leafEntry_boot_of_ne (present : Has flags pagePBit)
    (noAddress : flags &&& pageAddrBits = 0#64) {virt entry : Word}
    (found :
      leafEntry (bootState flags leaf count).mem 0x1000 virt = some entry) :
    upperPath virt = windowPath ∧ entry = leaf (leafIndex virt).val := by
  rw [leafEntry] at found
  obtain ⟨table, walked, rfl⟩ := Option.map_eq_some_iff.mp found
  obtain ⟨path, rfl⟩ :=
    walk_boot present noAddress _ (by simp) walked
  refine ⟨path, ?_⟩
  exact readEntry_boot_leaf

/-- Leaf entries that name no table make a boot state freeable. -/
theorem bootState_freeable (present : Has flags pagePBit)
    (noAddress : flags &&& pageAddrBits = 0#64)
    (above : ∀ position, 0x4000 < (frameOf (leaf position)).toNat) :
    FreeableLeaves (bootState flags leaf count) := by
  intro virt entry found _ _ isTable
  obtain ⟨_, rfl⟩ := leafEntry_boot_of_ne present noAddress found
  have bound := above (leafIndex virt).val
  have table := bootState_isTable present noAddress isTable
  omega

theorem bootPage_outside (below : index.val < 508) :
    ¬ InWindow bootLayout (bootPage index) := by
  rintro ⟨_, above⟩
  rw [bootPage_path.2] at above
  simp only [bootLayout, pageTableSize] at above
  omega

end Boot

end BeaverOS.BootState
