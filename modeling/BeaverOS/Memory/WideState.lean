import BeaverOS.Memory.MapperState
import BeaverOS.Memory.Linker

/-!
# States with tables for the upper 512 GiB

A boot state in which every page from -512G on has its page tables, none of
which maps anything. The tables of each level follow each other in memory.
-/

namespace BeaverOS.WideState

open BeaverOS.ByteMemory
open BeaverOS.BlockChain
open BeaverOS.RadixTree
open BeaverOS.Paging
open BeaverOS.Window
open BeaverOS.FrameAllocator
open BeaverOS.PageTree
open BeaverOS.MapperState

/-- The last level-1 table is the window's. -/
def wideLayout : Layout :=
  ⟨4096 * (2 ^ 19 - 1), 4, by decide, by decide, fourPages_pos, fourPages_le⟩

/-- The 64-bit words of memory: the last entry of the root, the entries of the
third-level table and of the 512 second-level tables, and the size of the free
block. -/
def wideWord (count position : Nat) : Word :=
  if position = 1023 then 0x2003#64
  else if 1024 ≤ position ∧ position < 1536 then
    BitVec.ofNat 64 (4096 * (2 ^ 12 + (position - 1024)) + 3)
  else if 2 ^ 21 ≤ position ∧ position < 2 ^ 21 + 2 ^ 18 then
    BitVec.ofNat 64 (4096 * (2 ^ 18 + (position - 2 ^ 21)) + 3)
  else if position = 8192 then BitVec.ofNat 64 count
  else 0#64

/-- The boot state with `count` free frames. -/
def wideState (count : Nat) : Mapper where
  mem := ofWords (wideWord count)
  windowBase := 0#64
  physWindow := 0#64
  pml4 := 0x1000#64
  firstFreeBlock := 0x10000#64

/-- The path of the table in a frame. -/
def widePath (frame : Nat) : List Index :=
  if frame = 1 then []
  else if frame = 2 then [511]
  else if frame < 2 ^ 18 then [511, Fin.ofNat 512 (frame - 2 ^ 12)]
  else
    [511, Fin.ofNat 512 ((frame - 2 ^ 18) / 512),
      Fin.ofNat 512 (frame - 2 ^ 18)]

section Wide

variable {count frame : Nat} {index : Index}

theorem readEntry_wide :
    readEntry (wideState count).mem (4096 * frame) index =
      wideWord count (512 * frame + index.val) := by
  have position :
      entryAddress (4096 * frame) index = 8 * (512 * frame + index.val) := by
    simp only [entryAddress]
    omega
  rw [readEntry, position]
  exact readWord_ofWords _ _

/-- An entry that the boot state has filled in. -/
theorem wide_entry (small : frame < 2 ^ 40) :
    Has (BitVec.ofNat 64 (4096 * frame + 3)) pagePBit ∧
      (frameOf (BitVec.ofNat 64 (4096 * frame + 3))).toNat = 4096 * frame := by
  constructor
  · intro none
    have bit := congrArg BitVec.toNat none
    have mask : pagePBit.toNat = 1 := by decide
    rw [BitVec.toNat_and, mask, Nat.and_one_is_mod, BitVec.toNat_ofNat] at bit
    simp only [BitVec.toNat_ofNat] at bit
    omega
  · rw [toNat_frameOf, BitVec.toNat_ofNat]
    omega

theorem child_wide {next : Nat} (small : next < 2 ^ 40)
    (entry : wideWord count (512 * frame + index.val) =
      BitVec.ofNat 64 (4096 * next + 3)) :
    child (wideState count).mem (4096 * frame) index = some (4096 * next) := by
  obtain ⟨present, leads⟩ := wide_entry small
  rw [child, readEntry_wide, entry, if_pos present, leads]

theorem child_wide_none
    (entry : wideWord count (512 * frame + index.val) = 0#64) :
    child (wideState count).mem (4096 * frame) index = none := by
  rw [child, readEntry_wide, entry, if_neg (by decide)]

theorem child_wide_root (count : Nat) (index : Index) :
    child (wideState count).mem (4096 * 1) index =
      if index = 511 then some (4096 * 2) else none := by
  have bound := index.isLt
  split
  · next last =>
    refine child_wide (by decide) ?_
    rw [last]
    rfl
  · next notLast =>
    have different : index.val ≠ 511 := fun equal => notLast (Fin.ext equal)
    refine child_wide_none ?_
    rw [wideWord, if_neg (by omega), if_neg (by omega), if_neg (by omega),
      if_neg (by omega)]

theorem child_wide_upper (count : Nat) (index : Index) :
    child (wideState count).mem (4096 * 2) index =
      some (4096 * (2 ^ 12 + index.val)) := by
  have bound := index.isLt
  refine child_wide (by omega) ?_
  rw [wideWord, if_neg (by omega), if_pos (by omega)]
  exact congrArg (fun next => BitVec.ofNat 64 (4096 * next + 3)) (by omega)

theorem child_wide_lower (count : Nat) (above index : Index) :
    child (wideState count).mem (4096 * (2 ^ 12 + above.val)) index =
      some (4096 * (2 ^ 18 + 512 * above.val + index.val)) := by
  have bound := index.isLt
  have aboveBound := above.isLt
  refine child_wide (by omega) ?_
  rw [wideWord, if_neg (by omega), if_neg (by omega), if_pos (by omega)]
  exact congrArg (fun next => BitVec.ofNat 64 (4096 * next + 3)) (by omega)

/-- Every table lies at its place. -/
theorem walk_wide {table : Nat} :
    ∀ path : List Index, path.length ≤ 3 →
      walk (child (wideState count).mem) 0x1000 path = some table →
        path = widePath (table / 4096) ∧ table < 2 ^ 31 ∧
          (table < 0x10000 ∨ 2 ^ 24 ≤ table) := by
  intro path short reached
  match path, short with
  | [], _ =>
      cases reached
      exact ⟨rfl, by decide, by decide⟩
  | [first], _ =>
      rw [walk, show 0x1000 = 4096 * 1 from rfl, child_wide_root] at reached
      split at reached
      · next last =>
        cases reached
        rw [last]
        exact ⟨rfl, by decide, by decide⟩
      · cases reached
  | [first, second], _ =>
      rw [walk, show 0x1000 = 4096 * 1 from rfl, child_wide_root] at reached
      split at reached
      · next last =>
        rw [Option.bind_some, walk, child_wide_upper] at reached
        cases reached
        have bound := second.isLt
        refine ⟨?_, by omega, by omega⟩
        rw [Nat.mul_div_cancel_left _ (by decide), widePath,
          if_neg (by omega), if_neg (by omega), if_pos (by omega), last,
          Nat.add_sub_cancel_left]
        simp
      · cases reached
  | [first, second, third], _ =>
      rw [walk, show 0x1000 = 4096 * 1 from rfl, child_wide_root] at reached
      split at reached
      · next last =>
        rw [Option.bind_some, walk, child_wide_upper, Option.bind_some, walk,
          child_wide_lower] at reached
        cases reached
        have bound := second.isLt
        have bound' := third.isLt
        refine ⟨?_, by omega, by omega⟩
        have upper : Fin.ofNat 512 ((2 ^ 18 + 512 * second.val + third.val -
            2 ^ 18) / 512) = second := by
          refine Fin.ext ?_
          simp only [Fin.ofNat]
          omega
        have lower : Fin.ofNat 512 (2 ^ 18 + 512 * second.val + third.val -
            2 ^ 18) = third := by
          refine Fin.ext ?_
          simp only [Fin.ofNat]
          omega
        rw [Nat.mul_div_cancel_left _ (by decide), widePath,
          if_neg (by omega), if_neg (by omega), if_neg (by omega), last,
          upper, lower]
      · cases reached
  | _ :: _ :: _ :: _ :: _, long =>
      simp only [List.length_cons] at long
      omega

/-- The leaf table of a page under the last entry of the root. -/
theorem leafTable_wide {virt : Word} (first : indexAt virt 39 = 511) :
    leafTable (wideState count).mem 0x1000 virt =
      some (4096 * (2 ^ 18 + 512 * (indexAt virt 30).val +
        (indexAt virt 21).val)) := by
  have root := (child_wide_root count (indexAt virt 39)).trans (if_pos first)
  have upper := child_wide_upper count (indexAt virt 30)
  have lower := child_wide_lower count (indexAt virt 30) (indexAt virt 21)
  exact (walk_cons_of_child root).trans
    ((walk_cons_of_child upper).trans (walk_cons_of_child lower))

theorem leafEntry_wide_of_index {virt : Word}
    (first : indexAt virt 39 = 511) :
    leafEntry (wideState count).mem 0x1000 virt = some 0#64 := by
  have upper := (indexAt virt 30).isLt
  have lower := (indexAt virt 21).isLt
  have last := (leafIndex virt).isLt
  rw [leafEntry_of_leafTable (leafTable_wide first), readEntry_wide, wideWord,
    if_neg (by omega), if_neg (by omega), if_neg (by omega),
    if_neg (by omega)]

/-- The pages from -512G on. -/
theorem leafEntry_wide {virt : Word} (high : 0xffffff8000000000 ≤ virt.toNat) :
    leafEntry (wideState count).mem 0x1000 virt = some 0#64 := by
  have bound := virt.isLt
  refine leafEntry_wide_of_index (Fin.ext ?_)
  rw [indexAt_val]
  change _ = 511
  omega

theorem wideState_wellFormed (positive : 0 < count) (few : count < 2 ^ 11) :
    WellFormed wideLayout (wideState count)
      (blockFrames 4096 0x10000 count) where
  tables := by
    refine ⟨⟨(by decide : 0x1000 % 4096 = 0), (by decide : 0x1000 < 2 ^ 52),
      ?_⟩, ?_⟩
    · intro left right table leftShort rightShort leftWalk rightWalk
      rw [(walk_wide left leftShort leftWalk).1,
        (walk_wide right rightShort rightWalk).1]
    · have root := child_wide_root count 511
      have upper := child_wide_upper count 511
      have lower := child_wide_lower count 511 511
      exact (walk_cons_of_child root).trans
        ((walk_cons_of_child upper).trans (walk_cons_of_child lower))
  free := by
    have size : wideWord count 8192 = BitVec.ofNat 64 count := by
      rw [wideWord, if_neg (by decide), if_neg (by decide),
        if_neg (by decide), if_pos rfl]
    have next : wideWord count 8193 = 0#64 := by
      rw [wideWord, if_neg (by decide), if_neg (by decide),
        if_neg (by decide), if_neg (by decide)]
    have first : (wideState count).firstFreeBlock.toNat = 0x10000 := rfl
    have free := @freeList_ofWords (wideState count).firstFreeBlock
      (wideWord count) count
    rw [first] at free
    exact free (by decide) (by decide) positive (by omega) size next
  distinct := blockFrames_nodup (by decide)
  tables_used := by
    rintro table ⟨path, short, reached⟩ member
    obtain ⟨position, below, rfl⟩ := mem_blockFrames.mp member
    have place := (walk_wide path short reached).2.2
    omega

end Wide

end BeaverOS.WideState
