import BeaverOS.Memory.FrameAllocator
import BeaverOS.Memory.PageTree

/-!
# `map_page` and `unmap_page`

The two functions of `memory/mapper.c` that walk and change the page tables,
with the entry pointers they compute before the window moves on. The lemmas
below them evaluate each level of the walk once.
-/

namespace BeaverOS.Mapper

open BeaverOS.ByteMemory
open BeaverOS.Paging
open BeaverOS.Window
open BeaverOS.FrameAllocator
open BeaverOS.PageTree

/-- `PHYS_WINDOW(page_table_entry_t) + BITS(virt, low, high)`. -/
def pointerTo (state : Mapper) (virt : Word) (low high : Nat) : Word :=
  state.physWindow + 8#64 * bits virt low high

/-- `unmap_page`. -/
def unmapPage (layout : Layout) (state : Mapper) (virt : Word) :
    Except Halt Mapper := do
  let state := physLook layout state state.pml4
  let pml4e ← load layout state (pointerTo state virt 39 48)
  if ¬ Has pml4e pagePBit then
    return state
  else
    let state := physLook layout state (frameOf pml4e)
    let pdpe ← load layout state (pointerTo state virt 30 39)
    if ¬ Has pdpe pagePBit then
      return state
    else
      let state := physLook layout state (frameOf pdpe)
      let pde ← load layout state (pointerTo state virt 21 30)
      if ¬ Has pde pagePBit then
        return state
      else
        let state := physLook layout state (frameOf pde)
        let pte := pointerTo state virt 12 21
        let entry ← load layout state pte
        if Has entry pagePBit then
          let state ←
            if Has entry pageFBit then
              freePage layout state (frameOf entry)
            else
              pure state
          -- `*pte &= ~PAGE_P_BIT` through the pointer of before the free
          let entry ← load layout state pte
          store layout state pte (entry &&& ~~~pagePBit)
        else
          return state

/-- One upper level of `map_page`: the masked flags go into the entry of
`virt`, then its presence is tested, then a missing table is allocated. -/
def mapLevel (layout : Layout) (state : Mapper) (table virt : Word)
    (low high : Nat) (flags : Word) : Except Halt (Word × Mapper) := do
  let state := physLook layout state table
  let pointer := pointerTo state virt low high
  let entry ← load layout state pointer
  let state ← store layout state pointer (entry ||| flags)
  let entry ← load layout state pointer
  let state ←
    if ¬ Has entry pagePBit then do
      let (page, state) ← callocPage layout state
      store layout state pointer page
    else
      pure state
  let entry ← load layout state pointer
  return (frameOf entry, state)

/-- The frame that the leaf entry gets, and the frame it gives back. -/
def leafTarget (layout : Layout) (state : Mapper) (pte phys : Word) :
    Except Halt (Word × Mapper) := do
  let entry ← load layout state pte
  if phys = mapAnon then
    if Has entry pagePBit then
      return (frameOf entry, state)
    else
      allocPage layout state
  else
    if phys ≠ frameOf entry ∧ Has entry pageFBit then
      let state ← freePage layout state (frameOf entry)
      return (phys, state)
    else
      return (phys, state)

/-- The last level of `map_page`. -/
def mapLeaf (layout : Layout) (state : Mapper) (pt virt phys flags : Word) :
    Except Halt Mapper := do
  let state := physLook layout state pt
  let pte := pointerTo state virt 12 21
  let (phys, state) ← leafTarget layout state pte phys
  let state := physLook layout state pt
  let state ← store layout state pte (flags &&& ptFlagsMask)
  let entry ← load layout state pte
  store layout state pte (entry ||| phys)

/-- `map_page`. -/
def mapPage (layout : Layout) (state : Mapper) (virt phys flags : Word) :
    Except Halt Mapper := do
  if ¬ (bits virt 47 64 = 0#64 ∨ bits virt 47 64 = 0x1ffff#64) then
    throw (.assertion
      "BITS(virt, 47, 64) == 0 || BITS(virt, 47, 64) == 0x1ffff")
  else if ¬ virt &&& 0xfff#64 = 0#64 then
    throw (.assertion "((uint64_t) virt & (PAGE_SIZE - 1)) == 0")
  else if ¬ phys &&& ~~~pageAddrBits = 0#64 then
    throw (.assertion "((uint64_t) phys & ~PAGE_ADDR_BITS) == 0")
  else if ¬ Has flags pagePBit then
    unmapPage layout state virt
  else
    let (pdp, state) ←
      mapLevel layout state state.pml4 virt 39 48 (flags &&& pml4FlagsMask)
    let (pd, state) ←
      mapLevel layout state pdp virt 30 39 (flags &&& pdpFlagsMask)
    let (pt, state) ←
      mapLevel layout state pd virt 21 30 (flags &&& pdFlagsMask)
    mapLeaf layout state pt virt phys flags

/-! ## One level at a time -/

section Levels

variable {layout : Layout} {state : Mapper} {table virt phys flags : Word}
  {low : Nat}

theorem pointerTo_physLook (low : Nat) (frame : IsFrame table) :
    pointerTo (physLook layout state table) virt low (low + 9) =
      entryPointer virt low := by
  rw [pointerTo, physLook_physWindow _ _ frame, entryPointer]

/-- The entry that the window shows right after `phys_look(table)`. -/
theorem load_physLook (frame : IsFrame table) :
    load layout (physLook layout state table)
        (pointerTo (physLook layout state table) virt low (low + 9)) =
      .ok (readEntry (physLook layout state table).mem table.toNat
        (indexAt virt low)) := by
  rw [pointerTo_physLook low frame]
  exact load_entry (physLook_windowBase layout state frame) frame

/-- The entry of one upper level after the flags went in. -/
def leveledEntry (layout : Layout) (state : Mapper) (table virt : Word)
    (low : Nat) (flags : Word) : Word :=
  readEntry (physLook layout state table).mem table.toNat (indexAt virt low) |||
    flags

/-- The state after one upper level whose entry ends up present. -/
def leveled (layout : Layout) (state : Mapper) (table virt : Word)
    (low : Nat) (flags : Word) : Mapper :=
  putWord (physLook layout state table)
    (entryAddress table.toNat (indexAt virt low))
    (leveledEntry layout state table virt low flags)

theorem mapLevel_present (frame : IsFrame table)
    (present : Has (leveledEntry layout state table virt low flags) pagePBit) :
    mapLevel layout state table virt low (low + 9) flags =
      .ok (frameOf (leveledEntry layout state table virt low flags),
        leveled layout state table virt low flags) := by
  have base := physLook_windowBase layout state frame
  have reread :
      load layout (leveled layout state table virt low flags)
          (entryPointer virt low) =
        .ok (leveledEntry layout state table virt low flags) :=
    load_entry_putWord base frame
  have stored :
      store layout (physLook layout state table) (entryPointer virt low)
          (readEntry (physLook layout state table).mem table.toNat
            (indexAt virt low) ||| flags) =
        .ok (leveled layout state table virt low flags) :=
    store_entry base frame
  simp only [mapLevel, pointerTo_physLook low frame, bind, Except.bind,
    load_entry base frame, stored, reread, present, not_true_eq_false,
    if_false, pure, Except.pure]

/-- One upper level, from the table it looks at to the table it leads to, when
the flags that go into the entry carry `PAGE_P_BIT`. -/
def descend (layout : Layout) (virt : Word) (low : Nat) (flags : Word)
    (here : Word × Mapper) : Word × Mapper :=
  (frameOf (leveledEntry layout here.2 here.1 virt low flags),
    leveled layout here.2 here.1 virt low flags)

/-- The level-3 table that `map_page` looks at, and the state then. -/
def toPdp (layout : Layout) (state : Mapper) (virt flags : Word) :
    Word × Mapper :=
  descend layout virt 39 (flags &&& pml4FlagsMask) (state.pml4, state)

/-- The level-2 table that `map_page` looks at, and the state then. -/
def toPd (layout : Layout) (state : Mapper) (virt flags : Word) :
    Word × Mapper :=
  descend layout virt 30 (flags &&& pdpFlagsMask)
    (toPdp layout state virt flags)

/-- The level-1 table that `map_page` looks at, and the state then. -/
def toPt (layout : Layout) (state : Mapper) (virt flags : Word) :
    Word × Mapper :=
  descend layout virt 21 (flags &&& pdFlagsMask)
    (toPd layout state virt flags)

theorem isFrame_toPdp (layout : Layout) (state : Mapper)
    (virt flags : Word) : IsFrame (toPdp layout state virt flags).1 :=
  isFrame_frameOf _

theorem isFrame_toPd (layout : Layout) (state : Mapper)
    (virt flags : Word) : IsFrame (toPd layout state virt flags).1 :=
  isFrame_frameOf _

theorem isFrame_toPt (layout : Layout) (state : Mapper)
    (virt flags : Word) : IsFrame (toPt layout state virt flags).1 :=
  isFrame_frameOf _

/-- Flags with `PAGE_P_BIT` never let the presence test fail: they went into
the entry before it. -/
theorem mapLevel_eq_descend {keep : Word} (frame : IsFrame table)
    (present : Has flags pagePBit) (kept : keep &&& pagePBit = pagePBit) :
    mapLevel layout state table virt low (low + 9) (flags &&& keep) =
      .ok (descend layout virt low (flags &&& keep) (table, state)) :=
  mapLevel_present frame
    ((has_and_iff_of_subset kept).mpr (Or.inr present))

theorem mapPage_eq_mapLeaf (page : IsPage virt) (frame : IsFrame phys)
    (present : Has flags pagePBit) (root : IsFrame state.pml4) :
    mapPage layout state virt phys flags =
      mapLeaf layout (toPt layout state virt flags).2
        (toPt layout state virt flags).1 virt phys flags := by
  have canonical := page.1
  have aligned := page.2
  have physical : phys &&& ~~~pageAddrBits = 0#64 := frame
  have first :
      mapLevel layout state state.pml4 virt 39 48 (flags &&& pml4FlagsMask) =
        .ok (toPdp layout state virt flags) :=
    mapLevel_eq_descend root present (by decide)
  have second :
      mapLevel layout (toPdp layout state virt flags).2
          (toPdp layout state virt flags).1 virt 30 39
          (flags &&& pdpFlagsMask) =
        .ok (toPd layout state virt flags) :=
    mapLevel_eq_descend (isFrame_toPdp layout state virt flags) present (by decide)
  have third :
      mapLevel layout (toPd layout state virt flags).2
          (toPd layout state virt flags).1 virt 21 30
          (flags &&& pdFlagsMask) =
        .ok (toPt layout state virt flags) :=
    mapLevel_eq_descend (isFrame_toPd layout state virt flags) present (by decide)
  simp only [mapPage, canonical, aligned, physical, present,
    not_true_eq_false, if_false, bind, Except.bind, first, second, third]

/-- The state after the last stores of `map_page`. -/
def leafWritten (layout : Layout) (state : Mapper) (pt virt : Word)
    (entry : Word) : Mapper :=
  putWord (physLook layout state pt) (entryAddress pt.toNat (leafIndex virt))
    entry

theorem leafTarget_eq {pt : Word} (frame : IsFrame pt) :
    leafTarget layout (physLook layout state pt) (entryPointer virt 12)
        phys =
      (let looked := physLook layout state pt
       let entry := readEntry looked.mem pt.toNat (leafIndex virt)
       if phys = mapAnon then
         if Has entry pagePBit then .ok (frameOf entry, looked)
         else allocPage layout looked
       else if phys ≠ frameOf entry ∧ Has entry pageFBit then
         (freePage layout looked (frameOf entry)).map fun released =>
           (phys, released)
       else .ok (phys, looked)) := by
  have base := physLook_windowBase layout state frame
  simp only [leafTarget, load_entry base frame, bind, Except.bind]
  rfl

theorem mapLeaf_eq {pt : Word} (frame : IsFrame pt) :
    mapLeaf layout state pt virt phys flags =
      (leafTarget layout (physLook layout state pt) (entryPointer virt 12)
        phys).map fun target =>
          leafWritten layout target.2 pt virt
            ((flags &&& ptFlagsMask) ||| target.1) := by
  simp only [mapLeaf, pointerTo_physLook 12 frame]
  cases leafTarget layout (physLook layout state pt) (entryPointer virt 12)
    phys with
  | error halt => rfl
  | ok target =>
      obtain ⟨chosen, after⟩ := target
      have base := physLook_windowBase layout after frame
      have stored :
          (putWord (physLook layout after pt)
            (entryAddress pt.toNat (indexAt virt 12))
            (flags &&& ptFlagsMask)).windowBase = pt := base
      simp only [bind, Except.bind, store_entry base frame,
        load_entry_putWord base frame, store_entry stored frame,
        putWord_putWord]
      rfl

/-- How the leaf entry gets its frame: it keeps the one it has, an anonymous
page gets a free one, or the caller's frame goes in, after the old one went
back to the free list or without that. -/
inductive LeafStep (layout : Layout) (looked : Mapper) (entry phys : Word) :
    Word → Mapper → Prop
  | reused :
      phys = mapAnon → Has entry pagePBit →
      LeafStep layout looked entry phys (frameOf entry) looked
  | allocated {target : Word} {after : Mapper} :
      phys = mapAnon → ¬ Has entry pagePBit →
      allocPage layout looked = .ok (target, after) →
      LeafStep layout looked entry phys target after
  | released {after : Mapper} :
      phys ≠ mapAnon → phys ≠ frameOf entry → Has entry pageFBit →
      freePage layout looked (frameOf entry) = .ok after →
      LeafStep layout looked entry phys phys after
  | placed :
      phys ≠ mapAnon → ¬ (phys ≠ frameOf entry ∧ Has entry pageFBit) →
      LeafStep layout looked entry phys phys looked

/-- Every mapping that returns ends with one of the four leaf steps and the
store of the new entry. -/
theorem leafStep_of_mapPage {state' : Mapper} (page : IsPage virt)
    (frame : IsFrame phys) (present : Has flags pagePBit)
    (root : IsFrame state.pml4)
    (mapped : mapPage layout state virt phys flags = .ok state') :
    ∃ target after,
      LeafStep layout
        (physLook layout (toPt layout state virt flags).2
          (toPt layout state virt flags).1)
        (readEntry
          (physLook layout (toPt layout state virt flags).2
            (toPt layout state virt flags).1).mem
          (toPt layout state virt flags).1.toNat (leafIndex virt))
        phys target after ∧
      state' =
        leafWritten layout after (toPt layout state virt flags).1 virt
          ((flags &&& ptFlagsMask) ||| target) := by
  have table := isFrame_toPt layout state virt flags
  rw [mapPage_eq_mapLeaf page frame present root, mapLeaf_eq table,
    leafTarget_eq table] at mapped
  obtain ⟨⟨target, after⟩, chosen, rfl⟩ := exists_ok_of_map mapped
  refine ⟨target, after, ?_, rfl⟩
  simp only at chosen
  split at chosen
  · next anonymous =>
    split at chosen
    · next found =>
      cases chosen
      exact LeafStep.reused anonymous found
    · next missing =>
      exact LeafStep.allocated anonymous missing chosen
  · next explicit =>
    split at chosen
    · next frees =>
      obtain ⟨released, freed, targetEq⟩ := exists_ok_of_map chosen
      cases targetEq
      exact LeafStep.released explicit frees.1 frees.2 freed
    · next keeps =>
      cases chosen
      exact LeafStep.placed explicit keeps

end Levels

end BeaverOS.Mapper
