import BeaverOS.Memory.Tlb

/-!
# The window on a processor with a TLB

A processor follows the model as long as it keeps no stale translation of a page
that the mapper comes to. Moving the window changes the window's pages, one at a
time, and invalidates each; the free list is kept through the window.
-/

namespace BeaverOS.Tlb

open BeaverOS.ByteMemory
open BeaverOS.TranslationCache
open BeaverOS.RadixTree
open BeaverOS.Paging
open BeaverOS.Window
open BeaverOS.FrameAllocator
open BeaverOS.PageTree
open BeaverOS.TableUpdate
open BeaverOS.MapperState
open BeaverOS.BootState

/-! ## The window and its page table -/

/-- The index of a window page in the window's page table. -/
def slotIndex (layout : Layout) (page : Nat) : Index :=
  Fin.ofNat 512 (pageTableSize - layout.windowSize + page)

/-- The index of `_phys_window_pt` in the window's page table. -/
def tableIndex (layout : Layout) : Index :=
  Fin.ofNat 512 (pageTableSize - layout.windowSize - 1)

section Pages

variable {layout : Layout} {page : Nat}

theorem slotIndex_val (inside : page < layout.windowSize) :
    (slotIndex layout page).val =
      pageTableSize - layout.windowSize + page := by
  have bound := layout.windowSize_le
  simp only [slotIndex, Fin.val_ofNat, pageTableSize]
  omega

theorem tableIndex_val (layout : Layout) :
    (tableIndex layout).val = pageTableSize - layout.windowSize - 1 := by
  have bound := layout.windowSize_pos
  simp only [tableIndex, Fin.val_ofNat, pageTableSize]
  omega

theorem toNat_physWindowPages (layout : Layout) :
    (physWindowPages layout).toNat = 2 ^ 64 - 4096 * layout.windowSize := by
  have lower := layout.windowSize_pos
  have upper := layout.windowSize_le
  rw [physWindowPages, BitVec.toNat_sub, BitVec.toNat_ofNat,
    BitVec.toNat_ofNat, pageSize]
  omega

theorem windowPage_eq (inside : page < layout.windowSize) :
    physWindowPages layout + (BitVec.ofNat 64 page <<< 12) =
      bootPage (slotIndex layout page) := by
  have bound := layout.windowSize_le
  apply BitVec.eq_of_toNat_eq
  rw [toNat_bootPage, slotIndex_val inside, BitVec.toNat_add,
    toNat_physWindowPages, BitVec.toNat_shiftLeft, BitVec.toNat_ofNat,
    Nat.shiftLeft_eq, pageTableSize]
  omega

theorem physWindowPages_eq (layout : Layout) :
    physWindowPages layout = bootPage (slotIndex layout 0) := by
  rw [← windowPage_eq layout.windowSize_pos]
  exact (BitVec.add_zero _).symm

theorem physWindowPt_eq (layout : Layout) :
    physWindowPt layout = bootPage (tableIndex layout) := by
  have lower := layout.windowSize_pos
  have upper := layout.windowSize_le
  apply BitVec.eq_of_toNat_eq
  rw [toNat_bootPage, tableIndex_val, physWindowPt, BitVec.toNat_sub,
    toNat_physWindowPages, BitVec.toNat_ofNat, pageTableSize]
  omega

theorem inWindow_windowPage (inside : page < layout.windowSize) :
    InWindow layout (bootPage (slotIndex layout page)) := by
  refine ⟨bootPage_path.1, ?_⟩
  rw [bootPage_path.2, slotIndex_val inside]
  exact Nat.le_add_right _ _

theorem physWindowPt_ne_windowPage (inside : page < layout.windowSize) :
    bootPage (tableIndex layout) ≠ bootPage (slotIndex layout page) := by
  intro same
  have values := congrArg BitVec.toNat same
  have bound := layout.windowSize_le
  have positive := layout.windowSize_pos
  rw [toNat_bootPage, toNat_bootPage, tableIndex_val, slotIndex_val inside,
    pageTableSize] at values
  omega

theorem slotAddress_eq (inside : page < layout.windowSize) :
    entryAddress layout.windowPt (slotIndex layout page) =
      slotAddress layout page := by
  rw [entryAddress, slotIndex_val inside, slotAddress]

end Pages

/-! ## Changes of the tables -/

/-- The tables stay where they are, and no page but those in `changed` has
another translation. -/
structure ChangesOnly (layout : Layout) (root : Nat) (changed : Set Word)
    (memory memory' : Memory) : Prop where
  walk_eq :
    ∀ path : List Index, path.length ≤ 3 →
      walk (child memory') root path = walk (child memory) root path
  tables : Tables layout memory' root
  same :
    ∀ page, page ∉ changed →
      pageWalk memory' root page = pageWalk memory root page

section Changes

variable {layout : Layout} {root table : Nat} {changed : Set Word}
  {memory memory' : Memory} {virt flags : Word} {path : List Index}
  {index : Index}

theorem pageWalk_congr (same : ∀ page, IsPage page →
      leafEntry memory' root page = leafEntry memory root page)
    (page : Word) : pageWalk memory' root page = pageWalk memory root page := by
  rw [pageWalk, pageWalk]
  by_cases isPage : IsPage page
  · rw [if_pos isPage, if_pos isPage]
    exact translation_congr (same page isPage)
  · rw [if_neg isPage, if_neg isPage]

theorem ChangesOnly.of_children (tables : Tables layout memory root)
    (children : ∀ path table index, path.length < 3 →
      walk (child memory) root path = some table →
      child memory' table index = child memory table index)
    (same : ∀ page, page ∉ changed →
      pageWalk memory' root page = pageWalk memory root page) :
    ChangesOnly layout root changed memory memory' :=
  ⟨walk_congr children, ⟨tables.tree.congr children,
    (walk_congr children windowPath (by decide)).trans tables.window⟩, same⟩

/-- A store outside of all tables. -/
theorem ChangesOnly.of_untouched {cellsOff : Set Nat}
    (tables : Tables layout memory root)
    (agree : AgreeOff cellsOff memory' memory)
    (spared : ∀ table, IsTable memory root table →
      Disjoint (cells table 4096) cellsOff) :
    ChangesOnly layout root ∅ memory memory' := by
  have entries : ∀ path table index, path.length ≤ 3 →
      walk (child memory) root path = some table →
      readEntry memory' table index = readEntry memory table index :=
    fun path table _ short reached => agree.readWord_eq
      ((spared table ⟨path, short, reached⟩).mono_left entryCells_subset)
  refine ChangesOnly.of_children tables
    (fun path table index short reached => child_eq_of_readEntry
      (entries path table index (Nat.le_of_lt short) reached))
    fun page _ => pageWalk_congr (fun other _ => ?_) page
  have leaf := leafTable_congr (fun path table index short reached =>
    child_eq_of_readEntry (entries path table index (Nat.le_of_lt short)
      reached)) other
  rw [leafEntry, leafEntry, leaf]
  cases found : leafTable memory root other with
  | none => rfl
  | some table =>
      exact congrArg some (entries _ table _
        (Nat.le_of_eq (length_upperPath other)) found)

/-- Flags in an upper entry. -/
theorem ChangesOnly.of_flags (tables : Tables layout memory root)
    (short : path.length < 3)
    (reached : walk (child memory) root path = some table)
    (present : Has (readEntry memory table index) pagePBit)
    (noFrame : frameOf flags = 0#64) :
    ChangesOnly layout root ∅ memory
      (writeWord memory (entryAddress table index)
        (readEntry memory table index ||| flags)) := by
  have sameFrame : frameOf (readEntry memory table index ||| flags) =
      frameOf (readEntry memory table index) := by
    rw [frameOf_or, noFrame, BitVec.or_zero]
  have flagged := flagEntry tables.tree short reached present sameFrame
  refine ChangesOnly.of_children tables flagged.child_eq fun page _ => ?_
  rw [pageWalk, pageWalk, flagged.translation_eq short]

/-- A new leaf entry. -/
theorem ChangesOnly.of_leaf (tables : Tables layout memory root)
    (page : IsPage virt)
    (found : leafTable memory root virt = some table) (value : Word) :
    ChangesOnly layout root {virt} memory
      (writeWord memory (entryAddress table (leafIndex virt)) value) := by
  have updated := storeLeaf tables.tree found value
  refine ChangesOnly.of_children tables updated.child_eq ?_
  intro other different
  rw [pageWalk, pageWalk]
  by_cases otherPage : IsPage other
  · rw [if_pos otherPage, if_pos otherPage]
    exact translation_congr (updated.elsewhere page otherPage different)
  · rw [if_neg otherPage, if_neg otherPage]

end Changes

/-! ## Accesses -/

/-- The processor works on the memory and the variables of the model, and keeps
stale translations of `stale` at most. -/
structure Follows (layout : Layout) (stale : Set Word) (cpu : Processor)
    (state : Mapper) : Prop where
  mem : cpu.mem = state.mem
  pml4 : cpu.pml4 = state.pml4
  first : cpu.firstFreeBlock = state.firstFreeBlock
  tables : Tables layout state.mem state.pml4.toNat
  windowPt :
    ∃ flags, pageWalk state.mem state.pml4.toNat (physWindowPt layout) =
      some (BitVec.ofNat 64 layout.windowPt, flags)
  fresh : Fresh (pageWalk state.mem state.pml4.toNat) stale cpu.cache

section Accesses

variable {layout : Layout} {stale changed : Set Word} {cpu : Processor}
  {state : Mapper} {page frame flags pointer value : Word} {memory : Memory}
  {address offset : Nat}

@[simp]
theorem settle_mem : cpu.settle.mem = cpu.mem := rfl

@[simp]
theorem settle_physWindow : cpu.settle.physWindow = cpu.physWindow := rfl

@[simp]
theorem settle_firstFreeBlock :
    cpu.settle.firstFreeBlock = cpu.firstFreeBlock := rfl

theorem Follows.settle (follows : Follows layout stale cpu state) :
    Follows layout stale cpu.settle state := by
  have fresh := follows.fresh.refresh (cpu.activity cpu.time)
  rw [← follows.mem, ← follows.pml4] at fresh
  refine ⟨follows.mem, follows.pml4, follows.first, follows.tables,
    follows.windowPt, ?_⟩
  rw [← follows.mem, ← follows.pml4]
  exact fresh

/-- The translation that an access uses is that of the tables. -/
theorem Follows.physical (follows : Follows layout stale cpu state)
    (isPage : IsPage page) (notStale : page ∉ stale)
    (walked : pageWalk state.mem state.pml4.toNat page = some (frame, flags))
    (inside : offset < 4096) :
    cpu.physical (page + BitVec.ofNat 64 offset) =
      .ok (frame.toNat + offset) := by
  have translated : cpu.translate page = some (frame, flags) := by
    rw [Processor.translate, follows.mem, follows.pml4,
      follows.fresh.lookup_eq notStale, walked]
  rw [Processor.physical, physicalAddress_page_add isPage.aligned inside,
    translated]
  rfl

theorem add_ofNat_succ (page : Word) (offset : Nat) :
    page + BitVec.ofNat 64 offset + 1#64 =
      page + BitVec.ofNat 64 (offset + 1) := by
  rw [BitVec.add_assoc, BitVec.ofNat_add]

theorem Follows.readBytes (follows : Follows layout stale cpu state)
    (isPage : IsPage page) (notStale : page ∉ stale)
    (walked : pageWalk state.mem state.pml4.toNat page = some (frame, flags))
    (count : Nat) (inside : offset + count ≤ 4096) :
    cpu.readBytes (page + BitVec.ofNat 64 offset) count =
      .ok (readLE state.mem (frame.toNat + offset) count) := by
  induction count generalizing offset with
  | zero => rfl
  | succ count inductionHypothesis =>
      have here := follows.physical isPage notStale walked
        (by omega : offset < 4096)
      have rest := @inductionHypothesis (offset + 1) (by omega)
      rw [Processor.readBytes, here, add_ofNat_succ, follows.mem]
      simp only [bind, Except.bind]
      rw [rest]
      rfl

theorem writeLE_succ (memory : Memory) (address count value : Nat) :
    writeLE (Function.update memory address (BitVec.ofNat 8 value))
        (address + 1) count (value / 256) =
      writeLE memory address (count + 1) value := by
  funext cell
  by_cases here : cell = address
  · rw [here, writeLE_outside (Or.inl (Nat.lt_succ_self _)),
      Function.update_self, writeLE_inside (Nat.le_refl _) (by omega),
      Nat.sub_self, Nat.pow_zero, Nat.div_one]
  · by_cases inside : address ≤ cell ∧ cell < address + (count + 1)
    · have shift : cell - address = cell - (address + 1) + 1 := by omega
      rw [writeLE_inside (by omega) (by omega),
        writeLE_inside inside.1 inside.2, shift, Nat.pow_succ,
        Nat.mul_comm, Nat.div_div_eq_div_mul]
    · rw [writeLE_outside (by omega), writeLE_outside (by omega),
        Function.update_of_ne here]

theorem Follows.writeBytes (follows : Follows layout stale cpu state)
    (isPage : IsPage page) (notStale : page ∉ stale)
    (walked : pageWalk state.mem state.pml4.toNat page = some (frame, flags))
    (count bytes : Nat) (inside : offset + count ≤ 4096) :
    cpu.writeBytes memory (page + BitVec.ofNat 64 offset) bytes count =
      .ok (writeLE memory (frame.toNat + offset) count bytes) := by
  induction count generalizing offset bytes memory with
  | zero =>
      refine congrArg Except.ok (funext fun cell => ?_)
      exact (writeLE_outside (by omega)).symm
  | succ count inductionHypothesis =>
      have here := follows.physical isPage notStale walked
        (by omega : offset < 4096)
      rw [Processor.writeBytes, here, add_ofNat_succ]
      simp only [bind, Except.bind]
      rw [inductionHypothesis (bytes / 256) (by omega), ← Nat.add_assoc,
        writeLE_succ]

/-- A word of a page is read. -/
theorem Follows.load (follows : Follows layout stale cpu state)
    (isPage : IsPage page) (notStale : page ∉ stale)
    (walked : pageWalk state.mem state.pml4.toNat page = some (frame, flags))
    (inside : offset + 8 ≤ 4096) :
    load cpu (page + BitVec.ofNat 64 offset) =
      .ok (readWord state.mem (frame.toNat + offset), cpu.settle) := by
  have bytes := follows.settle.readBytes isPage notStale walked 8 inside
  simp only [Tlb.load, bytes, bind, Except.bind, pure, Except.pure, readWord]

/-- A word of a page is stored. -/
theorem Follows.store (follows : Follows layout stale cpu state)
    (isPage : IsPage page) (notStale : page ∉ stale)
    (walked : pageWalk state.mem state.pml4.toNat page = some (frame, flags))
    (inside : offset + 8 ≤ 4096) (value : Word) :
    store cpu (page + BitVec.ofNat 64 offset) value =
      .ok { cpu.settle with
        mem := writeWord state.mem (frame.toNat + offset) value } := by
  have bytes := @Follows.writeBytes _ _ _ _ _ _ _ state.mem _ follows.settle
    isPage notStale walked 8 value.toNat inside
  simp only [Tlb.store, settle_mem, follows.mem, bytes, bind, Except.bind, pure,
    Except.pure, writeWord]

/-- Memory changes, and with it the translation of some pages. -/
theorem Follows.change (follows : Follows layout stale cpu state)
    (changes : ChangesOnly layout state.pml4.toNat changed state.mem memory)
    (spared : physWindowPt layout ∉ changed) :
    Follows layout (stale ∪ changed) { cpu with mem := memory }
      { state with mem := memory } := by
  obtain ⟨flags, walked⟩ := follows.windowPt
  exact ⟨rfl, follows.pml4, follows.first, changes.tables,
    ⟨flags, (changes.same _ spared).trans walked⟩,
    follows.fresh.change changes.same⟩

/-- `first_free_block` is assigned. -/
theorem Follows.setFirst (follows : Follows layout stale cpu state)
    (first : Word) :
    Follows layout stale { cpu with firstFreeBlock := first }
      { state with firstFreeBlock := first } :=
  ⟨follows.mem, follows.pml4, rfl, follows.tables, follows.windowPt,
    follows.fresh⟩

/-- The page that has changed is invalidated. -/
theorem Follows.invlpg (follows : Follows layout (∅ ∪ {page}) cpu state)
    (isPage : IsPage page) : Follows layout ∅ (invlpg cpu page) state := by
  have settled := follows.settle
  have same : pageOf page = page := by
    have aligned := isPage.aligned
    have bound := page.isLt
    apply BitVec.eq_of_toNat_eq
    rw [pageOf, BitVec.toNat_ofNat]
    omega
  refine ⟨settled.mem, settled.pml4, settled.first, settled.tables,
    settled.windowPt, ?_⟩
  rw [Tlb.invlpg, same]
  exact settled.fresh.invalidate_changed

end Accesses

/-! ## The window -/

/-- The window shows `frame`, to the processor as in the model. -/
structure Sees (layout : Layout) (stale : Set Word) (cpu : Processor)
    (state : Mapper) (frame : Word) : Prop
    extends Follows layout stale cpu state where
  isFrame : IsFrame frame
  base : state.windowBase = frame
  offset : state.physWindow = 0#64
  pointer : cpu.physWindow = physWindowPages layout
  shown :
    ∃ flags, pageWalk state.mem state.pml4.toNat (physWindowPages layout) =
      some (frame, flags)

section Looks

variable {layout : Layout} {stale changed : Set Word} {cpu : Processor}
  {state : Mapper} {phys frame value : Word} {memory : Memory}
  {root page count offset : Nat}

theorem Tables.leafTable_slot (tables : Tables layout memory root)
    (index : Index) :
    leafTable memory root (bootPage index) = some layout.windowPt := by
  rw [leafTable, bootPage_path.1]
  exact tables.window

/-- Another frame for a window page. -/
theorem ChangesOnly.of_slot (tables : Tables layout memory root)
    (inside : page < layout.windowSize) (value : Word) :
    ChangesOnly layout root {bootPage (slotIndex layout page)} memory
      (writeWord memory (slotAddress layout page) value) := by
  have changes := ChangesOnly.of_leaf tables isPage_bootPage
    (Tables.leafTable_slot tables (slotIndex layout page)) value
  rwa [bootPage_path.2, slotAddress_eq inside] at changes

theorem writeSlots_follows (follows : Follows layout ∅ cpu state)
    (alignedPhys : Word) (inside : count ≤ layout.windowSize) :
    ∃ cpu', writeSlots layout alignedPhys cpu count = .ok cpu' ∧
      Follows layout ∅ cpu'
        { state with
          mem := Window.writeSlots layout alignedPhys state.mem count } := by
  induction count with
  | zero => exact ⟨cpu, rfl, follows⟩
  | succ page inductionHypothesis =>
      obtain ⟨before, written, follows⟩ := inductionHypothesis (by omega)
      have lower := layout.windowPt_bounded
      have upper := layout.windowSize_le
      have positive := layout.windowSize_pos
      obtain ⟨flags, walked⟩ := follows.windowPt
      have isPage : IsPage (physWindowPt layout) := by
        rw [physWindowPt_eq]
        exact isPage_bootPage
      have small : 8 * (pageTableSize - layout.windowSize + page) + 8 ≤
          4096 := by
        rw [pageTableSize]
        omega
      have stored := follows.store isPage (Set.notMem_empty _) walked small
        ((alignedPhys + (BitVec.ofNat 64 page <<< 12)) ||| pagePBit |||
          pageRwBit)
      have address : (BitVec.ofNat 64 layout.windowPt).toNat +
          8 * (pageTableSize - layout.windowSize + page) =
          slotAddress layout page := by
        rw [BitVec.toNat_ofNat, slotAddress, Nat.mod_eq_of_lt (by omega)]
      rw [address] at stored
      have changes := ChangesOnly.of_slot follows.tables
        (by omega : page < layout.windowSize)
        ((alignedPhys + (BitVec.ofNat 64 page <<< 12)) ||| pagePBit |||
          pageRwBit)
      have changed := follows.settle.change changes (by
        rw [physWindowPt_eq]
        exact physWindowPt_ne_windowPage (by omega))
      refine ⟨_, ?_, changed.invlpg isPage_bootPage⟩
      rw [writeSlots, written, ← windowPage_eq (by omega)]
      simp only [bind, Except.bind, stored]
      rfl

/-- `phys_look` with a frame. -/
theorem physLook_sees (follows : Follows layout ∅ cpu state)
    (isFrame : IsFrame phys) :
    ∃ cpu', physLook layout cpu phys = .ok cpu' ∧
      Sees layout ∅ cpu' (Window.physLook layout state phys) phys := by
  obtain ⟨written, writtenEq, after⟩ :=
    writeSlots_follows follows (pageAddrBits &&& phys) (Nat.le_refl _)
  have base := physLook_windowBase layout state isFrame
  have masked : pageAddrBits &&& phys = phys := base
  refine ⟨{ written with
    physWindow := phys - (pageAddrBits &&& phys) + physWindowPages layout },
    ?_, ?_⟩
  · rw [physLook]
    simp only [writtenEq, bind, Except.bind]
    rfl
  have tables : Tables layout (Window.physLook layout state phys).mem
      state.pml4.toNat := after.tables
  have slot : readWord (Window.physLook layout state phys).mem
      (slotAddress layout 0) = phys ||| pagePBit ||| pageRwBit := by
    have value := @readWord_slot layout state phys 0 layout.windowSize_pos
    rw [masked] at value
    exact value.trans (by rw [show BitVec.ofNat 64 0 <<< 12 = 0#64 from rfl,
      BitVec.add_zero])
  refine ⟨⟨after.mem, after.pml4, after.first, after.tables, after.windowPt,
    after.fresh⟩, isFrame, base, physLook_physWindow layout state isFrame, ?_,
    ?_⟩
  · show phys - (pageAddrBits &&& phys) + physWindowPages layout = _
    rw [masked, BitVec.sub_self, BitVec.zero_add]
  · have entry : leafEntry (Window.physLook layout state phys).mem
        state.pml4.toNat (physWindowPages layout) =
        some (phys ||| pagePBit ||| pageRwBit) := by
      rw [physWindowPages_eq, leafEntry_of_leafTable
        (Tables.leafTable_slot tables _), bootPage_path.2, readEntry,
        slotAddress_eq layout.windowSize_pos, slot]
    have isPage : IsPage (physWindowPages layout) := by
      rw [physWindowPages_eq]
      exact isPage_bootPage
    have present : Has (phys ||| pagePBit ||| pageRwBit) pagePBit :=
      has_or.mpr (Or.inl (has_or.mpr (Or.inr (by decide))))
    have leads : frameOf (phys ||| pagePBit ||| pageRwBit) = phys := by
      rw [frameOf_or, frameOf_or, frameOf_of_isFrame isFrame,
        show frameOf pagePBit = 0#64 by decide,
        show frameOf pageRwBit = 0#64 by decide, BitVec.or_zero,
        BitVec.or_zero]
    refine ⟨(phys ||| pagePBit ||| pageRwBit) &&& ptFlagsMask, ?_⟩
    rw [pageWalk, if_pos isPage]
    show translation (Window.physLook layout state phys).mem state.pml4.toNat
      _ = _
    rw [translation_of_leafEntry entry, if_pos present, leads]

/-- A window page is not stale. -/
theorem Sees.isPage_window (_ : Sees layout stale cpu state frame) :
    IsPage (physWindowPages layout) := by
  rw [physWindowPages_eq]
  exact isPage_bootPage

/-- Read through the window. -/
theorem Sees.load (sees : Sees layout stale cpu state frame)
    (notStale : physWindowPages layout ∉ stale)
    (inside : offset + 8 ≤ 4096) :
    load cpu (cpu.physWindow + BitVec.ofNat 64 offset) =
        .ok (readWord state.mem (frame.toNat + offset), cpu.settle) ∧
      Sees layout stale cpu.settle state frame := by
  obtain ⟨flags, walked⟩ := sees.shown
  refine ⟨?_, ⟨sees.toFollows.settle, sees.isFrame, sees.base, sees.offset,
    sees.pointer, sees.shown⟩⟩
  rw [sees.pointer]
  exact sees.toFollows.load sees.isPage_window notStale walked inside

/-- Store through the window. -/
theorem Sees.store (sees : Sees layout stale cpu state frame)
    (notStale : physWindowPages layout ∉ stale)
    (inside : offset + 8 ≤ 4096)
    (changes : ChangesOnly layout state.pml4.toNat changed state.mem
      (writeWord state.mem (frame.toNat + offset) value))
    (sparedTable : physWindowPt layout ∉ changed)
    (sparedWindow : physWindowPages layout ∉ changed) :
    ∃ cpu', store cpu (cpu.physWindow + BitVec.ofNat 64 offset) value =
        .ok cpu' ∧ cpu'.physWindow = cpu.physWindow ∧
      Sees layout (stale ∪ changed) cpu'
        (putWord state (frame.toNat + offset) value) frame := by
  obtain ⟨flags, walked⟩ := sees.shown
  have stored := sees.toFollows.store sees.isPage_window notStale walked inside
    value
  rw [← sees.pointer] at stored
  exact ⟨_, stored, rfl, sees.toFollows.settle.change changes sparedTable,
    sees.isFrame, sees.base, sees.offset, sees.pointer,
    ⟨flags, (changes.same _ sparedWindow).trans walked⟩⟩

/-- A store that changes no translation. -/
theorem Sees.put (sees : Sees layout ∅ cpu state frame)
    (inside : offset + 8 ≤ 4096)
    (changes : ChangesOnly layout state.pml4.toNat ∅ state.mem
      (writeWord state.mem (frame.toNat + offset) value)) :
    ∃ cpu', Tlb.store cpu (cpu.physWindow + BitVec.ofNat 64 offset) value =
        .ok cpu' ∧ cpu'.physWindow = cpu.physWindow ∧
      Sees layout ∅ cpu' (putWord state (frame.toNat + offset) value) frame := by
  have stored := sees.store (Set.notMem_empty _) inside changes
    (Set.notMem_empty _) (Set.notMem_empty _)
  rwa [Set.union_empty] at stored

end Looks

/-! ## The free list -/

section Frames

variable {layout : Layout} {cpu : Processor} {state state' : Mapper}
  {page frame size next length : Word} {frames : List Nat} {memory : Memory}
  {root offset table : Nat}

/-- A word in a frame that is no table. -/
theorem ChangesOnly.of_frame (tables : Tables layout memory root)
    (isFrame : IsFrame frame) (notTable : ¬ IsTable memory root frame.toNat)
    (inside : offset + 8 ≤ 4096) (value : Word) :
    ChangesOnly layout root ∅ memory
      (writeWord memory (frame.toNat + offset) value) := by
  refine ChangesOnly.of_untouched tables (agreeOff_writeWord _ _ _) ?_
  intro table isTable
  refine (frames_disjoint ((isFrame_iff frame).mp isFrame).1
    (isTable.bounds tables.tree).1
    (fun equal => notTable (equal ▸ isTable)) ?_ ?_).symm
  · exact Nat.le_add_right _ _
  · omega

/-- Moving the window moves no table. -/
theorem isTable_physLook (tables : Tables layout state.mem state.pml4.toNat)
    (phys : Word) :
    IsTable (Window.physLook layout state phys).mem state.pml4.toNat table ↔
      IsTable state.mem state.pml4.toNat table :=
  (KeepsPages.of_slots tables
    (agreeOff_physLook layout state phys)).isTable_iff

theorem storeHeader_sees (sees : Sees layout ∅ cpu state frame)
    (notTable : ¬ IsTable state.mem state.pml4.toNat frame.toNat)
    (size next : Word) :
    ∃ cpu', storeHeader cpu size next = .ok cpu' ∧
      Sees layout ∅ cpu'
        { state with mem := putHeader state.mem frame.toNat size next }
        frame := by
  have first := ChangesOnly.of_frame sees.tables sees.isFrame notTable
    (by decide : 0 + 8 ≤ 4096) size
  obtain ⟨sized, sizedEq, pointer, seesSized⟩ := sees.put (by decide) first
  have notTable' : ¬ IsTable (writeWord state.mem (frame.toNat + 0) size)
      state.pml4.toNat frame.toNat := fun isTable =>
    notTable ((isTable_congr first.walk_eq).mp isTable)
  have second := ChangesOnly.of_frame first.tables sees.isFrame notTable'
    (by decide : 8 + 8 ≤ 4096) next
  obtain ⟨linked, linkedEq, -, seesLinked⟩ :=
    seesSized.put (by decide) second
  refine ⟨linked, ?_, seesLinked⟩
  rw [BitVec.add_zero] at sizedEq
  rw [storeHeader]
  simp only [sizedEq, bind, Except.bind]
  exact linkedEq

/-- `add_phys_mem` of a block that begins with no table. -/
theorem addPhysMem_follows (follows : Follows layout ∅ cpu state)
    (isFrame : IsFrame page)
    (notTable : ¬ IsTable state.mem state.pml4.toNat page.toNat)
    (added : FrameAllocator.addPhysMem layout state page length =
      .ok state') :
    ∃ cpu', addPhysMem layout cpu page length = .ok cpu' ∧
      Follows layout ∅ cpu' state' := by
  obtain ⟨looking, lookedEq, sees⟩ := physLook_sees follows isFrame
  obtain ⟨stored, storedEq, sees'⟩ := storeHeader_sees sees
    (fun isTable => notTable ((isTable_physLook follows.tables page).mp isTable))
    (length / 4096#64) state.firstFreeBlock
  have first : looking.firstFreeBlock = state.firstFreeBlock := sees.first
  rw [addPhysMem_eq isFrame] at added
  cases added
  refine ⟨_, ?_, sees'.toFollows.setFirst page⟩
  rw [addPhysMem]
  simp only [lookedEq, bind, Except.bind, first, storedEq]
  rfl

/-- `free_page` of a frame that is no table. -/
theorem freePage_follows (follows : Follows layout ∅ cpu state)
    (isFrame : IsFrame page)
    (notTable : ¬ IsTable state.mem state.pml4.toNat page.toNat)
    (freed : FrameAllocator.freePage layout state page = .ok state') :
    ∃ cpu', freePage layout cpu page = .ok cpu' ∧
      Follows layout ∅ cpu' state' := by
  obtain ⟨looking, lookedEq, sees⟩ := physLook_sees follows isFrame
  obtain ⟨stored, storedEq, sees'⟩ := storeHeader_sees sees
    (fun isTable => notTable ((isTable_physLook follows.tables page).mp isTable))
    1#64 state.firstFreeBlock
  have first : looking.firstFreeBlock = state.firstFreeBlock := sees.first
  rw [freePage_eq isFrame] at freed
  cases freed
  refine ⟨_, ?_, sees'.toFollows.setFirst page⟩
  rw [freePage]
  simp only [lookedEq, bind, Except.bind, first, storedEq]
  rfl

/-- The header of the first free block is read. -/
theorem load_header (sees : Sees layout ∅ cpu state frame) :
    ∃ cpu', load cpu cpu.physWindow =
        .ok (readWord state.mem frame.toNat, cpu.settle) ∧
      load cpu.settle (cpu.settle.physWindow + 8#64) =
        .ok (readWord state.mem (frame.toNat + 8), cpu') ∧
      Sees layout ∅ cpu' state frame := by
  obtain ⟨sizeEq, sees'⟩ := sees.load (Set.notMem_empty _)
    (by decide : 0 + 8 ≤ 4096)
  obtain ⟨nextEq, sees''⟩ := sees'.load (Set.notMem_empty _)
    (by decide : 8 + 8 ≤ 4096)
  rw [BitVec.add_zero] at sizeEq
  exact ⟨_, sizeEq, nextEq, sees''⟩

/-- `alloc_page`, where no table is free. -/
theorem allocPage_follows (follows : Follows layout ∅ cpu state)
    (free : FreeList state.mem state.firstFreeBlock frames)
    (unused : ∀ table, IsTable state.mem state.pml4.toNat table →
      table ∉ frames)
    (allocated : FrameAllocator.allocPage layout state = .ok (page, state')) :
    ∃ cpu', allocPage layout cpu = .ok (page, cpu') ∧
      Follows layout ∅ cpu' state' := by
  have isFrame := free.isFrame_first
  obtain ⟨nonempty, rfl, -⟩ := allocPage_popped isFrame allocated
  obtain ⟨looking, lookedEq, sees⟩ := physLook_sees follows isFrame
  obtain ⟨loaded, sizeEq, nextEq, sees'⟩ := load_header sees
  by_cases single :
      readWord (Window.physLook layout state state.firstFreeBlock).mem
        state.firstFreeBlock.toNat = 1#64
  · rw [allocPage_single nonempty isFrame single] at allocated
    cases allocated
    refine ⟨_, ?_, sees'.toFollows.setFirst _⟩
    simp only [allocPage, follows.first, nonempty, if_false, lookedEq, bind,
      Except.bind, sizeEq, nextEq, single, if_true]
    rfl
  · obtain ⟨first, rest, rfl⟩ := List.exists_cons_of_ne_nil
      fun nil => nonempty (free.first_eq_zero_iff.mpr nil)
    have firstEq := free.first_eq
    have several : headerSize state.mem first ≠ 1 := by
      intro one
      refine single (BitVec.eq_of_toNat_eq ?_)
      rw [readWord_header_physLook layout state _
        (free.bounds List.mem_cons_self).2.1 (Or.inl firstEq), firstEq]
      exact one
    obtain ⟨others, restEq⟩ := free.second_frame several
    have member : first + 4096 ∈ first :: rest := by
      rw [restEq]
      exact List.mem_cons_of_mem _ List.mem_cons_self
    have bounds := free.bounds member
    have above : (state.firstFreeBlock + 4096#64).toNat = first + 4096 := by
      rw [BitVec.toNat_add, firstEq, BitVec.toNat_ofNat]
      omega
    have aboveFrame : IsFrame (state.firstFreeBlock + 4096#64) := by
      rw [isFrame_iff, above]
      omega
    rw [allocPage_several nonempty isFrame aboveFrame single] at allocated
    cases allocated
    have moved := sees'.toFollows.setFirst (state.firstFreeBlock + 4096#64)
    obtain ⟨second, secondEq, seesSecond⟩ := physLook_sees moved aboveFrame
    have notTable : ¬ IsTable
        (Window.physLook layout
          { Window.physLook layout state state.firstFreeBlock with
            firstFreeBlock := state.firstFreeBlock + 4096#64 }
          (state.firstFreeBlock + 4096#64)).mem state.pml4.toNat
        (state.firstFreeBlock + 4096#64).toNat := by
      intro isTable
      have before := (isTable_physLook moved.tables
        (state.firstFreeBlock + 4096#64)).mp isTable
      have start := (isTable_physLook follows.tables
        state.firstFreeBlock).mp before
      rw [above] at start
      exact unused _ start member
    obtain ⟨stored, storedEq, seesStored⟩ := storeHeader_sees seesSecond
      notTable
      (readWord (Window.physLook layout state state.firstFreeBlock).mem
        state.firstFreeBlock.toNat - 1#64)
      (readWord (Window.physLook layout state state.firstFreeBlock).mem
        (state.firstFreeBlock.toNat + 8))
    have sameFirst : loaded.firstFreeBlock = state.firstFreeBlock := sees'.first
    refine ⟨stored, ?_, seesStored.toFollows⟩
    simp only [allocPage, follows.first, nonempty, if_false, lookedEq, bind,
      Except.bind, sizeEq, nextEq, single, sameFirst, secondEq, storedEq]
    rfl

end Frames

end BeaverOS.Tlb
