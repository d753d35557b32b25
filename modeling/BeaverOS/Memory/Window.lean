import BeaverOS.Memory.Paging

/-!
# The physical window

The kernel reaches physical memory through a few consecutive virtual pages, the
window. `phys_look` rewrites the page-table slots of these pages, so that the
window shows the physical memory around a given address, and every table and
every free-block header is read and written through the pointer that it leaves
behind. A pointer computed before a later `phys_look` denotes other memory
after it; the model therefore keeps pointers as offsets into the window and
resolves them against the window's current position.
-/

namespace BeaverOS.Window

open BeaverOS.ByteMemory
open BeaverOS.Paging

/-- Why the kernel stops: `PANIC`, a failed `ASSERT`, or an access outside the
mapped window. -/
inductive Halt where
  | panic (message : String)
  | assertion (expression : String)
  | fault
  deriving DecidableEq, Repr

/-- What the linker script and the loader fix: the physical frame mapped at
`_phys_window_pt`, and the number of window pages `_phys_window_size`. The
window pages are the last pages that this page table translates. -/
structure Layout where
  windowPt : Nat
  windowSize : Nat
  windowPt_aligned : windowPt % 4096 = 0
  windowPt_bounded : windowPt < 2 ^ 52
  windowSize_pos : 0 < windowSize
  windowSize_le : windowSize ≤ 500

theorem fourPages_pos : 0 < 4 := by decide

theorem fourPages_le : 4 ≤ 500 := by decide

/-- The state of `memory/mapper.c`, with physical memory and the position of
the window. -/
structure Mapper where
  mem : Memory
  /-- The physical address that the first window page shows. -/
  windowBase : Word
  /-- `_phys_window`, as an offset from `_phys_window_pages`. -/
  physWindow : Word
  pml4 : Word
  firstFreeBlock : Word

/-- The entry of the window's page table for window page `page`. -/
def slotAddress (layout : Layout) (page : Nat) : Nat :=
  layout.windowPt + 8 * (pageTableSize - layout.windowSize + page)

/-- The loop of `phys_look` up to window page `count`. -/
def writeSlots (layout : Layout) (alignedPhys : Word) (memory : Memory) :
    Nat → Memory
  | 0 => memory
  | page + 1 =>
      writeWord (writeSlots layout alignedPhys memory page)
        (slotAddress layout page)
        ((alignedPhys + (BitVec.ofNat 64 page <<< 12)) ||| pagePBit |||
          pageRwBit)

/-- `phys_look`. -/
def physLook (layout : Layout) (state : Mapper) (phys : Word) : Mapper :=
  let alignedPhys := pageAddrBits &&& phys
  { state with
    mem := writeSlots layout alignedPhys state.mem layout.windowSize
    windowBase := alignedPhys
    physWindow := phys - alignedPhys }

/-- The physical address behind `count` bytes at a window pointer. -/
def windowAddress (layout : Layout) (state : Mapper) (pointer : Word)
    (count : Nat) : Except Halt Nat :=
  if pointer.toNat + count ≤ pageSize * layout.windowSize then
    .ok ((state.windowBase.toNat + pointer.toNat) % 2 ^ 52)
  else
    .error .fault

/-- Read a word through the window. -/
def load (layout : Layout) (state : Mapper) (pointer : Word) :
    Except Halt Word :=
  (windowAddress layout state pointer 8).map (readWord state.mem)

/-- Store a word through the window. -/
def store (layout : Layout) (state : Mapper) (pointer value : Word) :
    Except Halt Mapper :=
  (windowAddress layout state pointer 8).map fun address =>
    { state with mem := writeWord state.mem address value }

/-- `memset` through the window. -/
def memset (layout : Layout) (state : Mapper) (pointer : Word)
    (byte : BitVec 8) (count : Nat) : Except Halt Mapper :=
  (windowAddress layout state pointer count).map fun address =>
    { state with mem := fill state.mem address count byte }

/-! ## What `phys_look` changes -/

section Look

variable {layout : Layout} {state : Mapper} {phys : Word}

/-- The bytes of the window's own page-table slots. -/
def slotCells (layout : Layout) : Set Nat :=
  cells (slotAddress layout 0) (8 * layout.windowSize)

theorem slotCells_subset_windowPt :
    slotCells layout ⊆ cells layout.windowPt pageSize := by
  intro cell member
  rw [slotCells, mem_cells] at member
  rw [mem_cells]
  have bound := layout.windowSize_le
  simp only [slotAddress, pageTableSize, pageSize] at *
  omega

private theorem agreeOff_writeSlots (alignedPhys : Word) (memory : Memory) :
    ∀ count, count ≤ layout.windowSize →
      AgreeOff (slotCells layout)
        (writeSlots layout alignedPhys memory count) memory
  | 0, _ => AgreeOff.refl _ _
  | page + 1, bound => by
      have step :=
        agreeOff_writeWord (writeSlots layout alignedPhys memory page)
          (slotAddress layout page)
          ((alignedPhys + (BitVec.ofNat 64 page <<< 12)) ||| pagePBit |||
            pageRwBit)
      refine (step.mono ?_).trans
        (agreeOff_writeSlots alignedPhys memory page (by omega))
      intro cell member
      rw [mem_cells] at member
      rw [slotCells, mem_cells]
      simp only [slotAddress] at *
      omega

theorem agreeOff_physLook (layout : Layout) (state : Mapper) (phys : Word) :
    AgreeOff (slotCells layout) (physLook layout state phys).mem state.mem :=
  agreeOff_writeSlots _ _ _ (Nat.le_refl _)

/-- A slot shows its page of the memory looked at. -/
theorem readWord_slot {page : Nat} (inside : page < layout.windowSize) :
    readWord (physLook layout state phys).mem (slotAddress layout page) =
      ((pageAddrBits &&& phys) + (BitVec.ofNat 64 page <<< 12)) |||
        pagePBit ||| pageRwBit := by
  have prefixed : ∀ count, page < count →
      readWord (writeSlots layout (pageAddrBits &&& phys) state.mem count)
          (slotAddress layout page) =
        ((pageAddrBits &&& phys) + (BitVec.ofNat 64 page <<< 12)) |||
          pagePBit ||| pageRwBit := by
    intro count
    induction count with
    | zero => intro bound; omega
    | succ count inductionHypothesis =>
        intro bound
        rw [writeSlots]
        by_cases last : page = count
        · rw [last, readWord_writeWord_same]
        · rw [readWord_writeWord_of_disjoint
            (by simp only [slotAddress]; omega)]
          exact inductionHypothesis (by omega)
  exact prefixed layout.windowSize inside

@[simp]
theorem physLook_pml4 : (physLook layout state phys).pml4 = state.pml4 := rfl

@[simp]
theorem physLook_firstFreeBlock :
    (physLook layout state phys).firstFreeBlock = state.firstFreeBlock := rfl

theorem physLook_windowBase (layout : Layout) (state : Mapper)
    (frame : IsFrame phys) :
    (physLook layout state phys).windowBase = phys := by
  have masked := frameOf_of_isFrame frame
  rw [frameOf, BitVec.and_comm] at masked
  exact masked

theorem physLook_physWindow (layout : Layout) (state : Mapper)
    (frame : IsFrame phys) :
    (physLook layout state phys).physWindow = 0#64 := by
  have masked := frameOf_of_isFrame frame
  rw [frameOf, BitVec.and_comm] at masked
  simp only [physLook, masked, BitVec.sub_self]

end Look

/-! ## The window at an address -/

/-- The window shows the memory at `phys`, and `_phys_window` points to it. -/
structure Looks (state : Mapper) (phys : Word) : Prop where
  base : state.windowBase = pageAddrBits &&& phys
  offset : state.physWindow = phys - (pageAddrBits &&& phys)

section At

variable {state : Mapper} {phys : Word}

theorem looks_physLook (layout : Layout) (state : Mapper) (phys : Word) :
    Looks (physLook layout state phys) phys :=
  ⟨rfl, rfl⟩

theorem Looks.toNat_base (looks : Looks state phys) :
    state.windowBase.toNat = phys.toNat % 2 ^ 52 / 4096 * 4096 := by
  have aligned := toNat_frameOf phys
  rw [frameOf, BitVec.and_comm] at aligned
  rw [looks.base, aligned]

theorem Looks.toNat_physWindow (looks : Looks state phys)
    (fits : phys.toNat < 2 ^ 52) :
    state.physWindow.toNat = phys.toNat % 4096 := by
  have aligned := toNat_frameOf phys
  rw [frameOf, BitVec.and_comm] at aligned
  have bound := phys.isLt
  rw [looks.offset, BitVec.toNat_sub, aligned]
  omega

/-- What `_phys_window` points to, as far as the window goes. -/
theorem Looks.windowAddress {offset : Word} {layout : Layout} {count : Nat}
    (looks : Looks state phys) (positive : 0 < count)
    (fits : phys.toNat + offset.toNat + count ≤ 2 ^ 52)
    (inside : phys.toNat % 4096 + offset.toNat + count ≤
      4096 * layout.windowSize) :
    windowAddress layout state (state.physWindow + offset) count =
      .ok (phys.toNat + offset.toNat) := by
  have base := looks.toNat_base
  have pointer := looks.toNat_physWindow (by omega)
  have bound := offset.isLt
  have sum : (state.physWindow + offset).toNat =
      phys.toNat % 4096 + offset.toNat := by
    rw [BitVec.toNat_add, pointer]
    omega
  rw [Window.windowAddress, sum, if_pos (by rw [pageSize]; omega), base]
  congr 1
  omega

end At

/-! ## Accesses through a window that shows one frame -/

section Access

variable {layout : Layout} {state : Mapper} {frame pointer value : Word}

theorem windowAddress_eq {count : Nat}
    (base : state.windowBase = frame) (isFrame : IsFrame frame)
    (inside : pointer.toNat + count ≤ 4096) (positive : 0 < count) :
    windowAddress layout state pointer count =
      .ok (frame.toNat + pointer.toNat) := by
  obtain ⟨aligned, bounded⟩ := (isFrame_iff frame).mp isFrame
  have windowed : pointer.toNat + count ≤ pageSize * layout.windowSize := by
    have := layout.windowSize_pos
    calc pointer.toNat + count ≤ 4096 * 1 := by omega
      _ ≤ pageSize * layout.windowSize := Nat.mul_le_mul_left 4096 this
  rw [windowAddress, if_pos windowed, base, Nat.mod_eq_of_lt (by omega)]

theorem load_eq (pointer : Word)
    (base : state.windowBase = frame) (isFrame : IsFrame frame)
    (inside : pointer.toNat + 8 ≤ 4096) :
    load layout state pointer =
      .ok (readWord state.mem (frame.toNat + pointer.toNat)) := by
  rw [load, windowAddress_eq base isFrame inside (by decide)]
  rfl

theorem store_eq (layout : Layout) (pointer value : Word)
    (base : state.windowBase = frame) (isFrame : IsFrame frame)
    (inside : pointer.toNat + 8 ≤ 4096) :
    store layout state pointer value =
      .ok { state with
        mem := writeWord state.mem (frame.toNat + pointer.toNat) value } := by
  rw [store, windowAddress_eq base isFrame inside (by decide)]
  rfl

/-- The pointer to the entry of `virt` in the table the window shows. -/
def entryPointer (virt : Word) (low : Nat) : Word :=
  0#64 + 8#64 * bits virt low (low + 9)

theorem toNat_entryPointer (virt : Word) (low : Nat) :
    (entryPointer virt low).toNat = 8 * (indexAt virt low).val := by
  have bound := (indexAt virt low).isLt
  have index := toNat_bits_eq_index virt low
  rw [entryPointer, BitVec.zero_add, BitVec.toNat_mul, index]
  simp only [BitVec.toNat_ofNat]
  omega

theorem load_entry {virt : Word} {low : Nat}
    (base : state.windowBase = frame) (isFrame : IsFrame frame) :
    load layout state (entryPointer virt low) =
      .ok (readEntry state.mem frame.toNat (indexAt virt low)) := by
  have bound := (indexAt virt low).isLt
  have pointer := toNat_entryPointer virt low
  rw [load_eq _ base isFrame (by omega), pointer]
  rfl

/-- The state after a word of physical memory is stored. -/
def putWord (state : Mapper) (address : Nat) (value : Word) : Mapper :=
  { state with mem := writeWord state.mem address value }

@[simp]
theorem putWord_mem {address : Nat} :
    (putWord state address value).mem = writeWord state.mem address value :=
  rfl

@[simp]
theorem putWord_windowBase {address : Nat} :
    (putWord state address value).windowBase = state.windowBase := rfl

@[simp]
theorem putWord_physWindow {address : Nat} :
    (putWord state address value).physWindow = state.physWindow := rfl

@[simp]
theorem putWord_pml4 {address : Nat} :
    (putWord state address value).pml4 = state.pml4 := rfl

theorem putWord_putWord {address : Nat} {second : Word} :
    putWord (putWord state address value) address second =
      putWord state address second := by
  simp only [putWord, writeWord_writeWord_same]

theorem store_entry {virt : Word} {low : Nat}
    (base : state.windowBase = frame) (isFrame : IsFrame frame) :
    store layout state (entryPointer virt low) value =
      .ok (putWord state
        (entryAddress frame.toNat (indexAt virt low)) value) := by
  have bound := (indexAt virt low).isLt
  have pointer := toNat_entryPointer virt low
  rw [store_eq _ _ _ base isFrame (by omega), pointer]
  rfl

/-- Reading back an entry through an unmoved window. -/
theorem load_entry_putWord {virt : Word} {low : Nat}
    (base : state.windowBase = frame) (isFrame : IsFrame frame) :
    load layout
        (putWord state (entryAddress frame.toNat (indexAt virt low)) value)
        (entryPointer virt low) = .ok value := by
  have stored :
      (putWord state (entryAddress frame.toNat (indexAt virt low))
        value).windowBase = frame := base
  rw [load_entry stored isFrame, readEntry, putWord_mem,
    readWord_writeWord_same]

end Access

end BeaverOS.Window
