import BeaverOS.Isr.Entry

/-!
# Interrupt dispatch

`isr/idt/idt.c` and the tables of `isr/idt/default.s`: the gates that `isr_init`
installs, the table of handlers that `install_isr` changes, and what happens
between an interrupt and its handler. The stubs are linked at any addresses.
-/

namespace BeaverOS.Isr

open BeaverOS.ByteMemory
open BeaverOS.StackMachine

/-! ## The tables -/

section Tables

variable (link : Nat → Word)

/-- `GEN_ISR_PTR`. -/
def genIsrPtr (n to' : Nat) : List Word :=
  (List.range' n (to' - n)).map link

/-- `GEN_PTR`. -/
def genPtr (n to' : Nat) (val : Word) : List Word :=
  List.replicate (to' - n) val

/-- `_isr_table`, where `.isr_n` is linked at `link n`. -/
def isrTable : List Word :=
  genIsrPtr link 0 9 ++ genPtr 9 10 0 ++ genIsrPtr link 10 15 ++
    genPtr 15 16 0 ++ genIsrPtr link 16 20 ++ genPtr 20 30 0 ++
    genIsrPtr link 30 31 ++ genPtr 31 32 0 ++ genIsrPtr link 32 64 ++
    genIsrPtr link 64 128 ++ genIsrPtr link 128 192 ++ genIsrPtr link 192 256

end Tables

/-- `_c_isr_table`, as it is linked. -/
def cIsrTable (defaultCIsr : Word) : List Word :=
  genPtr 0 64 defaultCIsr ++ genPtr 64 128 defaultCIsr ++
    genPtr 128 192 defaultCIsr ++ genPtr 192 256 defaultCIsr

/-- `interrupt_descriptor_t`. -/
structure InterruptDescriptor where
  offset1 : BitVec 16
  segSel : BitVec 16
  ist : BitVec 3
  mbz1 : BitVec 5
  type : BitVec 4
  mbz2 : BitVec 1
  dpl : BitVec 2
  present : BitVec 1
  offset2 : BitVec 16
  offset3 : BitVec 32
  mbz3 : BitVec 32

/-- The 16 bytes of a descriptor. -/
def InterruptDescriptor.pack (desc : InterruptDescriptor) : BitVec 128 :=
  desc.mbz3 ++ (desc.offset3 ++ (desc.offset2 ++ (desc.present ++
    (desc.dpl ++ (desc.mbz2 ++ (desc.type ++ (desc.mbz1 ++ (desc.ist ++
      (desc.segSel ++ desc.offset1)))))))))

/-- The descriptor that `install_asm_isr` stores. -/
def asmIsr (isr : Word) : InterruptDescriptor where
  offset1 := (isr &&& 0xffff#64).setWidth 16
  segSel := 8
  ist := 0
  mbz1 := 0
  type := 0xE
  mbz2 := 0
  dpl := 0
  present := 1
  offset2 := ((isr &&& 0xffff0000#64) >>> 16).setWidth 16
  offset3 := ((isr &&& 0xffffffff00000000#64) >>> 32).setWidth 32
  mbz3 := 0

/-- `install_asm_isr`. -/
def installAsmIsr (idtPage : Nat → BitVec 128) (isr : Word) (vector : Nat) :
    Nat → BitVec 128 :=
  Function.update idtPage vector (asmIsr isr).pack

/-- What `isr_init` leaves in `_idt_page`. -/
def isrInit (link : Nat → Word) : Nat → BitVec 128 :=
  (List.range 256).foldl
    (fun idtPage i => installAsmIsr idtPage ((isrTable link).getD i 0) i)
    fun _ => 0

/-- Whether the processor takes a gate for present. -/
def gatePresent (gate : BitVec 128) : Bool := gate.getLsbD 47

/-- The address that the processor assembles from a gate. -/
def gateOffset (gate : BitVec 128) : Word :=
  gate.extractLsb' 64 32 ++ (gate.extractLsb' 48 16 ++ gate.extractLsb' 0 16)

/-- The address of an entry of `_c_isr_table`. -/
def handlerAddress (table : Word) (vector : Nat) : Nat :=
  (table + 8#64 * BitVec.ofNat 64 vector).toNat

/-- `install_isr`. -/
def installIsr (table : Word) (memory : Memory) (isr : Word)
    (vector : BitVec 8) : Memory :=
  writeWord memory (handlerAddress table vector.toNat) isr

/-- The calls of `install_isr` one after another. -/
def installAll (table : Word) (memory : Memory)
    (installs : List (Word × BitVec 8)) : Memory :=
  installs.foldl
    (fun memory install => installIsr table memory install.1 install.2) memory

/-- The handler of the last call for a vector, or the one that is linked. -/
def lastInstalled (defaultCIsr : Word) (vector : Nat) :
    List (Word × BitVec 8) → Word
  | [] => defaultCIsr
  | install :: installs =>
      lastInstalled (if install.2.toNat = vector then install.1 else defaultCIsr)
        vector installs

section Gates

variable {link : Nat → Word} {isr : Word} {vector : Nat}

theorem pack_offset1 (desc : InterruptDescriptor) :
    desc.pack.extractLsb' 0 16 = desc.offset1 := by
  rw [InterruptDescriptor.pack]
  iterate 9 refine (BitVec.extractLsb'_append_eq_of_add_le (by decide)).trans ?_
  exact BitVec.extractLsb'_append_eq_right

theorem pack_offset2 (desc : InterruptDescriptor) :
    desc.pack.extractLsb' 48 16 = desc.offset2 := by
  rw [InterruptDescriptor.pack]
  iterate 2 refine (BitVec.extractLsb'_append_eq_of_add_le (by decide)).trans ?_
  exact BitVec.extractLsb'_append_eq_left

theorem pack_offset3 (desc : InterruptDescriptor) :
    desc.pack.extractLsb' 64 32 = desc.offset3 := by
  rw [InterruptDescriptor.pack]
  refine (BitVec.extractLsb'_append_eq_of_add_le (by decide)).trans ?_
  exact BitVec.extractLsb'_append_eq_left

theorem pack_present (desc : InterruptDescriptor) :
    desc.pack.extractLsb' 47 1 = desc.present := by
  rw [InterruptDescriptor.pack]
  iterate 3 refine (BitVec.extractLsb'_append_eq_of_add_le (by decide)).trans ?_
  exact BitVec.extractLsb'_append_eq_left

/-- A mask that covers a field cuts nothing off it. -/
theorem setWidth_and_mask {word mask : Word} {start count : Nat}
    (full : (mask >>> start).setWidth count = BitVec.allOnes count) :
    ((word &&& mask) >>> start).setWidth count =
      word.extractLsb' start count := by
  rw [BitVec.ushiftRight_and_distrib, BitVec.setWidth_and, full,
    BitVec.and_allOnes]
  apply BitVec.eq_of_toNat_eq
  rw [BitVec.extractLsb'_toNat, BitVec.toNat_setWidth, BitVec.toNat_ushiftRight]

theorem gateOffset_asmIsr : gateOffset (asmIsr isr).pack = isr := by
  have unshifted : ((isr &&& 0xffff#64) >>> 0).setWidth 16 =
      isr.extractLsb' 0 16 := setWidth_and_mask (by decide)
  have low : (asmIsr isr).offset1 = isr.extractLsb' 0 16 := by
    rw [BitVec.ushiftRight_zero] at unshifted
    exact unshifted
  have middle : (asmIsr isr).offset2 = isr.extractLsb' 16 16 :=
    setWidth_and_mask (by decide)
  have high : (asmIsr isr).offset3 = isr.extractLsb' 32 32 :=
    setWidth_and_mask (by decide)
  have halves : isr.extractLsb' 16 16 ++ isr.extractLsb' 0 16 =
      isr.extractLsb' 0 32 :=
    BitVec.extractLsb'_append_extractLsb'_eq_extractLsb' rfl
  have whole : isr.extractLsb' 32 32 ++ isr.extractLsb' 0 32 =
      isr.extractLsb' 0 64 :=
    BitVec.extractLsb'_append_extractLsb'_eq_extractLsb' rfl
  rw [gateOffset, pack_offset1, pack_offset2, pack_offset3, low, middle, high,
    halves, whole]
  exact BitVec.extractLsb'_eq_self

theorem gatePresent_asmIsr : gatePresent (asmIsr isr).pack = true := by
  have present := pack_present (asmIsr isr)
  have bit := congrArg (fun field : BitVec 1 => field.getLsbD 0) present
  simpa [gatePresent, asmIsr] using bit

/-- The entry of `_isr_table` for a vector: a vector without a stub has a null
pointer. -/
def stubPointer (link : Nat → Word) (vector : Nat) : Word :=
  if (stubError vector).isSome then link vector else 0

theorem genIsrPtr_eq {n to' : Nat}
    (stubs : ((List.range' n (to' - n)).all
      fun vector => (stubError vector).isSome) = true) :
    genIsrPtr link n to' =
      (List.range' n (to' - n)).map (stubPointer link) := by
  apply List.map_congr_left
  intro vector member
  rw [stubPointer, if_pos (List.all_eq_true.mp stubs vector member)]

theorem genPtr_eq (link : Nat → Word) {n to' : Nat}
    (gap : ((List.range' n (to' - n)).all
      fun vector => (stubError vector).isNone) = true) :
    genPtr n to' 0 = (List.range' n (to' - n)).map (stubPointer link) := by
  rw [genPtr]
  symm
  apply List.eq_replicate_iff.mpr
  refine ⟨by rw [List.length_map, List.length_range'], ?_⟩
  intro pointer member
  obtain ⟨vector, inside, rfl⟩ := List.mem_map.mp member
  have none := List.all_eq_true.mp gap vector inside
  rw [stubPointer, if_neg (by simpa using none)]

theorem range'_append_range' {first middle last : Nat} (low : first ≤ middle)
    (high : middle ≤ last) :
    List.range' first (middle - first) ++ List.range' middle (last - middle) =
      List.range' first (last - first) := by
  have joined : List.range' first (middle - first) ++
      List.range' (first + (middle - first)) (last - middle) =
        List.range' first (middle - first + (last - middle)) :=
    List.range'_append_1
  rw [Nat.add_sub_of_le low] at joined
  rw [joined]
  congr 1
  omega

theorem isrTable_eq :
    isrTable link = (List.range 256).map (stubPointer link) := by
  rw [isrTable, genIsrPtr_eq (by decide), genPtr_eq link (by decide),
    genIsrPtr_eq (by decide), genPtr_eq link (by decide),
    genIsrPtr_eq (by decide), genPtr_eq link (by decide),
    genIsrPtr_eq (by decide), genPtr_eq link (by decide),
    genIsrPtr_eq (by decide), genIsrPtr_eq (by decide),
    genIsrPtr_eq (by decide), genIsrPtr_eq (by decide)]
  iterate 11 rw [← List.map_append, range'_append_range' (by decide) (by decide)]
  rw [List.range_eq_range']

theorem getD_isrTable (inside : vector < 256) :
    (isrTable link).getD vector 0 = stubPointer link vector := by
  rw [isrTable_eq, List.getD_eq_getElem?_getD, List.getElem?_map,
    List.getElem?_range inside]
  rfl

/-- Installing gates one after another installs each of them. -/
theorem foldl_installAsmIsr (pointer : Nat → Word) (count : Nat)
    (idtPage : Nat → BitVec 128) (inside : vector < count) :
    (List.range count).foldl
        (fun idtPage i => installAsmIsr idtPage (pointer i) i) idtPage vector =
      (asmIsr (pointer vector)).pack := by
  induction count with
  | zero => exact absurd inside (Nat.not_lt_zero _)
  | succ count step =>
      rw [List.range_succ, List.foldl_append, List.foldl_cons, List.foldl_nil,
        installAsmIsr]
      by_cases last : vector = count
      · rw [last, Function.update_self]
      · rw [Function.update_of_ne last]
        exact step (by omega)

theorem isrInit_eq (inside : vector < 256) :
    isrInit link vector = (asmIsr (stubPointer link vector)).pack := by
  rw [← getD_isrTable inside]
  exact foldl_installAsmIsr _ 256 _ inside

end Gates

/-! ## Handlers -/

section Handlers

variable {link : Nat → Word} {table defaultCIsr : Word} {memory : Memory}
  {installs : List (Word × BitVec 8)} {vector : Nat}

variable (table defaultCIsr memory) in
/-- `_c_isr_table` is linked at `table`, and holds its first values. -/
structure Linked : Prop where
  room : table.toNat + 8 * 256 ≤ 2 ^ 64
  holds :
    ∀ vector, vector < 256 →
      readWord memory (handlerAddress table vector) =
        (cIsrTable defaultCIsr).getD vector 0

theorem cIsrTable_eq (defaultCIsr : Word) :
    cIsrTable defaultCIsr = List.replicate 256 defaultCIsr := by
  simp only [cIsrTable, genPtr, List.replicate_append_replicate]

theorem handlerAddress_eq (room : table.toNat + 8 * 256 ≤ 2 ^ 64)
    (inside : vector < 256) :
    handlerAddress table vector = table.toNat + 8 * vector := by
  rw [handlerAddress, BitVec.toNat_add, BitVec.toNat_mul]
  simp only [BitVec.toNat_ofNat]
  omega

theorem Linked.readWord_eq (linked : Linked table defaultCIsr memory)
    (inside : vector < 256) :
    readWord memory (handlerAddress table vector) = defaultCIsr := by
  rw [linked.holds vector inside, cIsrTable_eq,
    List.getD_eq_getElem?_getD, List.getElem?_replicate_of_lt inside]
  rfl

/-- `install_isr` changes the handler of its vector and no other. -/
theorem readWord_installIsr (room : table.toNat + 8 * 256 ≤ 2 ^ 64)
    (inside : vector < 256) (isr : Word) (target : BitVec 8) :
    readWord (installIsr table memory isr target) (handlerAddress table vector) =
      if target.toNat = vector then isr
      else readWord memory (handlerAddress table vector) := by
  have targetInside := target.isLt
  rw [installIsr]
  by_cases same : target.toNat = vector
  · rw [if_pos same, same, readWord_writeWord_same]
  · rw [if_neg same]
    apply readWord_writeWord_of_disjoint
    rw [handlerAddress_eq room inside, handlerAddress_eq room targetInside]
    omega

theorem readWord_installAll (room : table.toNat + 8 * 256 ≤ 2 ^ 64)
    (inside : vector < 256) :
    readWord (installAll table memory installs) (handlerAddress table vector) =
      lastInstalled (readWord memory (handlerAddress table vector)) vector
        installs := by
  induction installs generalizing memory with
  | nil => rfl
  | cons install installs inductionHypothesis =>
      rw [lastInstalled, ← readWord_installIsr room inside]
      exact inductionHypothesis

/-- The entry for a vector lies in the table. -/
theorem cells_handlerAddress (room : table.toNat + 8 * 256 ≤ 2 ^ 64)
    (inside : vector < 256) :
    cells (handlerAddress table vector) 8 ⊆ cells table.toNat (8 * 256) := by
  intro cell member
  rw [handlerAddress_eq room inside] at member
  rw [mem_cells] at member ⊢
  omega

end Handlers

/-! ## Dispatch -/

/-- The part of a frame that `iretq` uses. -/
def InterruptFrame.returnsTo (frame : InterruptFrame) :
    Word × BitVec 16 × Word × Word × BitVec 16 :=
  (frame.rip, frame.cs, frame.rflags, frame.rsp, frame.ss)

/-- The same part of a context. -/
def Context.returnsTo (context : Context) :
    Word × BitVec 16 × Word × Word × BitVec 16 :=
  (context.rip, context.cs, context.rflags, context.registers .rsp, context.ss)

/-- At the call, the stub calls a handler with the frame of the interrupt. -/
structure Calls (handler : Word) (context : Context) (vector : Nat)
    (error : BitVec 32) (machine : Machine Register) : Prop where
  handler_eq : machine.registers .rax = handler
  vector_eq :
    (readFrame machine.memory (machine.registers .rdi)).vector =
      BitVec.ofNat 32 vector
  error_eq : (readFrame machine.memory (machine.registers .rdi)).error = error
  returns :
    ∀ handled : Machine Register,
      handled.registers .rsp = machine.registers .rsp →
        (readFrame handled.memory (handled.registers .rsp)).returnsTo =
            (readFrame machine.memory (machine.registers .rdi)).returnsTo →
          (leaveIsr handled).returnsTo = context.returnsTo

/-- The gate of a vector leads to its stub, and the stub to the handler. -/
def Dispatches (link : Nat → Word) (table defaultCIsr : Word) (memory : Memory)
    (installs : List (Word × BitVec 8)) (vector : Nat) : Prop :=
  ∃ err, stubError vector = some err ∧
    gateOffset (isrInit link vector) = link vector ∧
    ∀ (context : Context) (error : Option (BitVec 32)),
      error.isSome = pushesErrorCode vector →
        Disjoint (cells table.toNat (8 * 256))
            (belowCells (alignedRsp context) 21) →
          Calls (lastInstalled defaultCIsr vector installs) context vector
            (error.getD 0)
            (atCall table context (installAll table memory installs) vector err
              error)

section Dispatch

variable {link : Nat → Word} {table defaultCIsr : Word} {memory : Memory}
  {installs : List (Word × BitVec 8)} {vector : Nat} {err : Bool}

/-- A stub pushes a zero where the processor pushes no error code. -/
theorem stubError_eq (inside : vector < 256)
    (stub : stubError vector = some err) : err = pushesErrorCode vector := by
  have agree : ∀ vector ∈ List.range 256, ∀ err ∈ stubError vector,
      err = pushesErrorCode vector := by decide +kernel
  exact agree vector (List.mem_range.mpr inside) err stub

theorem stubError_isSome_iff (inside : vector < 256) :
    (stubError vector).isSome ↔
      ¬(vector = 9 ∨ vector = 15 ∨ (20 ≤ vector ∧ vector ≤ 29) ∨
        vector = 31) := by
  have agree : ∀ vector ∈ List.range 256, (stubError vector).isSome ↔
      ¬(vector = 9 ∨ vector = 15 ∨ (20 ≤ vector ∧ vector ≤ 29) ∨
        vector = 31) := by decide +kernel
  exact agree vector (List.mem_range.mpr inside)

theorem calls_atCall (linked : Linked table defaultCIsr memory)
    (inside : vector < 256) {context : Context} {error : Option (BitVec 32)}
    (agrees : error.isSome = err)
    (apart :
      Disjoint (cells table.toNat (8 * 256))
        (belowCells (alignedRsp context) 21)) :
    Calls (lastInstalled defaultCIsr vector installs) context vector
      (error.getD 0)
      (atCall table context (installAll table memory installs) vector err
        error) := by
  have called := atCall_spec table context (installAll table memory installs)
    vector agrees
  have frame := called.readFrame
  refine ⟨?_, by rw [frame]; rfl, by rw [frame]; rfl, ?_⟩
  · have entry := called.pushed.readWord
      (apart.mono_left (cells_handlerAddress linked.room inside))
    rw [called.rax]
    refine entry.trans ?_
    rw [readWord_installAll linked.room inside, linked.readWord_eq inside]
  · intro handled sameStack sameReturn
    have aligned : (handled.registers .rsp).toNat % 8 = 0 := by
      rw [sameStack]
      exact called.stack.aligned
    rw [frame] at sameReturn
    rw [leaveIsr_eq aligned]
    exact sameReturn

/-- The gate of every vector is present, also where there is no stub. -/
theorem dispatches_iff (linked : Linked table defaultCIsr memory)
    (inside : vector < 256) :
    (gatePresent (isrInit link vector) = true →
        Dispatches link table defaultCIsr memory installs vector) ↔
      ¬(vector = 9 ∨ vector = 15 ∨ (20 ≤ vector ∧ vector ≤ 29) ∨
        vector = 31) := by
  rw [← stubError_isSome_iff inside]
  constructor
  · intro dispatches
    have present : gatePresent (isrInit link vector) = true := by
      rw [isrInit_eq inside]
      exact gatePresent_asmIsr
    obtain ⟨err, stub, -⟩ := dispatches present
    rw [stub]
    rfl
  · intro hasStub _
    obtain ⟨err, stub⟩ := Option.isSome_iff_exists.mp hasStub
    refine ⟨err, stub, ?_, ?_⟩
    · rw [isrInit_eq inside, gateOffset_asmIsr, stubPointer, if_pos hasStub]
    · intro context error agrees apart
      rw [← stubError_eq inside stub] at agrees
      exact calls_atCall linked inside agrees apart

end Dispatch

/-! ### A table of two handlers -/

/-- Stubs that are linked one after another. -/
def smallLink (vector : Nat) : Word := BitVec.ofNat 64 (0x100000 + 16 * vector)

/-- A memory in which every entry is the default handler. -/
def smallTable : Memory := ofWords fun _ => 0x3000#64

theorem linked_smallTable : Linked 0x200000#64 0x3000#64 smallTable := by
  have room : (0x200000#64).toNat + 8 * 256 ≤ 2 ^ 64 := by decide
  refine ⟨room, ?_⟩
  intro vector inside
  have place : handlerAddress 0x200000#64 vector = 8 * (0x40000 + vector) := by
    rw [handlerAddress_eq room inside]
    simp only [BitVec.toNat_ofNat]
    omega
  rw [place, smallTable, readWord_ofWords, cIsrTable_eq,
    List.getD_eq_getElem?_getD, List.getElem?_replicate_of_lt inside]
  rfl

theorem dispatches_iff_small :
    (gatePresent (isrInit smallLink 14) = true →
        Dispatches smallLink 0x200000#64 0x3000#64 smallTable
          [(0x4000#64, 14#8)] 14) ↔
      ¬(14 = 9 ∨ 14 = 15 ∨ (20 ≤ 14 ∧ 14 ≤ 29) ∨ 14 = 31) :=
  dispatches_iff linked_smallTable (by decide)

/-- The gate of vector 9 is present, and its offset is the null pointer. -/
theorem gap_not_dispatches :
    gatePresent (isrInit smallLink 9) = true ∧
      gateOffset (isrInit smallLink 9) = 0#64 ∧
      ¬Dispatches smallLink 0x200000#64 0x3000#64 smallTable [] 9 := by
  refine ⟨?_, ?_, ?_⟩
  · rw [isrInit_eq (by decide)]
    exact gatePresent_asmIsr
  · rw [isrInit_eq (by decide), gateOffset_asmIsr]
    rfl
  · intro dispatches
    obtain ⟨err, stub, -⟩ := dispatches
    have gap : stubError 9 = none := rfl
    rw [gap] at stub
    cases stub

end BeaverOS.Isr
