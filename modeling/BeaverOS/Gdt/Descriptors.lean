import BeaverOS.Isr.Dispatch
import BeaverOS.Lib.Stores

/-!
# Segments and the task state

`gdt_init` in `gdt/gdt.c` fills one page: the descriptors, the task state
segment behind them, and a part of its I/O map. What the processor reads there is
what the code means, and the selector in the gates of `isr_init` is that of the
kernel's code.
-/

namespace BeaverOS.Gdt

open BeaverOS.ByteMemory

abbrev Word := BitVec 64

/-! ## The code -/

/-- `segment_descriptor_t`. -/
structure SegmentDescriptor where
  limit1 : BitVec 16
  base1 : BitVec 16
  base2 : BitVec 8
  accessed : BitVec 1
  rw : BitVec 1
  dc : BitVec 1
  ex : BitVec 1
  mbo : BitVec 1
  priv : BitVec 2
  p : BitVec 1
  limit2 : BitVec 4
  avl : BitVec 1
  l : BitVec 1
  sz : BitVec 1
  gr : BitVec 1
  base3 : BitVec 8

/-- The 8 bytes of a descriptor. -/
def SegmentDescriptor.pack (desc : SegmentDescriptor) : BitVec 64 :=
  desc.base3 ++ (desc.gr ++ (desc.sz ++ (desc.l ++ (desc.avl ++ (desc.limit2 ++
    (desc.p ++ (desc.priv ++ (desc.mbo ++ (desc.ex ++ (desc.dc ++ (desc.rw ++
      (desc.accessed ++ (desc.base2 ++
        (desc.base1 ++ desc.limit1))))))))))))))

/-- The descriptor that `install_segment_descriptor` stores. -/
def segmentDescriptor (code priv : BitVec 8) : SegmentDescriptor where
  limit1 := 0xffff
  base1 := 0
  base2 := 0
  accessed := 0
  rw := 1
  dc := 0
  ex := code.setWidth 1
  mbo := 1
  priv := priv.setWidth 2
  p := 1
  limit2 := 0xf
  avl := 0
  l := code.setWidth 1
  sz := (code ^^^ 1).setWidth 1
  gr := 1
  base3 := 0

/-- `tss_descriptor_t`. -/
structure TssDescriptor where
  limit1 : BitVec 16
  base1 : BitVec 16
  base2 : BitVec 8
  type : BitVec 4
  mbz1 : BitVec 1
  dpl : BitVec 2
  p : BitVec 1
  limit2 : BitVec 4
  avl : BitVec 1
  mbz2 : BitVec 2
  gr : BitVec 1
  base3 : BitVec 8
  base4 : BitVec 32
  mbz3 : BitVec 32

/-- The 16 bytes of a descriptor. -/
def TssDescriptor.pack (desc : TssDescriptor) : BitVec 128 :=
  desc.mbz3 ++ (desc.base4 ++ (desc.base3 ++ (desc.gr ++ (desc.mbz2 ++
    (desc.avl ++ (desc.limit2 ++ (desc.p ++ (desc.dpl ++ (desc.mbz1 ++
      (desc.type ++ (desc.base2 ++ (desc.base1 ++ desc.limit1))))))))))))

/-- `sizeof(tss_t)`. -/
def tssSize : Word := 104

/-- What `gdt_init` stores to `*tss_desc`. -/
def tssDescriptor (tss : Word) : TssDescriptor where
  limit1 := (tssSize &&& 0xffff#64).setWidth 16
  limit2 := ((tssSize &&& 0xf0000#64) >>> 16).setWidth 4
  base1 := (tss &&& 0xffff#64).setWidth 16
  base2 := ((tss &&& 0xff0000#64) >>> 16).setWidth 8
  base3 := ((tss &&& 0xff000000#64) >>> 24).setWidth 8
  base4 := ((tss &&& 0xffffffff00000000#64) >>> 32).setWidth 32
  type := 9
  mbz1 := 0
  mbz2 := 0
  mbz3 := 0
  dpl := 0
  p := 1
  avl := 0
  gr := 1

/-- Where `install_segment_descriptor` stores in its `i`-th call. -/
def installSegmentDescriptor (i : Nat) (code priv : BitVec 8) : Store :=
  ⟨8 + 8 * i, 8, (segmentDescriptor code priv).pack.toNat⟩

/-- `tss_desc`. -/
def tssDescOffset : Nat := 40

/-- `tss`. -/
def tssOffset : Nat := 56

/-- A stack pointer of the task state segment. -/
def storeStack (offset : Nat) (isrStackTop : Word) : List Store :=
  [⟨offset, 4, (isrStackTop &&& 0xffffffff#64).toNat⟩,
    ⟨offset + 4, 4, ((isrStackTop &&& 0xffffffff00000000#64) >>> 32).toNat⟩]

/-- What `gdt_init` stores in its page. -/
def gdtInit (gdtPage isrStackTop : Word) : List Store :=
  [⟨0, 8, 0⟩,
    installSegmentDescriptor 0 1 0, installSegmentDescriptor 1 0 0,
    installSegmentDescriptor 2 1 3, installSegmentDescriptor 3 0 3,
    ⟨tssDescOffset, 16,
      (tssDescriptor (gdtPage + BitVec.ofNat 64 tssOffset)).pack.toNat⟩,
    -- `mbz_1`, `mbz_2`, `mbz_3` and `mbz_4`
    ⟨tssOffset, 4, 0⟩, ⟨tssOffset + 28, 8, 0⟩, ⟨tssOffset + 92, 8, 0⟩,
    ⟨tssOffset + 100, 2, 0⟩] ++
  (List.range 3).flatMap (fun i =>
    storeStack (tssOffset + 4 + 8 * i) isrStackTop) ++
  (List.range 7).flatMap (fun i =>
    storeStack (tssOffset + 36 + 8 * i) isrStackTop) ++
  -- `iomap_offset` and the I/O map
  [⟨tssOffset + 102, 2, tssSize.toNat⟩, ⟨tssOffset + 104, 32, 0⟩]

/-! ## What the processor reads -/

/-- A code or data segment as the processor takes it. -/
structure Segment where
  base : BitVec 32
  limit : BitVec 20
  pages : Bool
  present : Bool
  ring : BitVec 2
  code : Bool
  writable : Bool
  longMode : Bool
  wide : Bool
  deriving DecidableEq

/-- The segment that a descriptor stands for, if it stands for one. -/
def decode (desc : BitVec 64) : Option Segment :=
  if desc.getLsbD 44 then
    some {
      base := desc.extractLsb' 56 8 ++ desc.extractLsb' 16 24
      limit := desc.extractLsb' 48 4 ++ desc.extractLsb' 0 16
      pages := desc.getLsbD 55
      present := desc.getLsbD 47
      ring := desc.extractLsb' 45 2
      code := desc.getLsbD 43
      writable := desc.getLsbD 41
      longMode := desc.getLsbD 53
      wide := desc.getLsbD 54 }
  else
    none

/-- The kernel's segments. Both cover all memory. -/
def flatSegment (code : Bool) (ring : BitVec 2) : Segment where
  base := 0
  limit := 0xfffff
  pages := true
  present := true
  ring := ring
  code := code
  writable := true
  longMode := code
  wide := !code

/-- The descriptor that a selector names. -/
def descriptorAt (memory : Memory) (table selector : Nat) : BitVec 64 :=
  readWord memory (table + selector / 8 * 8)

/-- The address that the processor assembles from a system descriptor. -/
def systemBase (desc : BitVec 128) : Word :=
  desc.extractLsb' 64 32 ++ (desc.extractLsb' 56 8 ++ (desc.extractLsb' 32 8 ++
    desc.extractLsb' 16 16))

/-- The selector of a gate. -/
def gateSelector (gate : BitVec 128) : Nat := (gate.extractLsb' 16 16).toNat

/-- What the page holds for the processor. -/
structure Ready (memory : Memory) (table : Nat) (gdtPage isrStackTop : Word) :
    Prop where
  null : descriptorAt memory table 0 = 0
  kernelCode :
    decode (descriptorAt memory table 0x08) = some (flatSegment true 0)
  kernelData :
    decode (descriptorAt memory table 0x10) = some (flatSegment false 0)
  userCode :
    decode (descriptorAt memory table 0x1b) = some (flatSegment true 3)
  userData :
    decode (descriptorAt memory table 0x23) = some (flatSegment false 3)
  gates :
    ∀ isr,
      decode (descriptorAt memory table
        (gateSelector (Isr.asmIsr isr).pack)) = some (flatSegment true 0)
  tss :
    ∃ desc : BitVec 128,
      desc.toNat = readLE memory (table + 0x28) 16 ∧
        systemBase desc = gdtPage + BitVec.ofNat 64 tssOffset ∧
        desc.extractLsb' 40 4 = 9 ∧ desc.getLsbD 47
  ringStacks :
    ∀ i, i < 3 → readWord memory (table + tssOffset + 4 + 8 * i) = isrStackTop
  interruptStacks :
    ∀ i, i < 7 → readWord memory (table + tssOffset + 36 + 8 * i) = isrStackTop
  ioMapOffset : readLE memory (table + tssOffset + 102) 2 = 104
  ioMap : readLE memory (table + tssOffset + 104) 32 = 0

/-! ## The fields -/

section Fields

variable {tss : Word}

theorem decode_segmentDescriptor (code : Bool) (ring : BitVec 2) :
    decode (segmentDescriptor ((BitVec.ofBool code).setWidth 8)
        (ring.setWidth 8)).pack = some (flatSegment code ring) := by
  revert code ring
  decide

theorem pack_base1 (desc : TssDescriptor) :
    desc.pack.extractLsb' 16 16 = desc.base1 := by
  rw [TssDescriptor.pack]
  iterate 12 refine (BitVec.extractLsb'_append_eq_of_add_le (by decide)).trans ?_
  exact BitVec.extractLsb'_append_eq_left

theorem pack_base2 (desc : TssDescriptor) :
    desc.pack.extractLsb' 32 8 = desc.base2 := by
  rw [TssDescriptor.pack]
  iterate 11 refine (BitVec.extractLsb'_append_eq_of_add_le (by decide)).trans ?_
  exact BitVec.extractLsb'_append_eq_left

theorem pack_type (desc : TssDescriptor) :
    desc.pack.extractLsb' 40 4 = desc.type := by
  rw [TssDescriptor.pack]
  iterate 10 refine (BitVec.extractLsb'_append_eq_of_add_le (by decide)).trans ?_
  exact BitVec.extractLsb'_append_eq_left

theorem pack_p (desc : TssDescriptor) :
    desc.pack.extractLsb' 47 1 = desc.p := by
  rw [TssDescriptor.pack]
  iterate 7 refine (BitVec.extractLsb'_append_eq_of_add_le (by decide)).trans ?_
  exact BitVec.extractLsb'_append_eq_left

theorem pack_base3 (desc : TssDescriptor) :
    desc.pack.extractLsb' 56 8 = desc.base3 := by
  rw [TssDescriptor.pack]
  iterate 2 refine (BitVec.extractLsb'_append_eq_of_add_le (by decide)).trans ?_
  exact BitVec.extractLsb'_append_eq_left

theorem pack_base4 (desc : TssDescriptor) :
    desc.pack.extractLsb' 64 32 = desc.base4 := by
  rw [TssDescriptor.pack]
  refine (BitVec.extractLsb'_append_eq_of_add_le (by decide)).trans ?_
  exact BitVec.extractLsb'_append_eq_left

/-- The code cuts the address into four fields, and the processor puts it
together again. -/
theorem systemBase_tssDescriptor :
    systemBase (tssDescriptor tss).pack = tss := by
  have unshifted : ((tss &&& 0xffff#64) >>> 0).setWidth 16 =
      tss.extractLsb' 0 16 := Isr.setWidth_and_mask (by decide)
  have first : (tssDescriptor tss).base1 = tss.extractLsb' 0 16 := by
    rw [BitVec.ushiftRight_zero] at unshifted
    exact unshifted
  have second : (tssDescriptor tss).base2 = tss.extractLsb' 16 8 :=
    Isr.setWidth_and_mask (by decide)
  have third : (tssDescriptor tss).base3 = tss.extractLsb' 24 8 :=
    Isr.setWidth_and_mask (by decide)
  have fourth : (tssDescriptor tss).base4 = tss.extractLsb' 32 32 :=
    Isr.setWidth_and_mask (by decide)
  have three : tss.extractLsb' 16 8 ++ tss.extractLsb' 0 16 =
      tss.extractLsb' 0 24 :=
    BitVec.extractLsb'_append_extractLsb'_eq_extractLsb' rfl
  have half : tss.extractLsb' 24 8 ++ tss.extractLsb' 0 24 =
      tss.extractLsb' 0 32 :=
    BitVec.extractLsb'_append_extractLsb'_eq_extractLsb' rfl
  have whole : tss.extractLsb' 32 32 ++ tss.extractLsb' 0 32 =
      tss.extractLsb' 0 64 :=
    BitVec.extractLsb'_append_extractLsb'_eq_extractLsb' rfl
  rw [systemBase, pack_base1, pack_base2, pack_base3, pack_base4, first, second,
    third, fourth, three, half, whole]
  exact BitVec.extractLsb'_eq_self

theorem gateSelector_asmIsr (isr : Word) :
    gateSelector (Isr.asmIsr isr).pack = 8 := by
  have selector : (Isr.asmIsr isr).pack.extractLsb' 16 16 = 8#16 := by
    rw [Isr.InterruptDescriptor.pack]
    iterate 9 refine
      (BitVec.extractLsb'_append_eq_of_add_le (by decide)).trans ?_
    exact BitVec.extractLsb'_append_eq_left
  rw [gateSelector, selector]
  rfl

end Fields

/-- What the processor reads depends on nothing but the page. -/
theorem Ready.congr {memory memory' : Memory} {table : Nat}
    {gdtPage isrStackTop : Word}
    (ready : Ready memory table gdtPage isrStackTop)
    (agree : AgreeOn memory' memory table 4096) :
    Ready memory' table gdtPage isrStackTop := by
  have words : ∀ {offset : Nat}, offset + 8 ≤ 4096 →
      readWord memory' (table + offset) = readWord memory (table + offset) :=
    fun inside => readWord_congr (agree.mono (Nat.le_add_right _ _) (by omega))
  have descriptors : ∀ {selector : Nat}, selector < 4088 →
      descriptorAt memory' table selector =
        descriptorAt memory table selector :=
    fun inside => words (by omega)
  have fields : ∀ {offset count : Nat}, offset + count ≤ 4096 →
      readLE memory' (table + offset) count =
        readLE memory (table + offset) count :=
    fun inside => readLE_congr (agree.mono (Nat.le_add_right _ _) (by omega))
  constructor
  · rw [descriptors (by decide)]
    exact ready.null
  · rw [descriptors (by decide)]
    exact ready.kernelCode
  · rw [descriptors (by decide)]
    exact ready.kernelData
  · rw [descriptors (by decide)]
    exact ready.userCode
  · rw [descriptors (by decide)]
    exact ready.userData
  · intro isr
    have here := ready.gates isr
    rw [gateSelector_asmIsr] at here ⊢
    rw [descriptors (by decide)]
    exact here
  · obtain ⟨desc, here, rest⟩ := ready.tss
    refine ⟨desc, ?_, rest⟩
    rw [fields (by decide)]
    exact here
  · intro i inside
    have kept := @words (tssOffset + 4 + 8 * i) (by rw [tssOffset]; omega)
    rw [← Nat.add_assoc, ← Nat.add_assoc] at kept
    rw [kept]
    exact ready.ringStacks i inside
  · intro i inside
    have kept := @words (tssOffset + 36 + 8 * i) (by rw [tssOffset]; omega)
    rw [← Nat.add_assoc, ← Nat.add_assoc] at kept
    rw [kept]
    exact ready.interruptStacks i inside
  · rw [Nat.add_assoc, fields (by decide), ← Nat.add_assoc]
    exact ready.ioMapOffset
  · rw [Nat.add_assoc, fields (by decide), ← Nat.add_assoc]
    exact ready.ioMap

/-! ## The page -/

section Page

variable {memory : Memory} {table offset count value : Nat}
  {gdtPage isrStackTop : Word}

/-- No store of `gdt_init` overlaps another, or leaves the first 192 bytes. -/
theorem gdtInit_apart (gdtPage isrStackTop : Word) :
    (gdtInit gdtPage isrStackTop).Pairwise Store.Apart ∧
      ∀ store ∈ gdtInit gdtPage isrStackTop,
        store.offset + store.count ≤ 192 := by
  let span (store : Store) : Store := ⟨store.offset, store.count, 0⟩
  -- offsets and lengths are those of the list for null pointers
  have spans : (gdtInit gdtPage isrStackTop).map span =
      (gdtInit 0#64 0#64).map span := by
    simp only [gdtInit, installSegmentDescriptor, storeStack, List.map_append,
      List.map_cons, List.map_nil, List.map_flatMap, span]
  have apart : ((gdtInit 0#64 0#64).map span).Pairwise Store.Apart := by
    decide
  have inside : ∀ store ∈ (gdtInit 0#64 0#64).map span,
      store.offset + store.count ≤ 192 := by
    decide
  rw [← spans] at apart inside
  have pairwise := List.pairwise_map.mp apart
  exact ⟨pairwise, fun store member =>
    inside (span store) (List.mem_map_of_mem member)⟩

theorem readLE_gdtInit
    (member : ⟨offset, count, value⟩ ∈ gdtInit gdtPage isrStackTop)
    (bound : value < 256 ^ count) :
    readLE (storeAll memory table (gdtInit gdtPage isrStackTop))
        (table + offset) count = value :=
  (readLE_storeAll (gdtInit_apart _ _).1 member).trans
    (Nat.mod_eq_of_lt bound)

/-- A descriptor of the table. -/
theorem descriptorAt_gdtInit {selector : Nat} {desc : BitVec 64}
    (member : ⟨selector / 8 * 8, 8, desc.toNat⟩ ∈
      gdtInit gdtPage isrStackTop) :
    descriptorAt (storeAll memory table (gdtInit gdtPage isrStackTop)) table
      selector = desc := by
  have value := @readLE_gdtInit memory table _ _ _ _ _ member desc.isLt
  apply BitVec.eq_of_toNat_eq
  rw [descriptorAt, readWord, value, BitVec.toNat_ofNat]
  exact Nat.mod_eq_of_lt desc.isLt

/-- Two halves make a stack pointer. -/
theorem readWord_stack
    (members : ∀ store ∈ storeStack offset isrStackTop,
      store ∈ gdtInit gdtPage isrStackTop) :
    readWord (storeAll memory table (gdtInit gdtPage isrStackTop))
      (table + offset) = isrStackTop := by
  have bound := isrStackTop.isLt
  have low : (isrStackTop &&& 0xffffffff#64).toNat =
      isrStackTop.toNat % 2 ^ 32 := by
    rw [BitVec.toNat_and]
    exact Nat.and_two_pow_sub_one_eq_mod isrStackTop.toNat 32
  have high : ((isrStackTop &&& 0xffffffff00000000#64) >>> 32).toNat =
      isrStackTop.toNat / 2 ^ 32 := by
    have whole : (0xffffffff00000000#64) >>> 32 = 0xffffffff#64 := by decide
    rw [BitVec.ushiftRight_and_distrib, whole, BitVec.toNat_and,
      BitVec.toNat_ushiftRight, Nat.shiftRight_eq_div_pow]
    refine (Nat.and_two_pow_sub_one_eq_mod _ 32).trans (Nat.mod_eq_of_lt ?_)
    omega
  have first := @readLE_gdtInit memory table _ _ _ _ _
    (members _ List.mem_cons_self) (by omega)
  have second := @readLE_gdtInit memory table _ _ _ _ _
    (members _ (List.mem_cons_of_mem _ List.mem_cons_self)) (by omega)
  apply BitVec.eq_of_toNat_eq
  rw [readWord, readLE_add _ _ 4 4, Nat.add_assoc, first, second,
    BitVec.toNat_ofNat, low, high]
  omega

/-- Whatever the page held, the processor finds the segments, the task state and
the interrupt stack in it, and the selector of the gates is that of the kernel's
code. -/
theorem gdtInit_ready (memory : Memory) (table : Nat)
    (gdtPage isrStackTop : Word) :
    Ready (storeAll memory table (gdtInit gdtPage isrStackTop)) table gdtPage
        isrStackTop ∧
      AgreeOff (cells table 192)
        (storeAll memory table (gdtInit gdtPage isrStackTop)) memory := by
  refine ⟨?_, agreeOff_storeAll (gdtInit_apart gdtPage isrStackTop).2⟩
  have segment : ∀ i code priv,
      installSegmentDescriptor i code priv ∈ gdtInit gdtPage isrStackTop →
      ∀ selector, selector / 8 = i + 1 →
        descriptorAt (storeAll memory table (gdtInit gdtPage isrStackTop))
          table selector = (segmentDescriptor code priv).pack := by
    intro i code priv member selector here
    refine descriptorAt_gdtInit ?_
    rw [here, Nat.add_mul, Nat.add_comm, Nat.mul_comm i 8]
    exact member
  have code : ∀ selector, selector / 8 = 1 →
      decode (descriptorAt (storeAll memory table
        (gdtInit gdtPage isrStackTop)) table selector) =
        some (flatSegment true 0) := by
    intro selector here
    rw [segment 0 1 0 (by simp [gdtInit]) selector here]
    exact decode_segmentDescriptor true 0
  constructor
  · refine descriptorAt_gdtInit ?_
    simp [gdtInit]
  · exact code 0x08 rfl
  · rw [segment 1 0 0 (by simp [gdtInit]) 0x10 rfl]
    exact decode_segmentDescriptor false 0
  · rw [segment 2 1 3 (by simp [gdtInit]) 0x1b rfl]
    exact decode_segmentDescriptor true 3
  · rw [segment 3 0 3 (by simp [gdtInit]) 0x23 rfl]
    exact decode_segmentDescriptor false 3
  · intro isr
    rw [gateSelector_asmIsr]
    exact code 8 rfl
  · refine ⟨(tssDescriptor (gdtPage + BitVec.ofNat 64 tssOffset)).pack, ?_,
      systemBase_tssDescriptor, pack_type _, ?_⟩
    · have member : (⟨tssDescOffset, 16, (tssDescriptor
          (gdtPage + BitVec.ofNat 64 tssOffset)).pack.toNat⟩ : Store) ∈
            gdtInit gdtPage isrStackTop := by
        simp [gdtInit]
      exact (readLE_gdtInit member (tssDescriptor _).pack.isLt).symm
    · have present := pack_p (tssDescriptor
        (gdtPage + BitVec.ofNat 64 tssOffset))
      have bit := congrArg (fun field : BitVec 1 => field.getLsbD 0) present
      simpa [tssDescriptor] using bit
  · intro i inside
    rw [Nat.add_assoc, Nat.add_assoc, ← Nat.add_assoc tssOffset]
    refine readWord_stack fun store member => ?_
    refine List.mem_append_left _ (List.mem_append_left _
      (List.mem_append_right _ (List.mem_flatMap.mpr ⟨i, ?_, member⟩)))
    exact List.mem_range.mpr inside
  · intro i inside
    rw [Nat.add_assoc, Nat.add_assoc, ← Nat.add_assoc tssOffset]
    refine readWord_stack fun store member => ?_
    refine List.mem_append_left _ (List.mem_append_right _
      (List.mem_flatMap.mpr ⟨i, ?_, member⟩))
    exact List.mem_range.mpr inside
  · have offset : (⟨tssOffset + 102, 2, tssSize.toNat⟩ : Store) ∈
        gdtInit gdtPage isrStackTop := by
      simp [gdtInit]
    rw [Nat.add_assoc]
    exact readLE_gdtInit offset (by decide)
  · have ioMap : (⟨tssOffset + 104, 32, 0⟩ : Store) ∈
        gdtInit gdtPage isrStackTop := by
      simp [gdtInit]
    rw [Nat.add_assoc]
    have positive : 0 < 256 ^ 32 := Nat.pow_pos (by decide)
    exact readLE_gdtInit ioMap positive

end Page

end BeaverOS.Gdt
