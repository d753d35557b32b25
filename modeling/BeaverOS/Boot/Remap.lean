import BeaverOS.Lib.Loop
import BeaverOS.Memory.Calls
import BeaverOS.Memory.Linker
import BeaverOS.Memory.ListedState

/-!
# The mappings of `main`

The two loops at the start of `main` in `boot/main.c`: the first megabyte of
physical memory is mapped at `_first_mb`, then the loader's identity mapping is
removed. The first call of the first loop passes physical address 0, which
`map_page` takes for `MAP_ANON`.
-/

namespace BeaverOS.Boot

open BeaverOS.Loop
open BeaverOS.ByteMemory
open BeaverOS.BlockChain
open BeaverOS.RadixTree
open BeaverOS.Paging
open BeaverOS.Window
open BeaverOS.FrameAllocator
open BeaverOS.PageTree
open BeaverOS.Mapper
open BeaverOS.MapperState
open BeaverOS.Unmap
open BeaverOS.Populated
open BeaverOS.Calls
open BeaverOS.Linker
open BeaverOS.ListedState

/-- The value of `pg` in round `k` of either loop. -/
def pg (k : Nat) : Word := BitVec.ofNat 64 (4096 * k)

/-- The flags of the first megabyte. -/
def firstMbFlags : Word := pagePBit ||| pageRwBit ||| pageGBit

/-- The condition of either loop. -/
def MorePages (stop : Word) (k : Nat) (_state : Mapper) : Prop := pg k < stop

instance (stop : Word) (k : Nat) (state : Mapper) :
    Decidable (MorePages stop k state) :=
  inferInstanceAs (Decidable (_ < _))

/-- The first loop. Its counter has 64 bits: after `2 ^ 52` rounds it starts
again at 0, and the loop is taken not to end. -/
def mapFirstMb (layout : Layout) (state : Mapper) : Except Halt Mapper :=
  whileLoop (MorePages 0x100000#64)
    (fun k state => mapPage layout state (firstMb + pg k) (pg k) firstMbFlags)
    .fault (2 ^ 52) 0 state

/-- The second loop. -/
def unmapIdentity (layout : Layout) (usedMem : Word) (state : Mapper) :
    Except Halt Mapper :=
  whileLoop (MorePages usedMem)
    (fun k state => mapPage layout state (pg k) 0#64 0#64)
    .fault (2 ^ 52) 0 state

/-- The two loops of `main`. -/
def remap (layout : Layout) (usedMem : Word) (state : Mapper) :
    Except Halt Mapper := do
  let state ← mapFirstMb layout state
  unmapIdentity layout usedMem state

/-- What the loader and `early_main` leave: an identity mapping of the memory
in use, and no entry that carries `PAGE_F_BIT`. -/
structure Booted (layout : Layout) (usedMem : Word) (frames : List Nat)
    (state : Mapper) : Prop where
  wellFormed : WellFormed layout state frames
  linked : layout.windowSize = physWindowSize.toNat
  aligned : usedMem.toNat % 4096 = 0
  above : 0x100000 < usedMem.toNat
  lowerHalf : usedMem.toNat ≤ 2 ^ 47
  identity :
    ∀ page : Word, page.toNat % 4096 = 0 → page.toNat < usedMem.toNat →
      ∃ flags, translation state.mem state.pml4.toNat page =
        some (page, flags)
  unmarked :
    ∀ virt entry, leafEntry state.mem state.pml4.toNat virt = some entry →
      ¬ Has entry pageFBit

/-- A page of the first megabyte's mapping. -/
def IsFirstMbPage (page : Word) : Prop :=
  firstMb.toNat ≤ page.toNat ∧ page.toNat < firstMb.toNat + 0x100000

/-- What the two loops are for. -/
structure Remapped (layout : Layout) (usedMem : Word)
    (state state' : Mapper) : Prop where
  firstMb :
    ∀ offset, offset < 0x100000 →
      ∃ flags, physicalAddress (translation state'.mem state'.pml4.toNat)
        (Linker.firstMb + BitVec.ofNat 64 offset) = some (offset, flags)
  identity :
    ∀ page : Word, page.toNat % 4096 = 0 → page.toNat < usedMem.toNat →
      translation state'.mem state'.pml4.toNat page = none
  others :
    ∀ page, IsPage page → ¬ InWindow layout page → ¬ IsFirstMbPage page →
      usedMem.toNat ≤ page.toNat →
        translation state'.mem state'.pml4.toNat page =
          translation state.mem state.pml4.toNat page

/-! ## Pages -/

section Pages

variable {layout : Layout} {usedMem : Word} {frames : List Nat}
  {state : Mapper} {k : Nat}

theorem toNat_pg (small : k < 2 ^ 52) : (pg k).toNat = 4096 * k := by
  rw [pg, BitVec.toNat_ofNat]
  omega

theorem toNat_firstMb : firstMb.toNat = 0xffffffffffef6000 :=
  toNat_progBreakEnd

theorem toNat_firstMb_add (inside : k < 256) :
    (firstMb + pg k).toNat = 0xffffffffffef6000 + 4096 * k := by
  rw [BitVec.toNat_add, toNat_firstMb, toNat_pg (by omega)]
  omega

theorem isPage_firstMb (inside : k < 256) : IsPage (firstMb + pg k) := by
  have value := toNat_firstMb_add inside
  exact isPage_of_toNat (Or.inr (by omega)) (by omega)

theorem upperPath_firstMb (inside : k < 256) :
    upperPath (firstMb + pg k) = windowPath := by
  have value := toNat_firstMb_add inside
  simp only [upperPath, windowPath, List.cons.injEq, Fin.ext_iff, indexAt_val,
    and_true, value]
  refine ⟨?_, ?_, ?_⟩
  · change _ = 511
    omega
  · change _ = 511
    omega
  · change _ = 511
    omega

theorem firstMb_outside (linked : layout.windowSize = physWindowSize.toNat)
    (inside : k < 256) : ¬ InWindow layout (firstMb + pg k) := by
  rintro ⟨_, last⟩
  have value := toNat_firstMb_add inside
  have size : physWindowSize.toNat = 4 := rfl
  rw [linked, size] at last
  simp only [leafIndex, indexAt_val, pageTableSize, value] at last
  omega

/-- The first megabyte's mapping needs no tables but the window's. -/
theorem leafEntry_firstMb (wellFormed : WellFormed layout state frames)
    (inside : k < 256) :
    ∃ entry, leafEntry state.mem state.pml4.toNat (firstMb + pg k) =
      some entry := by
  have found : leafTable state.mem state.pml4.toNat (firstMb + pg k) =
      some layout.windowPt := by
    rw [leafTable, upperPath_firstMb inside]
    exact wellFormed.tables.window
  exact ⟨_, leafEntry_of_leafTable found⟩

theorem isPage_pg (below : 4096 * k < 2 ^ 47) : IsPage (pg k) := by
  have value := @toNat_pg k (by omega)
  exact isPage_of_toNat (Or.inl (by omega)) (by omega)

theorem pg_outside (below : 4096 * k < 2 ^ 47) :
    ¬ InWindow layout (pg k) := by
  rintro ⟨path, _⟩
  have value := @toNat_pg k (by omega)
  have first := congrArg Fin.val (List.cons.inj path).1
  rw [indexAt_val, value] at first
  change _ = 511 at first
  omega

end Pages

/-! ## Leaf entries -/

/-- The leaf entries outside of the window are these. -/
def HasLeaves (layout : Layout) (leaf : Word → Option Word) (state : Mapper) :
    Prop :=
  (∃ frames, WellFormed layout state frames) ∧
    ∀ page, IsPage page → ¬ InWindow layout page →
      leafEntry state.mem state.pml4.toNat page = leaf page

/-- The leaf entries after the first `k` calls of a loop. -/
def writes (pages : Nat → Word) (values : Nat → Option Word)
    (leaf : Word → Option Word) : Nat → Word → Option Word
  | 0 => leaf
  | k + 1 =>
      Function.update (writes pages values leaf k) (pages k) (values k)

section Leaves

variable {layout : Layout} {leaf : Word → Option Word}
  {pages : Nat → Word} {values : Nat → Option Word} {frames : List Nat}
  {state state' : Mapper} {virt value page : Word} {j k : Nat}

theorem writes_of_ne (different : ∀ j, j < k → page ≠ pages j) :
    writes pages values leaf k page = leaf page := by
  induction k with
  | zero => rfl
  | succ k inductionHypothesis =>
      rw [writes, Function.update_of_ne (different k (Nat.lt_succ_self k))]
      exact inductionHypothesis fun j below =>
        different j (Nat.lt_succ_of_lt below)

theorem writes_at (apart : ∀ i j, i < k → j < k → pages i = pages j → i = j)
    (inside : j < k) :
    writes pages values leaf k (pages j) = values j := by
  induction k with
  | zero => omega
  | succ k inductionHypothesis =>
      rw [writes]
      by_cases last : j = k
      · rw [last, Function.update_self]
      · rw [Function.update_of_ne fun same =>
          last (apart j k inside (Nat.lt_succ_self k) same)]
        exact inductionHypothesis
          (fun i j below below' => apart i j (Nat.lt_succ_of_lt below)
            (Nat.lt_succ_of_lt below')) (by omega)

theorem HasLeaves.updated (hasLeaves : HasLeaves layout leaf state)
    (updated : Updated layout state state' virt value frames) :
    HasLeaves layout (Function.update leaf virt (some value)) state' := by
  refine ⟨⟨frames, updated.wellFormed⟩, ?_⟩
  intro other otherPage outside
  by_cases here : other = virt
  · rw [here, Function.update_self]
    exact updated.here
  · rw [Function.update_of_ne here, ← hasLeaves.2 other otherPage outside]
    exact updated.elsewhere otherPage here outside

theorem HasLeaves.translation_eq (hasLeaves : HasLeaves layout leaf state)
    (isPage : IsPage page) (outside : ¬ InWindow layout page) {entry : Word}
    (found : leaf page = some entry) :
    translation state.mem state.pml4.toNat page =
      if Has entry pagePBit then some (frameOf entry, entry &&& ptFlagsMask)
      else none :=
  translation_of_leafEntry ((hasLeaves.2 page isPage outside).trans found)

end Leaves

/-! ## The loops -/

section Loops

variable {layout : Layout} {usedMem chosen : Word} {frames rest : List Nat}
  {state state' : Mapper} {leaf : Word → Option Word}

/-- The entry that round `k` of the first loop writes, where round 0 has got
the frame `chosen`. -/
def firstMbEntry (chosen : Word) (k : Nat) : Word :=
  (firstMbFlags &&& ptFlagsMask) ||| if k = 0 then chosen else pg k

/-- The leaf entries after the first loop. -/
def withFirstMb (chosen : Word) (leaf : Word → Option Word) :
    Word → Option Word :=
  writes (fun k => firstMb + pg k) (fun k => some (firstMbEntry chosen k))
    leaf 256

/-- The leaf entries after the second loop. -/
def withoutIdentity (usedMem : Word) (leaf : Word → Option Word) :
    Word → Option Word :=
  writes pg (fun k => (leaf (pg k)).map fun entry => entry &&& ~~~pagePBit)
    leaf (usedMem.toNat / 4096)

theorem pg_injective {i j : Nat} (iSmall : i < 2 ^ 52) (jSmall : j < 2 ^ 52)
    (same : pg i = pg j) : i = j := by
  have values := congrArg BitVec.toNat same
  rw [toNat_pg iSmall, toNat_pg jSmall] at values
  omega

theorem firstMb_injective {i j : Nat} (iInside : i < 256) (jInside : j < 256)
    (same : firstMb + pg i = firstMb + pg j) : i = j := by
  have values := congrArg BitVec.toNat same
  rw [toNat_firstMb_add iInside, toNat_firstMb_add jInside] at values
  omega

/-- The rounds of the first loop but round 0. -/
theorem mapFirstMb_returns
    (linked : layout.windowSize = physWindowSize.toNat)
    (unmarked : ∀ page entry, leaf page = some entry → ¬ Has entry pageFBit)
    (mapped : mapPage layout state (firstMb + pg 0) (pg 0) firstMbFlags =
      .ok state')
    (hasLeaves : HasLeaves layout
      (Function.update leaf (firstMb + pg 0) (some (firstMbEntry chosen 0)))
      state') :
    ∃ done, mapFirstMb layout state = .ok done ∧
      HasLeaves layout (withFirstMb chosen leaf) done := by
  obtain ⟨fuel, fuelEq⟩ : ∃ fuel, 2 ^ 52 = fuel + 1 := ⟨2 ^ 52 - 1, by omega⟩
  have goesOn : ∀ k (state : Mapper), k ≤ 256 → True →
      (MorePages 0x100000#64 k state ↔ k < 256) := by
    intro k state bound _
    rw [MorePages, BitVec.lt_def, toNat_pg (by omega)]
    simp only [BitVec.toNat_ofNat]
    omega
  rw [mapFirstMb, fuelEq, whileLoop_next
    ((goesOn 0 state (by decide) trivial).mpr (by decide)) mapped]
  refine whileLoop_returns
    (fun k => HasLeaves layout (writes (fun k => firstMb + pg k)
      (fun k => some (firstMbEntry chosen k)) leaf k))
    _ (by decide) ?_ (fun k state bound _ => goesOn k state bound trivial) ?_
    (by omega)
  · exact hasLeaves
  · intro k state positive inside holds
    have page := isPage_firstMb inside
    have outside := firstMb_outside linked inside
    obtain ⟨frames, wellFormed⟩ := holds.1
    obtain ⟨entry, found⟩ := leafEntry_firstMb wellFormed inside
    have value := @toNat_pg k (by omega)
    have explicit : pg k ≠ mapAnon := by
      intro same
      have zero := congrArg BitVec.toNat same
      rw [value] at zero
      change _ = 0 at zero
      omega
    have isFrame : IsFrame (pg k) := (isFrame_iff _).mpr ⟨by omega, by omega⟩
    have old : leaf (firstMb + pg k) = some entry := by
      rw [← found, holds.2 _ page outside]
      exact (writes_of_ne fun j below same =>
        absurd (firstMb_injective inside (by omega) same) (by omega)).symm
    obtain ⟨after, returned, updated⟩ := mapPage_replaces wellFormed page outside
      found (fun anonymous => absurd anonymous explicit)
      (fun _ _ => unmarked _ _ old) isFrame
      (by decide : Has firstMbFlags pagePBit)
    refine ⟨after, returned, ?_⟩
    rw [if_neg explicit] at updated
    have entryEq : firstMbEntry chosen k =
        (firstMbFlags &&& ptFlagsMask) ||| pg k := by
      rw [firstMbEntry, if_neg (by omega)]
    have result := holds.updated updated
    rw [← entryEq] at result
    exact result

/-- The second loop. -/
theorem unmapIdentity_returns (hasLeaves : HasLeaves layout leaf state)
    (aligned : usedMem.toNat % 4096 = 0) (lower : usedMem.toNat ≤ 2 ^ 47)
    (found : ∀ k, k < usedMem.toNat / 4096 →
      ∃ entry, leaf (pg k) = some entry ∧ ¬ Has entry pageFBit) :
    ∃ done, unmapIdentity layout usedMem state = .ok done ∧
      HasLeaves layout (withoutIdentity usedMem leaf) done := by
  rw [unmapIdentity]
  refine whileLoop_returns
    (fun k => HasLeaves layout (writes pg
      (fun k => (leaf (pg k)).map fun entry => entry &&& ~~~pagePBit) leaf k))
    _ (Nat.zero_le _) hasLeaves ?_ ?_ (by omega)
  · intro k state bound _
    rw [MorePages, BitVec.lt_def, toNat_pg (by omega)]
    omega
  · intro k state _ inside holds
    have page := @isPage_pg k (by omega)
    have outside := @pg_outside layout k (by omega)
    obtain ⟨frames, wellFormed⟩ := holds.1
    obtain ⟨entry, old, unmarked⟩ := found k inside
    have foundEntry : leafEntry state.mem state.pml4.toNat (pg k) =
        some entry := by
      rw [holds.2 _ page outside, ← old]
      exact writes_of_ne fun j below same =>
        absurd (pg_injective (by omega) (by omega) same) (by omega)
    obtain ⟨after, returned, updated⟩ := mapPage_clears wellFormed page outside
      foundEntry (fun _ => unmarked) isFrame_zero
      (by decide : ¬ Has 0#64 pagePBit)
    refine ⟨after, returned, ?_⟩
    have result := holds.updated updated
    rw [writes, old]
    exact result

/-! ## What the loops leave -/

theorem pg_ne_firstMb {j k : Nat} (low : 4096 * j < 2 ^ 47)
    (inside : k < 256) : pg j ≠ firstMb + pg k := by
  intro same
  have values := congrArg BitVec.toNat same
  rw [toNat_pg (by omega), toNat_firstMb_add inside] at values
  omega

/-- Round 0 of the first loop decides how the loops end. -/
theorem remap_returns (booted : Booted layout usedMem frames state)
    (mapped : mapPage layout state (firstMb + pg 0) (pg 0) firstMbFlags =
      .ok state')
    (updated : Updated layout state state' (firstMb + pg 0)
      (firstMbEntry chosen 0) rest) :
    ∃ done, remap layout usedMem state = .ok done ∧
      HasLeaves layout
        (withoutIdentity usedMem
          (withFirstMb chosen (leafEntry state.mem state.pml4.toNat)))
        done := by
  have lower := booted.lowerHalf
  have start : HasLeaves layout (leafEntry state.mem state.pml4.toNat) state :=
    ⟨⟨frames, booted.wellFormed⟩, fun _ _ _ => rfl⟩
  obtain ⟨middle, first, hasLeaves⟩ := mapFirstMb_returns booted.linked
    booted.unmarked mapped (start.updated updated)
  obtain ⟨done, second, hasLeaves'⟩ := unmapIdentity_returns hasLeaves
    booted.aligned lower (by
      intro k inside
      have value := @toNat_pg k (by omega)
      obtain ⟨flags, shown⟩ :=
        booted.identity (pg k) (by omega) (by omega)
      rw [translation] at shown
      obtain ⟨entry, found, _⟩ := Option.bind_eq_some_iff.mp shown
      refine ⟨entry, ?_, booted.unmarked _ _ found⟩
      rw [← found]
      exact writes_of_ne fun j below => pg_ne_firstMb (by omega) below)
  refine ⟨done, ?_, hasLeaves'⟩
  rw [remap, first]
  exact second

section Ends

variable {done : Mapper} {page : Word}

/-- The pages of the first megabyte's mapping. -/
theorem translation_firstMb (booted : Booted layout usedMem frames state)
    (frame : IsFrame chosen)
    (hasLeaves : HasLeaves layout
      (withoutIdentity usedMem
        (withFirstMb chosen (leafEntry state.mem state.pml4.toNat))) done)
    {k : Nat} (inside : k < 256) :
    ∃ flags, translation done.mem done.pml4.toNat (firstMb + pg k) =
      some (if k = 0 then chosen else pg k, flags) := by
  have lower := booted.lowerHalf
  have value := @toNat_pg k (by omega)
  have leaf : withoutIdentity usedMem
      (withFirstMb chosen (leafEntry state.mem state.pml4.toNat))
      (firstMb + pg k) = some (firstMbEntry chosen k) := by
    rw [withoutIdentity, writes_of_ne fun j below =>
      (pg_ne_firstMb (by omega) inside).symm]
    exact writes_at (fun i j => firstMb_injective) inside
  have isFrame : IsFrame (if k = 0 then chosen else pg k) := by
    split
    · exact frame
    · exact (isFrame_iff _).mpr ⟨by omega, by omega⟩
  refine ⟨firstMbEntry chosen k &&& ptFlagsMask, ?_⟩
  rw [hasLeaves.translation_eq (isPage_firstMb inside)
    (firstMb_outside booted.linked inside) leaf, if_pos]
  · rw [firstMbEntry, frameOf_flags_or (by decide) isFrame]
  · exact has_or.mpr (Or.inl (by decide))

theorem physicalAddress_firstMb (translate : Word → Option (Word × Word))
    {offset : Nat} (inside : offset < 0x100000) :
    physicalAddress translate (firstMb + BitVec.ofNat 64 offset) =
      (translate (firstMb + pg (offset / 4096))).map fun target =>
        (target.1.toNat + offset % 4096, target.2) := by
  have aligned : (firstMb + pg (offset / 4096)).toNat % 4096 = 0 := by
    have value := @toNat_firstMb_add (offset / 4096) (by omega)
    omega
  rw [← physicalAddress_page_add aligned (Nat.mod_lt _ (by decide)),
    BitVec.add_assoc]
  refine congrArg (fun address => physicalAddress translate (firstMb + address))
    ?_
  apply BitVec.eq_of_toNat_eq
  have value := @toNat_pg (offset / 4096) (by omega)
  rw [BitVec.toNat_add, value, BitVec.toNat_ofNat, BitVec.toNat_ofNat]
  omega

/-- The loops do their work exactly when round 0 has got frame 0. -/
theorem remapped_iff (booted : Booted layout usedMem frames state)
    (frame : IsFrame chosen)
    (hasLeaves : HasLeaves layout
      (withoutIdentity usedMem
        (withFirstMb chosen (leafEntry state.mem state.pml4.toNat))) done) :
    Remapped layout usedMem state done ↔ chosen = 0#64 := by
  have lower := booted.lowerHalf
  have aligned := booted.aligned
  constructor
  · intro remapped
    obtain ⟨flags, shown⟩ := remapped.firstMb 0 (by decide)
    obtain ⟨flags', shown'⟩ :=
      translation_firstMb booted frame hasLeaves (by decide : 0 / 4096 < 256)
    rw [physicalAddress_firstMb _ (by decide), shown', if_pos rfl] at shown
    have sum := (Prod.mk.inj (Option.some.inj shown)).1
    exact BitVec.eq_of_toNat_eq sum
  · rintro rfl
    refine ⟨?_, ?_, ?_⟩
    · intro offset inside
      obtain ⟨flags, shown⟩ := translation_firstMb booted frame hasLeaves
        (by omega : offset / 4096 < 256)
      refine ⟨flags, ?_⟩
      rw [physicalAddress_firstMb _ inside, shown]
      have value := @toNat_pg (offset / 4096) (by omega)
      have target : (if offset / 4096 = 0 then 0#64
          else pg (offset / 4096)).toNat = 4096 * (offset / 4096) := by
        split
        · next first =>
          rw [first]
          rfl
        · exact value
      change some (_ + _, flags) = _
      rw [target]
      refine congrArg (fun sum => some (sum, flags)) ?_
      omega
    · intro page pageAligned below
      obtain ⟨k, small, rfl⟩ : ∃ k, k < 2 ^ 52 ∧ page = pg k := by
        have bound := page.isLt
        refine ⟨page.toNat / 4096, by omega, BitVec.eq_of_toNat_eq ?_⟩
        rw [toNat_pg (by omega)]
        omega
      rw [toNat_pg small] at below
      have isPage := @isPage_pg k (by omega)
      have outside := @pg_outside layout k (by omega)
      refine translation_eq_none fun entry found => ?_
      rw [hasLeaves.2 _ isPage outside, withoutIdentity,
        writes_at (fun i j iBelow jBelow =>
          pg_injective (by omega) (by omega)) (by omega)] at found
      obtain ⟨old, _, rfl⟩ := Option.map_eq_some_iff.mp found
      exact not_has_and_of_disjoint (by decide)
    · intro page isPage outside notFirstMb above
      rw [translation, translation, hasLeaves.2 page isPage outside,
        withoutIdentity, writes_of_ne, withFirstMb, writes_of_ne]
      · rintro k inside rfl
        refine notFirstMb ⟨?_, ?_⟩
        · rw [toNat_firstMb_add inside, toNat_firstMb]
          omega
        · rw [toNat_firstMb_add inside, toNat_firstMb]
          omega
      · rintro k inside rfl
        rw [toNat_pg (by omega)] at above
        omega

end Ends

/-- The loops of `main` do their work exactly where `_first_mb` shows frame 0
already before them. -/
theorem remap_iff (booted : Booted layout usedMem frames state) :
    (∃ done, remap layout usedMem state = .ok done ∧
      Remapped layout usedMem state done) ↔
    ∃ flags, translation state.mem state.pml4.toNat firstMb =
      some (0#64, flags) := by
  have wellFormed := booted.wellFormed
  have address : firstMb + pg 0 = firstMb := rfl
  have page := isPage_firstMb (by decide : 0 < 256)
  have outside := firstMb_outside booted.linked (by decide : 0 < 256)
  obtain ⟨entry, found⟩ := leafEntry_firstMb wellFormed (by decide : 0 < 256)
  rw [← address]
  by_cases present : Has entry pagePBit
  · -- the page keeps the frame that it has
    obtain ⟨first, mapped, updated⟩ := mapPage_replaces wellFormed page outside
      found (fun _ => present) (fun explicit => absurd rfl explicit)
      isFrame_zero (by decide : Has firstMbFlags pagePBit)
    obtain ⟨done, returned, hasLeaves⟩ := remap_returns booted mapped updated
    have same := remapped_iff booted (isFrame_frameOf entry) hasLeaves
    rw [translation_of_leafEntry found, if_pos present]
    constructor
    · rintro ⟨other, again, remapped⟩
      rw [returned] at again
      cases again
      exact ⟨_, congrArg (fun frame => some (frame, _)) (same.mp remapped)⟩
    · rintro ⟨flags, shown⟩
      exact ⟨done, returned, same.mpr (Prod.mk.inj (Option.some.inj shown)).1⟩
  · -- the page gets a free frame, or none is left
    rw [translation_of_leafEntry found, if_neg present]
    refine iff_of_false ?_ (fun shown => by
      obtain ⟨_, shown⟩ := shown
      cases shown)
    rintro ⟨done, returned, remapped⟩
    obtain ⟨table, walked, _⟩ := leafTable_of_leafEntry found
    rcases mapPage_returns wellFormed page outside walked isFrame_zero
        (by decide : Has firstMbFlags pagePBit) with
      ⟨first, mapped⟩ | ⟨panicked, _⟩
    · obtain ⟨rest, framesEq, updated⟩ := mapPage_allocates wellFormed page
        outside found present (by decide) mapped
      obtain ⟨other, again, hasLeaves⟩ := remap_returns booted mapped updated
      rw [returned] at again
      cases again
      have zero := (remapped_iff booted wellFormed.free.isFrame_first
        hasLeaves).mp remapped
      rw [wellFormed.free.first_eq_zero_iff.mp zero] at framesEq
      cases framesEq
    · have goesOn : MorePages 0x100000#64 0 state :=
        (by decide : pg 0 < 0x100000#64)
      obtain ⟨fuel, fuelEq⟩ : ∃ fuel, 2 ^ 52 = fuel + 1 :=
        ⟨2 ^ 52 - 1, by omega⟩
      rw [remap, mapFirstMb, fuelEq, whileLoop_stops goesOn panicked]
        at returned
      cases returned

end Loops

/-! ## A booted state -/

/-- The tables of a kernel that uses two megabytes: one table at each level for
the special pages, for the image and for the identity mapping. -/
def smallPaths : List (Nat × List Index) :=
  [(0x101, []), (0x102, [511]), (0x103, [511, 511]), (0x104, [511, 511, 511]),
    (0x105, [0]), (0x106, [0, 0]), (0x107, [0, 0, 0]), (0x108, [511, 0]),
    (0x109, [511, 0, 0])]

def smallLinks : List (Nat × Nat) :=
  [(512 * 0x101 + 511, 0x102), (512 * 0x102 + 511, 0x103),
    (512 * 0x103 + 511, 0x104), (512 * 0x101, 0x105), (512 * 0x105, 0x106),
    (512 * 0x106, 0x107), (512 * 0x102, 0x108), (512 * 0x108, 0x109)]

/-- The leaf entries: the identity mapping, one page of the image, the window,
its page table and the kernel stack. A block of two free frames follows the
memory in use. -/
def smallRest (position : Nat) : Word :=
  if 512 * 0x107 ≤ position ∧ position < 512 * 0x108 then
    BitVec.ofNat 64 (4096 * (position - 512 * 0x107) + 0x103)
  else if position = 512 * 0x109 then BitVec.ofNat 64 (4096 * 0x180 + 0x103)
  else if 512 * 0x104 + 508 ≤ position ∧ position < 512 * 0x105 then
    0x103#64
  else if position = 512 * 0x104 + 507 then
    BitVec.ofNat 64 (4096 * 0x104 + 0x103)
  else if position = 512 * 0x104 + 503 then
    BitVec.ofNat 64 (4096 * 0x202 + 0x103)
  else if position = 512 * 0x200 then 2#64
  else 0#64

def smallUsedMem : Word := 0x200000#64

def smallLayout : Layout :=
  ⟨4096 * 0x104, 4, by decide, by decide, fourPages_pos, fourPages_le⟩

def smallState : Mapper where
  mem := ofWords (listedWord smallLinks smallRest)
  windowBase := 0#64
  physWindow := 0#64
  pml4 := BitVec.ofNat 64 (4096 * 0x101)
  firstFreeBlock := 0x200000#64

theorem smallRest_of_ne {position : Nat}
    (elsewhere : position / 512 ∉ [0x104, 0x107, 0x109, 0x200]) :
    smallRest position = 0#64 := by
  simp only [List.mem_cons, List.not_mem_nil, not_or, or_false] at elsewhere
  rw [smallRest, if_neg (by omega), if_neg (by omega), if_neg (by omega),
    if_neg (by omega), if_neg (by omega), if_neg (by omega)]

theorem lists_small : Lists 0x101 smallPaths smallLinks smallRest where
  start := rfl
  small := by decide
  linked := by decide
  empty := by
    intro path member upper index
    have bound := index.isLt
    have away : ∀ path ∈ smallPaths, path.2.length < 3 →
        path.1 ∉ [0x104, 0x107, 0x109, 0x200] := by decide
    rw [smallRest_of_ne]
    · decide
    · rw [show (512 * path.1 + index.val) / 512 = path.1 by omega]
      exact away path member upper

theorem unmarked_small (position : Nat) :
    ¬ Has (listedWord smallLinks smallRest position) pageFBit := by
  rw [listedWord]
  split
  · exact (has_ofNat_iff (by decide)).not.mpr (by decide)
  · rw [smallRest]
    split
    · exact (has_ofNat_iff (by decide)).not.mpr (by decide)
    · repeat' split
      all_goals decide

theorem smallState_wellFormed :
    WellFormed smallLayout smallState (blockFrames 4096 0x200000 2)
    where
  tables := by
    refine ⟨tree_listed lists_small, ?_⟩
    have first := @child_listed _ _ _ _ 0x101 0x102 511 lists_small (by decide)
    have second := @child_listed _ _ _ _ 0x102 0x103 511 lists_small (by decide)
    have third := @child_listed _ _ _ _ 0x103 0x104 511 lists_small (by decide)
    exact (walk_cons_of_child first).trans
      ((walk_cons_of_child second).trans (walk_cons_of_child third))
  free :=
    freeList_ofWords (by decide : 0x200000 ≠ 0)
      (by decide : 0x200000 % 4096 = 0) (by decide)
      (by decide : 0x200000 + 4096 * 2 ≤ 2 ^ 52) rfl rfl
  distinct := blockFrames_nodup (by decide)
  tables_used := by
    rintro table ⟨path, short, reached⟩ member
    obtain ⟨position, below, rfl⟩ := mem_blockFrames.mp member
    have place := mem_of_lookup (lookup_of_walk lists_small path short reached).2
    have bound : ∀ path ∈ smallPaths, path.1 < 0x200 := by decide
    have frame := bound _ place
    change (0x200000 + 4096 * position) / 4096 < 0x200 at frame
    omega

/-- The identity mapping. -/
theorem leafEntry_small {page : Word} (below : page.toNat < 0x200000) :
    leafEntry smallState.mem smallState.pml4.toNat page =
      some (BitVec.ofNat 64 (4096 * (page.toNat / 4096) + 0x103)) := by
  have first : indexAt page 39 = 0 := by
    refine Fin.ext ?_
    rw [indexAt_val]
    change _ = 0
    omega
  have second : indexAt page 30 = 0 := by
    refine Fin.ext ?_
    rw [indexAt_val]
    change _ = 0
    omega
  have third : indexAt page 21 = 0 := by
    refine Fin.ext ?_
    rw [indexAt_val]
    change _ = 0
    omega
  have toPdp := @child_listed _ _ _ _ 0x101 0x105 0 lists_small (by decide)
  have toPd := @child_listed _ _ _ _ 0x105 0x106 0 lists_small (by decide)
  have toPt := @child_listed _ _ _ _ 0x106 0x107 0 lists_small (by decide)
  have walked : leafTable smallState.mem smallState.pml4.toNat page =
      some (4096 * 0x107) := by
    rw [leafTable, upperPath, first, second, third]
    exact (walk_cons_of_child toPdp).trans
      ((walk_cons_of_child toPd).trans (walk_cons_of_child toPt))
  have index : (leafIndex page).val = page.toNat / 4096 := by
    rw [leafIndex, indexAt_val]
    omega
  have word : readEntry smallState.mem (4096 * 0x107) (leafIndex page) =
      listedWord smallLinks smallRest
        (512 * 0x107 + (leafIndex page).val) := readEntry_listed
  have unlinked : smallLinks.lookup
      (512 * 0x107 + (leafIndex page).val) = none := by
    have bound : ∀ index : Index,
        smallLinks.lookup (512 * 0x107 + index.val) = none := by
      decide +kernel
    exact bound (leafIndex page)
  rw [leafEntry_of_leafTable walked, word, listedWord, unlinked, smallRest,
    if_pos (by omega), index, Nat.add_sub_cancel_left]

theorem booted_small :
    Booted smallLayout smallUsedMem (blockFrames 4096 0x200000 2)
      smallState where
  wellFormed := smallState_wellFormed
  linked := rfl
  aligned := by decide
  above := by decide
  lowerHalf := by decide
  identity := by
    intro page aligned below
    change page.toNat < 0x200000 at below
    have present : Has (BitVec.ofNat 64 (4096 * (page.toNat / 4096) + 0x103))
        pagePBit := (has_ofNat_iff (by decide)).mpr (by decide)
    have frame : frameOf
        (BitVec.ofNat 64 (4096 * (page.toNat / 4096) + 0x103)) = page := by
      apply BitVec.eq_of_toNat_eq
      rw [toNat_frameOf, BitVec.toNat_ofNat]
      omega
    refine ⟨BitVec.ofNat 64 (4096 * (page.toNat / 4096) + 0x103) &&&
      ptFlagsMask, ?_⟩
    rw [translation_of_leafEntry (leafEntry_small below), if_pos present,
      frame]
  unmarked := by
    intro virt entry found
    obtain ⟨table, walked, rfl⟩ := Option.map_eq_some_iff.mp found
    obtain ⟨aligned, _⟩ := lookup_of_walk lists_small _ (by simp) walked
    obtain ⟨frame, rfl⟩ : ∃ frame, table = 4096 * frame :=
      ⟨table / 4096, by omega⟩
    have word : readEntry smallState.mem (4096 * frame) (leafIndex virt) = _ :=
      readEntry_listed
    rw [word]
    exact unmarked_small _

theorem remap_iff_small :
    (∃ done, remap smallLayout smallUsedMem smallState = .ok done ∧
      Remapped smallLayout smallUsedMem smallState done) ↔
    ∃ flags, translation smallState.mem smallState.pml4.toNat firstMb =
      some (0#64, flags) :=
  remap_iff booted_small

/-- The page `_first_mb` gets a free frame. -/
theorem firstMb_not_remapped :
    Booted smallLayout smallUsedMem (blockFrames 4096 0x200000 2)
        smallState ∧
      ¬ ∃ done, remap smallLayout smallUsedMem smallState = .ok done ∧
        Remapped smallLayout smallUsedMem smallState done := by
  refine ⟨booted_small, ?_⟩
  rintro ⟨done, returned, remapped⟩
  have found : leafEntry smallState.mem smallState.pml4.toNat
      (firstMb + pg 0) = some 0#64 := by
    have walked : leafTable smallState.mem smallState.pml4.toNat
        (firstMb + pg 0) = some (4096 * 0x104) := by
      rw [leafTable, upperPath_firstMb (by decide)]
      exact smallState_wellFormed.tables.window
    rw [leafEntry_of_leafTable walked]
    exact congrArg some (readEntry_listed.trans (by decide))
  obtain ⟨table, walked, _⟩ := leafTable_of_leafEntry found
  have page := isPage_firstMb (by decide : 0 < 256)
  have outside := @firstMb_outside smallLayout 0 rfl (by decide)
  rcases mapPage_returns smallState_wellFormed page outside walked
      isFrame_zero (by decide : Has firstMbFlags pagePBit) with
    ⟨first, mapped⟩ | ⟨_, _, _, empty⟩
  · obtain ⟨rest, _, updated⟩ := mapPage_allocates smallState_wellFormed page
      outside found (by decide) (by decide) mapped
    obtain ⟨other, again, hasLeaves⟩ :=
      remap_returns booted_small mapped updated
    rw [returned] at again
    cases again
    have zero := (remapped_iff booted_small (by decide) hasLeaves).mp remapped
    exact absurd zero (by decide)
  · exact absurd empty (by decide)

end BeaverOS.Boot
