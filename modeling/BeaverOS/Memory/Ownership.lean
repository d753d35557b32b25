import BeaverOS.Lib.Transition
import BeaverOS.Memory.Calls
import BeaverOS.Memory.Conservation

/-!
# Owners of frames

A physical frame is free, or a table, or pages map it. A leaf entry with
`PAGE_F_BIT` gives its frame back when the page gets another one, so such a
frame must have no other page. Under this rule for the callers, and as long as
no page with `PAGE_F_BIT` is unmapped, no free frame is in use after any run of
`add_phys_mem` and `map_page`.
-/

namespace BeaverOS.Ownership

open BeaverOS.ByteMemory
open BeaverOS.BlockChain
open BeaverOS.RadixTree
open BeaverOS.Paging
open BeaverOS.Transition
open BeaverOS.Window
open BeaverOS.FrameAllocator
open BeaverOS.PageTree
open BeaverOS.Mapper
open BeaverOS.MapperState
open BeaverOS.UpperFlags
open BeaverOS.BootState
open BeaverOS.Unmap
open BeaverOS.Populated
open BeaverOS.Calls

/-! ## Pages and their frames -/

/-- The leaf entry of `virt`, a page outside of the window, has the bit and
names the frame. -/
structure Names (layout : Layout) (state : Mapper) (bit virt : Word)
    (frame : Nat) : Prop where
  page : IsPage virt
  outside : ¬ InWindow layout virt
  entry :
    ∃ entry, leafEntry state.mem state.pml4.toNat virt = some entry ∧
      Has entry bit ∧ (frameOf entry).toNat = frame

/-- The page is present, or is to give the frame back. -/
def Holds (layout : Layout) (state : Mapper) (virt : Word) (frame : Nat) :
    Prop :=
  Names layout state pagePBit virt frame ∨
    Names layout state pageFBit virt frame

/-- A table frame, or the frame of a page. -/
def InUse (layout : Layout) (state : Mapper) (frame : Nat) : Prop :=
  IsTable state.mem state.pml4.toNat frame ∨
    ∃ virt, Holds layout state virt frame

/-- Nobody but `virt` uses the frame. -/
structure Single (layout : Layout) (state : Mapper) (virt : Word)
    (frame : Nat) : Prop where
  notTable : ¬ IsTable state.mem state.pml4.toNat frame
  only : ∀ other, Holds layout state other frame → other = virt

/-- No free frame is in use, and a frame that goes back with its page has no
other page. -/
structure Owned (layout : Layout) (state : Mapper) (frames : List Nat) :
    Prop where
  wellFormed : WellFormed layout state frames
  held : ∀ virt frame, Holds layout state virt frame → frame ∉ frames
  single :
    ∀ virt frame, Names layout state pageFBit virt frame →
      Single layout state virt frame

/-- No frame has two owners. -/
def SingleOwner (layout : Layout) (state : Mapper) : Prop :=
  ∃ frames, Owned layout state frames

section Pages

variable {layout : Layout} {state state' : Mapper}
  {bit virt other value : Word} {frame : Nat} {frames frames' : List Nat}

theorem Owned.unused (owned : Owned layout state frames)
    (inUse : InUse layout state frame) : frame ∉ frames := by
  rcases inUse with isTable | ⟨virt, holds⟩
  · exact owned.wellFormed.tables_used frame isTable
  · exact owned.held virt frame holds

theorem Names.congr (names : Names layout state' bit virt frame)
    (same : leafEntry state'.mem state'.pml4.toNat virt =
      leafEntry state.mem state.pml4.toNat virt) :
    Names layout state bit virt frame := by
  obtain ⟨entry, found, has⟩ := names.entry
  exact ⟨names.page, names.outside, entry, same.symm.trans found, has⟩

theorem Names.elsewhere
    (updated : Updated layout state state' virt value frames')
    (different : other ≠ virt) (names : Names layout state' bit other frame) :
    Names layout state bit other frame :=
  names.congr (updated.elsewhere names.page different names.outside)

theorem Names.here (updated : Updated layout state state' virt value frames')
    (names : Names layout state' bit virt frame) :
    Has value bit ∧ (frameOf value).toNat = frame := by
  obtain ⟨entry, found, has⟩ := names.entry
  rw [updated.here] at found
  cases found
  exact has

theorem Holds.elsewhere
    (updated : Updated layout state state' virt value frames')
    (different : other ≠ virt) (holds : Holds layout state' other frame) :
    Holds layout state other frame :=
  holds.imp (Names.elsewhere updated different)
    (Names.elsewhere updated different)

theorem Holds.here (updated : Updated layout state state' virt value frames')
    (holds : Holds layout state' virt frame) :
    (Has value pagePBit ∨ Has value pageFBit) ∧
      (frameOf value).toNat = frame := by
  rcases holds with present | marked
  · exact ⟨Or.inl (Names.here updated present).1,
      (Names.here updated present).2⟩
  · exact ⟨Or.inr (Names.here updated marked).1,
      (Names.here updated marked).2⟩

/-- One new leaf entry, for a frame that no other page is to give back. -/
theorem owned_of_updated (owned : Owned layout state frames)
    (updated : Updated layout state state' virt value frames')
    (others : ∀ other frame, other ≠ virt → Holds layout state other frame →
      frame ∉ frames')
    (here : Has value pagePBit ∨ Has value pageFBit →
      (frameOf value).toNat ∉ frames' ∧
        ∀ other, Names layout state pageFBit other (frameOf value).toNat →
          other = virt)
    (single : Has value pageFBit →
      Single layout state virt (frameOf value).toNat) :
    Owned layout state' frames' := by
  refine ⟨updated.wellFormed, ?_, ?_⟩
  · intro other frame holds
    by_cases isHere : other = virt
    · subst isHere
      obtain ⟨has, rfl⟩ := holds.here updated
      exact (here has).1
    · exact others other frame isHere (holds.elsewhere updated isHere)
  · intro owner frame marked
    by_cases isHere : owner = virt
    · subst isHere
      obtain ⟨has, rfl⟩ := marked.here updated
      refine ⟨fun isTable => (single has).notTable
        (updated.isTable_iff.mp isTable), ?_⟩
      intro other holds
      by_contra different
      exact different
        ((single has).only other (holds.elsewhere updated different))
    · have before := marked.elsewhere updated isHere
      have alone := owned.single owner frame before
      refine ⟨fun isTable => alone.notTable
        (updated.isTable_iff.mp isTable), ?_⟩
      intro other holds
      by_cases otherHere : other = virt
      · subst otherHere
        obtain ⟨has, rfl⟩ := holds.here updated
        exact absurd ((here has).2 owner before) isHere
      · exact alone.only other (holds.elsewhere updated otherHere)

/-- The pages stay, and the free frames are old ones or unused ones. -/
theorem owned_of_keeps (owned : Owned layout state frames)
    (pml4 : state'.pml4 = state.pml4)
    (keeps : KeepsPages layout state.pml4.toNat state.mem state'.mem)
    (free : FreeList state'.mem state'.firstFreeBlock frames')
    (distinct : frames'.Nodup)
    (unused : ∀ frame ∈ frames',
      frame ∈ frames ∨ ¬ InUse layout state frame) :
    Owned layout state' frames' := by
  have tables : ∀ {frame : Nat},
      IsTable state'.mem state'.pml4.toNat frame ↔
        IsTable state.mem state.pml4.toNat frame := by
    intro frame
    rw [pml4]
    exact keeps.isTable_iff
  have before : ∀ {bit other : Word} {frame : Nat},
      Names layout state' bit other frame →
        Names layout state bit other frame := by
    intro bit other frame names
    refine names.congr ?_
    rw [pml4]
    exact keeps.leafEntry_eq owned.wellFormed.tables names.outside
  have stillFree : ∀ {frame : Nat}, InUse layout state frame →
      frame ∉ frames' := by
    intro frame inUse member
    rcases unused frame member with inFrames | notInUse
    · exact owned.unused inUse inFrames
    · exact notInUse inUse
  refine ⟨⟨?_, free, distinct, ?_⟩, ?_, ?_⟩
  · rw [pml4]
    exact keeps.tables owned.wellFormed.tables
  · intro table isTable
    exact stillFree (Or.inl (tables.mp isTable))
  · intro other frame holds
    exact stillFree (Or.inr ⟨other, holds.imp before before⟩)
  · intro owner frame marked
    have alone := owned.single owner frame (before marked)
    exact ⟨fun isTable => alone.notTable (tables.mp isTable),
      fun other holds => alone.only other (holds.imp before before)⟩

end Pages

/-! ## The callers' rule -/

/-- What a caller keeps to that maps a page: a frame that it names is not free,
and no other page is to give it back. With `PAGE_F_BIT` the frame has no other
use. -/
structure MapsSoundly (layout : Layout) (state : Mapper)
    (virt phys flags : Word) : Prop where
  notFree : phys ≠ mapAnon → phys.toNat ∉ freeFrames state
  notOwed :
    phys ≠ mapAnon → ∀ other, Names layout state pageFBit other phys.toNat →
      other = virt
  given :
    Has flags pageFBit → phys ≠ mapAnon →
      Single layout state virt phys.toNat
  kept :
    Has flags pageFBit → phys = mapAnon →
      ∀ frame, Names layout state pagePBit virt frame →
        Single layout state virt frame

inductive Operation where
  | addPhysMem (physMemStart length : Word)
  | mapPage (virt phys flags : Word)
  deriving DecidableEq

def perform (layout : Layout) (state : Mapper) :
    Operation → Except Halt Mapper
  | .addPhysMem physMemStart length =>
      addPhysMem layout state physMemStart length
  | .mapPage virt phys flags => mapPage layout state virt phys flags

/-- Blocks are added once, and hold no frame that is in use. Pages are mapped
where their tables exist. The window's own pages are free of rules. -/
def Sound (layout : Layout) (state : Mapper) : Operation → Prop
  | .addPhysMem physMemStart length =>
      Allowed state (.addPhysMem physMemStart length) ∧
        ∀ frame ∈ addedFrames physMemStart length,
          ¬ InUse layout state frame
  | .mapPage virt phys flags =>
      (∃ table, leafTable state.mem state.pml4.toNat virt = some table) ∧
        (¬ InWindow layout virt →
          (Has flags pagePBit → MapsSoundly layout state virt phys flags) ∧
          (¬ Has flags pagePBit → ¬ FreesOnUnmap state virt))

/-- A call that keeps the rule and returns. -/
def Step (layout : Layout) (state : Mapper) (operation : Operation)
    (state' : Mapper) : Prop :=
  Sound layout state operation ∧ perform layout state operation = .ok state'

section Calls

variable {layout : Layout} {state state' : Mapper}
  {virt phys flags entry physMemStart length : Word} {frames : List Nat}

/-- `add_phys_mem` keeps the pages, and puts its block in front. -/
theorem addPhysMem_adds (wellFormed : WellFormed layout state frames)
    (allowed : Allowed state (.addPhysMem physMemStart length))
    (notTable : ¬ IsTable state.mem state.pml4.toNat physMemStart.toNat) :
    ∃ state', addPhysMem layout state physMemStart length = .ok state' ∧
      state'.pml4 = state.pml4 ∧
      KeepsPages layout state.pml4.toNat state.mem state'.mem ∧
      FreeList state'.mem state'.firstFreeBlock
        (blockFrames 4096 physMemStart.toNat (length.toNat / 4096) ++
          frames) ∧
      (blockFrames 4096 physMemStart.toNat (length.toNat / 4096) ++
        frames).Nodup := by
  obtain ⟨aligned, nonzero, long, bounded, apart⟩ := allowed
  rw [freeFrames_eq wellFormed.free] at apart
  have first : physMemStart.toNat ∈ addedFrames physMemStart length :=
    start_mem_blockFrames (by omega)
  have fresh : physMemStart.toNat ∉ frames := fun member =>
    Set.disjoint_left.mp apart first member
  obtain ⟨state', added, free, agree⟩ :=
    addPhysMem_spec layout wellFormed.free aligned nonzero long bounded fresh
  have frame : IsFrame physMemStart :=
    (isFrame_iff physMemStart).mpr ⟨aligned, by omega⟩
  have pml4 : state'.pml4 = state.pml4 := by
    rw [addPhysMem_eq frame] at added
    cases added
    rfl
  refine ⟨state', added, pml4, ?_, free, ?_⟩
  · refine KeepsPages.of_agreeOff _ wellFormed.tables agree ?_
    intro table isTable
    have different : physMemStart.toNat ≠ table := fun equal =>
      notTable (equal ▸ isTable)
    have header : physMemStart.toNat + 16 ≤ physMemStart.toNat + 4096 := by
      omega
    exact (frames_disjoint aligned
      (isTable.bounds wellFormed.tables.tree).1 different
      (Nat.le_refl _) header).symm
  · exact List.nodup_append'.mpr
      ⟨blockFrames_nodup (by decide), wellFormed.distinct,
        fun _ inBlock inFree => Set.disjoint_left.mp apart inBlock inFree⟩

theorem owned_addPhysMem (owned : Owned layout state frames)
    (allowed : Allowed state (.addPhysMem physMemStart length))
    (unused : ∀ frame ∈ addedFrames physMemStart length,
      ¬ InUse layout state frame)
    (added : addPhysMem layout state physMemStart length = .ok state') :
    Owned layout state'
      (blockFrames 4096 physMemStart.toNat (length.toNat / 4096) ++
        frames) := by
  have long := allowed.2.2.1
  have first : physMemStart.toNat ∈ addedFrames physMemStart length :=
    start_mem_blockFrames (by omega)
  obtain ⟨result, returned, pml4, keeps, free, distinct⟩ :=
    addPhysMem_adds owned.wellFormed allowed
      fun isTable => unused _ first (Or.inl isTable)
  rw [returned] at added
  cases added
  refine owned_of_keeps owned pml4 keeps free distinct ?_
  intro other member
  rcases List.mem_append.mp member with inBlock | inFree
  · exact Or.inr (unused other inBlock)
  · exact Or.inl inFree

theorem owned_inWindow (owned : Owned layout state frames)
    (inside : InWindow layout virt)
    (mapped : mapPage layout state virt phys flags = .ok state') :
    Owned layout state' frames := by
  have wellFormed := owned.wellFormed
  obtain ⟨page, frame⟩ := asserted_of_mapPage mapped
  by_cases present : Has flags pagePBit
  · obtain ⟨pml4, first, flagged, -⟩ :=
      mapPage_inWindow wellFormed.tables page inside frame present mapped
    have noFrame := noFrame_of_pml4Flags flags
    have after :=
      wellFormed_of_flagged wellFormed noFrame flagged pml4 first
    exact owned_of_keeps owned pml4 (flagged.keeps noFrame) after.free
      after.distinct fun _ member => Or.inl member
  · rw [mapPage_eq_unmapPage page frame present] at mapped
    have same := unmapPage_inWindow wellFormed.tables inside mapped
    exact owned_of_keeps owned same.pml4
      (same.keepsPages wellFormed.tables) (wellFormed.free_looked same)
      wellFormed.distinct fun _ member => Or.inl member

/-- What a new leaf entry names. -/
theorem frameOf_stored (flags : Word) (frame : IsFrame phys) :
    frameOf ((flags &&& ptFlagsMask) ||| phys) = phys :=
  frameOf_flags_or (by decide) frame

theorem marked_of_stored (frame : IsFrame phys)
    (marked : Has ((flags &&& ptFlagsMask) ||| phys) pageFBit) :
    Has flags pageFBit := by
  rcases has_or.mp marked with marked | marked
  · exact (has_and_of_subset (by decide)).mp marked
  · exact absurd marked (not_has_of_isFrame frame (by decide))

/-- An anonymous page gets a frame that nobody uses. -/
theorem owned_allocates (owned : Owned layout state frames)
    (page : IsPage virt) (outside : ¬ InWindow layout virt)
    (found : leafEntry state.mem state.pml4.toNat virt = some entry)
    (absent : ¬ Has entry pagePBit) (present : Has flags pagePBit)
    (mapped : mapPage layout state virt mapAnon flags = .ok state') :
    SingleOwner layout state' := by
  obtain ⟨rest, split, updated⟩ := mapPage_allocates owned.wellFormed page
    outside found absent present mapped
  have first : state.firstFreeBlock.toNat ∈ frames :=
    split ▸ List.mem_cons_self
  have frameEq :=
    frameOf_stored flags owned.wellFormed.free.isFrame_first
  have distinct := owned.wellFormed.distinct
  rw [split, List.nodup_cons] at distinct
  refine ⟨rest, owned_of_updated owned updated ?_ ?_ ?_⟩
  · intro other frame _ holds member
    exact owned.held other frame holds
      (split ▸ List.mem_cons_of_mem _ member)
  · intro _
    rw [frameEq]
    exact ⟨distinct.1, fun other marked =>
      absurd first (owned.held other _ (Or.inr marked))⟩
  · intro _
    rw [frameEq]
    exact ⟨fun isTable => owned.wellFormed.tables_used _ isTable first,
      fun other holds => absurd first (owned.held other _ holds)⟩

/-- A page gets a frame that its caller vouches for, and its old one goes back
if its entry says so. -/
theorem owned_places (owned : Owned layout state frames)
    (page : IsPage virt) (outside : ¬ InWindow layout virt)
    (found : leafEntry state.mem state.pml4.toNat virt = some entry)
    (explicit : phys ≠ mapAnon) (frame : IsFrame phys)
    (present : Has flags pagePBit)
    (sound : MapsSoundly layout state virt phys flags)
    (mapped : mapPage layout state virt phys flags = .ok state') :
    SingleOwner layout state' := by
  have frameEq := frameOf_stored flags frame
  have notFree : phys.toNat ∉ frames := by
    have notMember := sound.notFree explicit
    rw [freeFrames_eq owned.wellFormed.free] at notMember
    exact notMember
  have single : Has ((flags &&& ptFlagsMask) ||| phys) pageFBit →
      Single layout state virt
        (frameOf ((flags &&& ptFlagsMask) ||| phys)).toNat := by
    intro marked
    rw [frameEq]
    exact sound.given (marked_of_stored frame marked) explicit
  by_cases releases : phys ≠ frameOf entry ∧ Has entry pageFBit
  · obtain ⟨different, marked⟩ := releases
    have names : Names layout state pageFBit virt (frameOf entry).toNat :=
      ⟨page, outside, entry, found, marked, rfl⟩
    have alone := owned.single virt _ names
    have updated := mapPage_releases owned.wellFormed page outside found
      explicit different marked alone.notTable
      (owned.held virt _ (Or.inr names)) frame present mapped
    refine ⟨_, owned_of_updated owned updated ?_ ?_ single⟩
    · intro other held notHere holds member
      rcases mem_givenBack member with rfl | inFrames
      · exact notHere (alone.only other holds)
      · exact owned.held other held holds inFrames
    · intro _
      rw [frameEq]
      refine ⟨fun member => ?_, sound.notOwed explicit⟩
      rcases mem_givenBack member with same | inFrames
      · exact different (BitVec.eq_of_toNat_eq same)
      · exact notFree inFrames
  · obtain ⟨result, returned, updated⟩ := mapPage_replaces owned.wellFormed
      page outside found (fun anonymous => absurd anonymous explicit)
      (fun _ different marked => releases ⟨different, marked⟩) frame present
    rw [returned] at mapped
    cases mapped
    rw [if_neg explicit] at updated
    refine ⟨_, owned_of_updated owned updated ?_ ?_ single⟩
    · intro other held _ holds
      exact owned.held other held holds
    · intro _
      rw [frameEq]
      exact ⟨notFree, sound.notOwed explicit⟩

/-- An anonymous page that is present keeps its frame. -/
theorem owned_reuses (owned : Owned layout state frames)
    (page : IsPage virt) (outside : ¬ InWindow layout virt)
    (found : leafEntry state.mem state.pml4.toNat virt = some entry)
    (isPresent : Has entry pagePBit) (present : Has flags pagePBit)
    (sound : MapsSoundly layout state virt mapAnon flags)
    (mapped : mapPage layout state virt mapAnon flags = .ok state') :
    SingleOwner layout state' := by
  have names : Names layout state pagePBit virt (frameOf entry).toNat :=
    ⟨page, outside, entry, found, isPresent, rfl⟩
  have frameEq := frameOf_stored flags (isFrame_frameOf entry)
  obtain ⟨result, returned, updated⟩ := mapPage_replaces owned.wellFormed
    page outside found (fun _ => isPresent)
    (fun explicit => absurd rfl explicit) isFrame_zero present
  rw [returned] at mapped
  cases mapped
  rw [if_pos rfl] at updated
  refine ⟨_, owned_of_updated owned updated ?_ ?_ ?_⟩
  · intro other held _ holds
    exact owned.held other held holds
  · intro _
    rw [frameEq]
    refine ⟨owned.held virt _ (Or.inl names), ?_⟩
    intro other marked
    exact ((owned.single other _ marked).only virt (Or.inl names)).symm
  · intro marked
    rw [frameEq]
    exact sound.kept
      (marked_of_stored (isFrame_frameOf entry) marked) rfl _ names

/-- Unmapping a page that gives nothing back. -/
theorem owned_clears (owned : Owned layout state frames)
    (page : IsPage virt) (outside : ¬ InWindow layout virt)
    (found : leafEntry state.mem state.pml4.toNat virt = some entry)
    (frame : IsFrame phys) (unmap : ¬ Has flags pagePBit)
    (unfreed : ¬ FreesOnUnmap state virt)
    (mapped : mapPage layout state virt phys flags = .ok state') :
    Owned layout state' frames := by
  obtain ⟨result, returned, updated⟩ := mapPage_clears owned.wellFormed page
    outside found
    (fun present marked => unfreed ⟨entry, found, present, marked⟩) frame unmap
  rw [returned] at mapped
  cases mapped
  have cleared : ¬ Has (entry &&& ~~~pagePBit) pagePBit :=
    not_has_and_of_disjoint (by decide)
  have frameEq : frameOf (entry &&& ~~~pagePBit) = frameOf entry := by
    rw [frameOf, BitVec.and_assoc, frameOf]
    rfl
  have before : Has (entry &&& ~~~pagePBit) pageFBit →
      Names layout state pageFBit virt (frameOf entry).toNat := fun marked =>
    ⟨page, outside, entry, found,
      (has_and_of_subset (by decide)).mp marked, rfl⟩
  refine owned_of_updated owned updated ?_ ?_ ?_
  · intro other held _ holds
    exact owned.held other held holds
  · intro has
    have marked := before (has.resolve_left cleared)
    rw [frameEq]
    refine ⟨owned.held virt _ (Or.inr marked), ?_⟩
    intro other owes
    exact ((owned.single other _ owes).only virt (Or.inr marked)).symm
  · intro marked
    rw [frameEq]
    exact owned.single virt _ (before marked)

/-- Every call that keeps the rule keeps the owners apart. -/
theorem owned_step (owned : Owned layout state frames)
    {operation : Operation} (step : Step layout state operation state') :
    SingleOwner layout state' := by
  obtain ⟨sound, performed⟩ := step
  cases operation with
  | addPhysMem physMemStart length =>
      exact ⟨_, owned_addPhysMem owned sound.1 sound.2 performed⟩
  | mapPage virt phys flags =>
      obtain ⟨⟨table, walked⟩, rule⟩ := sound
      obtain ⟨page, frame⟩ := asserted_of_mapPage performed
      have found := leafEntry_of_leafTable walked
      by_cases inside : InWindow layout virt
      · exact ⟨frames, owned_inWindow owned inside performed⟩
      obtain ⟨maps, unmaps⟩ := rule inside
      by_cases present : Has flags pagePBit
      · by_cases explicit : phys = mapAnon
        · subst explicit
          by_cases isPresent : Has
              (readEntry state.mem table (leafIndex virt)) pagePBit
          · exact owned_reuses owned page inside found isPresent present
              (maps present) performed
          · exact owned_allocates owned page inside found isPresent present
              performed
        · exact owned_places owned page inside found explicit frame present
            (maps present) performed
      · exact ⟨frames, owned_clears owned page inside found frame present
          (unmaps present) performed⟩

/-- The frame that `alloc_page` returns was free. -/
theorem mem_of_allocPage {page : Word}
    (wellFormed : WellFormed layout state frames)
    (allocated : allocPage layout state = .ok (page, state')) :
    page.toNat ∈ frames := by
  have free := wellFormed.free
  cases frames with
  | nil =>
      rw [allocPage_empty (free.first_eq_zero_iff.mpr rfl)] at allocated
      cases allocated
  | cons frame rest =>
      obtain ⟨result, returned, -⟩ : ∃ result,
          allocPage layout state = .ok (state.firstFreeBlock, result) ∧
            Taken layout state result rest :=
        allocPage_spec free wellFormed.distinct
      rw [returned] at allocated
      cases allocated
      rw [free.first_eq]
      exact List.mem_cons_self

end Calls

/-- After every run that keeps the rule, the free list holds no frame twice and
no frame that is in use, and `alloc_page` hands out no frame that is in use. -/
theorem run_singleOwner (layout : Layout) (start state : Mapper)
    (operations : List Operation)
    (tables : Tables layout start.mem start.pml4.toNat)
    (empty : start.firstFreeBlock = 0#64)
    (single : ∀ virt frame, Names layout start pageFBit virt frame →
      Single layout start virt frame)
    (run : Run (Step layout) start operations state) :
    Intact state ∧
      (∀ frame ∈ freeFrames state, ¬ InUse layout state frame) ∧
      ∀ page state', allocPage layout state = .ok (page, state') →
        ¬ InUse layout state page.toNat := by
  have free : FreeList start.mem start.firstFreeBlock [] := by
    rw [empty]
    exact Chain.nil
  have initial : SingleOwner layout start :=
    ⟨[], ⟨tables, free, List.nodup_nil, fun _ _ => List.not_mem_nil⟩,
      fun _ _ _ => List.not_mem_nil, single⟩
  have reached : SingleOwner layout state := by
    refine run.invariant initial ?_
    intro before operation after singleOwner step
    obtain ⟨frames, owned⟩ := singleOwner
    exact owned_step owned step
  obtain ⟨frames, owned⟩ := reached
  refine ⟨⟨frames, owned.wellFormed.free, owned.wellFormed.distinct⟩, ?_, ?_⟩
  · intro frame isFree inUse
    rw [freeFrames_eq owned.wellFormed.free] at isFree
    exact owned.unused inUse isFree
  · intro page state' allocated inUse
    exact owned.unused inUse (mem_of_allocPage owned.wellFormed allocated)

/-! ## Two pages with one frame -/

/-- The boot state with these leaf entries and no free frame. -/
def emptyBoot (leaf : Nat → Word) : Mapper := bootState 3#64 leaf 0

section Small

variable {leaf : Nat → Word} {state' : Mapper} {index : Index}

theorem emptyBoot_wellFormed (leaf : Nat → Word) :
    WellFormed bootLayout (emptyBoot leaf) [] :=
  bootState_wellFormed (by decide) (by decide) (by decide)

theorem emptyBoot_allowed (leaf : Nat → Word) :
    Allowed (emptyBoot leaf) (.addPhysMem 0x10000#64 0x2000#64) := by
  refine ⟨by decide, by decide, by decide, by decide, ?_⟩
  rw [freeFrames_eq (emptyBoot_wellFormed leaf).free]
  exact Set.disjoint_left.mpr fun _ _ member => List.not_mem_nil member

theorem emptyBoot_isTable {frame : Nat}
    (isTable : IsTable (emptyBoot leaf).mem (emptyBoot leaf).pml4.toNat frame) :
    frame ≤ 0x4000 :=
  (bootState_isTable (by decide) (by decide) isTable).2

/-- Two frames are added to the boot state. -/
theorem emptyBoot_adds (leaf : Nat → Word) :
    ∃ state', addPhysMem bootLayout (emptyBoot leaf) 0x10000#64 0x2000#64 =
        .ok state' ∧
      WellFormed bootLayout state' [0x10000, 0x11000] ∧
      (∀ frame, IsTable state'.mem state'.pml4.toNat frame →
        frame ≤ 0x4000) ∧
      ∀ index : Index, index.val < 508 →
        leafEntry state'.mem state'.pml4.toNat (bootPage index) =
          some (leaf index.val) := by
  have wellFormed := emptyBoot_wellFormed leaf
  obtain ⟨state', added, pml4, keeps, free, distinct⟩ :=
    addPhysMem_adds wellFormed (emptyBoot_allowed leaf)
      fun isTable => absurd (emptyBoot_isTable isTable) (by decide)
  have bounded : ∀ frame, IsTable state'.mem state'.pml4.toNat frame →
      frame ≤ 0x4000 := by
    intro frame isTable
    rw [pml4, keeps.isTable_iff] at isTable
    exact emptyBoot_isTable isTable
  refine ⟨state', added, ⟨?_, free, distinct, ?_⟩, bounded, ?_⟩
  · rw [pml4]
    exact keeps.tables wellFormed.tables
  · intro table isTable member
    have bound := bounded table isTable
    simp only [List.mem_cons, List.not_mem_nil, or_false] at member
    omega
  · intro index below
    rw [pml4, keeps.leafEntry_eq wellFormed.tables (bootPage_outside below)]
    exact leafEntry_boot (by decide) (by decide)

theorem emptyBoot_not_names {bit virt : Word} {frame : Nat} :
    ¬ Names bootLayout (emptyBoot fun _ => 0#64) bit virt frame := by
  intro names
  obtain ⟨entry, found, has, -⟩ := names.entry
  obtain ⟨-, rfl⟩ := leafEntry_boot_of_ne (by decide) (by decide) found
  exact has BitVec.zero_and

theorem emptyBoot_sound :
    Sound bootLayout (emptyBoot fun _ => 0#64)
      (.addPhysMem 0x10000#64 0x2000#64) := by
  refine ⟨emptyBoot_allowed _, ?_⟩
  intro frame member inUse
  have above : 0x10000 ≤ frame := by
    obtain ⟨position, -, rfl⟩ := mem_blockFrames.mp member
    exact Nat.le_add_right _ _
  rcases inUse with isTable | ⟨virt, holds⟩
  · have bound := emptyBoot_isTable isTable
    omega
  · exact holds.elim emptyBoot_not_names emptyBoot_not_names

/-- The window still shows the block that was added. -/
theorem emptyBoot_slot
    (added : addPhysMem bootLayout (emptyBoot leaf) 0x10000#64 0x2000#64 =
      .ok state') :
    leafEntry state'.mem state'.pml4.toNat (bootPage 508) =
      some 0x10003#64 := by
  have inside : InWindow bootLayout (bootPage 508) := by decide
  obtain ⟨result, returned, wellFormed, -⟩ := emptyBoot_adds leaf
  rw [returned] at added
  cases added
  have walked := Tables.leafTable_window wellFormed.tables inside
  rw [leafEntry_of_leafTable walked]
  rw [addPhysMem_eq (by decide)] at returned
  cases returned
  have apart : Disjoint (cells (slotAddress bootLayout 0) 8)
      (cells (0x10000#64).toNat 16) := cells_disjoint (by decide)
  exact congrArg some ((agreeOff_putHeader.readWord_eq apart).trans
    (readWord_slot (by decide)))

end Small

/-- Two frames are added, and one of them is mapped. -/
theorem run_singleOwner_boot :
    ∃ state,
      Run (Step bootLayout) (emptyBoot fun _ => 0#64)
          [.addPhysMem 0x10000#64 0x2000#64,
            .mapPage (bootPage 0) mapAnon 0x203#64] state ∧
        Intact state ∧
        (∀ frame ∈ freeFrames state, ¬ InUse bootLayout state frame) ∧
        ∀ page state', allocPage bootLayout state = .ok (page, state') →
          ¬ InUse bootLayout state page.toNat := by
  obtain ⟨added, addedEq, wellFormed, -, leaves⟩ :=
    emptyBoot_adds fun _ => 0#64
  have first : Run (Step bootLayout) (emptyBoot fun _ => 0#64)
      ([] ++ [.addPhysMem 0x10000#64 0x2000#64]) added :=
    Run.nil.snoc ⟨emptyBoot_sound, addedEq⟩
  have outside : ¬ InWindow bootLayout (bootPage 0) := by decide
  have found := leaves 0 (by decide)
  obtain ⟨table, walked, -⟩ := leafTable_of_leafEntry found
  have sound : Sound bootLayout added
      (.mapPage (bootPage 0) mapAnon 0x203#64) := by
    refine ⟨⟨table, walked⟩, fun _ =>
      ⟨fun _ => ?_, fun unmap => absurd (by decide) unmap⟩⟩
    refine ⟨fun explicit => absurd rfl explicit,
      fun explicit => absurd rfl explicit,
      fun _ explicit => absurd rfl explicit, ?_⟩
    intro _ _ frame names
    obtain ⟨entry, again, present, -⟩ := names.entry
    cases found.symm.trans again
    exact absurd present (by decide)
  obtain ⟨state, mapped⟩ | ⟨_, _, _, empty⟩ := mapPage_returns wellFormed
    isPage_bootPage outside walked isFrame_zero
    (by decide : Has 0x203#64 pagePBit)
  · have run : Run (Step bootLayout) (emptyBoot fun _ => 0#64)
        ([.addPhysMem 0x10000#64 0x2000#64] ++
          [.mapPage (bootPage 0) mapAnon 0x203#64]) state :=
      first.snoc ⟨sound, mapped⟩
    exact ⟨state, run, run_singleOwner bootLayout (emptyBoot fun _ => 0#64)
      state _ (emptyBoot_wellFormed _).tables rfl
      (fun _ _ names => absurd names emptyBoot_not_names) run⟩
  · cases empty

/-- A frame that is mapped twice goes back when one of its pages gets another
frame, and `alloc_page` hands it out again. The window shows free frames, and a
page can show a frame that is added later. -/
theorem freeFrame_inUse :
    (∃ added first both freed taken,
      addPhysMem bootLayout (emptyBoot fun _ => 0#64) 0x10000#64 0x2000#64 =
        .ok added ∧
      mapPage bootLayout added (bootPage 0) 0x5000#64 0x203#64 = .ok first ∧
      mapPage bootLayout first (bootPage 1) 0x5000#64 3#64 = .ok both ∧
      mapPage bootLayout both (bootPage 0) 0x6000#64 3#64 = .ok freed ∧
      leafEntry freed.mem freed.pml4.toNat (bootPage 1) = some 0x5003#64 ∧
      0x5000 ∈ freeFrames freed ∧
      allocPage bootLayout freed = .ok (0x5000#64, taken)) ∧
    (∃ added,
      addPhysMem bootLayout (emptyBoot fun _ => 0#64) 0x10000#64 0x2000#64 =
        .ok added ∧
      leafEntry added.mem added.pml4.toNat (bootPage 508) =
        some 0x10003#64 ∧
      0x10000 ∈ freeFrames added) ∧
    ∃ added,
      addPhysMem bootLayout (emptyBoot fun _ => 0x10003#64) 0x10000#64
        0x2000#64 = .ok added ∧
      leafEntry added.mem added.pml4.toNat (bootPage 0) =
        some 0x10003#64 ∧
      0x10000 ∈ freeFrames added := by
  obtain ⟨added, addedEq, wellFormed, bounded, leaves⟩ :=
    emptyBoot_adds fun _ => 0#64
  refine ⟨?_, ⟨added, addedEq, emptyBoot_slot addedEq, ?_⟩, ?_⟩
  · have zeroth : ¬ InWindow bootLayout (bootPage 0) := by decide
    have other : ¬ InWindow bootLayout (bootPage 1) := by decide
    have apart : bootPage 1 ≠ bootPage 0 := by decide
    obtain ⟨first, firstEq, marked⟩ := mapPage_replaces wellFormed
      (isPage_bootPage : IsPage (bootPage 0)) zeroth (leaves 0 (by decide))
      (fun anonymous => absurd anonymous (by decide))
      (fun _ _ marks => absurd marks (by decide))
      (by decide : IsFrame 0x5000#64) (by decide : Has 0x203#64 pagePBit)
    obtain ⟨both, bothEq, shared⟩ := mapPage_replaces marked.wellFormed
      isPage_bootPage other
      ((marked.elsewhere isPage_bootPage apart other).trans
        (leaves 1 (by decide)))
      (fun anonymous => absurd anonymous (by decide))
      (fun _ _ marks => absurd marks (by decide))
      (by decide : IsFrame 0x5000#64) (by decide : Has 3#64 pagePBit)
    have before := (shared.elsewhere isPage_bootPage apart.symm zeroth).trans
      marked.here
    obtain ⟨table, walked, -⟩ := leafTable_of_leafEntry before
    obtain ⟨freed, freedEq⟩ | ⟨_, anonymous, _⟩ := mapPage_returns
      shared.wellFormed isPage_bootPage zeroth walked
      (by decide : IsFrame 0x6000#64) (by decide : Has 3#64 pagePBit)
    · have released := mapPage_releases shared.wellFormed isPage_bootPage
        zeroth before (by decide) (by decide) (by decide)
        (fun isTable => absurd (bounded _ (marked.isTable_iff.mp
          (shared.isTable_iff.mp isTable))) (by decide))
        (by decide) (by decide) (by decide) freedEq
      have listed : FreeList freed.mem freed.firstFreeBlock
          [0x5000, 0x10000, 0x11000] := released.wellFormed.free
      obtain ⟨taken, takenEq, -⟩ : ∃ taken,
          allocPage bootLayout freed = .ok (freed.firstFreeBlock, taken) ∧
            Taken bootLayout freed taken [0x10000, 0x11000] :=
        allocPage_spec listed released.wellFormed.distinct
      have head : freed.firstFreeBlock = 0x5000#64 :=
        BitVec.eq_of_toNat_eq listed.first_eq
      rw [head] at takenEq
      refine ⟨added, first, both, freed, taken, addedEq, firstEq, bothEq,
        freedEq, ?_, ?_, takenEq⟩
      · exact (released.elsewhere isPage_bootPage apart other).trans
          shared.here
      · rw [freeFrames_eq listed]
        exact List.mem_cons_self
    · exact absurd anonymous (by decide)
  · rw [freeFrames_eq wellFormed.free]
    exact List.mem_cons_self
  · obtain ⟨shown, shownEq, wellFormed', -, leaves'⟩ :=
      emptyBoot_adds fun _ => 0x10003#64
    refine ⟨shown, shownEq, leaves' 0 (by decide), ?_⟩
    rw [freeFrames_eq wellFormed'.free]
    exact List.mem_cons_self

end BeaverOS.Ownership
