import BeaverOS.Memory.Footprint

/-!
# The address space

What `map_page` is for: pages have leaf entries, and anonymous pages get frames
in the order of the free list. As long as no entry has `PAGE_F_BIT`, the code
does this for any sequence of calls on different pages, and stores nothing to
frames that are neither tables nor free.
-/

namespace BeaverOS.AddressSpace

open BeaverOS.ByteMemory
open BeaverOS.BlockChain
open BeaverOS.RadixTree
open BeaverOS.Paging
open BeaverOS.Transition
open BeaverOS.Window
open BeaverOS.FrameAllocator
open BeaverOS.PageTree
open BeaverOS.Mapper
open BeaverOS.MapperState
open BeaverOS.Populated
open BeaverOS.Calls
open BeaverOS.Ownership
open BeaverOS.Footprint

/-! ## Spaces and calls -/

/-- The leaf entries of all pages, and the free frames. -/
structure Space where
  leaf : Word → Option Word
  free : List Nat

/-- A call of `map_page`. -/
structure PageCall where
  virt : Word
  phys : Word
  flags : Word

/-- The call is for a page with a frame of the free list. -/
def PageCall.anonymous (call : PageCall) : Bool :=
  decide (Has call.flags pagePBit ∧ call.phys = mapAnon)

/-- The entry of a page that is mapped to a frame. -/
def PageCall.entry (call : PageCall) (frame : Word) : Word :=
  (call.flags &&& ptFlagsMask) ||| frame

/-- The entry of the page after a call that takes no frame. -/
def PageCall.named (call : PageCall) (old : Option Word) : Option Word :=
  if Has call.flags pagePBit then some (call.entry call.phys)
  else old.map fun entry => entry &&& ~~~pagePBit

/-- What a call does where no entry gives its frame back. -/
def Space.serve (space : Space) (call : PageCall) : Space :=
  if call.anonymous then
    match space.free with
    | [] => space
    | frame :: rest =>
        ⟨Function.update space.leaf call.virt
          (some (call.entry (BitVec.ofNat 64 frame))), rest⟩
  else
    ⟨Function.update space.leaf call.virt
      (call.named (space.leaf call.virt)), space.free⟩

/-- The calls one after another. -/
def Space.serveAll (space : Space) (calls : List PageCall) : Space :=
  calls.foldl Space.serve space

/-- The calls of `map_page` one after another. -/
def mapPages (layout : Layout) (calls : List PageCall) (state : Mapper) :
    Except Halt Mapper :=
  calls.foldlM
    (fun state call => mapPage layout state call.virt call.phys call.flags)
    state

/-- A call for a page whose table exists. An anonymous page is not present, and
a frame that the caller names is not free. -/
structure Fitting (layout : Layout) (space : Space) (call : PageCall) :
    Prop where
  page : IsPage call.virt
  outside : ¬ InWindow layout call.virt
  frame : IsFrame call.phys
  plain : ¬ Has call.flags pageFBit
  table : (space.leaf call.virt).isSome
  absent :
    call.anonymous → ∀ entry, space.leaf call.virt = some entry →
      ¬ Has entry pagePBit
  notFree : call.phys ≠ mapAnon → call.phys.toNat ∉ space.free

/-- Calls for different pages, and frames for the anonymous ones. -/
structure Fits (layout : Layout) (space : Space) (calls : List PageCall) :
    Prop where
  distinct : (calls.map PageCall.virt).Nodup
  fitting : ∀ call ∈ calls, Fitting layout space call
  room : (calls.countP PageCall.anonymous) ≤ space.free.length

section Spaces

variable {layout : Layout} {space : Space} {call other : PageCall}
  {calls : List PageCall} {page frame : Word}

theorem Space.serve_elsewhere (different : page ≠ call.virt) :
    (space.serve call).leaf page = space.leaf page := by
  rw [Space.serve]
  split
  · split
    · rfl
    · exact Function.update_of_ne different _ _
  · exact Function.update_of_ne different _ _

theorem Space.serve_free :
    (space.serve call).free =
      if call.anonymous then space.free.tail else space.free := by
  rw [Space.serve]
  split
  · split
    · next empty => rw [empty, List.tail_nil]
    · next cons => rw [cons, List.tail_cons]
  · rfl

theorem Space.serve_named (named : ¬ call.anonymous) :
    (space.serve call).leaf call.virt =
      call.named (space.leaf call.virt) := by
  rw [Space.serve, if_neg named]
  exact Function.update_self _ _ _

theorem Space.serveAll_elsewhere
    (different : ∀ call ∈ calls, page ≠ call.virt) :
    (space.serveAll calls).leaf page = space.leaf page := by
  induction calls generalizing space with
  | nil => rfl
  | cons call calls inductionHypothesis =>
      rw [Space.serveAll, List.foldl_cons]
      exact (inductionHypothesis fun other member =>
        different other (List.mem_cons_of_mem _ member)).trans
          (Space.serve_elsewhere (different call List.mem_cons_self))

/-- Each anonymous page takes one frame. -/
theorem Space.serveAll_free :
    (space.serveAll calls).free =
      space.free.drop (calls.countP PageCall.anonymous) := by
  induction calls generalizing space with
  | nil => rfl
  | cons call calls inductionHypothesis =>
      rw [Space.serveAll, List.foldl_cons]
      refine inductionHypothesis.trans ?_
      rw [Space.serve_free]
      by_cases anonymous : call.anonymous
      · rw [if_pos anonymous, List.countP_cons_of_pos anonymous,
          ← List.drop_one, List.drop_drop, Nat.add_comm]
      · rw [if_neg anonymous,
          List.countP_cons_of_neg anonymous]

theorem Space.serveAll_named (distinct : (calls.map PageCall.virt).Nodup)
    (member : call ∈ calls) (named : ¬ call.anonymous) :
    (space.serveAll calls).leaf call.virt =
      call.named (space.leaf call.virt) := by
  induction calls generalizing space with
  | nil => cases member
  | cons first calls inductionHypothesis =>
      obtain ⟨fresh, distinct⟩ := List.nodup_cons.mp distinct
      rw [Space.serveAll, List.foldl_cons]
      rcases List.mem_cons.mp member with rfl | later
      · refine (Space.serveAll_elsewhere fun other inCalls same => ?_).trans
          (Space.serve_named named)
        exact fresh (same ▸ List.mem_map_of_mem inCalls)
      · refine (inductionHypothesis distinct later).trans ?_
        rw [Space.serve_elsewhere fun same => ?_]
        exact fresh (same ▸ List.mem_map_of_mem later)

/-- The anonymous pages get the first frames of the list, in their order. -/
theorem Space.serveAll_anonymous (distinct : (calls.map PageCall.virt).Nodup)
    (room : (calls.countP PageCall.anonymous) ≤ space.free.length) :
    List.Forall₂
      (fun call frame => (space.serveAll calls).leaf call.virt =
        some (call.entry (BitVec.ofNat 64 frame)))
      (calls.filter PageCall.anonymous)
      (space.free.take (calls.countP PageCall.anonymous)) := by
  induction calls generalizing space with
  | nil => exact List.Forall₂.nil
  | cons call calls inductionHypothesis =>
      obtain ⟨fresh, distinct⟩ := List.nodup_cons.mp distinct
      by_cases anonymous : call.anonymous
      · rw [List.countP_cons_of_pos anonymous] at room ⊢
        rw [List.filter_cons_of_pos anonymous]
        obtain ⟨frame, rest, freeEq⟩ :=
          List.exists_cons_of_length_pos (by omega : 0 < space.free.length)
        have served : space.serve call =
            ⟨Function.update space.leaf call.virt
              (some (call.entry (BitVec.ofNat 64 frame))), rest⟩ := by
          rw [Space.serve, if_pos anonymous, freeEq]
        rw [freeEq, List.length_cons] at room
        rw [freeEq, List.take_succ_cons]
        have later := @inductionHypothesis (space.serve call) distinct
          (by rw [served]; exact Nat.le_of_succ_le_succ room)
        rw [served] at later
        refine List.Forall₂.cons ?_ ?_
        · rw [Space.serveAll, List.foldl_cons, served]
          refine (Space.serveAll_elsewhere fun other inCalls same => ?_).trans
            (Function.update_self _ _ _)
          exact fresh (same ▸ List.mem_map_of_mem inCalls)
        · rw [Space.serveAll, List.foldl_cons, served]
          exact later
      · rw [List.countP_cons_of_neg anonymous] at room ⊢
        rw [List.filter_cons_of_neg anonymous]
        have freeEq : (space.serve call).free = space.free := by
          rw [Space.serve_free, if_neg anonymous]
        have later := @inductionHypothesis (space.serve call) distinct
          (by rw [freeEq]; exact room)
        rw [freeEq] at later
        exact later

theorem Fitting.serve (fitting : Fitting layout space call)
    (different : call.virt ≠ other.virt) :
    Fitting layout (space.serve other) call := by
  obtain ⟨page, outside, frame, plain, table, absent, notFree⟩ := fitting
  have leaf := @Space.serve_elsewhere space other _ different
  refine ⟨page, outside, frame, plain, ?_, ?_, ?_⟩
  · rw [leaf]
    exact table
  · rw [leaf]
    exact absent
  · intro explicit member
    rw [Space.serve_free] at member
    refine notFree explicit ?_
    split at member
    · exact List.mem_of_mem_tail member
    · exact member

theorem Fits.tail (fits : Fits layout space (call :: calls)) :
    Fits layout (space.serve call) calls := by
  obtain ⟨fresh, distinct⟩ := List.nodup_cons.mp fits.distinct
  have room := fits.room
  refine ⟨distinct, fun other member => ?_, ?_⟩
  · refine (fits.fitting other (List.mem_cons_of_mem _ member)).serve ?_
    intro same
    exact fresh (same ▸ List.mem_map_of_mem member)
  · rw [Space.serve_free]
    by_cases anonymous : call.anonymous
    · rw [List.countP_cons_of_pos anonymous] at room
      rw [if_pos anonymous, List.length_tail]
      omega
    · rw [List.countP_cons_of_neg anonymous] at room
      rw [if_neg anonymous]
      exact room

theorem Space.serveAll_append {first last : List PageCall} :
    space.serveAll (first ++ last) = (space.serveAll first).serveAll last := by
  rw [Space.serveAll, Space.serveAll, Space.serveAll, List.foldl_append]

/-- The first calls fit, and the others after them. -/
theorem Fits.append {first last : List PageCall}
    (fits : Fits layout space (first ++ last)) :
    Fits layout space first ∧ Fits layout (space.serveAll first) last := by
  constructor
  · have distinct := fits.distinct
    have room := fits.room
    rw [List.map_append] at distinct
    rw [List.countP_append] at room
    exact ⟨(List.nodup_append'.mp distinct).1, fun call member =>
      fits.fitting call (List.mem_append_left _ member), by omega⟩
  · induction first generalizing space with
    | nil => exact fits
    | cons call first inductionHypothesis =>
        rw [Space.serveAll, List.foldl_cons]
        exact inductionHypothesis fits.tail

end Spaces

/-! ## The code serves the space -/

/-- A state of the mapper with this address space, reached from `start` without
a store to frames that were neither tables nor free there. -/
structure Represents (layout : Layout) (start : Mapper) (space : Space)
    (state : Mapper) : Prop where
  owned : Owned layout state space.free
  leaves :
    ∀ page, IsPage page → ¬ InWindow layout page →
      leafEntry state.mem state.pml4.toNat page = space.leaf page
  plain : ∀ page entry, space.leaf page = some entry → ¬ Has entry pageFBit
  pml4 : state.pml4 = start.pml4
  sameTables :
    ∀ table, IsTable state.mem state.pml4.toNat table ↔
      IsTable start.mem start.pml4.toNat table
  fewer : ∀ frame ∈ space.free, frame ∈ freeFrames start
  kept :
    ∀ frame, Reserved start frame → AgreeOn state.mem start.mem frame 4096

/-- Frames that were neither tables nor free are neither now, and keep their
contents but for those in `own`. -/
def Spares (own : Set Nat) (state state' : Mapper) : Prop :=
  ∀ frame, Reserved state frame →
    Reserved state' frame ∧
      (frame ∉ own → AgreeOn state'.mem state.mem frame 4096)

/-- The address space of a state with these free frames. -/
def spaceOf (state : Mapper) (frames : List Nat) : Space :=
  ⟨leafEntry state.mem state.pml4.toNat, frames⟩

section Refinement

variable {layout : Layout} {start state state' : Mapper} {space : Space}
  {call : PageCall} {calls : List PageCall} {virt value entry : Word}
  {frames : List Nat} {frame : Nat}

theorem Represents.initial (owned : Owned layout state frames)
    (plain : ∀ page entry,
      leafEntry state.mem state.pml4.toNat page = some entry →
        ¬ Has entry pageFBit) :
    Represents layout state (spaceOf state frames) state := by
  refine ⟨owned, fun _ _ _ => rfl, plain, rfl, fun _ => Iff.rfl, ?_,
    fun _ _ _ _ _ => rfl⟩
  intro frame member
  rw [freeFrames_eq owned.wellFormed.free]
  exact member

/-- The space does not depend on where the state was reached from. -/
theorem Represents.restart
    (represents : Represents layout start space state) :
    Represents layout state space state := by
  refine ⟨represents.owned, represents.leaves, represents.plain, rfl,
    fun _ => Iff.rfl, ?_, fun _ _ _ _ _ => rfl⟩
  intro frame member
  rw [freeFrames_eq represents.owned.wellFormed.free]
  exact member

theorem Represents.not_names
    (represents : Represents layout start space state) :
    ¬ Names layout state pageFBit virt frame := by
  intro names
  obtain ⟨entry, found, marked, _⟩ := names.entry
  rw [represents.leaves virt names.page names.outside] at found
  exact represents.plain virt entry found marked

theorem Represents.reserved
    (represents : Represents layout start space state)
    (reserved : Reserved start frame) : Reserved state frame := by
  refine ⟨reserved.aligned, reserved.positive, fun isTable =>
    reserved.notTable ((represents.sameTables frame).mp isTable), ?_⟩
  rw [freeFrames_eq represents.owned.wellFormed.free]
  exact fun member => reserved.notFree (represents.fewer frame member)

/-- A fitting call keeps the callers' rule. -/
theorem Represents.sound (represents : Represents layout start space state)
    (fitting : Fitting layout space call) :
    Sound layout state (.mapPage call.virt call.phys call.flags) := by
  have leaf := represents.leaves call.virt fitting.page fitting.outside
  obtain ⟨entry, found⟩ := Option.isSome_iff_exists.mp fitting.table
  rw [← leaf] at found
  obtain ⟨table, walked, _⟩ := leafTable_of_leafEntry found
  refine ⟨⟨table, walked⟩, fun _ => ⟨fun _ => ⟨?_, ?_, ?_, ?_⟩, ?_⟩⟩
  · intro explicit
    rw [freeFrames_eq represents.owned.wellFormed.free]
    exact fitting.notFree explicit
  · exact fun _ _ names => absurd names represents.not_names
  · exact fun marked => absurd marked fitting.plain
  · exact fun marked => absurd marked fitting.plain
  · rintro _ ⟨other, foundOther, _, marked⟩
    rw [leaf] at foundOther
    exact represents.plain call.virt other foundOther marked

/-- A call that has changed one leaf entry. -/
theorem Represents.updated (represents : Represents layout start space state)
    (fitting : Fitting layout space call)
    (mapped : mapPage layout state call.virt call.phys call.flags =
      .ok state')
    (updated : Updated layout state state' call.virt value frames)
    (plain : ¬ Has value pageFBit)
    (fewer : ∀ frame ∈ frames, frame ∈ space.free) :
    Represents layout start
      ⟨Function.update space.leaf call.virt (some value), frames⟩ state' := by
  have step : Ownership.Step layout state
      (.mapPage call.virt call.phys call.flags) state' :=
    ⟨represents.sound fitting, mapped⟩
  obtain ⟨frames', owned'⟩ := owned_step represents.owned step
  obtain rfl : frames = frames' :=
    updated.wellFormed.free.unique owned'.wellFormed.free
  have sameTables : ∀ table, IsTable state'.mem state'.pml4.toNat table ↔
      IsTable start.mem start.pml4.toNat table := fun table =>
    updated.isTable_iff.trans (represents.sameTables table)
  refine ⟨owned', ?_, ?_, updated.pml4.trans represents.pml4, sameTables,
    fun frame member => represents.fewer frame (fewer frame member), ?_⟩
  · intro page isPage outside
    change _ = Function.update space.leaf call.virt (some value) page
    by_cases here : page = call.virt
    · rw [here, Function.update_self]
      exact updated.here
    · rw [Function.update_of_ne here, ← represents.leaves page isPage outside]
      exact updated.elsewhere isPage here outside
  · intro page entry found
    change Function.update space.leaf call.virt (some value) page = _ at found
    by_cases here : page = call.virt
    · rw [here, Function.update_self] at found
      cases found
      exact plain
    · rw [Function.update_of_ne here] at found
      exact represents.plain page entry found
  · intro frame reserved
    have before := represents.reserved reserved
    refine AgreeOn.trans (step_keeps represents.owned step before ?_)
      (represents.kept frame reserved)
    refine ⟨before.aligned, before.positive, fun isTable =>
      before.notTable (updated.isTable_iff.mp isTable), ?_⟩
    have notFree := before.notFree
    rw [freeFrames_eq represents.owned.wellFormed.free] at notFree
    rw [freeFrames_eq owned'.wellFormed.free]
    exact fun member => notFree (fewer frame member)

/-- The code serves a call as the space does. -/
theorem Represents.serve (represents : Represents layout start space state)
    (fitting : Fitting layout space call)
    (room : call.anonymous → space.free ≠ []) :
    ∃ state', mapPage layout state call.virt call.phys call.flags =
        .ok state' ∧
      Represents layout start (space.serve call) state' := by
  have wellFormed := represents.owned.wellFormed
  have leaf := represents.leaves call.virt fitting.page fitting.outside
  obtain ⟨entry, known⟩ := Option.isSome_iff_exists.mp fitting.table
  have unmarked := represents.plain call.virt entry known
  have found := leaf.trans known
  have plainEntry : ∀ frame, IsFrame frame →
      ¬ Has (call.entry frame) pageFBit := fun frame isFrame marked =>
    fitting.plain (marked_of_stored isFrame marked)
  by_cases anonymous : call.anonymous
  · -- the page gets the first free frame
    have absent := fitting.absent anonymous entry known
    obtain ⟨present, isAnon⟩ := of_decide_eq_true anonymous
    obtain ⟨table, walked, entryEq⟩ := leafTable_of_leafEntry found
    have mapped : ∃ state', mapPage layout state call.virt call.phys
        call.flags = .ok state' := by
      rcases mapPage_returns wellFormed fitting.page fitting.outside walked
          fitting.frame present with returned | ⟨_, _, _, empty⟩
      · exact returned
      · exact absurd empty (room anonymous)
    obtain ⟨state', mapped⟩ := mapped
    refine ⟨state', mapped, ?_⟩
    have mappedAnon := mapped
    rw [isAnon] at mappedAnon
    obtain ⟨rest, split, updated⟩ := mapPage_allocates wellFormed fitting.page
      fitting.outside found absent present mappedAnon
    have first := wellFormed.free.isFrame_first
    have result := represents.updated fitting mapped updated
      (plainEntry _ first) fun frame member => by
        rw [split]
        exact List.mem_cons_of_mem _ member
    rw [Space.serve, if_pos anonymous, split]
    simp only [PageCall.entry, BitVec.ofNat_toNat, BitVec.setWidth_eq]
    exact result
  · by_cases present : Has call.flags pagePBit
    · have explicit : call.phys ≠ mapAnon := fun isAnon =>
        anonymous (decide_eq_true ⟨present, isAnon⟩)
      obtain ⟨state', mapped, updated⟩ := mapPage_replaces wellFormed
        fitting.page fitting.outside found (fun isAnon => absurd isAnon explicit)
        (fun _ _ => unmarked) fitting.frame present
      rw [if_neg explicit] at updated
      refine ⟨state', mapped, ?_⟩
      rw [Space.serve, if_neg anonymous, PageCall.named, if_pos present]
      exact represents.updated fitting mapped updated
        (plainEntry _ fitting.frame) fun _ member => member
    · obtain ⟨state', mapped, updated⟩ := mapPage_clears wellFormed
        fitting.page fitting.outside found (fun _ => unmarked) fitting.frame
        present
      refine ⟨state', mapped, ?_⟩
      rw [Space.serve, if_neg anonymous, PageCall.named, if_neg present, known,
        Option.map_some]
      refine represents.updated fitting mapped updated ?_ fun _ member => member
      rw [has_and_of_subset (by decide)]
      exact unmarked

/-- The code serves a sequence of calls as the space does. -/
theorem Represents.serveAll (represents : Represents layout start space state)
    (fits : Fits layout space calls) :
    ∃ state', mapPages layout calls state = .ok state' ∧
      Represents layout start (space.serveAll calls) state' := by
  induction calls generalizing space state with
  | nil => exact ⟨state, rfl, represents⟩
  | cons call calls inductionHypothesis =>
      have room := fits.room
      obtain ⟨middle, mapped, served⟩ := represents.serve
        (fits.fitting call List.mem_cons_self) (by
          intro anonymous empty
          rw [List.countP_cons_of_pos anonymous, empty] at room
          exact absurd room (by simp))
      obtain ⟨state', returned, result⟩ :=
        inductionHypothesis served fits.tail
      refine ⟨state', ?_, result⟩
      rw [mapPages, List.foldlM_cons, mapped]
      exact returned

/-- What a page is mapped to. -/
theorem Represents.translation_eq
    (represents : Represents layout start space state) (page : IsPage virt)
    (outside : ¬ InWindow layout virt) :
    translation state.mem state.pml4.toNat virt =
      (space.leaf virt).bind fun entry =>
        if Has entry pagePBit then some (frameOf entry, entry &&& ptFlagsMask)
        else none := by
  rw [translation, represents.leaves virt page outside]

theorem Represents.spares (represents : Represents layout start space state) :
    Spares ∅ start state := fun frame reserved =>
  ⟨represents.reserved reserved, fun _ => represents.kept frame reserved⟩

/-- A frame that a page has taken is free no more, and no table. -/
theorem Represents.took (represents : Represents layout start space state)
    (wellFormed : WellFormed layout start frames) (wasFree : frame ∈ frames)
    (notFree : frame ∉ space.free) : Reserved state frame := by
  have bounds := wellFormed.free.bounds wasFree
  refine ⟨bounds.2.1, by omega, fun isTable => ?_, ?_⟩
  · exact wellFormed.tables_used frame
      ((represents.sameTables frame).mp isTable) wasFree
  · rw [freeFrames_eq represents.owned.wellFormed.free]
    exact notFree

theorem Spares.trans {own own' : Set Nat} {last : Mapper}
    (first : Spares own state state') (second : Spares own' state' last) :
    Spares (own ∪ own') state last := by
  intro frame reserved
  obtain ⟨reserved', kept⟩ := first frame reserved
  obtain ⟨reservedLast, kept'⟩ := second frame reserved'
  exact ⟨reservedLast, fun notOwn => AgreeOn.trans
    (kept' fun inOwn => notOwn (Or.inr inOwn))
    (kept fun inOwn => notOwn (Or.inl inOwn))⟩

/-- An anonymous page gets the first frame, which nobody else has. -/
theorem Represents.serve_own {own : Word} {later : List Nat}
    (represents : Represents layout start space state)
    (fitting : Fitting layout space call) (anonymous : call.anonymous)
    (free : space.free = own.toNat :: later) :
    ∃ state', mapPage layout state call.virt call.phys call.flags =
        .ok state' ∧
      Represents layout state (space.serve call) state' ∧
      (space.serve call).leaf call.virt = some (call.entry own) ∧
      (space.serve call).free = later ∧
      IsFrame own ∧ Reserved state' own.toNat := by
  have wellFormed := represents.owned.wellFormed
  have distinct := wellFormed.distinct
  have served : space.serve call =
      ⟨Function.update space.leaf call.virt (some (call.entry own)), later⟩ := by
    rw [Space.serve, if_pos anonymous, free]
    simp only [BitVec.ofNat_toNat, BitVec.setWidth_eq]
  have isFree : own.toNat ∈ space.free := free ▸ List.mem_cons_self
  have bounds := wellFormed.free.bounds isFree
  obtain ⟨state', mapped, represents'⟩ :=
    represents.restart.serve fitting fun _ => free ▸ List.cons_ne_nil _ _
  refine ⟨state', mapped, represents', ?_, ?_,
    (isFrame_iff own).mpr ⟨bounds.2.1, by omega⟩,
    represents'.took wellFormed isFree ?_⟩
  · rw [served]
    exact Function.update_self _ _ _
  · rw [served]
  · rw [served]
    rw [free, List.nodup_cons] at distinct
    exact distinct.1

/-- A store to a frame that is no table and not free. -/
theorem Represents.stored {memory : Memory}
    (represents : Represents layout start space state)
    (reserved : Reserved state frame)
    (agree : AgreeOff (cells frame 4096) memory state.mem) :
    Represents layout { state with mem := memory } space
        { state with mem := memory } ∧
      Spares {frame} state { state with mem := memory } := by
  have owned := represents.owned
  have tables := owned.wellFormed.tables
  have notFree := reserved.not_mem owned.wellFormed.free
  have keeps : KeepsPages layout state.pml4.toNat state.mem memory := by
    refine KeepsPages.of_agreeOff _ tables (agree.mono
      Set.subset_union_right) fun table isTable => ?_
    exact frames_disjoint (isTable.bounds tables.tree).1 reserved.aligned
      (fun same => reserved.notTable (same ▸ isTable)) (Nat.le_refl _)
      (Nat.le_refl _)
  have free : FreeList memory state.firstFreeBlock space.free := by
    refine owned.wellFormed.free.of_agreeOff agree fun other member => ?_
    exact (disjoint_header reserved.aligned
      (owned.wellFormed.free.bounds member).2.1
      fun same => notFree (same ▸ member)).symm
  have sameFree : freeFrames { state with mem := memory } =
      {frame | frame ∈ space.free} := freeFrames_eq free
  refine ⟨⟨owned_of_keeps owned rfl keeps free owned.wellFormed.distinct
    fun _ member => Or.inl member, ?_, represents.plain, rfl, fun _ => Iff.rfl,
    ?_, fun _ _ _ _ _ => rfl⟩, ?_⟩
  · intro page isPage outside
    exact (keeps.leafEntry_eq tables outside).trans
      (represents.leaves page isPage outside)
  · intro other member
    rw [sameFree]
    exact member
  · intro other otherReserved
    refine ⟨⟨otherReserved.aligned, otherReserved.positive, ?_, ?_⟩, ?_⟩
    · exact fun isTable => otherReserved.notTable (keeps.isTable_iff.mp isTable)
    · rw [sameFree]
      exact otherReserved.not_mem owned.wellFormed.free
    · intro different
      exact agree.agreeOn (frames_disjoint otherReserved.aligned
        reserved.aligned (fun same => different same) (Nat.le_refl _)
        (Nat.le_refl _))

end Refinement

end BeaverOS.AddressSpace
