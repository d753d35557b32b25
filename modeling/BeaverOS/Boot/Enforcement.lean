import BeaverOS.Loader.Coverage
import BeaverOS.Loader.Growth
import BeaverOS.Memory.Ownership
import BeaverOS.Memory.Protection

/-!
# Permissions from the loader to the kernel

The kernel starts on the loader's tables, whose upper entries cover the pages
below them. Its own calls keep that up, so a call of `map_page` gives its page
the writable and the user bit that it was asked for, and leaves those of the
others alone. The no-execute bit is combined the other way round, and goes
wrong wherever pages that share an upper entry do not agree on it.
-/

namespace BeaverOS.Enforcement

open BeaverOS.ByteMemory
open BeaverOS.BlockChain
open BeaverOS.RadixTree
open BeaverOS.Paging
open BeaverOS.Transition
open BeaverOS.Window
open BeaverOS.FrameAllocator
open BeaverOS.PageTree
open BeaverOS.Mapper
open BeaverOS.MapperState
open BeaverOS.BootState
open BeaverOS.Unmap
open BeaverOS.Populated
open BeaverOS.Calls
open BeaverOS.Reserve
open BeaverOS.Entries
open BeaverOS.Protection
open BeaverOS.LoaderPaging
  (Loader LinkedTable Fresh Covered covered_of_run invariant_of_run
    translationOf)

/-! ## From the loader to the kernel -/

/-- The kernel starts on the tables of the loader, in which the window's page
table translates the window pages, and without free frames. -/
structure HandedOver (layout : Layout) (loader : Loader) (start : Mapper) :
    Prop where
  nonNull : loader.pml4 ≠ 0#32
  root : start.pml4.toNat = loader.pml4.toNat
  tables :
    ∀ table, LinkedTable loader table →
      AgreeOn start.mem loader.mem table 4096
  window :
    walk (child loader.mem) loader.pml4.toNat windowPath =
      some layout.windowPt
  empty : start.firstFreeBlock = 0#64

/-- The tables form a tree, no header of the allocator is in one of them, and
the upper entries cover the pages. -/
structure Guarded (layout : Layout) (state : Mapper) : Prop where
  tables : Tables layout state.mem state.pml4.toNat
  headers : HeadersOffTables state
  covers :
    ∀ bit ∈ [pageRwBit, pageUsBit],
      Covers layout state.mem state.pml4.toNat bit

/-- Blocks of memory are added off the tables, pages are mapped where their
tables exist, and no table is given back. -/
def KeepsTables (layout : Layout) (state : Mapper) :
    Ownership.Operation → Prop
  | .addPhysMem physMemStart length =>
      IsFrame physMemStart ∧ 4096 ≤ length.toNat ∧
        physMemStart.toNat + length.toNat ≤ 2 ^ 52 ∧
        ∀ frame ∈ addedFrames physMemStart length,
          ¬ IsTable state.mem state.pml4.toNat frame
  | .mapPage virt phys flags =>
      (∃ table, leafTable state.mem state.pml4.toNat virt = some table) ∧
        (¬ InWindow layout virt → Spares state virt phys flags)

/-- A call that keeps the tables and returns. -/
def Step (layout : Layout) (state : Mapper)
    (operation : Ownership.Operation) (state' : Mapper) : Prop :=
  KeepsTables layout state operation ∧
    Ownership.perform layout state operation = .ok state'

section Start

variable {layout : Layout} {loader first : Loader} {start : Mapper}
  {calls : List LoaderPaging.Call}

theorem permissionBits {bit : Word} (member : bit ∈ [pageRwBit, pageUsBit]) :
    pml4FlagsMask &&& bit = bit ∧ ptFlagsMask &&& bit = bit ∧
      pageAddrBits &&& bit = 0#64 := by
  simp only [List.mem_cons, List.not_mem_nil, or_false] at member
  rcases member with rfl | rfl
  · decide
  · decide

theorem HandedOver.readEntry_eq (handed : HandedOver layout loader start)
    {path : List Index} {table : Nat} (short : path.length ≤ 3)
    (walked : walk (child loader.mem) loader.pml4.toNat path = some table)
    (index : Index) :
    readEntry start.mem table index = readEntry loader.mem table index := by
  have inside := entryAddress_mem_frame table index
  exact readWord_congr ((handed.tables table
    ⟨handed.nonNull, path, short, walked⟩).mono (by omega) (by omega))

theorem HandedOver.child_eq (handed : HandedOver layout loader start) :
    ∀ path table index, path.length < 3 →
      walk (child loader.mem) loader.pml4.toNat path = some table →
      child start.mem table index = child loader.mem table index :=
  fun _ _ index short walked => child_eq_of_readEntry
    (handed.readEntry_eq (Nat.le_of_lt short) walked index)

theorem HandedOver.leafEntry_eq (handed : HandedOver layout loader start)
    (virt : Word) :
    leafEntry start.mem start.pml4.toNat virt =
      leafEntry loader.mem loader.pml4.toNat virt := by
  rw [handed.root, leafEntry, leafEntry, leafTable_congr handed.child_eq]
  cases found : leafTable loader.mem loader.pml4.toNat virt with
  | none => rfl
  | some table =>
      exact congrArg some (handed.readEntry_eq
        (Nat.le_of_eq (length_upperPath virt)) found _)

/-- The kernel starts guarded. -/
theorem guarded_start (fresh : Fresh first)
    (loaded : Run LoaderPaging.Step first calls loader)
    (handed : HandedOver layout loader start) : Guarded layout start := by
  have holds := invariant_of_run fresh loaded
  have walks := walk_congr handed.child_eq
  refine ⟨⟨?_, ?_⟩, ⟨∅, offTables_empty handed.empty⟩, ?_⟩
  · rw [handed.root]
    exact (holds.good handed.nonNull).tree.congr handed.child_eq
  · rw [handed.root]
    exact (walks windowPath (by decide)).trans handed.window
  · intro bit member virt entry page _ found present has path table index upper
      walked
    obtain ⟨upperKept, leafKept, -⟩ := permissionBits member
    have short := short_of_upper upper
    rw [handed.root, walks path (Nat.le_of_lt short)] at walked
    rw [handed.leafEntry_eq] at found
    rw [handed.readEntry_eq (Nat.le_of_lt short) walked]
    have translated : translationOf loader virt =
        some (frameOf entry, entry &&& ptFlagsMask) := by
      rw [translationOf, if_neg handed.nonNull,
        translation_of_leafEntry found, if_pos present]
    exact covered_of_run fresh upperKept leafKept loaded virt _ _ page
      translated ((has_and_of_subset leafKept).mpr has) path table index upper
      walked

end Start

/-! ## From call to call -/

section Steps

variable {layout : Layout} {state state' : Mapper}
  {virt phys flags : Word} {operation : Ownership.Operation}

/-- The covers of the two permission bits survive a call that leaves them in
its upper entries, or its leaf entry as it was. -/
theorem Guarded.after (guarded : Guarded layout state)
    (headers : HeadersOffTables state')
    (after : EntriesAfter layout state state' virt flags)
    (here : ∀ bit ∈ [pageRwBit, pageUsBit], ¬ InWindow layout virt →
      ∀ entry, leafEntry state'.mem state'.pml4.toNat virt = some entry →
        Has entry pagePBit → Has entry bit →
        Has flags bit ∨
          leafEntry state.mem state.pml4.toNat virt = some entry) :
    Guarded layout state' :=
  ⟨after.tables, headers, fun bit member =>
    covers_after after (guarded.covers bit member) (here bit member)⟩

/-- `add_phys_mem` writes a header off the tables. -/
theorem guarded_addPhysMem (guarded : Guarded layout state)
    {physMemStart length : Word}
    (keeps : KeepsTables layout state (.addPhysMem physMemStart length))
    (added : addPhysMem layout state physMemStart length = .ok state') :
    Guarded layout state' := by
  obtain ⟨frame, long, bounded, unused⟩ := keeps
  obtain ⟨heads, offTables⟩ := guarded.headers
  obtain ⟨headers, spared⟩ := addPhysMem_offTables offTables guarded.tables
    frame long bounded unused added
  obtain ⟨after, leaves⟩ :=
    EntriesAfter.of_spares physMemStart guarded.tables spared
  refine guarded.after ⟨_, headers⟩ after ?_
  intro _ _ outside entry found _ _
  exact Or.inr ((leaves physMemStart outside).symm.trans found)

/-- A mapping keeps the state guarded. -/
theorem guarded_maps (guarded : Guarded layout state)
    (headers : HeadersOffTables state')
    (after : EntriesAfter layout state state' virt (flags &&& pml4FlagsMask))
    {target : Word} (frame : IsFrame target)
    (stored : leafEntry state'.mem state'.pml4.toNat virt =
      some ((flags &&& ptFlagsMask) ||| target)) :
    Guarded layout state' := by
  refine guarded.after headers after ?_
  intro bit member _ entry found _ has
  obtain ⟨upperKept, leafKept, noAddress⟩ := permissionBits member
  rw [stored] at found
  cases found
  rw [stored_iff frame leafKept noAddress] at has
  exact Or.inl ((has_and_of_subset upperKept).mpr has)

/-- What a call of `map_page` that keeps the tables does to the entries. -/
theorem mapPage_keeps (guarded : Guarded layout state)
    (keeps : KeepsTables layout state (.mapPage virt phys flags))
    (mapped : mapPage layout state virt phys flags = .ok state') :
    Guarded layout state' ∧
      if Has flags pagePBit then
        EntriesAfter layout state state' virt (flags &&& pml4FlagsMask) ∧
          ∃ target, IsFrame target ∧
            leafEntry state'.mem state'.pml4.toNat virt =
              some ((flags &&& ptFlagsMask) ||| target)
      else EntriesAfter layout state state' virt 0#64 := by
  obtain ⟨⟨table, found⟩, spares⟩ := keeps
  obtain ⟨page, frame⟩ := asserted_of_mapPage mapped
  obtain ⟨heads, offTables⟩ := guarded.headers
  by_cases mapping : Has flags pagePBit
  · obtain ⟨headers, after, target, targetFrame, stored⟩ := mapPage_entries
      offTables guarded.tables found spares mapping mapped
    rw [if_pos mapping]
    exact ⟨guarded_maps guarded headers after targetFrame stored, after, target,
      targetFrame, stored⟩
  · rw [mapPage_eq_unmapPage page frame mapping] at mapped
    obtain ⟨headers, after, old⟩ := unmapPage_entries offTables guarded.tables
      page spares mapping mapped
    rw [if_neg mapping]
    refine ⟨guarded.after headers after ?_, after⟩
    intro _ _ outside entry stored present _
    exact Or.inr (old outside entry stored present)

/-- Every call that keeps the tables keeps the state guarded. -/
theorem guarded_step (guarded : Guarded layout state)
    (step : Step layout state operation state') : Guarded layout state' := by
  obtain ⟨keeps, performed⟩ := step
  cases operation with
  | addPhysMem physMemStart length =>
      exact guarded_addPhysMem guarded keeps performed
  | mapPage virt phys flags =>
      exact (mapPage_keeps guarded keeps performed).1

/-- One call on a guarded state. -/
theorem Guarded.enforces_iff (guarded : Guarded layout state)
    (keeps : KeepsTables layout state (.mapPage virt phys flags))
    (mapped : mapPage layout state virt phys flags = .ok state') :
    Enforces layout state state' virt flags ↔
      (Has flags pagePBit → NoExecuteFits layout state virt flags) := by
  obtain ⟨afterwards, entries⟩ := mapPage_keeps guarded keeps mapped
  have covers : ∀ bit ∈ [pageRwBit, pageUsBit],
      Covers layout state.mem state.pml4.toNat bit ∧
        Covers layout state'.mem state'.pml4.toNat bit := fun bit member =>
    ⟨guarded.covers bit member, afterwards.covers bit member⟩
  by_cases mapping : Has flags pagePBit
  · rw [if_pos mapping] at entries
    obtain ⟨after, target, frame, stored⟩ := entries
    rw [Protection.enforces_iff after covers frame stored mapping]
    exact ⟨fun fits _ => fits, fun fits => fits mapping⟩
  · rw [if_neg mapping] at entries
    exact iff_of_true (enforces_of_unflagged entries covers mapping)
      (fun mapping' => absurd mapping' mapping)

end Steps

/-- From the loader's tables, after every run that keeps the tables, a call of
`map_page` leaves the permissions of the other pages alone and gives its page
those that were asked for, exactly if its no-execute flag agrees with the
tables. -/
theorem run_enforces_iff (layout : Layout) (first loader : LoaderPaging.Loader)
    (calls : List LoaderPaging.Call) (start state state' : Mapper)
    (operations : List Ownership.Operation) (virt phys flags : Word)
    (fresh : Fresh first)
    (loaded : Run LoaderPaging.Step first calls loader)
    (handed : HandedOver layout loader start)
    (run : Run (Step layout) start operations state)
    (keeps : KeepsTables layout state (.mapPage virt phys flags))
    (mapped : mapPage layout state virt phys flags = .ok state') :
    Enforces layout state state' virt flags ↔
      (Has flags pagePBit → NoExecuteFits layout state virt flags) := by
  have reached : Guarded layout state :=
    run.invariant (guarded_start fresh loaded handed)
      fun _ _ _ guarded step => guarded_step guarded step
  exact reached.enforces_iff keeps mapped

/-! ## Two pages of one level-4 entry -/

section Small

variable {layout : Layout} {loader : Loader} {state : Mapper}
  {virt phys flags entry : Word}

/-- The kernel's first state, on the tables of the loader. -/
def handOver (loader : Loader) : Mapper where
  mem := loader.mem
  windowBase := 0#64
  physWindow := 0#64
  pml4 := loader.pml4.setWidth 64
  firstFreeBlock := 0#64

theorem toNat_pml4_handOver :
    (handOver loader).pml4.toNat = loader.pml4.toNat := by
  have bound := loader.pml4.isLt
  simp only [handOver, BitVec.toNat_setWidth]
  omega

theorem handedOver_handOver (nonNull : loader.pml4 ≠ 0#32)
    (window : walk (child loader.mem) loader.pml4.toNat windowPath =
      some layout.windowPt) :
    HandedOver layout loader (handOver loader) :=
  ⟨nonNull, toNat_pml4_handOver, fun _ _ _ _ _ => rfl, window, rfl⟩

/-- A page that owes no frame can be mapped anew. -/
theorem keepsTables_of_unmarked
    (found : leafEntry state.mem state.pml4.toNat virt = some entry)
    (unmarked : ¬ Has entry pageFBit) :
    KeepsTables layout state (.mapPage virt phys flags) := by
  obtain ⟨table, walked, -⟩ := leafTable_of_leafEntry found
  refine ⟨⟨table, walked⟩, fun _ => ⟨?_, ?_⟩⟩
  · rintro frame ⟨other, again, marked, -⟩
    cases found.symm.trans again
    exact absurd marked unmarked
  · rintro - ⟨other, again, -, marked⟩
    cases found.symm.trans again
    exact absurd marked unmarked

/-- The loader maps one page of the window's page table, which has no other
entries then. -/
theorem emptyLoader_window :
    ∃ layout loader,
      Run LoaderPaging.Step LoaderPaging.emptyLoader
        [.map (bootPage 2) 0x5000#64 2#64] loader ∧
      HandedOver layout loader (handOver loader) ∧
      WellFormed layout (handOver loader) [] ∧
      ∀ index : Index, index.val < 2 →
        ¬ InWindow layout (bootPage index) ∧
          leafEntry (handOver loader).mem (handOver loader).pml4.toNat
            (bootPage index) = some 0#64 := by
  obtain ⟨loader, mapped⟩ := @LoaderPaging.mapPage_accepts
    LoaderPaging.emptyLoader (bootPage 2) 0x5000#64 2#64 isPage_bootPage
    (by decide)
  obtain ⟨_, _, count, atMost, usedEq⟩ :=
    LoaderPaging.mapPage_usedMemory mapped
  have unwrapped : LoaderPaging.emptyLoader.usedMemory.toNat ≤
      loader.usedMemory.toNat := by
    rw [usedEq, LoaderPaging.ensureRoot_of_null rfl]
    change 0x100000 ≤ (0x101000 + 4096 * count) % 2 ^ 32
    omega
  have result := LoaderPaging.mapped_of_mapPage
    (fun nonNull => absurd rfl nonNull) (by decide) (Nat.le_refl _) mapped
    unwrapped
  have tree := result.good.tree
  obtain ⟨table, walked⟩ :=
    LoaderPaging.leafTable_of_translationOf result.here
  rw [leafTable, bootPage_path.1] at walked
  obtain ⟨aligned, bounded⟩ := walk_bounds tree walked
  refine ⟨⟨table, 4, aligned, bounded, fourPages_pos, fourPages_le⟩, loader,
    Run.nil.snoc (.map mapped unwrapped),
    handedOver_handOver result.nonNull walked, ?_, ?_⟩
  · refine ⟨⟨?_, ?_⟩, Chain.nil, List.nodup_nil,
      fun _ _ => List.not_mem_nil⟩
    · rw [toNat_pml4_handOver]
      exact tree
    · rw [toNat_pml4_handOver]
      exact walked
  · intro index small
    refine ⟨?_, ?_⟩
    · rintro ⟨-, above⟩
      rw [bootPage_path.2] at above
      simp only [pageTableSize] at above
      omega
    · have found : leafTable (handOver loader).mem
          (handOver loader).pml4.toNat (bootPage index) = some table := by
        rw [toNat_pml4_handOver, leafTable, bootPage_path.1]
        exact walked
      rw [leafEntry_of_leafTable found, bootPage_path.2]
      rcases result.fresh windowPath table (by decide) walked with
        ⟨nonNull, -⟩ | ⟨-, empty⟩
      · exact absurd rfl nonNull
      · refine congrArg some (empty index ?_)
        rw [bootPage_path.1, bootPage_path.2, List.prefix_append_right_inj]
        intro inside
        have same := (List.cons_prefix_cons.mp inside).1
        rw [same] at small
        exact absurd small (by decide)

/-- The kernel closes one page to execution, and maps its neighbour without
`PAGE_NX_BIT`. -/
theorem emptyLoader_calls :
    ∃ layout loader first second,
      Run LoaderPaging.Step LoaderPaging.emptyLoader
        [.map (bootPage 2) 0x5000#64 2#64] loader ∧
      HandedOver layout loader (handOver loader) ∧
      Step layout (handOver loader)
        (.mapPage (bootPage 0) 0x6000#64 0x8000000000000003#64) first ∧
      Step layout first (.mapPage (bootPage 1) 0x7000#64 3#64) second := by
  obtain ⟨layout, loader, loaded, handed, wellFormed, pages⟩ :=
    emptyLoader_window
  obtain ⟨outside, found⟩ := pages 0 (by decide)
  obtain ⟨outside', found'⟩ := pages 1 (by decide)
  obtain ⟨first, mapped, updated⟩ := mapPage_replaces wellFormed
    isPage_bootPage outside found (fun anonymous => absurd anonymous (by decide))
    (fun _ _ => by decide) (by decide : IsFrame 0x6000#64)
    (by decide : Has 0x8000000000000003#64 pagePBit)
  have later := (updated.elsewhere isPage_bootPage (by decide) outside').trans
    found'
  obtain ⟨second, mapped', -⟩ := mapPage_replaces updated.wellFormed
    isPage_bootPage outside' later
    (fun anonymous => absurd anonymous (by decide)) (fun _ _ => by decide)
    (by decide : IsFrame 0x7000#64) (by decide : Has 3#64 pagePBit)
  exact ⟨layout, loader, first, second, loaded, handed,
    ⟨keepsTables_of_unmarked found (by decide), mapped⟩,
    ⟨keepsTables_of_unmarked later (by decide), mapped'⟩⟩

end Small

/-- Two calls on the tables of a loader. -/
theorem run_enforces_iff_emptyLoader :
    ∃ layout first second,
      Enforces layout first second (bootPage 1) 3#64 ↔
        (Has 3#64 pagePBit → NoExecuteFits layout first (bootPage 1) 3#64) := by
  obtain ⟨layout, loader, first, second, loaded, handed, closing, mapping⟩ :=
    emptyLoader_calls
  exact ⟨layout, first, second, run_enforces_iff layout
    LoaderPaging.emptyLoader loader _ (handOver loader) first second _
    (bootPage 1) 0x7000#64 3#64 LoaderPaging.fresh_emptyLoader loaded handed
    (Run.nil.snoc closing) mapping.1 mapping.2⟩

/-- A page that is mapped without `PAGE_NX_BIT` is closed to execution, since
its neighbour is. -/
theorem permissions_not_asked :
    ∃ layout loader first second,
      LoaderPaging.Fresh LoaderPaging.emptyLoader ∧
      Run LoaderPaging.Step LoaderPaging.emptyLoader
        [.map (bootPage 2) 0x5000#64 2#64] loader ∧
      HandedOver layout loader (handOver loader) ∧
      Step layout (handOver loader)
        (.mapPage (bootPage 0) 0x6000#64 0x8000000000000003#64) first ∧
      Step layout first (.mapPage (bootPage 1) 0x7000#64 3#64) second ∧
      Has 3#64 pagePBit ∧ ofFlags 3#64 = ⟨true, false, false⟩ ∧
      permissions second.mem second.pml4.toNat (bootPage 1) =
        some ⟨true, false, true⟩ := by
  obtain ⟨layout, loader, first, second, loaded, handed, closing, mapping⟩ :=
    emptyLoader_calls
  have start := guarded_start LoaderPaging.fresh_emptyLoader loaded handed
  have closes : Has 0x8000000000000003#64 pagePBit := by decide
  have maps : Has 3#64 pagePBit := by decide
  obtain ⟨middle, entries⟩ := mapPage_keeps start closing.1 closing.2
  rw [if_pos closes] at entries
  obtain ⟨-, entries'⟩ := mapPage_keeps middle mapping.1 mapping.2
  rw [if_pos maps] at entries'
  obtain ⟨after, target, frame, stored⟩ := entries'
  obtain ⟨⟨writable, user, noExecute⟩, allows, writes, uses, closed⟩ :=
    permissions_here after frame stored maps
  have carries : UpperCarries first.mem first.pml4.toNat (bootPage 1)
      pageNxBit :=
    (upperCarries_after entries.1).mpr (Or.inr (by decide))
  refine ⟨layout, loader, first, second, LoaderPaging.fresh_emptyLoader,
    loaded, handed, closing, mapping, maps, by decide, ?_⟩
  rw [allows]
  refine congrArg some (permissions_ext ?_ ?_ ?_)
  · exact writes.trans (by decide)
  · exact uses.trans (by decide)
  · exact closed.trans (iff_of_true (Or.inr carries) rfl)

end BeaverOS.Enforcement
