import BeaverOS.Loader.Handshake
import BeaverOS.Loader.Main

/-!
# Booting the kernel

From the multiboot2 information structure to the jump into the kernel: the page
tables that the kernel starts with hold the identity map of the memory in use,
the kernel's segments, its window, and nothing else.
-/

namespace BeaverOS.LoaderMain

open BeaverOS.Loop
open BeaverOS.ByteMemory
open BeaverOS.RadixTree
open BeaverOS.Paging
open BeaverOS.Window
open BeaverOS.PageTree
open BeaverOS.Transition
open BeaverOS.LoaderPaging
open BeaverOS.Elf64

/-! ## What `load_kernel` maps and spares -/

/-- The pages that `load_kernel` maps. -/
def kernelPages (memory : Memory) (start : Pointer)
    (symbols : WindowSymbols) : Set Word :=
  fun virt =>
    (∃ pi k, IsSegmentPage memory start pi k ∧
      virt = segmentPageAddress memory start pi k) ∨
    virt = symbols.physWindowPt ∨
    ∃ wi, wi < symbols.physWindowSize.toNat ∧ virt = windowPage symbols wi

/-- The memory of a file, up to the end of its last page. -/
def fileCells (start : Pointer) (size : Nat) : Set Nat :=
  cells start.toNat ((size + 4095) / 4096 * 4096)

/-- No leaf entry gives its frame back when its page is unmapped. -/
def Unmarked (state : Loader) : Prop :=
  state.pml4 ≠ 0#32 → ∀ virt entry,
    leafEntry state.mem state.pml4.toNat virt = some entry →
      ¬ Has entry pageFBit

/-- A call that maps nothing but `pages`, to frames that begin below `limit`
and that it does not give away. -/
def MapsWithin (pages : Set Word) (limit : Nat) : Call → Prop
  | .map virt phys flags =>
      virt ∈ pages ∧ phys.toNat < limit ∧ ¬ Has flags pageFBit
  | _ => True

/-- What the loader has done since it was in state `first`: it has mapped
nothing but `pages`, and stored nothing in `spared`. -/
structure Traced (first : Loader) (pages : Set Word) (spared : Set Nat)
    (state : Loader) : Prop where
  run :
    ∃ calls, Run Step first calls state ∧
      ∀ call ∈ calls, MapsWithin pages state.usedMemory.toNat call
  unmarked : Unmarked state
  kept : ∀ cell ∈ spared, state.mem cell = first.mem cell

section Trace

variable {first state state' : Loader} {pages : Set Word} {spared : Set Nat}
  {memory : Memory} {start : Pointer} {size base pi k limit limit' : Nat}
  {symbols : WindowSymbols} {virt phys flags : Word} {call : Call}
  {done : Nat → Nat → Prop}

theorem Unmarked.mapped (unmarked : Unmarked state)
    (result : Mapped state state' virt phys flags)
    (plain : ¬ Has flags pageFBit) : Unmarked state' := by
  rintro nonNull other _ found marked
  obtain ⟨table, walked, rfl⟩ := Option.map_eq_some_iff.mp found
  by_cases here :
      upperPath other ++ [leafIndex other] = upperPath virt ++ [leafIndex virt]
  · -- the entry that the call has stored
    obtain ⟨upper, leaf⟩ := List.append_inj here rfl
    have same : leafTable state'.mem state'.pml4.toNat virt = some table := by
      rw [leafTable, ← upper]
      exact walked
    have translated := result.here
    rw [translationOf, if_neg nonNull,
      translation_of_leafEntry (leafEntry_of_leafTable same)] at translated
    split at translated
    · have flagsEq := congrArg Prod.snd (Option.some.inj translated)
      rw [(List.cons.inj leaf).1] at marked
      have kept := (has_and_of_subset
        (by decide : ptFlagsMask &&& pageFBit = pageFBit)).mpr marked
      rw [show _ &&& ptFlagsMask = _ from flagsEq,
        has_and_of_subset (by decide), has_or] at kept
      rcases kept with isPlain | isPresent
      · exact plain isPlain
      · exact absurd isPresent (by decide)
    · cases translated
  · have notPrefix : ¬ upperPath other ++ [leafIndex other] <+:
        upperPath virt ++ [leafIndex virt] :=
      fun prefixed => here (prefixed.eq_of_length rfl)
    have short := Nat.le_of_eq (length_upperPath other)
    rcases result.fresh _ table short walked with
      ⟨nonNull', old⟩ | ⟨_, empty⟩
    · rw [result.old _ table _ short nonNull' old notPrefix] at marked
      exact unmarked nonNull' other _ (leafEntry_of_leafTable old) marked
    · rw [empty _ notPrefix] at marked
      exact absurd marked (by decide)

theorem Unmarked.quiet (unmarked : Unmarked state)
    (quiet : Quiet state state' call) : Unmarked state' := by
  rintro nonNull other _ found marked
  rw [quiet.pml4] at nonNull found
  obtain ⟨table, walked, rfl⟩ := Option.map_eq_some_iff.mp found
  rw [leafTable_congr (quiet.child_eq nonNull)] at walked
  rw [quiet.readEntry_eq nonNull (Nat.le_of_eq (length_upperPath other))
    walked] at marked
  exact unmarked nonNull other _ (leafEntry_of_leafTable walked) marked

theorem MapsWithin.mono (maps : MapsWithin pages limit call)
    (le : limit ≤ limit') : MapsWithin pages limit' call := by
  cases call with
  | map virt phys flags =>
      exact ⟨maps.1, Nat.lt_of_lt_of_le maps.2.1 le, maps.2.2⟩
  | _ => trivial

/-- Where a page is mapped, a call has mapped it. -/
theorem call_of_pageMap {calls : List Call}
    (mapped : pageMap calls virt = some (phys, flags)) :
    ∃ asked, Call.map virt phys asked ∈ calls := by
  induction calls using List.reverseRecOn with
  | nil => cases mapped
  | append_singleton calls call inductionHypothesis =>
      rw [pageMap_snoc] at mapped
      have earlier : pageMap calls virt = some (phys, flags) →
          ∃ asked, Call.map virt phys asked ∈ calls ++ [call] := fun before =>
        (inductionHypothesis before).imp fun _ member =>
          List.mem_append_left _ member
      cases call with
      | map other target asked =>
          rw [applyCall] at mapped
          by_cases same : virt = other
          · subst same
            rw [Function.update_self] at mapped
            cases mapped
            exact ⟨asked, by simp⟩
          · rw [Function.update_of_ne same] at mapped
            exact earlier mapped
      | _ => exact earlier mapped

theorem Traced.initial (fresh : Fresh first) :
    Traced first pages spared first :=
  ⟨⟨[], Run.nil, by simp⟩, fun nonNull => absurd fresh.pml4 nonNull,
    fun _ _ => rfl⟩

theorem Traced.step (traced : Traced first pages spared state)
    (called : Step state call state')
    (grown : state.usedMemory.toNat ≤ state'.usedMemory.toNat)
    (maps : MapsWithin pages state'.usedMemory.toNat call)
    (unmarked : Unmarked state')
    (kept : ∀ cell ∈ spared, state'.mem cell = state.mem cell) :
    Traced first pages spared state' := by
  obtain ⟨⟨calls, run, mapped⟩, _, before⟩ := traced
  refine ⟨⟨calls ++ [call], run.snoc called, ?_⟩, unmarked,
    fun cell inside => (kept cell inside).trans (before cell inside)⟩
  intro other member
  rcases List.mem_append.mp member with earlier | last
  · exact (mapped other earlier).mono grown
  · rw [List.mem_singleton.mp last]
    exact maps

theorem Traced.mapped (traced : Traced first pages spared state)
    (ready : Ready base state) (below : ∀ cell ∈ spared, cell < base)
    (inPages : virt ∈ pages) (inUse : phys.toNat < state'.usedMemory.toNat)
    (plain : ¬ Has flags pageFBit)
    (mapped : mapPage state virt phys flags = .ok state')
    (unwrapped : state.usedMemory.toNat ≤ state'.usedMemory.toNat) :
    Traced first pages spared state' := by
  obtain ⟨_, result, extended⟩ := ready.mapped mapped unwrapped
  refine traced.step (Step.map mapped unwrapped) unwrapped
    ⟨inPages, inUse, plain⟩ (traced.unmarked.mapped result plain) ?_
  intro cell inside
  refine extended.agree cell ?_
  have bound := below cell inside
  have baseLe := ready.base_le
  rintro (above | ⟨table, linked, inTable⟩)
  · omega
  · have above := ready.linked_above table linked
    rw [mem_cells] at inTable
    omega

/-- The page of a segment is found or made outside of `spared`. -/
theorem Traced.segmentPage {page : Pointer}
    (inMemory : InMemory memory start size base)
    (loading : Loading memory start base done state)
    (traced : Traced first pages spared state)
    (below : ∀ cell ∈ spared, cell < base)
    (apart : Disjoint spared (fileCells start size))
    (isLoad : IsLoad memory start pi) (small : k < 2 ^ 52)
    (chosen : Elf64.segmentPage start (programHeader memory start pi)
      (Elf64.pageStart k) state = .ok (page, state')) :
    Traced first pages spared state' := by
  have offsetEq := inMemory.xword_eq loading.intact isLoad.1
    (show 8 + 8 ≤ 56 by decide)
  have fileszEq := inMemory.xword_eq loading.intact isLoad.1
    (show 32 + 8 ≤ 56 by decide)
  have fileInside := inMemory.image.inside pi isLoad
  have offsetAligned := inMemory.image.offset_aligned pi isLoad
  have baseAligned := inMemory.base_aligned
  have startAligned := inMemory.image.aligned
  have fileBelow := inMemory.below
  have bounded := inMemory.base_bounded
  have ready := loading.ready
  by_cases inFile : 4096 * k < fileszOf memory start pi
  · have fileBound := fileInside (by omega)
    obtain ⟨filePage, pageEq, found⟩ := segmentPage_file offsetEq fileszEq
      small (show start.toNat + offsetOf memory start pi +
        fileszOf memory start pi < 2 ^ 32 by omega) inFile
    rw [found] at chosen
    obtain ⟨rfl, prepared⟩ := Prod.mk.inj (Except.ok.inj chosen)
    split at prepared
    · next ends =>
      change fileszOf memory start pi < 4096 * k + 4096 at ends
      -- the tail of the segment, in the last page of its file part
      have agree := agreeOff_fill state.mem
        (start.toNat + offsetOf memory start pi + fileszOf memory start pi)
        (4096 * k + 4096 - fileszOf memory start pi) 0
      have tailBelow : ∀ cell ∈ cells
          (start.toNat + offsetOf memory start pi + fileszOf memory start pi)
          (4096 * k + 4096 - fileszOf memory start pi),
          cell < base ∧ cell ∈ fileCells start size := by
        intro cell inside
        rw [mem_cells] at inside
        rw [fileCells, mem_cells]
        omega
      have quiet := ready.quiet_of_below agree fun cell inside =>
        (tailBelow cell inside).1
      subst prepared
      refine traced.step (Step.other quiet.agree) quiet.grown trivial
        (traced.unmarked.quiet quiet) ?_
      intro cell inside
      refine agree cell fun inTail => ?_
      exact Set.disjoint_left.mp apart inside (tailBelow cell inTail).2
    · subst prepared
      exact traced
  · rw [segmentPage_new fileszEq small (Nat.le_of_not_lt inFile)] at chosen
    cases allocated : allocating state (newPhysZeroPage state).2 with
    | error halt =>
        rw [allocated] at chosen
        cases chosen
    | ok after =>
        rw [allocated] at chosen
        cases chosen
        obtain ⟨rfl, grown⟩ := allocating_eq_ok allocated
        have aligned := ready.aligned
        have baseLe := ready.base_le
        have bound := state.usedMemory.isLt
        have fits : state.usedMemory.toNat + 4096 < 2 ^ 32 := by
          simp only [newPhysZeroPage, newPhysPage, BitVec.toNat_add,
            BitVec.toNat_ofNat] at grown
          omega
        have called : Step state .newZeroPage (newPhysZeroPage state).2 :=
          Step.newZeroPage fits
        refine traced.step called grown trivial
          (traced.unmarked.quiet (quiet_of_step ready.aligned ready.good called
            (by simp))) ?_
        intro cell inside
        have cellBelow := below cell inside
        simp only [newPhysZeroPage, newPhysPage]
        exact fill_outside (Or.inl (by omega))

theorem Traced.loadPage (inMemory : InMemory memory start size base)
    (loading : Loading memory start base (DoneBefore pi k) state)
    (traced : Traced first (kernelPages memory start symbols) spared state)
    (below : ∀ cell ∈ spared, cell < base)
    (apart : Disjoint spared (fileCells start size))
    (segmentPage : IsSegmentPage memory start pi k)
    (loaded : loadPage start (programHeader memory start pi)
      (Elf64.pageStart k) state = .ok state') :
    Traced first (kernelPages memory start symbols) spared state' := by
  have bound := (pMemsz memory (programHeader memory start pi)).isLt
  have inSegment := segmentPage.2
  rw [memszOf] at inSegment
  have notDone : ¬ DoneBefore pi k pi k := by
    simp [DoneBefore]
  obtain ⟨⟨page, prepared⟩, chosen, loaded⟩ := ok_of_bind loaded
  obtain ⟨after, mapped, loaded⟩ := ok_of_bind loaded
  obtain ⟨rfl, unwrapped⟩ := allocating_eq_ok loaded
  obtain ⟨ready, _, framed⟩ := loading.segmentPage inMemory segmentPage.1
    (by omega) notDone chosen
  have vaddrEq : pVaddr prepared.mem (programHeader memory start pi) +
      Elf64.pageStart k = segmentPageAddress memory start pi k := by
    rw [segmentPageAddress, vaddrOf, pVaddr, pVaddr,
      inMemory.xword_eq ready.intact segmentPage.1.1 (by decide)]
  refine (traced.segmentPage inMemory loading below apart segmentPage.1
    (by omega) chosen).mapped ready.ready below
      (Or.inl ⟨pi, k, segmentPage, vaddrEq⟩) ?_ (by decide) mapped unwrapped
  have inUse := framed.below
  rw [BitVec.toNat_setWidth]
  have narrow := page.isLt
  omega

theorem Traced.of_pageVisits (inMemory : InMemory memory start size base)
    (loading : Loading memory start base (DoneBefore pi 0) state)
    (traced : Traced first (kernelPages memory start symbols) spared state)
    (below : ∀ cell ∈ spared, cell < base)
    (apart : Disjoint spared (fileCells start size))
    (isLoad : IsLoad memory start pi)
    (visits : Visits (MorePages (programHeader memory start pi))
      (fun k => Elf64.loadPage start (programHeader memory start pi)
        (Elf64.pageStart k)) state k state') (bound : k ≤ 2 ^ 52) :
    Traced first (kernelPages memory start symbols) spared state' := by
  induction visits with
  | start => exact traced
  | next visits more step inductionHypothesis =>
      have holds := loading.of_pageVisits inMemory isLoad visits (by omega)
      exact (inductionHypothesis (by omega)).loadPage inMemory holds below
        apart ((holds.morePages_iff inMemory isLoad (by omega)).mp more) step

theorem traced_of_visits
    (inMemory : InMemory state.mem start size state.usedMemory.toNat)
    (fresh : Fresh state)
    (below : ∀ cell ∈ spared, cell < state.usedMemory.toNat)
    (apart : Disjoint spared (fileCells start size))
    (visits : Visits (MoreSegments start)
      (loadSegment start (advance start (ePhoff state.mem start))) state pi
      state') :
    Traced state (kernelPages state.mem start symbols) spared state' := by
  induction visits with
  | start => exact Traced.initial fresh
  | next visits more step traced =>
      have holds := loading_of_visits inMemory fresh visits
      rw [MoreSegments, inMemory.ePhnum_eq holds.intact] at more
      have typeEq := inMemory.pType_eq holds.intact more
      rw [programHeader] at typeEq
      rw [loadSegment, typeEq] at step
      split at step
      · next isLoad =>
        obtain ⟨last, bound, pages, _⟩ :=
          visits_of_whileLoop Visits.start step
        exact traced.of_pageVisits inMemory holds below apart
          ⟨more, isLoad⟩ pages (by omega)
      · cases step
        exact traced

/-- All that `load_kernel` does. -/
theorem traced_of_loadKernel {entry : Word} {loaded : Loader}
    (inMemory : InMemory state.mem start size state.usedMemory.toNat)
    (fresh : Fresh state)
    (below : ∀ cell ∈ spared, cell < state.usedMemory.toNat)
    (apart : Disjoint spared (fileCells start size))
    (avoids : AvoidsWindow state.mem start symbols)
    (returned : loadKernel start state = .ok (.loaded entry, state'))
    (segments : loadSegments start state = .ok loaded)
    (found : findWindow loaded.mem start = .ok (.ok symbols)) :
    Traced state (kernelPages state.mem start symbols) spared state' ∧
      Loading state.mem start state.usedMemory.toNat (fun _ _ => True)
        state' := by
  obtain ⟨windowed, window, pt⟩ :=
    window_of_loadKernel returned segments found
  have loading := loading_of_loadSegments inMemory fresh segments
  obtain ⟨last, _, visits, _⟩ := visits_of_whileLoop Visits.start segments
  have traced : Traced state (kernelPages state.mem start symbols) spared
      loaded := traced_of_visits inMemory fresh below apart visits
  have between : Loading state.mem start state.usedMemory.toNat
        (fun _ _ => True) windowed ∧
      Traced state (kernelPages state.mem start symbols) spared windowed := by
    refine forLoop_invariant (fun _ here =>
      Loading state.mem start state.usedMemory.toNat (fun _ _ => True) here ∧
        Traced state (kernelPages state.mem start symbols) spared here)
      (Nat.zero_le _) ⟨loading, traced⟩ ?_ window
    rintro wi before after _ inside ⟨holds, traced⟩ step
    obtain ⟨result, mapped, step⟩ := ok_of_bind step
    obtain ⟨rfl, unwrapped⟩ := allocating_eq_ok step
    refine ⟨holds.mapped inMemory (fun pi k segmentPage _ =>
      (avoids pi k segmentPage).2 wi inside) mapped unwrapped,
      traced.mapped holds.ready below (Or.inr (Or.inr ⟨wi, inside, rfl⟩)) ?_
        (by decide) mapped unwrapped⟩
    have above := holds.ready.above
    exact Nat.lt_of_lt_of_le (show 0 < 0x100000 by decide)
      (above.trans unwrapped)
  refine ⟨?_, between.1.mapWindowPt inMemory avoids pt⟩
  obtain ⟨result, mapped, step⟩ := ok_of_bind pt
  obtain ⟨rfl, unwrapped⟩ := allocating_eq_ok step
  refine between.2.mapped between.1.ready below (Or.inr (Or.inl rfl)) ?_
    (by decide) mapped unwrapped
  have above := between.1.ready.above
  have bound := windowed.usedMemory.isLt
  rw [BitVec.toNat_setWidth, BitVec.toNat_sub]
  simp only [BitVec.toNat_ofNat]
  omega

end Trace

/-! ## What the identity map leaves alone -/

section Identity

variable {first state state' : Loader} {virt other phys flags : Word}
  {symbols : WindowSymbols} {limit table : Nat} {Kept : Loader → Prop}

/-- What survives a mapping in the lower half survives
`setup_identity_paging`. -/
theorem Mapping.keeps (initial : Mapping first 0 first)
    (aligned : limit % 4096 = 0) (below : limit < 2 ^ 32)
    (room : first.usedMemory.toNat + 4096 * tablesBelow limit ≤ limit)
    (holds : Kept first)
    (kept : ∀ before after virt, virt.toNat < 2 ^ 47 →
      before.pml4 ≠ 0#32 → Kept before →
      mapPage before virt virt identityFlags = .ok after →
      before.usedMemory.toNat ≤ after.usedMemory.toNat →
      after.pml4 = before.pml4 → Kept after) :
    ∃ state', setupIdentityPaging first = .ok state' ∧
      IdentityMapped first state' ∧ state'.usedMemory.toNat ≤ limit ∧
      Kept state' := by
  obtain ⟨state', returned, identity⟩ :=
    setupIdentityPaging_of_mapping initial aligned below room
  refine ⟨state', returned, identity, ?_⟩
  obtain ⟨last, -, visits, -⟩ := visits_of_whileLoop Visits.start returned
  have monotone : ∀ {before after : Nat}, before ≤ after →
      tablesBelow before ≤ tablesBelow after := by
    intro before after ordered
    simp only [tablesBelow]
    omega
  have visited : last ≤ limit / 4096 ∧ Mapping first last state' ∧
      Kept state' := by
    clear identity returned
    induction visits with
    | start => exact ⟨Nat.zero_le _, initial, holds⟩
    | @next i here after _ more step inductionHypothesis =>
        obtain ⟨inside, mapping, keptHere⟩ := inductionHypothesis
        have bound := here.usedMemory.isLt
        have used := mapping.used
        have value := toNat_pageStart (show 4096 * i < 2 ^ 32 by omega)
        have goesOn : 4096 * i < here.usedMemory.toNat := by
          rw [BitVec.lt_def, value, BitVec.toNat_setWidth] at more
          omega
        have before : i < limit / 4096 := by
          refine Nat.lt_of_le_of_ne inside fun last => ?_
          have whole : 4096 * i = limit := by omega
          rw [whole] at used goesOn
          omega
        have few := monotone (show 4096 * (i + 1) ≤ limit by omega)
        have more := monotone (show 4096 * i ≤ 4096 * (i + 1) by omega)
        obtain ⟨mapped, same, mapping'⟩ := mapping.round goesOn (by omega)
        rw [step] at same
        cases same
        have low : (LoaderPaging.pageStart i).toNat < 2 ^ 47 := by omega
        have walkedHere := mapping.walked (LoaderPaging.pageStart i) low
        rw [value] at walkedHere
        have count := missing_pageStart walkedHere
        have linked := linked_of_mapPage mapping.good mapping.nonNull step (by
          rw [used]
          omega)
        have usedAfter := mapping'.used
        exact ⟨before, mapping', kept here after _ low mapping.nonNull keptHere
          step (by omega) linked.pml4⟩
  obtain ⟨inside, mapping, keptLast⟩ := visited
  have used := mapping.used
  have few := monotone (show 4096 * last ≤ limit by omega)
  exact ⟨by omega, keptLast⟩

/-- A mapping leaves the tables below another entry of the root alone. -/
theorem leafTableOf_of_mapped (result : Mapped state state' virt phys flags)
    (nonNull : state.pml4 ≠ 0#32) (pml4 : state'.pml4 = state.pml4)
    (different : indexAt other 39 ≠ indexAt virt 39) :
    leafTableOf state' other = leafTableOf state other := by
  rw [leafTableOf_of_nonNull nonNull, leafTableOf_of_nonNull result.nonNull,
    pml4, leafTable, leafTable]
  have onPath : ∀ path : List Index, path <+: upperPath other →
      walk (child state'.mem) state.pml4.toNat path =
        walk (child state.mem) state.pml4.toNat path := by
    intro path
    induction path using List.reverseRecOn with
    | nil => exact fun _ => rfl
    | append_singleton path index inductionHypothesis =>
        intro prefixed
        have shorter := prefixed.length_le
        rw [List.length_append, List.length_singleton, length_upperPath]
          at shorter
        rw [walk_snoc, walk_snoc,
          inductionHypothesis ((List.prefix_append _ _).trans prefixed)]
        cases reached : walk (child state.mem) state.pml4.toNat path with
        | none => rfl
        | some table =>
            refine child_eq_of_readEntry (result.old path table index
              (by omega) nonNull reached fun onWalk => different ?_)
            cases path with
            | nil =>
                simp only [upperPath, List.nil_append, List.cons_append,
                  List.cons_prefix_cons] at prefixed onWalk
                exact prefixed.1.symm.trans onWalk.1
            | cons head rest =>
                simp only [upperPath, List.cons_append,
                  List.cons_prefix_cons] at prefixed onWalk
                exact prefixed.1.symm.trans onWalk.1
  exact onPath _ (List.prefix_refl _)

/-- The window stays where it is while the lower half is mapped. -/
theorem SharesTable.mapped (shares : SharesTable symbols state table)
    (laidOut : LaidOut symbols) (ptPage : IsPage symbols.physWindowPt)
    (high : 2 ^ 47 ≤ symbols.physWindowPages.toNat) (low : virt.toNat < 2 ^ 47)
    (result : Mapped state state' virt phys flags)
    (pml4 : state'.pml4 = state.pml4) : SharesTable symbols state' table := by
  have ptValue := laidOut.toNat_pt
  have pages := laidOut.pages
  have sizeLe := laidOut.size_le
  refine ⟨result.nonNull, result.good, shares.isPage, ?_, ?_⟩
  · intro wi inside
    have value := laidOut.toNat_windowPage inside
    rw [leafTableOf_of_mapped result shares.nonNull pml4]
    · exact shares.translates wi inside
    · intro same
      have highIndex := indexAt_high (shares.isPage wi inside) (by omega)
      have lowIndex := indexAt_low low
      rw [same] at highIndex
      omega
  · rw [result.elsewhere _ ptPage]
    · exact shares.mapped
    · rintro rfl
      omega

end Identity

/-! ## The whole boot -/

/-- The memory of the multiboot2 information structure. -/
def infoCells (memory : Memory) (multiboot : Pointer) : Set Nat :=
  cells multiboot.toNat (totalSize memory multiboot).toNat

/-- The loader when it comes to the kernel's file: the memory in use contains
the information structure and the file. -/
def beforeKernel (multiboot : Pointer) (kernel : Kernel) (state : Loader) :
    Loader :=
  extendUsedMemory
    (extendUsedMemory state (multiboot + totalSize state.mem multiboot))
    kernel.stop

/-- What the kernel finds at its first instruction: long mode, the arguments of
`start`, and memory in which the bytes of its segments, the memory in use and
its window are mapped, and nothing else. -/
structure Handed (memory : Memory) (multiboot start : Pointer)
    (symbols : WindowSymbols) (entered : Entered) (state : Loader) :
    Prop where
  paging :
    entered.cr0 &&& cr0PgBit ≠ 0#32 ∧ entered.cr4 &&& cr4PaeBit ≠ 0#32 ∧
      entered.efer &&& eferLmeBit ≠ 0#64
  entry : entered.rip = eEntry memory start
  root : entered.cr3 = state.pml4
  arguments :
    entered.rdi.toNat = multiboot.toNat ∧
      entered.rsi.toNat = state.usedMemory.toNat
  segments :
    ∀ pi j, IsLoad memory start pi → j < memszOf memory start pi →
      ∃ cell flags,
        physicalAddress (translationOf state)
            (vaddrOf memory start pi + BitVec.ofNat 64 j) =
          some (cell, flags) ∧
        Has flags pagePBit ∧ Has flags pageRwBit ∧
        state.mem cell = segmentByte memory start pi j
  identity :
    ∀ address, address < entered.rsi.toNat →
      ∃ flags,
        physicalAddress (translationOf state) (BitVec.ofNat 64 address) =
          some (address, flags) ∧
        Has flags pagePBit ∧ Has flags pageRwBit
  window : ∃ table, SharesTable symbols state table
  only :
    ∀ virt, IsPage virt → (translationOf state virt).isSome →
      virt.toNat < entered.rsi.toNat ∨
        virt ∈ kernelPages memory start symbols
  info : ∀ cell ∈ infoCells memory multiboot, state.mem cell = memory cell

/-- What the loader is started with: a processor that can run the kernel, an
information structure that ends at `limit`, and as the last module with the
kernel's name an ELF image of `size` bytes, whose last page holds nothing of the
structure. -/
structure Boots (processor : Processor) (eax multiboot : Pointer)
    (state : Loader) (limit : Nat) (tags : List EarlyMain.Tag)
    (kernel : Kernel) (size : Nat) : Prop where
  magic : eax = 0x36d76289#32
  cpuid : checkCpuid processor = true
  longMode : checkLongMode processor = true
  fresh : Fresh state
  limit_eq :
    multiboot.toNat + (totalSize state.mem multiboot).toNat = limit
  limit_le : limit ≤ 2 ^ 32 - 4096
  found : EarlyMain.TagsIn state.mem limit (multiboot.toNat + 8) tags
  isModule :
    (kernelModule state.mem (tagPlaces (multiboot.toNat + 8) tags)).map
      (moduleAt state.mem) = some kernel
  nonNull : kernel.start ≠ 0#32
  image : Image state.mem kernel.start size
  inside : kernel.start.toNat + size ≤ kernel.stop.toNat
  stop_le : kernel.stop.toNat ≤ 2 ^ 32 - 4096
  apart :
    Disjoint (infoCells state.mem multiboot) (fileCells kernel.start size)

/-- `load_kernel` returns true, for a kernel of the upper half with a window of
its own, and the tables that the memory below `bound` needs fit below it. -/
structure LoadsKernel (start : Pointer) (state loaded : Loader)
    (symbols : WindowSymbols) (entry : Word) (bound : Nat)
    (state' : Loader) : Prop where
  segments : loadSegments start state = .ok loaded
  found : findWindow loaded.mem start = .ok (.ok symbols)
  returned : loadKernel start state = .ok (.loaded entry, state')
  high :
    ∀ pi k, IsSegmentPage state.mem start pi k →
      2 ^ 47 ≤ (segmentPageAddress state.mem start pi k).toNat
  laidOut : LaidOut symbols
  window_high : 2 ^ 47 ≤ symbols.physWindowPages.toNat
  outside :
    ∀ pi k, IsSegmentPage state.mem start pi k →
      (segmentPageAddress state.mem start pi k).toNat / 2 ^ 21 ≠
        symbols.physWindowPages.toNat / 2 ^ 21
  bound_aligned : bound % 4096 = 0
  bound_lt : bound < 2 ^ 32
  room : state'.usedMemory.toNat + 4096 * tablesBelow bound ≤ bound

/-- The memory that the kernel starts with. `base` is the first page that the
loader allocated. -/
structure KernelReady (memory : Memory) (multiboot start : Pointer)
    (symbols : WindowSymbols) (base : Nat) (state : Loader) : Prop where
  aligned : state.usedMemory.toNat % 4096 = 0
  base_le : base ≤ state.usedMemory.toNat
  placed :
    ∀ pi k, IsSegmentPage memory start pi k →
      ∃ frame, Placed memory start base pi k frame state
  identity :
    ∀ virt, IsPage virt → virt.toNat < state.usedMemory.toNat →
      Carries state virt pageRwBit ∧
      ∃ flags, translationOf state virt = some (virt, flags) ∧
        Has flags pagePBit ∧ Has flags pageRwBit
  window : ∃ table, SharesTable symbols state table
  only :
    ∀ virt, IsPage virt → (translationOf state virt).isSome →
      virt.toNat < state.usedMemory.toNat ∨
        virt ∈ kernelPages memory start symbols
  images :
    ∀ virt image flags, IsPage virt →
      translationOf state virt = some (image, flags) →
      image.toNat < state.usedMemory.toNat
  unmarked : Unmarked state
  tables :
    ∀ table, LinkedTable state table →
      base ≤ table ∧ table + 4096 ≤ state.usedMemory.toNat
  info : ∀ cell ∈ infoCells memory multiboot, state.mem cell = memory cell

theorem toNat_setWidth_pointer (pointer : Pointer) :
    (pointer.setWidth 64).toNat = pointer.toNat := by
  have bound := pointer.isLt
  rw [BitVec.toNat_setWidth]
  omega

/-- A bit that has just been set. -/
theorem or_and_ne_zero {width : Nat} {word bit : BitVec width}
    (nonzero : bit ≠ 0) : (word ||| bit) &&& bit ≠ 0 := by
  have kept : (word ||| bit) &&& bit = bit := by
    ext i inside
    simp only [BitVec.getElem_and, BitVec.getElem_or]
    cases word[i] <;> cases bit[i] <;> rfl
  rw [kept]
  exact nonzero

section Boot

variable {processor : Processor} {eax multiboot start : Pointer}
  {state loaded kernelState before after : Loader}
  {limit size base bound table pi j : Nat} {tags : List EarlyMain.Tag}
  {kernel : Kernel} {symbols : WindowSymbols} {entry virt : Word}
  {memory : Memory} {calls : List Call}

theorem extendUsedMemory_mem {newAddr : Pointer} :
    (extendUsedMemory state newAddr).mem = state.mem ∧
      (extendUsedMemory state newAddr).pml4 = state.pml4 := by
  rw [extendUsedMemory]
  split <;> exact ⟨rfl, rfl⟩

/-- What the two calls of `extend_used_memory` come to. -/
theorem Boots.beforeKernel
    (boots : Boots processor eax multiboot state limit tags kernel size) :
    (beforeKernel multiboot kernel state).mem = state.mem ∧
      Fresh (beforeKernel multiboot kernel state) ∧
      limit ≤ (beforeKernel multiboot kernel state).usedMemory.toNat ∧
      kernel.stop.toNat ≤
        (beforeKernel multiboot kernel state).usedMemory.toNat := by
  have limitLe := boots.limit_le
  have limitEq := boots.limit_eq
  have stopLe := boots.stop_le
  have fresh := boots.fresh
  have value : (multiboot + totalSize state.mem multiboot).toNat = limit := by
    rw [BitVec.toNat_add]
    omega
  have first := @extendUsedMemory_bounds state
    (multiboot + totalSize state.mem multiboot) (by omega) fresh.aligned
  have second := @extendUsedMemory_bounds _ kernel.stop (by omega) first.1
  have above := fresh.above
  rw [LoaderMain.beforeKernel]
  refine ⟨?_, ⟨?_, second.1, by omega⟩, by omega, second.2.2⟩
  · rw [extendUsedMemory_mem.1, extendUsedMemory_mem.1]
  · rw [extendUsedMemory_mem.2, extendUsedMemory_mem.2, fresh.pml4]

/-- The window lies apart from the segments. -/
theorem LoadsKernel.avoids
    (loads : LoadsKernel start state loaded symbols entry bound kernelState) :
    AvoidsWindow state.mem start symbols := by
  have pages := loads.laidOut.pages
  have sizeLe := loads.laidOut.size_le
  have ptValue := loads.laidOut.toNat_pt
  intro pi k segmentPage
  have outside := loads.outside pi k segmentPage
  refine ⟨fun same => outside ?_, fun wi inside same => outside ?_⟩
  · rw [same]
    omega
  · rw [same, loads.laidOut.toNat_windowPage inside]
    omega

/-- All pages of the kernel lie in the upper half. -/
theorem LoadsKernel.pages_high
    (loads : LoadsKernel start state loaded symbols entry bound kernelState)
    (inPages : virt ∈ kernelPages state.mem start symbols) :
    2 ^ 47 ≤ virt.toNat := by
  have pages := loads.laidOut.pages
  have sizeLe := loads.laidOut.size_le
  have ptValue := loads.laidOut.toNat_pt
  have high := loads.window_high
  rcases inPages with ⟨pi, k, segmentPage, rfl⟩ | rfl | ⟨wi, inside, rfl⟩
  · exact loads.high pi k segmentPage
  · omega
  · rw [loads.laidOut.toNat_windowPage inside]
    omega

/-- The entry point is that of the file. -/
theorem entry_of_loadKernel
    (returned : loadKernel start state = .ok (.loaded entry, kernelState)) :
    entry = eEntry state.mem start := by
  cases refused : refusal state.mem start with
  | some message =>
      simp only [loadKernel, refused] at returned
      cases returned
  | none =>
      simp only [loadKernel, refused] at returned
      obtain ⟨_, _, returned⟩ := ok_of_bind returned
      obtain ⟨answer, _, returned⟩ := ok_of_bind returned
      cases answer with
      | error message => cases returned
      | ok symbols =>
          obtain ⟨_, _, returned⟩ := ok_of_bind returned
          obtain ⟨_, _, returned⟩ := ok_of_bind returned
          have same := (Prod.mk.inj (Except.ok.inj returned)).1
          exact (Verdict.loaded.inj same).symm

/-- The table of the window is made behind the segments. -/
theorem sharesTable_of_loadsKernel (fresh : Fresh state)
    (image : Image state.mem start size)
    (below : start.toNat + size ≤ state.usedMemory.toNat)
    (loads : LoadsKernel start state loaded symbols entry bound kernelState) :
    IsPage symbols.physWindowPt ∧
      ∃ table, SharesTable symbols kernelState table := by
  obtain ⟨windowed, window, pt⟩ :=
    window_of_loadKernel loads.returned loads.segments loads.found
  obtain ⟨last, _, visits, _⟩ :=
    visits_of_whileLoop Visits.start loads.segments
  have noTable := noTable_of_visits fresh
    (fileBelow_of_image image below fresh)
    (isPage_of_mapWindowPages loads.laidOut window)
    (segmentsAvoid_of_image image below fresh loads.outside) visits
  obtain ⟨_, mapped, _⟩ := ok_of_bind pt
  exact ⟨(mapPage_usedMemory mapped).1,
    sharesTable_of_mapWindowPt loads.laidOut
      (windowRounds_of_mapWindowPages loads.laidOut noTable window) pt⟩

/-- What the last loop leaves alone. -/
structure Installed (memory : Memory) (multiboot start : Pointer)
    (symbols : WindowSymbols) (base table : Nat) (state : Loader) :
    Prop where
  loading : Loading memory start base (fun _ _ => True) state
  shares : SharesTable symbols state table
  unmarked : Unmarked state
  info : ∀ cell ∈ infoCells memory multiboot, state.mem cell = memory cell

theorem Installed.mapped
    (installed : Installed memory multiboot start symbols base table before)
    (inMemory : InMemory memory start size base)
    (high : ∀ pi k, IsSegmentPage memory start pi k →
      2 ^ 47 ≤ (segmentPageAddress memory start pi k).toNat)
    (laidOut : LaidOut symbols) (ptPage : IsPage symbols.physWindowPt)
    (windowHigh : 2 ^ 47 ≤ symbols.physWindowPages.toNat)
    (infoBelow : ∀ cell ∈ infoCells memory multiboot, cell < base)
    (low : virt.toNat < 2 ^ 47)
    (mapped : mapPage before virt virt identityFlags = .ok after)
    (unwrapped : before.usedMemory.toNat ≤ after.usedMemory.toNat)
    (pml4 : after.pml4 = before.pml4) :
    Installed memory multiboot start symbols base table after := by
  obtain ⟨loading, shares, unmarked, info⟩ := installed
  obtain ⟨_, result, extended⟩ := loading.ready.mapped mapped unwrapped
  refine ⟨loading.mapped inMemory ?_ mapped unwrapped,
    SharesTable.mapped shares laidOut ptPage windowHigh low result pml4,
    unmarked.mapped result (by decide), ?_⟩
  · rintro pi k segmentPage _ rfl
    have above := high pi k segmentPage
    omega
  · intro cell inside
    rw [extended.agree cell]
    · exact info cell inside
    · have cellBelow := infoBelow cell inside
      have baseLe := loading.ready.base_le
      rintro (above | ⟨table, linked, inTable⟩)
      · omega
      · have above := loading.ready.linked_above table linked
        rw [mem_cells] at inTable
        omega

/-- After a loader that started fresh has loaded a kernel, its last loop maps
the memory in use. -/
theorem kernelReady_of_loadsKernel (fresh : Fresh state)
    (image : Image state.mem start size)
    (below : start.toNat + size ≤ state.usedMemory.toNat)
    (infoBelow : ∀ cell ∈ infoCells state.mem multiboot,
      cell < state.usedMemory.toNat)
    (apart :
      Disjoint (infoCells state.mem multiboot) (fileCells start size))
    (loads : LoadsKernel start state loaded symbols entry bound kernelState) :
    ∃ state', setupIdentityPaging kernelState = .ok state' ∧
      KernelReady state.mem multiboot start symbols state.usedMemory.toNat
        state' ∧
      state'.usedMemory.toNat ≤ bound := by
  have inMemory : InMemory state.mem start size state.usedMemory.toNat :=
    ⟨image, below, fresh.aligned, state.usedMemory.isLt⟩
  obtain ⟨traced, loading⟩ := traced_of_loadKernel inMemory fresh infoBelow
    apart loads.avoids loads.returned loads.segments loads.found
  obtain ⟨⟨calls, run, mapsPages⟩, unmarked, kept⟩ := traced
  obtain ⟨ptPage, table, shares⟩ :=
    sharesTable_of_loadsKernel fresh image below loads
  -- the lower half is empty before the last loop
  have highOnly := highOnly_of_run fresh run fun virt phys flags member =>
    loads.pages_high (mapsPages _ member).1
  have holds := invariant_of_run fresh run
  obtain ⟨state', returned, identity, usedLe, installed⟩ := Mapping.keeps
    (Mapping.initial shares.good shares.nonNull highOnly) loads.bound_aligned
    loads.bound_lt loads.room
    (show Installed state.mem multiboot start symbols _ table kernelState from
      ⟨loading, shares, unmarked, kept⟩)
    (fun _ _ _ low _ installed mapped unwrapped pml4 =>
      installed.mapped inMemory loads.high loads.laidOut ptPage
        loads.window_high infoBelow low mapped unwrapped pml4)
  obtain ⟨loading', shares', unmarked', kept'⟩ := installed
  -- the pages of the upper half are those that `load_kernel` has mapped
  have mappedHigh : ∀ virt image flags, IsPage virt → 2 ^ 47 ≤ virt.toNat →
      translationOf state' virt = some (image, flags) →
      virt ∈ kernelPages state.mem start symbols ∧
        image.toNat < state'.usedMemory.toNat := by
    intro virt image flags page high found
    rw [identity.upper virt page high, holds.pages virt page] at found
    obtain ⟨asked, member⟩ := call_of_pageMap found
    obtain ⟨inPages, inUse, _⟩ := mapsPages _ member
    exact ⟨inPages, Nat.lt_of_lt_of_le inUse identity.grown⟩
  refine ⟨state', returned, ⟨loading'.ready.aligned, loading'.ready.base_le, ?_,
    identity.identity, ⟨_, shares'⟩, ?_, ?_, unmarked', ?_, kept'⟩, usedLe⟩
  · exact fun pi k segmentPage =>
      loading'.placed pi k segmentPage trivial
  · intro virt page found
    obtain ⟨⟨image, flags⟩, found⟩ := Option.isSome_iff_exists.mp found
    by_cases low : virt.toNat < 2 ^ 47
    · left
      by_contra above
      rw [identity.absent virt page (Nat.le_of_not_lt above) low] at found
      cases found
    · exact Or.inr
        (mappedHigh virt image flags page (Nat.le_of_not_lt low) found).1
  · intro virt image flags page found
    by_cases low : virt.toNat < 2 ^ 47
    · by_cases inUse : virt.toNat < state'.usedMemory.toNat
      · obtain ⟨-, flags', mapped, -⟩ := identity.identity virt page inUse
        rw [found] at mapped
        cases mapped
        exact inUse
      · rw [identity.absent virt page (Nat.le_of_not_lt inUse) low] at found
        cases found
    · exact (mappedHigh virt image flags page (Nat.le_of_not_lt low) found).2
  · intro table linked
    exact ⟨loading'.ready.linked_above table linked,
      identity.tables table linked⟩

/-- The loader enters the kernel, and leaves its memory ready. -/
theorem loaderMain_ready
    (boots : Boots processor eax multiboot state limit tags kernel size)
    (loads : LoadsKernel kernel.start (beforeKernel multiboot kernel state)
      loaded symbols entry bound kernelState) :
    ∃ state',
      loaderMain processor eax multiboot state =
        .ok (enableLongMode processor state'.pml4
          (eEntry state.mem kernel.start) multiboot state'.usedMemory,
          state') ∧
      KernelReady state.mem multiboot kernel.start symbols
        (beforeKernel multiboot kernel state).usedMemory.toNat state' ∧
      limit ≤ state'.usedMemory.toNat ∧ state'.usedMemory.toNat ≤ bound := by
  obtain ⟨memEq, fresh, limitLe, stopLe⟩ := boots.beforeKernel
  have limitEq := boots.limit_eq
  have inside := boots.inside
  have infoBelow : ∀ cell ∈ infoCells state.mem multiboot,
      cell < (beforeKernel multiboot kernel state).usedMemory.toNat := by
    intro cell inInfo
    rw [infoCells, mem_cells] at inInfo
    omega
  have image := boots.image
  have apart := boots.apart
  rw [← memEq] at infoBelow image apart
  obtain ⟨state', identity, ready, usedLe⟩ :=
    kernelReady_of_loadsKernel fresh image (by omega) infoBelow apart loads
  rw [memEq] at ready
  refine ⟨state', ?_, ready, limitLe.trans ready.base_le, usedLe⟩
  have found : findKernel state.mem multiboot = .ok kernel := by
    rw [findKernel_eq boots.found (by have := boots.limit_le; omega)]
    obtain ⟨place, isLast, equal⟩ := Option.map_eq_some_iff.mp boots.isModule
    rw [isLast]
    exact congrArg Except.ok equal
  have aligned : ¬ kernel.start &&& 0xfff#32 ≠ 0#32 := by
    refine not_not_intro (BitVec.eq_of_toNat_eq ?_)
    rw [BitVec.toNat_and]
    exact (Nat.and_two_pow_sub_one_eq_mod kernel.start.toNat 12).trans
      boots.image.aligned
  have entryEq := entry_of_loadKernel loads.returned
  rw [memEq] at entryEq
  have returned := loads.returned
  rw [beforeKernel] at returned
  simp only [loaderMain, boots.magic, boots.cpuid, boots.longMode,
    extendUsedMemory_mem.1, found, if_neg boots.nonNull, if_neg aligned,
    returned, identity, entryEq, bind, Except.bind, ne_eq, not_true_eq_false,
    if_false]
  rfl

/-- The jump to the kernel, on memory that is ready for it. -/
theorem handed_of_ready
    (ready : KernelReady memory multiboot start symbols base state) :
    Handed memory multiboot start symbols
      (enableLongMode processor state.pml4 (eEntry memory start) multiboot
        state.usedMemory) state := by
  have used : (state.usedMemory.setWidth 64).toNat = state.usedMemory.toNat :=
    toNat_setWidth_pointer _
  have bound := state.usedMemory.isLt
  constructor
  · exact ⟨or_and_ne_zero (by decide), or_and_ne_zero (by decide),
      or_and_ne_zero (by decide)⟩
  · rfl
  · rfl
  · exact ⟨toNat_setWidth_pointer _, used⟩
  · intro pi j isLoad inSegment
    obtain ⟨frame, placed⟩ := ready.placed pi (j / 4096) ⟨isLoad, by omega⟩
    exact placed.byte
  · intro address inUse
    rw [enableLongMode, used] at inUse
    have pageEq : pageOf (BitVec.ofNat 64 address) =
        BitVec.ofNat 64 (address / 4096 * 4096) := by
      rw [pageOf, BitVec.toNat_ofNat, Nat.mod_eq_of_lt (by omega)]
    have page : (BitVec.ofNat 64 (address / 4096 * 4096)).toNat =
        address / 4096 * 4096 := by
      rw [BitVec.toNat_ofNat]
      omega
    obtain ⟨_, flags, mapped, present, writable⟩ := ready.identity
      (BitVec.ofNat 64 (address / 4096 * 4096))
      (isPage_of_toNat (Or.inl (by omega)) (by omega)) (by omega)
    refine ⟨flags, ?_, present, writable⟩
    rw [physicalAddress, pageEq, mapped, Option.map_some, page,
      BitVec.toNat_ofNat]
    refine congrArg (fun place => some (place, flags)) ?_
    omega
  · exact ready.window
  · intro virt page found
    rw [enableLongMode, used]
    exact ready.only virt page found
  · exact ready.info

/-- The loader enters the kernel, with the entry point of its file, the
information structure and the memory in use, on tables that hold the identity
map of the memory in use, the kernel's segments and its window, and nothing
else. -/
theorem loaderMain_boots
    (boots : Boots processor eax multiboot state limit tags kernel size)
    (loads : LoadsKernel kernel.start (beforeKernel multiboot kernel state)
      loaded symbols entry bound kernelState) :
    ∃ entered state',
      loaderMain processor eax multiboot state = .ok (entered, state') ∧
      Handed state.mem multiboot kernel.start symbols entered state' ∧
      limit ≤ entered.rsi.toNat ∧ entered.rsi.toNat ≤ bound := by
  obtain ⟨state', returned, ready, lower, upper⟩ := loaderMain_ready boots loads
  have handed := @handed_of_ready processor _ _ _ _ _ _ ready
  refine ⟨_, state', returned, handed, ?_, ?_⟩
  · rw [handed.arguments.2]
    exact lower
  · rw [handed.arguments.2]
    exact upper

end Boot

/-! ## A small boot -/

/-- An information structure with the module of the small image, and a memory
map. -/
def bootInfo : Nat :=
  fields [
    (88, 4), (0, 4),
    -- the module
    (3, 4), (25, 4), (0x200000, 4), (0x20019e, 4), stringField "BEAVEROS",
    (0, 7),
    -- the memory map
    (6, 4), (40, 4), (24, 4), (0, 4), (0x400000, 8), (0x100000, 8), (1, 4),
    (0, 4),
    -- the end tag
    (0, 4), (8, 4)]

/-- The loader of the small image, whose symbols have the values of the linker
script, with the structure at 64 KiB. -/
def bootLoader : Loader :=
  { smallLoader with
    mem := fun cell =>
      if 0x10000 ≤ cell ∧ cell < 0x10058 then
        BitVec.ofNat 8 (bootInfo / 256 ^ (cell - 0x10000))
      -- `_phys_window_size`, `_phys_window_pages` and `_phys_window_pt`
      else if cell = 0x200118 then 4
      else if cell = 0x200131 then 0xc0
      else if cell = 0x200149 then 0xb0
      else smallLoader.mem cell }

def bootProcessor : Processor where
  flags := 2#32
  popfl := id
  cpuid := fun _ => ⟨0x80000008#32, cpuidLmBit⟩
  cr0 := 0x11#32
  cr4 := 0#32
  efer := 0#64

def bootKernel : Kernel := ⟨0x200000#32, 0x20019e#32⟩

def bootSymbols : WindowSymbols :=
  ⟨0xffffffffffffc000#64, 4#32, 0xffffffffffffb000#64⟩

def bootTags : List EarlyMain.Tag :=
  [.other 3#32 25#32, .memoryMap [⟨0x400000#64, 0x100000#64, 1#32⟩]]

set_option maxRecDepth 4000 in
theorem bootLoader_header :
    (ePhoff bootLoader.mem 0x200000#32).toNat = 64 ∧
      (ePhnum bootLoader.mem 0x200000#32).toNat = 1 ∧
      offsetOf bootLoader.mem 0x200000#32 0 = 0 ∧
      fileszOf bootLoader.mem 0x200000#32 0 = 414 ∧
      memszOf bootLoader.mem 0x200000#32 0 = 5000 ∧
      vaddrOf bootLoader.mem 0x200000#32 0 = 0xffffff8000000000#64 := by
  decide

theorem bootLoader_isLoad {pi : Nat}
    (isLoad : IsLoad bootLoader.mem 0x200000#32 pi) : pi = 0 := by
  have count := bootLoader_header.2.1
  have bound := isLoad.1
  omega

theorem bootLoader_image : Image bootLoader.mem 0x200000#32 414 := by
  obtain ⟨phoff, phnum, offset, filesz, memsz, _⟩ := bootLoader_header
  refine ⟨by decide, by decide, by omega, ?_, ?_, ?_, ?_, ?_, ?_, ?_⟩
  · intro pi isLoad
    rw [bootLoader_isLoad isLoad, offset]
  · intro pi isLoad
    rw [bootLoader_isLoad isLoad]
    omega
  · intro pi isLoad _
    rw [bootLoader_isLoad isLoad]
    omega
  · intro pi other isLoad otherLoad different
    rw [bootLoader_isLoad isLoad, bootLoader_isLoad otherLoad] at different
    exact absurd rfl different
  · intro pi other k below segmentPage otherPage different
    rw [bootLoader_isLoad segmentPage.1, bootLoader_isLoad otherPage.1]
      at different
    exact absurd rfl different
  · intro pi isLoad
    rw [bootLoader_isLoad isLoad, tailCells, offset, filesz]
    exact cells_disjoint (by omega)
  · intro pi isLoad
    rw [bootLoader_isLoad isLoad, tailCells, offset, filesz, phoff, phnum]
    exact cells_disjoint (by omega)

theorem bootLoader_address {pi k : Nat}
    (segmentPage : IsSegmentPage bootLoader.mem 0x200000#32 pi k) :
    0xffffff8000000000 ≤
        (segmentPageAddress bootLoader.mem 0x200000#32 pi k).toNat ∧
      (segmentPageAddress bootLoader.mem 0x200000#32 pi k).toNat <
        0xffffff8000002000 := by
  obtain ⟨_, _, _, _, memsz, vaddr⟩ := bootLoader_header
  have inSegment := segmentPage.2
  rw [bootLoader_isLoad segmentPage.1, memsz] at inSegment
  rw [segmentPageAddress, bootLoader_isLoad segmentPage.1, vaddr,
    BitVec.toNat_add, Elf64.toNat_pageStart (by omega)]
  simp only [BitVec.toNat_ofNat]
  omega

set_option maxRecDepth 4000 in
theorem bootLoader_found :
    EarlyMain.TagsIn bootLoader.mem 0x10058 0x10008 bootTags := by
  have entry : EarlyMain.EntryIn bootLoader.mem
      (EarlyMain.entryAt 0x10028#64 0) ⟨0x400000#64, 0x100000#64, 1#32⟩ :=
    ⟨by decide +kernel, by decide +kernel, by decide⟩
  refine EarlyMain.TagsIn.next (EarlyMain.TagIn.other (by decide) (by decide)
    (by decide) (by decide) (by decide)) ?_
  refine EarlyMain.TagsIn.next (EarlyMain.TagIn.memoryMap (by decide)
    (by decide) (by decide) (by decide) ?_) ?_
  · intro i inside
    obtain rfl : i = 0 := Nat.lt_one_iff.mp inside
    exact entry
  · exact EarlyMain.TagsIn.last (by decide) (by decide)

set_option maxRecDepth 4000 in
theorem boots_bootLoader :
    Boots bootProcessor 0x36d76289#32 0x10000#32 bootLoader 0x10058 bootTags
      bootKernel 414 where
  magic := rfl
  cpuid := by decide
  longMode := by decide
  fresh := ⟨rfl, by decide, by decide⟩
  limit_eq := by decide
  limit_le := by decide
  found := bootLoader_found
  isModule := by decide
  nonNull := by decide
  image := bootLoader_image
  inside := by decide
  stop_le := by decide
  apart := by
    have total : (totalSize bootLoader.mem 0x10000#32).toNat = 88 := by decide
    rw [infoCells, fileCells, total]
    exact cells_disjoint (by decide)

/-- The small image is loaded. -/
theorem loadsKernel_bootLoader :
    ∃ loaded state',
      LoadsKernel bootKernel.start
        (beforeKernel 0x10000#32 bootKernel bootLoader) loaded bootSymbols
        0xffffff8000000000#64 0x400000 state' := by
  have start : bootKernel.start = 0x200000#32 := rfl
  rw [start]
  have memEq : (beforeKernel 0x10000#32 bootKernel bootLoader).mem =
      bootLoader.mem := boots_bootLoader.beforeKernel.1
  have evaluated :
      ((loadKernel 0x200000#32 (beforeKernel 0x10000#32 bootKernel
        bootLoader)).toOption.map fun result =>
          (result.1, result.2.usedMemory, result.2.pml4)) =
        some (.loaded 0xffffff8000000000#64, 0x307000#32, 0x300000#32) := by
    decide +kernel
  have symbolsEq :
      ((loadSegments 0x200000#32 (beforeKernel 0x10000#32 bootKernel
        bootLoader)).toOption.bind fun loaded =>
          (findWindow loaded.mem 0x200000#32).toOption.bind
            Except.toOption) = some bootSymbols := by
    decide +kernel
  cases returned : loadKernel 0x200000#32
      (beforeKernel 0x10000#32 bootKernel bootLoader) with
  | error halt =>
      rw [returned] at evaluated
      cases evaluated
  | ok result =>
      obtain ⟨verdict, state'⟩ := result
      rw [returned] at evaluated
      obtain ⟨verdictEq, usedEq, pml4Eq⟩ :
          verdict = .loaded 0xffffff8000000000#64 ∧
            state'.usedMemory = 0x307000#32 ∧ state'.pml4 = 0x300000#32 := by
        simp only [Except.toOption, Option.map_some, Option.some.injEq,
          Prod.mk.injEq] at evaluated
        exact evaluated
      rw [verdictEq] at returned
      obtain ⟨loaded, segments, symbols, found⟩ :=
        symbols_of_loadKernel returned
      rw [segments] at symbolsEq
      simp only [Except.toOption, Option.bind_some, found, Option.some.injEq]
        at symbolsEq
      subst symbolsEq
      refine ⟨loaded, state', segments, found, returned, ?_,
        ⟨by decide, by decide, by decide, by decide⟩, by decide, ?_,
        by decide, by decide, ?_⟩
      · intro pi k segmentPage
        rw [memEq] at segmentPage ⊢
        have bounds := bootLoader_address segmentPage
        omega
      · intro pi k segmentPage
        rw [memEq] at segmentPage ⊢
        have bounds := bootLoader_address segmentPage
        have window : bootSymbols.physWindowPages.toNat =
            0xffffffffffffc000 := by decide
        omega
      · have tables : tablesBelow 0x400000 = 4 := rfl
        rw [usedEq, tables]
        decide

/-- The loader enters the kernel of the small image. -/
theorem loaderMain_boots_small :
    ∃ entered state',
      loaderMain bootProcessor 0x36d76289#32 0x10000#32 bootLoader =
        .ok (entered, state') ∧
      Handed bootLoader.mem 0x10000#32 bootKernel.start bootSymbols entered
        state' ∧
      0x10058 ≤ entered.rsi.toNat ∧ entered.rsi.toNat ≤ 0x400000 := by
  obtain ⟨loaded, state', loads⟩ := loadsKernel_bootLoader
  exact loaderMain_boots boots_bootLoader loads

end BeaverOS.LoaderMain
