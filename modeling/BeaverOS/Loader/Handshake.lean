import BeaverOS.Loader.Image
import BeaverOS.Memory.MapperState

/-!
# The window from the loader to the kernel

The loader maps "the last page that was allocated" at `_phys_window_pt`. That
page is the level-1 table of the window pages because nothing has been mapped
in their 2 MiB before: the first of them makes the table, and no later call
allocates. The kernel then moves the window by writing the last entries of the
table.
-/

namespace BeaverOS.Elf64

open BeaverOS.ByteMemory
open BeaverOS.Loop
open BeaverOS.RadixTree
open BeaverOS.Paging
open BeaverOS.Window
open BeaverOS.PageTree
open BeaverOS.MapperState
open BeaverOS.LoaderPaging

/-! ## Rounds of the segment loop -/

/-- In its round for page `k` of the program header at `phdr`, the segment loop
of `load_kernel` is in state `here`, takes `page`, and goes on from
`prepared`. -/
def SegmentRound (start : Pointer) (state : Loader) (phdr : Pointer) (k : Nat)
    (here : Loader) (page : Pointer) (prepared : Loader) : Prop :=
  ∃ pi before,
    Visits (MoreSegments start)
      (loadSegment start (advance start (ePhoff state.mem start))) state pi
      before ∧
    MoreSegments start pi before ∧
    phdr = element (advance start (ePhoff state.mem start)) 56 pi ∧
    pType before.mem phdr = ptLoad ∧
    Visits (MorePages phdr) (fun k => loadPage start phdr (pageStart k)) before
      k here ∧
    MorePages phdr k here ∧
    k < 2 ^ 52 ∧
    segmentPage start phdr (pageStart k) here = .ok (page, prepared)

/-- All file pages that the segment loop takes lie below the first page that
the loader allocates, as those of a file in memory do. -/
def FileBelow (start : Pointer) (state : Loader) : Prop :=
  ∀ phdr k here page prepared,
    SegmentRound start state phdr k here page prepared →
    pageStart k < pFilesz here.mem phdr →
    page.toNat < state.usedMemory.toNat

/-- The segment loop maps no page of the 2 MiB around `virt`. -/
def SegmentsAvoid (start : Pointer) (state : Loader) (virt : Word) : Prop :=
  ∀ phdr k here page prepared,
    SegmentRound start state phdr k here page prepared →
    (pVaddr prepared.mem phdr + pageStart k).toNat / 2 ^ 21 ≠
      virt.toNat / 2 ^ 21

/-- The window pages are the last pages of their 2 MiB, and `_phys_window_pt`
is the page below them. -/
structure LaidOut (symbols : WindowSymbols) : Prop where
  size_pos : 1 ≤ symbols.physWindowSize.toNat
  size_le : symbols.physWindowSize.toNat ≤ 500
  pages :
    symbols.physWindowPages.toNat % 2 ^ 21 +
      4096 * symbols.physWindowSize.toNat = 2 ^ 21
  pt : symbols.physWindowPt = symbols.physWindowPages - 0x1000#64

section Regions

variable {virt other : Word} {symbols : WindowSymbols} {wi : Nat}
  {state : Loader}

theorem upperPath_congr (same : virt.toNat / 2 ^ 21 = other.toNat / 2 ^ 21) :
    upperPath virt = upperPath other := by
  have first : indexAt virt 39 = indexAt other 39 := by
    apply Fin.ext
    simp only [indexAt_val]
    omega
  have second : indexAt virt 30 = indexAt other 30 := by
    apply Fin.ext
    simp only [indexAt_val]
    omega
  have third : indexAt virt 21 = indexAt other 21 := by
    apply Fin.ext
    simp only [indexAt_val]
    omega
  rw [upperPath, upperPath, first, second, third]

/-- Canonical addresses with the same upper indices lie in the same 2 MiB. -/
theorem region_eq_of_upperPath (page : IsPage virt) (otherPage : IsPage other)
    (same : upperPath virt = upperPath other) :
    virt.toNat / 2 ^ 21 = other.toNat / 2 ^ 21 := by
  have first := congrArg Fin.val (List.cons.inj same).1
  have second := congrArg Fin.val
    (List.cons.inj (List.cons.inj same).2).1
  have third := congrArg Fin.val
    (List.cons.inj (List.cons.inj (List.cons.inj same).2).2).1
  simp only [indexAt_val] at first second third
  have high := page.canonical
  have otherHigh := otherPage.canonical
  have bound := virt.isLt
  have otherBound := other.isLt
  omega

theorem leafTableOf_congr (same : upperPath virt = upperPath other) :
    leafTableOf state virt = leafTableOf state other := by
  rw [leafTableOf, leafTableOf, leafTable, leafTable, same]

theorem LaidOut.toNat_windowPage (laidOut : LaidOut symbols)
    (inside : wi < symbols.physWindowSize.toNat) :
    (windowPage symbols wi).toNat =
      symbols.physWindowPages.toNat + 4096 * wi := by
  have pages := laidOut.pages
  have sizeLe := laidOut.size_le
  have bound := symbols.physWindowPages.isLt
  have shifted : ((BitVec.ofNat 32 wi) <<< 12).toNat = 4096 * wi := by
    rw [BitVec.toNat_shiftLeft, BitVec.toNat_ofNat, Nat.shiftLeft_eq]
    omega
  rw [windowPage, BitVec.toNat_add, BitVec.toNat_setWidth, shifted]
  omega

theorem LaidOut.toNat_pt (laidOut : LaidOut symbols) :
    symbols.physWindowPt.toNat + 4096 = symbols.physWindowPages.toNat := by
  have pages := laidOut.pages
  have sizeLe := laidOut.size_le
  have bound := symbols.physWindowPages.isLt
  rw [laidOut.pt, BitVec.toNat_sub]
  simp only [BitVec.toNat_ofNat]
  omega

theorem LaidOut.upperPath_windowPage (laidOut : LaidOut symbols)
    (inside : wi < symbols.physWindowSize.toNat) :
    upperPath (windowPage symbols wi) = upperPath symbols.physWindowPages := by
  have value := laidOut.toNat_windowPage inside
  have pages := laidOut.pages
  exact upperPath_congr (by omega)

theorem LaidOut.upperPath_pt (laidOut : LaidOut symbols) :
    upperPath symbols.physWindowPt = upperPath symbols.physWindowPages := by
  have value := laidOut.toNat_pt
  have pages := laidOut.pages
  have sizeLe := laidOut.size_le
  exact upperPath_congr (by omega)

theorem LaidOut.leafIndex_windowPage (laidOut : LaidOut symbols)
    (inside : wi < symbols.physWindowSize.toNat) :
    (leafIndex (windowPage symbols wi)).val =
      512 - symbols.physWindowSize.toNat + wi := by
  have value := laidOut.toNat_windowPage inside
  have pages := laidOut.pages
  have sizeLe := laidOut.size_le
  rw [leafIndex, indexAt_val, value]
  omega

end Regions

/-! ## No table for the window before the window is mapped -/

section Segments

variable {start phdr page : Pointer} {state here prepared after : Loader}
  {base k pi : Nat} {virt : Word} {symbols : WindowSymbols}

/-- The loader is ready and has linked no level-1 table for `virt`. -/
structure NoTable (base : Nat) (virt : Word) (state : Loader) : Prop where
  ready : Ready base state
  missing : leafTableOf state virt = none

theorem NoTable.quiet {call : Call} (noTable : NoTable base virt here)
    (quiet : Quiet here after call) : NoTable base virt after :=
  ⟨noTable.ready.quiet quiet, (quiet.leafTableOf_eq virt).trans noTable.missing⟩

/-- Taking a page of a segment leaves the tables alone. -/
theorem NoTable.segmentPage (noTable : NoTable base virt here)
    (baseAligned : base % 4096 = 0) (pageAligned : page.toNat % 4096 = 0)
    (below : pageStart k < pFilesz here.mem phdr → page.toNat < base)
    (chosen : Elf64.segmentPage start phdr (pageStart k) here =
      .ok (page, prepared)) :
    NoTable base virt prepared := by
  simp only [Elf64.segmentPage] at chosen
  split at chosen
  · next inFile =>
    have pageBelow := below inFile
    split at chosen
    · next ends =>
      have result := Except.ok.inj chosen
      rw [Prod.mk.injEq] at result
      obtain ⟨pageEq, rfl⟩ := result
      rw [pageEq]
      rw [BitVec.lt_def] at inFile ends
      have bound := page.isLt
      have firstBound := (pageStart k).isLt
      have baseLe := noTable.ready.base_le
      have usedBound := here.usedMemory.isLt
      have stop : (pageStart k + 4096#64).toNat = (pageStart k).toNat + 4096 := by
        rw [BitVec.toNat_add] at ends ⊢
        simp only [BitVec.toNat_ofNat] at ends ⊢
        omega
      have distance : (pFilesz here.mem phdr - pageStart k).toNat =
          (pFilesz here.mem phdr).toNat - (pageStart k).toNat := by
        rw [BitVec.toNat_sub]
        omega
      have rest : (pageStart k + 4096#64 - pFilesz here.mem phdr).toNat =
          (pageStart k).toNat + 4096 - (pFilesz here.mem phdr).toNat := by
        rw [BitVec.toNat_sub, stop]
        omega
      refine noTable.quiet (noTable.ready.quiet_of_below
        (agreeOff_fill here.mem _ _ _) fun cell inside => ?_)
      rw [mem_cells, BitVec.toNat_add, BitVec.toNat_setWidth,
        BitVec.toNat_setWidth, distance, rest] at inside
      omega
    · cases chosen
      exact noTable
  · obtain ⟨made, allocated, returned⟩ := ok_of_bind chosen
    cases returned
    obtain ⟨rfl, grown⟩ := allocating_eq_ok allocated
    have aligned := noTable.ready.aligned
    have bound := here.usedMemory.isLt
    have fits : here.usedMemory.toNat + 4096 < 2 ^ 32 := by
      simp only [newPhysZeroPage, newPhysPage, BitVec.toNat_add,
        BitVec.toNat_ofNat] at grown
      omega
    exact noTable.quiet (quiet_of_step aligned noTable.ready.good
      (Step.newZeroPage fits) (by simp))

theorem NoTable.mapped (noTable : NoTable base virt prepared)
    {other phys flags : Word} (different : upperPath virt ≠ upperPath other)
    (mapped : mapPage prepared other phys flags = .ok after)
    (unwrapped : prepared.usedMemory.toNat ≤ after.usedMemory.toNat) :
    NoTable base virt after := by
  obtain ⟨ready, _, extended⟩ := noTable.ready.mapped mapped unwrapped
  refine ⟨ready, ?_⟩
  cases found : leafTableOf after virt with
  | none => rfl
  | some table =>
      have old := extended.others virt table found different
      rw [noTable.missing] at old
      cases old

variable (fresh : Fresh state) (fileBelow : FileBelow start state)
  (virtPage : IsPage virt) (avoid : SegmentsAvoid start state virt)
include fresh fileBelow virtPage avoid

/-- One round of the loop over the pages. -/
theorem NoTable.loadPage
    (noTable : NoTable state.usedMemory.toNat virt here)
    (round : ∀ page prepared,
      Elf64.segmentPage start phdr (pageStart k) here = .ok (page, prepared) →
      SegmentRound start state phdr k here page prepared)
    (loaded : loadPage start phdr (pageStart k) here = .ok after) :
    NoTable state.usedMemory.toNat virt after := by
  obtain ⟨⟨page, prepared⟩, chosen, loaded⟩ := ok_of_bind loaded
  obtain ⟨result, mapped, loaded⟩ := ok_of_bind loaded
  obtain ⟨rfl, unwrapped⟩ := allocating_eq_ok loaded
  obtain ⟨isPage, isFrame, _⟩ := mapPage_usedMemory mapped
  have thisRound := round page prepared chosen
  have aligned := ((isFrame_iff _).mp isFrame).1
  rw [BitVec.toNat_setWidth,
    Nat.mod_eq_of_lt (Nat.lt_trans page.isLt (by decide))] at aligned
  have taken := noTable.segmentPage fresh.aligned aligned
    (fileBelow phdr k here page prepared thisRound) chosen
  refine taken.mapped (fun same => ?_) mapped unwrapped
  exact avoid phdr k here page prepared thisRound
    (region_eq_of_upperPath virtPage isPage same).symm

theorem NoTable.of_pageVisits
    (noTable : NoTable state.usedMemory.toNat virt here)
    (round : ∀ k reached page prepared,
      Visits (MorePages phdr)
        (fun k => Elf64.loadPage start phdr (pageStart k)) here k reached →
      MorePages phdr k reached → k < 2 ^ 52 →
      Elf64.segmentPage start phdr (pageStart k) reached =
        .ok (page, prepared) →
      SegmentRound start state phdr k reached page prepared)
    (visits : Visits (MorePages phdr)
      (fun k => Elf64.loadPage start phdr (pageStart k)) here k after)
    (bound : k ≤ 2 ^ 52) : NoTable state.usedMemory.toNat virt after := by
  induction visits with
  | start => exact noTable
  | @next k reached _ visits more step inductionHypothesis =>
      have holds := inductionHypothesis (Nat.le_of_succ_le bound)
      exact holds.loadPage fresh fileBelow virtPage avoid
        (fun page prepared => round k reached page prepared visits more bound)
        step

/-- The loop over the segments links no level-1 table for `virt`. -/
theorem noTable_of_visits
    (visits : Visits (MoreSegments start)
      (loadSegment start (advance start (ePhoff state.mem start))) state pi
      here) :
    NoTable state.usedMemory.toNat virt here := by
  induction visits with
  | start =>
      refine ⟨Ready.of_fresh fresh, ?_⟩
      rw [leafTableOf, if_pos fresh.pml4]
  | @next pi before reached visits more step holds =>
      rw [loadSegment] at step
      split at step
      · next isLoad =>
        obtain ⟨last, bound, pageVisits, _⟩ :=
          visits_of_whileLoop Visits.start step
        exact holds.of_pageVisits fresh fileBelow virtPage avoid
          (fun k here page prepared inner morePages small chosen =>
            ⟨pi, before, visits, more, rfl, isLoad, inner, morePages, small,
              chosen⟩) pageVisits (by omega)
      · cases step
        exact holds

end Segments

/-! ## The rounds of an intact image -/

section Rounds

variable {start phdr page : Pointer} {state here prepared : Loader}
  {size k : Nat} {virt : Word}

/-- The rounds of the segment loop are for the pages of the image. -/
theorem loading_of_round
    (inMemory : InMemory state.mem start size state.usedMemory.toNat)
    (fresh : Fresh state)
    (round : SegmentRound start state phdr k here page prepared) :
    ∃ pi, phdr = programHeader state.mem start pi ∧
      IsSegmentPage state.mem start pi k ∧
      Loading state.mem start state.usedMemory.toNat (DoneBefore pi k) here ∧
      Elf64.segmentPage start phdr (pageStart k) here =
        .ok (page, prepared) := by
  obtain ⟨pi, before, visits, more, rfl, isLoad, pageVisits, morePages, small,
    chosen⟩ := round
  have loading := loading_of_visits inMemory fresh visits
  rw [MoreSegments, inMemory.ePhnum_eq loading.intact] at more
  have typeEq := inMemory.pType_eq loading.intact more
  rw [programHeader, isLoad] at typeEq
  have loads : IsLoad state.mem start pi := ⟨more, typeEq.symm⟩
  have holds := loading.of_pageVisits inMemory loads pageVisits
    (Nat.le_of_lt small)
  exact ⟨pi, rfl, (holds.morePages_iff inMemory loads small).mp morePages,
    holds, chosen⟩

theorem fileBelow_of_image (image : Image state.mem start size)
    (below : start.toNat + size ≤ state.usedMemory.toNat)
    (fresh : Fresh state) : FileBelow start state := by
  have inMemory : InMemory state.mem start size state.usedMemory.toNat :=
    ⟨image, below, fresh.aligned, state.usedMemory.isLt⟩
  intro phdr k here page prepared round inFile
  obtain ⟨pi, rfl, segmentPage, loading, chosen⟩ :=
    loading_of_round inMemory fresh round
  obtain ⟨_, _, _, _, _, _, _, _, small, _⟩ := round
  have notDone : ¬ DoneBefore pi k pi k := by
    simp [DoneBefore]
  obtain ⟨_, _, framed⟩ := loading.segmentPage inMemory segmentPage.1 small
    notDone chosen
  have fileszEq : pFilesz here.mem (programHeader state.mem start pi) =
      pFilesz state.mem (programHeader state.mem start pi) :=
    inMemory.xword_eq loading.intact segmentPage.1.1 (by decide)
  rw [fileszEq, BitVec.lt_def, toNat_pageStart small] at inFile
  change 4096 * k < fileszOf state.mem start pi at inFile
  have fileBound := image.inside pi segmentPage.1 (by omega)
  rw [framed.inFile inFile]
  omega

theorem segmentsAvoid_of_image (image : Image state.mem start size)
    (below : start.toNat + size ≤ state.usedMemory.toNat)
    (fresh : Fresh state)
    (outside : ∀ pi k, IsSegmentPage state.mem start pi k →
      (segmentPageAddress state.mem start pi k).toNat / 2 ^ 21 ≠
        virt.toNat / 2 ^ 21) :
    SegmentsAvoid start state virt := by
  have inMemory : InMemory state.mem start size state.usedMemory.toNat :=
    ⟨image, below, fresh.aligned, state.usedMemory.isLt⟩
  intro phdr k here page prepared round
  obtain ⟨pi, rfl, segmentPage, loading, chosen⟩ :=
    loading_of_round inMemory fresh round
  obtain ⟨_, _, _, _, _, _, _, _, small, _⟩ := round
  have notDone : ¬ DoneBefore pi k pi k := by
    simp [DoneBefore]
  obtain ⟨kept, _, _⟩ := loading.segmentPage inMemory segmentPage.1 small
    notDone chosen
  have vaddrEq : pVaddr prepared.mem (programHeader state.mem start pi) =
      pVaddr state.mem (programHeader state.mem start pi) :=
    inMemory.xword_eq kept.intact segmentPage.1.1 (by decide)
  rw [vaddrEq]
  exact outside pi k segmentPage

end Rounds

/-! ## The table of the window -/

section Window

variable {state state' : Loader} {symbols : WindowSymbols} {base : Nat}

/-- `table` is the level-1 table of all window pages, and it is mapped at
`_phys_window_pt`. -/
structure SharesTable (symbols : WindowSymbols) (state : Loader)
    (table : Nat) : Prop where
  nonNull : state.pml4 ≠ 0#32
  good : Good state
  isPage :
    ∀ wi, wi < symbols.physWindowSize.toNat → IsPage (windowPage symbols wi)
  translates :
    ∀ wi, wi < symbols.physWindowSize.toNat →
      leafTableOf state (windowPage symbols wi) = some table
  mapped :
    translationOf state symbols.physWindowPt =
      some (BitVec.ofNat 64 table, imageFlags)

/-- After `count` rounds of the window loop: the first round has made the
table, as the last page that was allocated. -/
structure WindowRounds (base : Nat) (symbols : WindowSymbols) (count : Nat)
    (state : Loader) : Prop where
  ready : Ready base state
  missing :
    count = 0 → leafTableOf state symbols.physWindowPages = none
  last :
    0 < count →
      ∃ table, leafTableOf state symbols.physWindowPages = some table ∧
        table + 4096 = state.usedMemory.toNat
  isPage : ∀ wi, wi < count → IsPage (windowPage symbols wi)

/-- Mapping another page of the same 2 MiB allocates nothing. -/
theorem WindowRounds.next {count : Nat} {virt phys flags : Word}
    (rounds : WindowRounds base symbols count state)
    (region : upperPath virt = upperPath symbols.physWindowPages)
    (mapped : mapPage state virt phys flags = .ok state')
    (unwrapped : state.usedMemory.toNat ≤ state'.usedMemory.toNat) :
    ∃ table, leafTableOf state' symbols.physWindowPages = some table ∧
      table + 4096 = state'.usedMemory.toNat ∧
      (0 < count → state'.usedMemory = state.usedMemory) := by
  obtain ⟨_, _, extended⟩ := rounds.ready.mapped mapped unwrapped
  rw [← leafTableOf_congr region]
  by_cases first : count = 0
  · have missing := rounds.missing first
    rw [← leafTableOf_congr region] at missing
    obtain ⟨table, found, last⟩ := extended.appended missing
    exact ⟨table, found, last, fun positive => by omega⟩
  · obtain ⟨table, found, last⟩ := rounds.last (Nat.pos_of_ne_zero first)
    rw [← leafTableOf_congr region] at found
    obtain ⟨same, still⟩ := extended.reused table found
    exact ⟨table, still, by rw [same]; exact last, fun _ => same⟩

theorem windowRounds_of_mapWindowPages (laidOut : LaidOut symbols)
    (noTable : NoTable base symbols.physWindowPages state)
    (mapped : mapWindowPages symbols state = .ok state') :
    WindowRounds base symbols symbols.physWindowSize.toNat state' := by
  refine forLoop_invariant (WindowRounds base symbols) (Nat.zero_le _) ?_ ?_
    mapped
  · exact ⟨noTable.ready, fun _ => noTable.missing,
      fun positive => absurd positive (Nat.lt_irrefl 0),
      fun wi inside => absurd inside (Nat.not_lt_zero wi)⟩
  · intro count before after _ inside rounds step
    obtain ⟨result, stepMapped, step⟩ := ok_of_bind step
    obtain ⟨rfl, unwrapped⟩ := allocating_eq_ok step
    obtain ⟨table, found, last, _⟩ := rounds.next
      (laidOut.upperPath_windowPage inside) stepMapped unwrapped
    refine ⟨(rounds.ready.mapped stepMapped unwrapped).1,
      fun zero => absurd zero (Nat.succ_ne_zero count),
      fun _ => ⟨table, found, last⟩, ?_⟩
    intro wi inCount
    rcases Nat.lt_succ_iff_lt_or_eq.mp inCount with earlier | rfl
    · exact rounds.isPage wi earlier
    · exact (mapPage_usedMemory stepMapped).1

/-- The first round maps `_phys_window_pages` itself. -/
theorem isPage_of_mapWindowPages (laidOut : LaidOut symbols)
    (mapped : mapWindowPages symbols state = .ok state') :
    IsPage symbols.physWindowPages := by
  have first : windowPage symbols 0 = symbols.physWindowPages := by
    apply BitVec.eq_of_toNat_eq
    rw [laidOut.toNat_windowPage laidOut.size_pos, Nat.mul_zero, Nat.add_zero]
  have size := laidOut.size_pos
  rw [← first]
  refine forLoop_invariant
    (fun count _ => 0 < count → IsPage (windowPage symbols 0))
    (Nat.zero_le _) (fun positive => absurd positive (Nat.lt_irrefl 0)) ?_
    mapped size
  intro count before after _ _ holds step _
  cases count with
  | zero =>
      obtain ⟨result, stepMapped, _⟩ := ok_of_bind step
      exact (mapPage_usedMemory stepMapped).1
  | succ count => exact holds (Nat.succ_pos count)

/-- The last page that was allocated, mapped at `_phys_window_pt`, is the table
of the window. -/
theorem sharesTable_of_mapWindowPt (laidOut : LaidOut symbols)
    (rounds :
      WindowRounds base symbols symbols.physWindowSize.toNat state)
    (mapped : mapWindowPt symbols state = .ok state') :
    ∃ table, SharesTable symbols state' table := by
  obtain ⟨result, stepMapped, step⟩ := ok_of_bind mapped
  obtain ⟨rfl, unwrapped⟩ := allocating_eq_ok step
  have positive : 0 < symbols.physWindowSize.toNat := laidOut.size_pos
  obtain ⟨table, found, last, same⟩ :=
    rounds.next laidOut.upperPath_pt stepMapped unwrapped
  obtain ⟨_, mappedPt, _⟩ := rounds.ready.mapped stepMapped unwrapped
  have bound := state.usedMemory.isLt
  have above := rounds.ready.above
  have frame : (state.usedMemory - 0x1000#32).setWidth 64 =
      BitVec.ofNat 64 table := by
    rw [same positive] at last
    apply BitVec.eq_of_toNat_eq
    rw [BitVec.toNat_setWidth, BitVec.toNat_sub, BitVec.toNat_ofNat]
    simp only [BitVec.toNat_ofNat]
    omega
  refine ⟨table, mappedPt.nonNull, mappedPt.good, rounds.isPage, ?_, ?_⟩
  · intro wi inside
    rw [leafTableOf_congr (laidOut.upperPath_windowPage inside)]
    exact found
  · rw [mappedPt.here, frame]
    rfl

end Window

/-! ## The kernel moves the window -/

section Kernel

variable {layout : Layout} {state : Loader} {mapper : Mapper}
  {symbols : WindowSymbols} {phys other : Word} {wi : Nat}

/-- The kernel's state right after the jump: it runs on the loader's tables. -/
structure RunsOn (layout : Layout) (symbols : WindowSymbols)
    (state : Loader) (mapper : Mapper) : Prop where
  shares : SharesTable symbols state layout.windowPt
  size : layout.windowSize = symbols.physWindowSize.toNat
  mem : mapper.mem = state.mem
  pml4 : mapper.pml4.toNat = state.pml4.toNat

/-- What `phys_look(phys)` shows: the window page `_phys_window` points into is
that of `phys`, and nothing else is remapped. -/
structure Shows (symbols : WindowSymbols) (mapper looked : Mapper)
    (phys : Word) : Prop where
  window :
    ∀ k, k < 4096 * symbols.physWindowSize.toNat - phys.toNat % 4096 →
      ∃ flags,
        physicalAddress (translation looked.mem looked.pml4.toNat)
            (symbols.physWindowPages + looked.physWindow + BitVec.ofNat 64 k) =
          some (phys.toNat + k, flags) ∧
        Has flags pagePBit ∧ Has flags pageRwBit
  others :
    ∀ other, IsPage other →
      (∀ wi, wi < symbols.physWindowSize.toNat →
        other ≠ windowPage symbols wi) →
      translation looked.mem looked.pml4.toNat other =
        translation mapper.mem mapper.pml4.toNat other

theorem RunsOn.tree (runsOn : RunsOn layout symbols state mapper) :
    TableTree mapper.mem mapper.pml4.toNat := by
  rw [runsOn.mem, runsOn.pml4]
  exact runsOn.shares.good.tree

theorem RunsOn.leafTable_windowPage
    (runsOn : RunsOn layout symbols state mapper)
    (inside : wi < symbols.physWindowSize.toNat) :
    leafTable mapper.mem mapper.pml4.toNat (windowPage symbols wi) =
      some layout.windowPt := by
  rw [runsOn.mem, runsOn.pml4,
    ← leafTableOf_of_nonNull runsOn.shares.nonNull]
  exact runsOn.shares.translates wi inside

/-- The slots lie in a level-1 table, so all walks stay. -/
theorem RunsOn.leafTable_looked (laidOut : LaidOut symbols)
    (runsOn : RunsOn layout symbols state mapper) (phys other : Word) :
    leafTable (physLook layout mapper phys).mem mapper.pml4.toNat other =
      leafTable mapper.mem mapper.pml4.toNat other := by
  refine leafTable_congr (fun path table index short reached => ?_) other
  have different := runsOn.tree.leafTable_ne_upper short reached
    (runsOn.leafTable_windowPage laidOut.size_pos)
  refine child_eq_of_readEntry ((agreeOff_physLook layout mapper
    phys).readWord_eq (entryCells_disjoint_slots
      (walk_bounds runsOn.tree reached).1 ?_))
  exact fun slot => different slot.1

theorem toNat_slot (phys : Word) (page : Nat)
    (fits : phys.toNat + 4096 * page < 2 ^ 52) :
    ((pageAddrBits &&& phys) + (BitVec.ofNat 64 page <<< 12)).toNat =
      phys.toNat / 4096 * 4096 + 4096 * page := by
  have aligned := toNat_frameOf phys
  rw [frameOf, BitVec.and_comm] at aligned
  rw [BitVec.toNat_add, aligned, BitVec.toNat_shiftLeft, BitVec.toNat_ofNat,
    Nat.shiftLeft_eq]
  omega

/-- A window page shows its page of the memory looked at. -/
theorem RunsOn.translation_windowPage (laidOut : LaidOut symbols)
    (runsOn : RunsOn layout symbols state mapper)
    (fits : phys.toNat + 4096 * symbols.physWindowSize.toNat < 2 ^ 52)
    (inside : wi < symbols.physWindowSize.toNat) :
    translation (physLook layout mapper phys).mem mapper.pml4.toNat
        (windowPage symbols wi) =
      some (BitVec.ofNat 64 (phys.toNat / 4096 * 4096 + 4096 * wi),
        pagePBit ||| pageRwBit) := by
  have table := (runsOn.leafTable_looked laidOut phys
    (windowPage symbols wi)).trans (runsOn.leafTable_windowPage inside)
  have sizeLe := laidOut.size_le
  have address : entryAddress layout.windowPt
      (leafIndex (windowPage symbols wi)) = slotAddress layout wi := by
    rw [entryAddress, slotAddress, laidOut.leafIndex_windowPage inside,
      runsOn.size]
    rfl
  have entry : readEntry (physLook layout mapper phys).mem layout.windowPt
      (leafIndex (windowPage symbols wi)) =
      ((pageAddrBits &&& phys) + (BitVec.ofNat 64 wi <<< 12)) ||| pagePBit |||
        pageRwBit := by
    rw [readEntry, address]
    exact readWord_slot (by rw [runsOn.size]; exact inside)
  have value := toNat_slot phys wi (by omega)
  have frame : IsFrame
      ((pageAddrBits &&& phys) + (BitVec.ofNat 64 wi <<< 12)) := by
    rw [isFrame_iff, value]
    omega
  have frameEq : (pageAddrBits &&& phys) + (BitVec.ofNat 64 wi <<< 12) =
      BitVec.ofNat 64 (phys.toNat / 4096 * 4096 + 4096 * wi) := by
    apply BitVec.eq_of_toNat_eq
    rw [value, BitVec.toNat_ofNat, Nat.mod_eq_of_lt (by omega)]
  have noFrame : frameOf (pagePBit ||| pageRwBit) = 0#64 := by decide
  have flags : (pagePBit ||| pageRwBit) &&& ptFlagsMask =
      pagePBit ||| pageRwBit := by decide
  rw [translation_of_leafEntry (leafEntry_of_leafTable table), entry,
    BitVec.or_assoc, if_pos (has_or.mpr (Or.inr (by decide))), frameOf_or,
    frameOf_of_isFrame frame, BitVec.and_or_distrib_right,
    flags_of_frame frame (by decide), frameEq, noFrame, flags, BitVec.or_zero,
    BitVec.zero_or]

/-- `phys_look` on the loader's tables. -/
theorem RunsOn.shows (laidOut : LaidOut symbols)
    (runsOn : RunsOn layout symbols state mapper)
    (fits : phys.toNat + 4096 * symbols.physWindowSize.toNat < 2 ^ 52) :
    Shows symbols mapper (physLook layout mapper phys) phys := by
  have sizeLe := laidOut.size_le
  constructor
  · intro k inside
    have offset := (looks_physLook layout mapper phys).toNat_physWindow
      (by omega)
    obtain ⟨wi, wiEq⟩ : ∃ wi, wi = (phys.toNat % 4096 + k) / 4096 := ⟨_, rfl⟩
    have inWindow : wi < symbols.physWindowSize.toNat := by omega
    have within : (phys.toNat % 4096 + k) % 4096 < 4096 :=
      Nat.mod_lt _ (by decide)
    have address :
        symbols.physWindowPages + (physLook layout mapper phys).physWindow +
            BitVec.ofNat 64 k =
          windowPage symbols wi +
            BitVec.ofNat 64 ((phys.toNat % 4096 + k) % 4096) := by
      have pageValue := laidOut.toNat_windowPage inWindow
      apply BitVec.eq_of_toNat_eq
      rw [BitVec.toNat_add, BitVec.toNat_add, offset, BitVec.toNat_add,
        pageValue, BitVec.toNat_ofNat, BitVec.toNat_ofNat]
      omega
    have frameEq : (BitVec.ofNat 64
        (phys.toNat / 4096 * 4096 + 4096 * wi)).toNat =
        phys.toNat / 4096 * 4096 + 4096 * wi := by
      rw [BitVec.toNat_ofNat, Nat.mod_eq_of_lt (by omega)]
    have page := runsOn.shares.isPage wi inWindow
    refine ⟨pagePBit ||| pageRwBit, ?_, by decide, by decide⟩
    rw [address, physicalAddress_page_add page.aligned within, physLook_pml4,
      runsOn.translation_windowPage laidOut fits inWindow, Option.map_some,
      frameEq]
    refine congrArg some (Prod.ext ?_ rfl)
    simp only
    omega
  · intro other otherPage outside
    rw [physLook_pml4]
    apply translation_congr
    rw [leafEntry, leafEntry, runsOn.leafTable_looked laidOut]
    cases found : leafTable mapper.mem mapper.pml4.toNat other with
    | none => rfl
    | some table =>
        refine congrArg some ((agreeOff_physLook layout mapper
          phys).readWord_eq (entryCells_disjoint_slots
            (walk_bounds runsOn.tree found).1 ?_))
        rintro ⟨rfl, above⟩
        have belowTop := (leafIndex other).isLt
        have small := layout.windowSize_le
        rw [runsOn.size, pageTableSize] at above
        obtain ⟨wi, wiEq⟩ : ∃ wi, (leafIndex other).val =
            512 - symbols.physWindowSize.toNat + wi :=
          ⟨_, (Nat.add_sub_of_le above).symm⟩
        have inWindow : wi < symbols.physWindowSize.toNat := by omega
        have windowTable := runsOn.leafTable_windowPage inWindow
        refine outside wi inWindow (otherPage.ext
          (runsOn.shares.isPage wi inWindow)
          (runsOn.tree.upperPath_eq found windowTable) (Fin.ext ?_))
        rw [wiEq, laidOut.leafIndex_windowPage inWindow]

end Kernel

/-! ## The handshake -/

section Handshake

variable {start : Pointer} {state loaded state' : Loader} {entry : Word}
  {symbols : WindowSymbols}

/-- When `load_kernel` returns true, the page at `_phys_window_pt` is the table
of the window, and on these tables `phys_look` moves the window and nothing
else. -/
theorem loadKernel_shares_window (fresh : Fresh state)
    (fileBelow : FileBelow start state)
    (returned : loadKernel start state = .ok (.loaded entry, state'))
    (segments : loadSegments start state = .ok loaded)
    (found : findWindow loaded.mem start = .ok (.ok symbols))
    (laidOut : LaidOut symbols)
    (avoid : SegmentsAvoid start state symbols.physWindowPages) :
    ∃ layout : Layout,
      SharesTable symbols state' layout.windowPt ∧
      layout.windowSize = symbols.physWindowSize.toNat ∧
      ∀ mapper : Mapper, mapper.mem = state'.mem →
        mapper.pml4.toNat = state'.pml4.toNat →
        ∀ phys : Word,
          phys.toNat + 4096 * symbols.physWindowSize.toNat < 2 ^ 52 →
          Shows symbols mapper (physLook layout mapper phys) phys := by
  obtain ⟨windowed, window, pt⟩ :=
    window_of_loadKernel returned segments found
  obtain ⟨last, _, visits, _⟩ := visits_of_whileLoop Visits.start segments
  have noTable := noTable_of_visits fresh fileBelow
    (isPage_of_mapWindowPages laidOut window) avoid visits
  obtain ⟨table, shares⟩ := sharesTable_of_mapWindowPt laidOut
    (windowRounds_of_mapWindowPages laidOut noTable window) pt
  have isTable := isTable_of_leafTable ((leafTableOf_of_nonNull
    shares.nonNull _).symm.trans (shares.translates 0 laidOut.size_pos))
  have bounds := isTable.bounds shares.good.tree
  refine ⟨⟨table, symbols.physWindowSize.toNat, bounds.1, bounds.2,
    laidOut.size_pos, laidOut.size_le⟩, shares, rfl, ?_⟩
  intro mapper memEq pml4Eq phys fits
  exact RunsOn.shows laidOut ⟨shares, rfl, memEq, pml4Eq⟩ fits

/-- The segment of the small image lies far below its window. -/
theorem smallLoader_outside (pi k : Nat)
    (segmentPage : IsSegmentPage smallLoader.mem 0x200000#32 pi k) :
    (segmentPageAddress smallLoader.mem 0x200000#32 pi k).toNat / 2 ^ 21 ≠
      (0xfffffffffffff000#64).toNat / 2 ^ 21 := by
  have below := smallLoader_address_lt segmentPage
  simp only [BitVec.toNat_ofNat]
  omega

/-- The handshake of the small image. -/
theorem loadKernel_shares_window_small :
    ∃ state',
      loadKernel 0x200000#32 smallLoader =
        .ok (.loaded 0xffffff8000000000#64, state') ∧
      ∃ layout : Layout,
        SharesTable ⟨0xfffffffffffff000#64, 1#32, 0xffffffffffffe000#64⟩
          state' layout.windowPt ∧
        layout.windowSize = 1 ∧
        ∀ mapper : Mapper, mapper.mem = state'.mem →
          mapper.pml4.toNat = state'.pml4.toNat →
          ∀ phys : Word, phys.toNat + 4096 * 1 < 2 ^ 52 →
            Shows ⟨0xfffffffffffff000#64, 1#32, 0xffffffffffffe000#64⟩ mapper
              (physLook layout mapper phys) phys := by
  have evaluated :
      (loadKernel 0x200000#32 smallLoader).toOption.map Prod.fst =
        some (.loaded 0xffffff8000000000#64) := by decide +kernel
  have symbolsEq :
      ((loadSegments 0x200000#32 smallLoader).toOption.bind fun loaded =>
        (findWindow loaded.mem 0x200000#32).toOption.bind
          Except.toOption) =
        some ⟨0xfffffffffffff000#64, 1#32, 0xffffffffffffe000#64⟩ := by
    decide +kernel
  have fresh : Fresh smallLoader := ⟨rfl, by decide, by decide⟩
  cases returned : loadKernel 0x200000#32 smallLoader with
  | error halt =>
      rw [returned] at evaluated
      cases evaluated
  | ok result =>
      obtain ⟨verdict, state'⟩ := result
      rw [returned] at evaluated
      cases evaluated
      obtain ⟨loaded, segments, symbols, found⟩ :=
        symbols_of_loadKernel returned
      rw [segments] at symbolsEq
      simp only [Except.toOption, Option.bind_some, found] at symbolsEq
      cases symbolsEq
      exact ⟨state', rfl, loadKernel_shares_window fresh
        (fileBelow_of_image smallLoader_image (by decide) fresh) returned
        segments found ⟨by decide, by decide, by decide, by decide⟩
        (segmentsAvoid_of_image smallLoader_image (by decide) fresh
          smallLoader_outside)⟩

end Handshake

/-! ## A segment among the tables -/

/-- Whether the rounds of the segment loop avoid the 2 MiB around `virt`, as far
as ten segments of ten pages go. -/
def roundsAvoid (start : Pointer) (state : Loader) (virt : Word) : Bool :=
  let phdr := advance start (ePhoff state.mem start)
  allRounds (MoreSegments start) (loadSegment start phdr)
    (fun pi before =>
      pType before.mem (element phdr 56 pi) != ptLoad ||
        allRounds (MorePages (element phdr 56 pi))
          (fun k => loadPage start (element phdr 56 pi) (pageStart k))
          (fun k here =>
            match segmentPage start (element phdr 56 pi) (pageStart k) here with
            | .ok (_, prepared) =>
                (pVaddr prepared.mem (element phdr 56 pi) +
                  pageStart k).toNat / 2 ^ 21 != virt.toNat / 2 ^ 21
            | .error _ => true)
          10 0 before)
    10 0 state

theorem segmentsAvoid_of_rounds {start : Pointer} {state : Loader}
    {virt : Word} (avoid : roundsAvoid start state virt = true) :
    SegmentsAvoid start state virt := by
  rintro phdr k here page prepared ⟨pi, before, visits, more, rfl, isLoad,
    pageVisits, morePages, -, chosen⟩
  have segment := visits.inOrder avoid more
  rw [isLoad, bne_self_eq_false, Bool.false_or] at segment
  have round := pageVisits.inOrder segment morePages
  rw [chosen] at round
  exact bne_iff_ne.mp round

/-- A file of 470 bytes whose second segment lies 16 MiB behind it. -/
def farFile : Nat :=
  fields [
    -- the ELF header
    (0x00010102464c457f, 8), (0, 8), (2, 2), (62, 2), (1, 4),
    (0xffffffffc0000000, 8), (64, 8), (176, 8), (0, 4), (64, 2), (56, 2),
    (2, 2), (64, 2), (2, 2), (0, 2),
    -- the program headers
    (1, 4), (7, 4), (0, 8), (0xffffffffc0000000, 8), (0, 8), (4096, 8),
    (4096, 8), (0x1000, 8),
    (1, 4), (7, 4), (0x1001000, 8), (0xffffffffc0001000, 8), (0, 8), (4091, 8),
    (4091, 8), (0x1000, 8),
    -- the section headers of `.strtab` and `.symtab`
    (1, 4), (3, 4), (0, 16), (400, 8), (70, 8), (0, 24),
    (9, 4), (2, 4), (0, 16), (304, 8), (96, 8), (0, 16), (24, 8),
    -- the symbols
    (0, 24), (17, 8), (1, 16), (35, 8), (0xfffffffffffff000, 16), (54, 8),
    (0xffffffffffffe000, 16),
    stringField "", stringField ".strtab", stringField ".symtab",
    stringField "_phys_window_size", stringField "_phys_window_pages",
    stringField "_phys_window_pt"]

/-- A loader that has the file at 2 MiB, and allocates from 18 MiB on. The page
of the second segment is the level-3 table. Clearing the end of that page cuts
its last entry from 0x1202003 to 0x202003, and at 0x202000 there is a page of
the file that reads as a level-2 table with an entry for the window. -/
def farLoader : Loader where
  mem := fun cell =>
    if 0x200000 ≤ cell ∧ cell < 0x200000 + 470 then
      BitVec.ofNat 8 (farFile / 256 ^ (cell - 0x200000))
    else if 0x202ff8 ≤ cell ∧ cell < 0x203000 then
      BitVec.ofNat 8 (0x203003 / 256 ^ (cell - 0x202ff8))
    else
      0
  usedMemory := 0x1200000#32
  pml4 := 0#32

/-- What `load_kernel` returns, the table of the window page, and what is mapped
at `_phys_window_pt`. -/
theorem farLoader_loaded :
    (loadKernel 0x200000#32 farLoader).toOption.map (fun result =>
        (result.1, leafTableOf result.2 0xfffffffffffff000#64,
          translationOf result.2 0xffffffffffffe000#64)) =
      some (.loaded 0xffffffffc0000000#64, some 0x203000,
        some (0x1204000#64, imageFlags)) := by
  decide +kernel

theorem farLoader_symbols :
    ((loadSegments 0x200000#32 farLoader).toOption.bind fun loaded =>
      (findWindow loaded.mem 0x200000#32).toOption.bind Except.toOption) =
      some ⟨0xfffffffffffff000#64, 1#32, 0xffffffffffffe000#64⟩ := by
  decide +kernel

/-- The segments of the far image have one page each, away from the window. -/
theorem farLoader_outside (pi k : Nat)
    (segmentPage : IsSegmentPage farLoader.mem 0x200000#32 pi k) :
    (segmentPageAddress farLoader.mem 0x200000#32 pi k).toNat / 2 ^ 21 ≠
      (0xfffffffffffff000#64).toNat / 2 ^ 21 := by
  have count : (ePhnum farLoader.mem 0x200000#32).toNat = 2 := by
    decide +kernel
  have memsz : ∀ pi, pi < 2 → memszOf farLoader.mem 0x200000#32 pi ≤ 4096 := by
    decide +kernel
  have address : ∀ pi, pi < 2 →
      (segmentPageAddress farLoader.mem 0x200000#32 pi 0).toNat / 2 ^ 21 ≠
        (0xfffffffffffff000#64).toNat / 2 ^ 21 := by
    decide +kernel
  obtain ⟨⟨bound, -⟩, inSegment⟩ := segmentPage
  rw [count] at bound
  have short := memsz pi bound
  obtain rfl : k = 0 := by omega
  exact address pi bound

/-- No page of the far image lies in the 2 MiB of its window, and yet the page
at `_phys_window_pt` is not the table of the window. -/
theorem farLoader_not_shared :
    ∃ loaded state' symbols,
      Fresh farLoader ∧
      loadKernel 0x200000#32 farLoader =
        .ok (.loaded 0xffffffffc0000000#64, state') ∧
      loadSegments 0x200000#32 farLoader = .ok loaded ∧
      findWindow loaded.mem 0x200000#32 = .ok (.ok symbols) ∧
      LaidOut symbols ∧
      (∀ pi k, IsSegmentPage farLoader.mem 0x200000#32 pi k →
        (segmentPageAddress farLoader.mem 0x200000#32 pi k).toNat / 2 ^ 21 ≠
          symbols.physWindowPages.toNat / 2 ^ 21) ∧
      SegmentsAvoid 0x200000#32 farLoader symbols.physWindowPages ∧
      ¬ ∃ table, SharesTable symbols state' table := by
  have evaluated := farLoader_loaded
  have symbolsEq := farLoader_symbols
  cases returned : loadKernel 0x200000#32 farLoader with
  | error halt =>
      rw [returned] at evaluated
      cases evaluated
  | ok result =>
      obtain ⟨verdict, state'⟩ := result
      rw [returned] at evaluated
      simp only [Except.toOption, Option.map_some, Option.some.injEq,
        Prod.mk.injEq] at evaluated
      obtain ⟨rfl, tableEq, mappedEq⟩ := evaluated
      obtain ⟨loaded, segments, symbols, found⟩ :=
        symbols_of_loadKernel returned
      rw [segments] at symbolsEq
      simp only [Except.toOption, Option.bind_some, found] at symbolsEq
      cases symbolsEq
      refine ⟨loaded, state', _, ⟨rfl, by decide, by decide⟩, rfl, segments,
        found, ⟨by decide, by decide, by decide, by decide⟩,
        farLoader_outside, segmentsAvoid_of_rounds (by decide +kernel), ?_⟩
      rintro ⟨table, shares⟩
      have first := shares.translates 0 Nat.one_pos
      have windowPageEq : windowPage
          ⟨0xfffffffffffff000#64, 1#32, 0xffffffffffffe000#64⟩ 0 =
            0xfffffffffffff000#64 := by decide
      have mapped := shares.mapped
      rw [windowPageEq, tableEq] at first
      cases first
      rw [mappedEq] at mapped
      exact absurd mapped (by decide)

end BeaverOS.Elf64
