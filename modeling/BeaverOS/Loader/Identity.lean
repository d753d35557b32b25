import BeaverOS.Lib.Loop
import BeaverOS.Loader.Growth

/-!
# The identity map of the loader

`setup_identity_paging` maps every page below `used_memory` to itself, while
the tables that it links for this move `used_memory` up. Round `i` has linked
just the tables of the memory below page `i`, so the loop ends as soon as the
tables of the memory in use lie in the memory in use.
-/

namespace BeaverOS.LoaderPaging

open BeaverOS.ByteMemory
open BeaverOS.RadixTree
open BeaverOS.Paging
open BeaverOS.Window
open BeaverOS.PageTree
open BeaverOS.Transition
open BeaverOS.Loop

/-! ## The loop -/

/-- The page of round `i`. -/
def pageStart (i : Nat) : Word := BitVec.ofNat 64 (4096 * i)

/-- The flags that `setup_identity_paging` passes on. -/
def identityFlags : Word := pageRwBit ||| pageGBit

/-- `setup_identity_paging`. The loop variable has 64 bits, so that it passes
all values of `used_memory` within `2 ^ 20` rounds. -/
def setupIdentityPaging (state : Loader) : Except Halt Loader :=
  whileLoop (fun i state => pageStart i < state.usedMemory.setWidth 64)
    (fun i state => mapPage state (pageStart i) (pageStart i) identityFlags)
    .fault (2 ^ 20 + 1) 0 state

/-! ## What the loop is for -/

/-- Every entry on the walk of `virt`, that of the page included, carries
`bit`. -/
def Carries (state : Loader) (virt bit : Word) : Prop :=
  ∀ path table index, path ++ [index] <+: upperPath virt ++ [leafIndex virt] →
    walk (child state.mem) state.pml4.toNat path = some table →
    Has (readEntry state.mem table index) bit

/-- The memory in use of `state` is mapped to itself, and the upper half as in
`start`. -/
structure IdentityMapped (start state : Loader) : Prop where
  grown : start.usedMemory.toNat ≤ state.usedMemory.toNat
  identity :
    ∀ virt, IsPage virt → virt.toNat < state.usedMemory.toNat →
      Carries state virt pageRwBit ∧
      ∃ flags, translationOf state virt = some (virt, flags) ∧
        Has flags pagePBit ∧ Has flags pageRwBit
  tables :
    ∀ table, LinkedTable state table →
      table + 4096 ≤ state.usedMemory.toNat
  absent :
    ∀ virt, IsPage virt → state.usedMemory.toNat ≤ virt.toNat →
      virt.toNat < 2 ^ 47 → translationOf state virt = none
  upper :
    ∀ virt, IsPage virt → 2 ^ 47 ≤ virt.toNat →
      translationOf state virt = translationOf start virt

/-- The number of tables below the root that the addresses below `limit`
need. -/
def tablesBelow (limit : Nat) : Nat :=
  (limit + (2 ^ 39 - 1)) / 2 ^ 39 + (limit + (2 ^ 30 - 1)) / 2 ^ 30 +
    (limit + (2 ^ 21 - 1)) / 2 ^ 21

/-- There is a limit below 4 GiB under which the memory in use fits together
with all tables that the memory under the limit needs. -/
def HasRoom (state : Loader) : Prop :=
  ∃ limit, limit % 4096 = 0 ∧ limit < 2 ^ 32 ∧
    state.usedMemory.toNat +
      4096 * ((if state.pml4 = 0#32 then 1 else 0) + tablesBelow limit) ≤ limit

/-! ## Tables of the lower half -/

/-- The paths to the tables on the walk of `virt`, with the width of the
addresses that each of them serves. -/
def levels (virt : Word) : List (Nat × List Index) :=
  [(39, [indexAt virt 39]), (30, [indexAt virt 39, indexAt virt 30]),
    (21, upperPath virt)]

section Levels

variable {state : Loader} {virt other : Word} {i : Nat}
  {level : Nat × List Index}

/-- Two pages of the lower half share the table of a level if it serves both. -/
theorem onPath_iff (low : virt.toNat < 2 ^ 47) (otherLow : other.toNat < 2 ^ 47)
    (member : level ∈ levels virt) :
    level.2 <+: upperPath other ↔
      virt.toNat / 2 ^ level.1 = other.toNat / 2 ^ level.1 := by
  simp only [levels, List.mem_cons, List.not_mem_nil, or_false] at member
  rcases member with rfl | rfl | rfl
  · simp only [upperPath, List.cons_prefix_cons, List.nil_prefix, and_true,
      Fin.ext_iff, indexAt_val]
    omega
  · simp only [upperPath, List.cons_prefix_cons, List.nil_prefix, and_true,
      Fin.ext_iff, indexAt_val]
    omega
  · simp only [upperPath, List.cons_prefix_cons, List.nil_prefix, and_true,
      Fin.ext_iff, indexAt_val]
    omega

/-- One more page needs the tables that serve it or an earlier page. -/
theorem region_step (member : level ∈ levels virt) :
    (virt.toNat / 2 ^ level.1 * 2 ^ level.1 < 4096 * i ∨
        virt.toNat / 2 ^ level.1 = 4096 * i / 2 ^ level.1) ↔
      virt.toNat / 2 ^ level.1 * 2 ^ level.1 < 4096 * (i + 1) := by
  simp only [levels, List.mem_cons, List.not_mem_nil, or_false] at member
  rcases member with rfl | rfl | rfl
  · dsimp only
    omega
  · dsimp only
    omega
  · dsimp only
    omega

theorem toNat_pageStart (small : 4096 * i < 2 ^ 32) :
    (pageStart i).toNat = 4096 * i := by
  rw [pageStart, BitVec.toNat_ofNat, Nat.mod_eq_of_lt (by omega)]

/-- The tables that serve the addresses below page `i` are the ones linked, so
the ones that page `i` misses are the ones by which the next page's count is
larger. -/
theorem missing_pageStart
    (walked : ∀ level ∈ levels (pageStart i),
      ((walk (child state.mem) state.pml4.toNat level.2).isSome ↔
        4096 * i / 2 ^ level.1 * 2 ^ level.1 < 4096 * i)) :
    tablesBelow (4096 * i) + missing state (upperPath (pageStart i)) =
      tablesBelow (4096 * (i + 1)) := by
  have first := walked (39, [indexAt (pageStart i) 39]) (by simp [levels])
  have second := walked
    (30, [indexAt (pageStart i) 39, indexAt (pageStart i) 30])
    (by simp [levels])
  have third := walked (21, upperPath (pageStart i)) (by simp [levels])
  have path : upperPath (pageStart i) = [] ++ [indexAt (pageStart i) 39] ++
      [indexAt (pageStart i) 30] ++ [indexAt (pageStart i) 21] := rfl
  rw [path, missing_snoc, missing_snoc, missing_snoc, missing_nil]
  change ((walk _ _ ([] ++ [indexAt (pageStart i) 39])).isSome ↔ _) at first
  change ((walk _ _ ([] ++ [indexAt (pageStart i) 39] ++
    [indexAt (pageStart i) 30])).isSome ↔ _) at second
  rw [path] at third
  simp only [first, second, third, tablesBelow]
  split_ifs <;> omega

end Levels

/-! ## One round -/

/-- What holds when the loop that started in `start` comes to round `i`. -/
structure Mapping (start : Loader) (i : Nat) (state : Loader) : Prop where
  good : Good state
  nonNull : state.pml4 ≠ 0#32
  used :
    state.usedMemory.toNat =
      start.usedMemory.toNat + 4096 * tablesBelow (4096 * i)
  covered : 4096 * i ≤ state.usedMemory.toNat
  walked :
    ∀ virt, virt.toNat < 2 ^ 47 → ∀ level ∈ levels virt,
      ((walk (child state.mem) state.pml4.toNat level.2).isSome ↔
        virt.toNat / 2 ^ level.1 * 2 ^ level.1 < 4096 * i)
  writable :
    ∀ virt path table index, virt.toNat < 2 ^ 47 →
      path ++ [index] <+: upperPath virt →
      walk (child state.mem) state.pml4.toNat path = some table →
      Has (readEntry state.mem table index) pagePBit →
      Has (readEntry state.mem table index) pageRwBit
  pages :
    ∀ virt, IsPage virt → virt.toNat < 4096 * i →
      translationOf state virt =
        some (virt, (identityFlags ||| pagePBit) &&& ptFlagsMask)
  absent :
    ∀ virt, IsPage virt → 4096 * i ≤ virt.toNat → virt.toNat < 2 ^ 47 →
      translationOf state virt = none
  upper :
    ∀ virt, IsPage virt → 2 ^ 47 ≤ virt.toNat →
      translationOf state virt = translationOf start virt

section Round

variable {start state : Loader} {i : Nat}

/-- The next round. Its tables fit below 4 GiB. -/
theorem Mapping.round (holds : Mapping start i state)
    (before : 4096 * i < state.usedMemory.toNat)
    (fits :
      start.usedMemory.toNat + 4096 * tablesBelow (4096 * (i + 1)) < 2 ^ 32) :
    ∃ state',
      mapPage state (pageStart i) (pageStart i) identityFlags = .ok state' ∧
        Mapping start (i + 1) state' := by
  have bound := state.usedMemory.isLt
  have small : 4096 * i < 2 ^ 32 := by omega
  have value := toNat_pageStart small
  have low : (pageStart i).toNat < 2 ^ 47 := by omega
  have page : IsPage (pageStart i) := isPage_of_toNat (by omega) (by omega)
  have frame : IsFrame (pageStart i) := by
    rw [isFrame_iff]
    omega
  obtain ⟨state', mapped⟩ :=
    @mapPage_accepts state (pageStart i) (pageStart i) identityFlags page frame
  refine ⟨state', mapped, ?_⟩
  -- the tables that the call links
  have walkedHere := holds.walked (pageStart i) low
  rw [value] at walkedHere
  have count := missing_pageStart walkedHere
  have linked := linked_of_mapPage holds.good holds.nonNull mapped (by
    rw [holds.used]
    omega)
  have used := linked.used
  have usedBefore := holds.used
  have aligned := holds.good.aligned
  -- what the call maps
  have result := mapped_of_good holds.good holds.nonNull mapped (by omega)
  refine ⟨result.good, result.nonNull, by omega, by omega, ?_, ?_, ?_, ?_, ?_⟩
  · intro virt virtLow level member
    have short : level.2.length ≤ 3 := by
      simp only [levels, List.mem_cons, List.not_mem_nil, or_false] at member
      rcases member with rfl | rfl | rfl <;> simp
    rw [linked.pml4, linked.walked level.2 short, onPath_iff virtLow low member,
      holds.walked virt virtLow level member, value]
    exact region_step member
  · intro virt path table index virtLow onWalk reached present
    rw [linked.pml4] at reached
    by_cases onPath : path ++ [index] <+: upperPath (pageStart i)
    · obtain ⟨entry, entryEq⟩ := linked.flagged path table index onPath reached
      rw [entryEq]
      exact has_or.mpr (Or.inr (by decide))
    · have lengths := onWalk.length_le
      simp only [List.length_append, List.length_singleton,
        length_upperPath] at lengths
      rcases linked.kept path table index (by omega) onPath reached with
        empty | ⟨old, same⟩
      · rw [empty] at present
        exact absurd present (by decide)
      · rw [same] at present ⊢
        exact holds.writable virt path table index virtLow onWalk old present
  · intro virt virtPage inside
    by_cases here : virt = pageStart i
    · rw [here, result.here]
    · rw [result.elsewhere virt virtPage here]
      refine holds.pages virt virtPage (Nat.lt_of_not_le fun above => here ?_)
      apply BitVec.eq_of_toNat_eq
      have virtAligned := virtPage.aligned
      omega
  · intro virt virtPage above virtLow
    rw [result.elsewhere virt virtPage]
    · exact holds.absent virt virtPage (by omega) virtLow
    · rintro rfl
      omega
  · intro virt virtPage high
    rw [result.elsewhere virt virtPage]
    · exact holds.upper virt virtPage high
    · rintro rfl
      omega

end Round

/-! ## The lower half is empty before -/

/-- No page of the lower half has tables of its own. -/
def HighOnly (state : Loader) : Prop :=
  state.pml4 ≠ 0#32 → ∀ index : Index, index.val < 256 →
    child state.mem state.pml4.toNat index = none

section HighOnly

variable {start state state' : Loader} {calls : List Call} {virt : Word}

theorem indexAt_high {virt : Word} (page : IsPage virt)
    (high : 2 ^ 47 ≤ virt.toNat) : 256 ≤ (indexAt virt 39).val := by
  have canonical := page.canonical
  have bound := virt.isLt
  rw [indexAt_val]
  omega

theorem indexAt_low (low : virt.toNat < 2 ^ 47) :
    (indexAt virt 39).val < 256 := by
  rw [indexAt_val]
  omega

/-- Calls for the upper half leave the lower half empty. -/
theorem HighOnly.mapped {phys flags : Word} (holds : HighOnly state)
    (result : Mapped state state' virt phys flags) (page : IsPage virt)
    (high : 2 ^ 47 ≤ virt.toNat) : HighOnly state' := by
  intro _ index lowIndex
  have highIndex := indexAt_high page high
  have offPath : ¬ [] ++ [index] <+: upperPath virt ++ [leafIndex virt] := by
    simp only [upperPath, List.nil_append, List.cons_append,
      List.cons_prefix_cons]
    rintro ⟨rfl, _⟩
    omega
  have root : walk (child state'.mem) state'.pml4.toNat [] =
      some state'.pml4.toNat := rfl
  rcases result.fresh [] state'.pml4.toNat (by decide) root with
    ⟨nonNull, old⟩ | ⟨_, empty⟩
  · have same : state.pml4.toNat = state'.pml4.toNat := Option.some.inj old
    rw [child_eq_of_readEntry (result.old [] _ index (by decide) nonNull old
      offPath), ← same]
    exact holds nonNull index lowIndex
  · rw [child, empty index offPath, if_neg (by decide)]

theorem highOnly_of_run (fresh : Fresh start) (run : Run Step start calls state)
    (high :
      ∀ virt phys flags, .map virt phys flags ∈ calls → 2 ^ 47 ≤ virt.toNat) :
    HighOnly state := by
  induction run with
  | nil => exact fun nonNull => absurd fresh.pml4 nonNull
  | @snoc calls call state state' run called inductionHypothesis =>
      have holds := invariant_of_run fresh run
      have before := inductionHypothesis fun virt phys flags member =>
        high virt phys flags (List.mem_append_left _ member)
      by_cases isMap : ∃ virt phys flags, call = .map virt phys flags
      · obtain ⟨virt, phys, flags, rfl⟩ := isMap
        have virtHigh := high virt phys flags (by simp)
        cases called with
        | map mapped unwrapped =>
            exact before.mapped (mapped_of_mapPage holds.good holds.aligned
              holds.above mapped unwrapped) (mapPage_usedMemory mapped).1
              virtHigh
      · have quiet := quiet_of_step holds.aligned holds.good called
          fun virt phys flags equal => isMap ⟨virt, phys, flags, equal⟩
        intro nonNull index lowIndex
        rw [quiet.pml4] at nonNull ⊢
        rw [quiet.child_eq nonNull [] _ index (by decide) rfl]
        exact before nonNull index lowIndex

/-- Without tables nothing is linked and nothing is mapped. -/
theorem HighOnly.walk_eq_none (holds : HighOnly state)
    (nonNull : state.pml4 ≠ 0#32) (low : virt.toNat < 2 ^ 47)
    {rest : List Index} :
    walk (child state.mem) state.pml4.toNat ([indexAt virt 39] ++ rest) =
      none := by
  rw [List.singleton_append, walk, holds nonNull _ (indexAt_low low)]
  rfl

/-- The loop starts with an empty lower half. -/
theorem Mapping.initial (good : Good state) (nonNull : state.pml4 ≠ 0#32)
    (holds : HighOnly state) : Mapping state 0 state := by
  refine ⟨good, nonNull, rfl, Nat.zero_le _, ?_, ?_, ?_, ?_, fun _ _ _ => rfl⟩
  · intro virt low level member
    have absent : ∀ rest, level.2 = [indexAt virt 39] ++ rest →
        walk (child state.mem) state.pml4.toNat level.2 = none := by
      rintro rest pathEq
      rw [pathEq]
      exact holds.walk_eq_none nonNull low
    have none : walk (child state.mem) state.pml4.toNat level.2 = none := by
      simp only [levels, List.mem_cons, List.not_mem_nil, or_false] at member
      rcases member with rfl | rfl | rfl
      · exact absent [] rfl
      · exact absent [indexAt virt 30] rfl
      · exact absent [indexAt virt 30, indexAt virt 21] rfl
    simp [none]
  · intro virt path table index low onWalk reached present
    cases path with
    | nil =>
        cases reached
        have first : index = indexAt virt 39 := by
          simp only [upperPath, List.nil_append, List.cons_prefix_cons]
            at onWalk
          exact onWalk.1
        have missing := holds nonNull _ (indexAt_low low)
        rw [← first, child, if_pos present] at missing
        cases missing
    | cons head rest =>
        have first : head = indexAt virt 39 := by
          simp only [upperPath, List.cons_append, List.cons_prefix_cons]
            at onWalk
          exact onWalk.1
        rw [first, ← List.singleton_append,
          holds.walk_eq_none nonNull low] at reached
        cases reached
  · intro virt _ inside
    omega
  · intro virt _ _ low
    have absent : leafTable state.mem state.pml4.toNat virt = none :=
      @HighOnly.walk_eq_none state virt holds nonNull low
        [indexAt virt 30, indexAt virt 21]
    rw [translationOf, if_neg nonNull, translation, leafEntry_eq_none absent]
    rfl

end HighOnly

/-! ## The whole loop -/

section Whole

variable {start state : Loader} {virt bit : Word} {calls : List Call} {i : Nat}

/-- A bit that all upper entries of the lower half carry, and the entry of the
page too. -/
theorem carries_of_translation {frame flags : Word}
    (nonNull : state.pml4 ≠ 0#32) (inFlags : ptFlagsMask &&& bit = bit)
    (translated : translationOf state virt = some (frame, flags))
    (leaf : Has flags bit)
    (upper :
      ∀ path table index, path ++ [index] <+: upperPath virt →
        walk (child state.mem) state.pml4.toNat path = some table →
        Has (readEntry state.mem table index) pagePBit →
        Has (readEntry state.mem table index) bit) :
    Carries state virt bit := by
  rw [translationOf, if_neg nonNull] at translated
  obtain ⟨entry, found, selected⟩ := Option.bind_eq_some_iff.mp translated
  obtain ⟨last, leafReached, entryEq⟩ := Option.map_eq_some_iff.mp found
  intro path table index onWalk reached
  rcases List.prefix_concat_iff.mp onWalk with whole | onPath
  · obtain ⟨rfl, indexEq⟩ := List.append_inj' whole rfl
    have same : table = last := by
      rw [leafTable, reached] at leafReached
      exact Option.some.inj leafReached
    rw [List.cons.inj indexEq |>.1, same, entryEq]
    split at selected
    · next present =>
      cases selected
      exact (has_and_of_subset inFlags).mp leaf
    · cases selected
  · refine upper path table index onPath reached ?_
    obtain ⟨rest, pathEq⟩ := onPath
    rw [leafTable, ← pathEq] at leafReached
    obtain ⟨next, nextReached⟩ := exists_walk_of_append leafReached
    rw [walk_snoc_of_walk reached, child] at nextReached
    split at nextReached
    · next present => exact present
    · cases nextReached

/-- When the loop condition fails, the memory in use is mapped. -/
theorem Mapping.identityMapped (holds : Mapping start i state)
    (ends : state.usedMemory.toNat ≤ 4096 * i) :
    IdentityMapped start state := by
  have covered := holds.covered
  have used := holds.used
  refine ⟨by omega, ?_, fun _ linked => holds.good.below _ linked.2, ?_,
    holds.upper⟩
  · intro virt page inside
    have bound := state.usedMemory.isLt
    have translated := holds.pages virt page (by omega)
    refine ⟨?_, _, translated, by decide, by decide⟩
    exact carries_of_translation holds.nonNull (by decide) translated
      (by decide) fun path table index onPath =>
        holds.writable virt path table index (by omega) onPath
  · exact fun virt page above => holds.absent virt page (by omega)

/-- The loop from a loader with a root table and an empty lower half. -/
theorem setupIdentityPaging_of_mapping {limit : Nat}
    (initial : Mapping start 0 start) (aligned : limit % 4096 = 0)
    (below : limit < 2 ^ 32)
    (room : start.usedMemory.toNat + 4096 * tablesBelow limit ≤ limit) :
    ∃ state, setupIdentityPaging start = .ok state ∧
      IdentityMapped start state := by
  have condition : ∀ (i : Nat) (state : Loader), 4096 * i ≤ limit →
      (pageStart i < state.usedMemory.setWidth 64 ↔
        4096 * i < state.usedMemory.toNat) := by
    intro i state inside
    have bound := state.usedMemory.isLt
    rw [BitVec.lt_def, toNat_pageStart (by omega), BitVec.toNat_setWidth,
      Nat.mod_eq_of_lt (by omega)]
  have monotone : ∀ {first second : Nat}, first ≤ second →
      tablesBelow first ≤ tablesBelow second := by
    intro first second ordered
    simp only [tablesBelow]
    omega
  have ended : ∀ state : Loader,
      Mapping start (limit / 4096) state ∧ 4096 * (limit / 4096) ≤ limit →
      ¬ pageStart (limit / 4096) < state.usedMemory.setWidth 64 := by
    rintro state ⟨holds, inside⟩
    rw [condition _ state inside]
    have used := holds.used
    have whole : 4096 * (limit / 4096) = limit := by omega
    rw [whole] at used ⊢
    omega
  have round : ∀ (i : Nat) (state : Loader), i < limit / 4096 →
      Mapping start i state ∧ 4096 * i ≤ limit →
      pageStart i < state.usedMemory.setWidth 64 →
      ∃ state',
        mapPage state (pageStart i) (pageStart i) identityFlags = .ok state' ∧
          Mapping start (i + 1) state' ∧ 4096 * (i + 1) ≤ limit := by
    rintro i state before ⟨holds, inside⟩ goesOn
    rw [condition i state inside] at goesOn
    have next : 4096 * (i + 1) ≤ limit := by omega
    have few := monotone next
    obtain ⟨state', mapped, holds'⟩ := holds.round goesOn (by omega)
    exact ⟨state', mapped, holds', next⟩
  obtain ⟨last, state, _, returned, ⟨holds, inside⟩, ends⟩ :=
    whileLoop_ends _ Halt.fault (Nat.zero_le (limit / 4096))
      ⟨initial, Nat.zero_le _⟩ ended round
      (by omega : limit / 4096 < 0 + (2 ^ 20 + 1))
  rw [condition last state inside] at ends
  exact ⟨state, returned, holds.identityMapped (Nat.le_of_not_lt ends)⟩

/-- The first round makes the root table, if there is none. -/
theorem setupIdentityPaging_ensureRoot
    (nonzero : 0 < state.usedMemory.toNat)
    (rootNonzero : 0 < (ensureRoot state).usedMemory.toNat) :
    setupIdentityPaging (ensureRoot state) = setupIdentityPaging state := by
  have goesOn : ∀ {other : Loader}, 0 < other.usedMemory.toNat →
      pageStart 0 < other.usedMemory.setWidth 64 := by
    intro other positive
    have bound := other.usedMemory.isLt
    rw [BitVec.lt_def, toNat_pageStart (by decide), BitVec.toNat_setWidth,
      Nat.mod_eq_of_lt (by omega)]
    exact positive
  have nonNull : state.usedMemory ≠ 0#32 := by
    intro zero
    rw [zero] at nonzero
    exact absurd nonzero (by decide)
  rw [setupIdentityPaging, setupIdentityPaging, whileLoop, whileLoop,
    if_pos (goesOn nonzero), if_pos (goesOn rootNonzero),
    mapPage_ensureRoot nonNull]

/-- After any run whose mappings lie in the upper half, and with room for the
tables below 4 GiB, the loop ends. Then the memory in use is mapped to itself,
the tables that the loop linked included, the rest of the lower half is
empty, and the upper half is as before. -/
theorem setupIdentityPaging_complete (fresh : Fresh start)
    (run : Run Step start calls state)
    (high :
      ∀ virt phys flags, .map virt phys flags ∈ calls → 2 ^ 47 ≤ virt.toNat)
    (room : HasRoom state) :
    ∃ state', setupIdentityPaging state = .ok state' ∧
      IdentityMapped state state' := by
  have holds := invariant_of_run fresh run
  have highOnly := highOnly_of_run fresh run high
  have above := holds.above
  obtain ⟨limit, aligned, below, enough⟩ := room
  by_cases null : state.pml4 = 0#32
  · rw [if_pos null] at enough
    have fits : state.usedMemory.toNat + 4096 < 2 ^ 32 := by omega
    have rooted := good_ensureRoot null holds.aligned fits
    have rootEq := ensureRoot_of_null null
    have used : (ensureRoot state).usedMemory.toNat =
        state.usedMemory.toNat + 4096 := by
      rw [rootEq]
      exact toNat_newPage fits
    have nonNull : (ensureRoot state).pml4 ≠ 0#32 := by
      rw [rootEq]
      intro zero
      change state.usedMemory = 0#32 at zero
      rw [zero] at above
      exact absurd above (by decide)
    have empty : HighOnly (ensureRoot state) := by
      intro _ index _
      have zero := readEntry_ensureRoot null index
      rw [rootEq] at zero ⊢
      rw [child, zero, if_neg (by decide)]
    obtain ⟨state', returned, mapped⟩ := setupIdentityPaging_of_mapping
      (Mapping.initial rooted nonNull empty) aligned below (by omega)
    rw [setupIdentityPaging_ensureRoot (by omega) (by omega)] at returned
    refine ⟨state', returned, ⟨by have := mapped.grown; omega, mapped.identity,
      mapped.tables, mapped.absent, ?_⟩⟩
    intro virt page virtHigh
    rw [mapped.upper virt page virtHigh, translationOf, if_neg nonNull,
      translation_ensureRoot null, translationOf, if_pos null]
  · rw [if_neg null] at enough
    exact setupIdentityPaging_of_mapping
      (Mapping.initial (holds.good null) null highOnly) aligned below (by omega)

/-- The empty loader, after it has mapped a page of the upper half. -/
theorem setupIdentityPaging_complete_emptyLoader :
    ∃ state state', setupIdentityPaging state = .ok state' ∧
      IdentityMapped state state' := by
  obtain ⟨state, mapped⟩ := @mapPage_accepts emptyLoader
    0xffff800000000000#64 0x200000#64 3#64 (by decide) (by decide)
  obtain ⟨_, _, count, atMost, usedEq⟩ := mapPage_usedMemory mapped
  have used : state.usedMemory.toNat = 0x101000 + 4096 * count := by
    rw [usedEq, ensureRoot_of_null rfl]
    change (0x101000 + 4096 * count) % 2 ^ 32 = _
    omega
  have start : emptyLoader.usedMemory.toNat = 0x100000 := rfl
  refine ⟨state, setupIdentityPaging_complete fresh_emptyLoader
    (Run.nil.snoc (Step.map mapped (by omega))) ?_ ⟨0x400000, by decide,
      by decide, ?_⟩⟩
  · intro virt phys flags member
    cases List.mem_singleton.mp member
    decide
  · have tables : tablesBelow 0x400000 = 4 := rfl
    rw [used, tables]
    split <;> omega

end Whole

end BeaverOS.LoaderPaging
