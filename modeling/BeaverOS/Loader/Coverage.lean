import BeaverOS.Loader.Refinement

/-!
# Upper entries of the loader's tables

The loader's `map_page` puts the flags of a page into its upper entries before
it stores the leaf entry, and takes none out. So after every run a flag of a
mapped page that upper entries can have is in all upper entries above it.
-/

namespace BeaverOS.LoaderPaging

open BeaverOS.ByteMemory
open BeaverOS.RadixTree
open BeaverOS.Paging
open BeaverOS.Window
open BeaverOS.PageTree
open BeaverOS.TableUpdate
open BeaverOS.Transition

/-- Where a mapped page has `bit`, so have the upper entries on its walk. -/
def Covered (state : Loader) (bit : Word) : Prop :=
  ∀ virt image flags, IsPage virt →
    translationOf state virt = some (image, flags) → Has flags bit →
    ∀ path table index, path ++ [index] <+: upperPath virt →
      walk (child state.mem) state.pml4.toNat path = some table →
      Has (readEntry state.mem table index) bit

section Coverage

variable {start state state' : Loader} {calls : List Call} {call : Call}
  {virt phys flags bit image : Word}

/-- A mapped page has all its tables. -/
theorem leafTable_of_translationOf
    (mapped : translationOf state virt = some (image, flags)) :
    ∃ table, leafTable state.mem state.pml4.toNat virt = some table := by
  rw [translationOf] at mapped
  split at mapped
  · cases mapped
  · cases found : leafTable state.mem state.pml4.toNat virt with
    | some table => exact ⟨table, rfl⟩
    | none =>
        rw [translation, leafEntry_eq_none found] at mapped
        cases mapped

/-- On the way to a page that is mapped, every upper entry is present. -/
theorem walk_of_translationOf {path : List Index} {index : Index}
    (mapped : translationOf state virt = some (image, flags))
    (upper : path ++ [index] <+: upperPath virt) :
    ∃ table next, walk (child state.mem) state.pml4.toNat path = some table ∧
      child state.mem table index = some next := by
  obtain ⟨leaf, walked⟩ := leafTable_of_translationOf mapped
  obtain ⟨rest, split⟩ := upper
  rw [leafTable, ← split] at walked
  obtain ⟨next, reached⟩ := exists_walk_of_append walked
  obtain ⟨table, before⟩ := exists_walk_of_append reached
  rw [walk_snoc_of_walk before] at reached
  exact ⟨table, next, before, reached⟩

theorem covered_of_null (null : state.pml4 = 0#32) : Covered state bit := by
  intro virt image flags _ mapped
  rw [translationOf, if_pos null] at mapped
  cases mapped

/-- A call of `map_page` on a loader with a root table. -/
theorem covered_of_good (good : Good state) (nonNull : state.pml4 ≠ 0#32)
    (mapped : mapPage state virt phys flags = .ok state')
    (unwrapped : state.usedMemory.toNat ≤ state'.usedMemory.toNat)
    (upperKept : pml4FlagsMask &&& bit = bit)
    (leafKept : ptFlagsMask &&& bit = bit)
    (covered : Covered state bit) : Covered state' bit := by
  obtain ⟨page, frame, _⟩ := mapPage_usedMemory mapped
  have result := mapped_of_good good nonNull mapped unwrapped
  obtain ⟨_, done, table, _, progress, _, stored⟩ :=
    mapPage_progress good nonNull page frame mapped unwrapped
  have descended := progress.descended
  obtain ⟨updated, -, walks⟩ := descended.store stored
  have pml4Eq : state'.pml4 = state.pml4 := by
    rw [stored]
    exact descended.pml4
  intro other image otherFlags otherPage translated has path above index upper
    walked
  have lengths := upper.length_le
  simp only [List.length_append, List.length_singleton,
    length_upperPath] at lengths
  rw [pml4Eq, walks path (by omega)] at walked
  have sameEntry : readEntry state'.mem above index =
      readEntry done.mem above index := by
    refine updated.entry_eq path above index (by omega) walked ?_
    rintro ⟨rfl, _⟩
    rw [length_upperPath] at lengths
    omega
  rw [sameEntry]
  by_cases here : other = virt
  · subst here
    rw [result.here] at translated
    cases translated
    obtain ⟨before, value, _⟩ :=
      descended.flagged path above index upper walked
    rw [value]
    exact has_or.mpr (Or.inr ((has_and_of_subset upperKept).mpr
      ((has_and_of_subset leafKept).mp has)))
  · rw [result.elsewhere other otherPage here] at translated
    obtain ⟨old, next, oldWalked, linked⟩ :=
      walk_of_translationOf translated upper
    have same := descended.walk_mono path old (by omega) oldWalked
    rw [walked] at same
    cases same
    have oldHas := covered other image otherFlags otherPage translated has path
      above index upper oldWalked
    by_cases onPath : path ++ [index] <+: upperPath virt
    · obtain ⟨before, value, kept⟩ :=
        descended.flagged path above index onPath walked
      have present : Has (readEntry state.mem above index) pagePBit := by
        rw [child] at linked
        split at linked
        · next present => exact present
        · cases linked
      rw [value, kept oldWalked present]
      exact has_or.mpr (Or.inl oldHas)
    · rw [descended.entry_eq path above index (by omega) oldWalked onPath]
      exact oldHas

theorem covered_of_mapPage (holds : Invariant calls state)
    (mapped : mapPage state virt phys flags = .ok state')
    (unwrapped : state.usedMemory.toNat ≤ state'.usedMemory.toNat)
    (upperKept : pml4FlagsMask &&& bit = bit)
    (leafKept : ptFlagsMask &&& bit = bit)
    (covered : Covered state bit) : Covered state' bit := by
  by_cases null : state.pml4 = 0#32
  · obtain ⟨nonzero, fits, grown⟩ := ensureRoot_fits null holds.aligned
      holds.above mapped unwrapped
    have rooted := good_ensureRoot null holds.aligned fits
    have rootNonNull : (ensureRoot state).pml4 ≠ 0#32 := by
      rw [ensureRoot_of_null null]
      exact nonzero
    rw [← mapPage_ensureRoot nonzero] at mapped
    refine covered_of_good rooted rootNonNull mapped grown upperKept leafKept
      ?_
    intro other image otherFlags _ translated
    rw [translationOf, if_neg rootNonNull,
      translation_ensureRoot null] at translated
    cases translated
  · exact covered_of_good (holds.good null) null mapped unwrapped upperKept
      leafKept covered

theorem covered_of_quiet (quiet : Quiet state state' call)
    (covered : Covered state bit) : Covered state' bit := by
  by_cases null : state.pml4 = 0#32
  · exact covered_of_null (quiet.pml4.trans null)
  · intro virt image flags page translated has path table index upper walked
    have lengths := upper.length_le
    simp only [List.length_append, List.length_singleton,
      length_upperPath] at lengths
    rw [quiet.translationOf_eq] at translated
    rw [quiet.pml4, walk_congr (quiet.child_eq null) path (by omega)] at walked
    rw [quiet.readEntry_eq null (by omega) walked]
    exact covered virt image flags page translated has path table index upper
      walked

/-- After every run of the loader, the upper entries cover the pages. -/
theorem covered_of_run (fresh : Fresh start)
    (upperKept : pml4FlagsMask &&& bit = bit)
    (leafKept : ptFlagsMask &&& bit = bit)
    (run : Run Step start calls state) : Covered state bit := by
  induction run with
  | nil => exact covered_of_null fresh.pml4
  | @snoc calls call state state' run called inductionHypothesis =>
      have holds := invariant_of_run fresh run
      by_cases isMap : ∃ virt phys flags, call = .map virt phys flags
      · obtain ⟨virt, phys, flags, rfl⟩ := isMap
        cases called with
        | map mapped unwrapped =>
            exact covered_of_mapPage holds mapped unwrapped upperKept leafKept
              inductionHypothesis
      · exact covered_of_quiet (quiet_of_step holds.aligned holds.good called
          fun virt phys flags equal => isMap ⟨virt, phys, flags, equal⟩)
          inductionHypothesis

end Coverage

end BeaverOS.LoaderPaging
