import Mathlib.Data.List.Infix
import BeaverOS.Loader.Refinement

/-!
# How the loader's page tables grow

What one `map_page` of the loader writes and allocates: it stays within its own
tables and the memory from the allocation pointer on, and a level-1 table that
it has to make is the last page that it allocates.
-/

namespace BeaverOS.LoaderPaging

open BeaverOS.ByteMemory
open BeaverOS.RadixTree
open BeaverOS.Paging
open BeaverOS.PageTree
open BeaverOS.TableUpdate

/-- The level-1 table of a page, if the loader has linked it. -/
def leafTableOf (state : Loader) (virt : Word) : Option Nat :=
  if state.pml4 = 0#32 then none
  else leafTable state.mem state.pml4.toNat virt

/-- The bytes of the linked tables, and all bytes from the allocation pointer
on. -/
def linkedCells (state : Loader) : Set Nat :=
  fun cell =>
    state.usedMemory.toNat ≤ cell ∨
      ∃ table, LinkedTable state table ∧ cell ∈ cells table 4096

/-- What `map_page` writes and allocates for `virt`. -/
structure Extended (state state' : Loader) (virt : Word) : Prop where
  agree : AgreeOff (linkedCells state) state'.mem state.mem
  grown : state.usedMemory.toNat ≤ state'.usedMemory.toNat
  linked :
    ∀ table, LinkedTable state' table →
      LinkedTable state table ∨ state.usedMemory.toNat ≤ table
  reused :
    ∀ table, leafTableOf state virt = some table →
      state'.usedMemory = state.usedMemory ∧
        leafTableOf state' virt = some table
  appended :
    leafTableOf state virt = none →
      ∃ table, leafTableOf state' virt = some table ∧
        table + 4096 = state'.usedMemory.toNat
  others :
    ∀ other table, leafTableOf state' other = some table →
      upperPath other ≠ upperPath virt →
      leafTableOf state other = some table

section Growth

variable {state state' linked done : Loader} {virt phys flags : Word}
  {path : List Index} {table : Nat}

/-- New tables lie on the path that was descended. -/
theorem Descended.old_or_prefix
    (descended : Descended state done path table flags)
    (other : List Index) (short : other.length ≤ 3) {found : Nat}
    (reached : walk (child done.mem) state.pml4.toNat other = some found) :
    walk (child state.mem) state.pml4.toNat other = some found ∨
      other <+: path := by
  induction other using List.reverseRecOn generalizing found with
  | nil => exact Or.inl reached
  | append_singleton other index _ =>
      by_cases prefixed : other ++ [index] <+: path
      · exact Or.inr prefixed
      · left
        rw [List.length_append, List.length_singleton] at short
        have parent := reached
        rw [walk_snoc] at parent
        obtain ⟨upper, upperReached, below⟩ :=
          Option.bind_eq_some_iff.mp parent
        rcases descended.fresh other upper (by omega) upperReached with
          old | ⟨_, _, empty⟩
        · rw [walk_snoc_of_walk old, ← below]
          exact (child_eq_of_readEntry (descended.entry_eq other upper index
            (by omega) old prefixed)).symm
        · rw [child, empty index prefixed, if_neg (by decide)] at below
          cases below

theorem leafTableOf_of_nonNull (nonNull : state.pml4 ≠ 0#32) (virt : Word) :
    leafTableOf state virt = leafTable state.mem state.pml4.toNat virt :=
  if_neg nonNull

theorem ownCells_subset_linkedCells (nonNull : state.pml4 ≠ 0#32) :
    ownCells state ⊆ linkedCells state := by
  rintro cell (above | ⟨table, isTable, inside⟩)
  · exact Or.inl above
  · exact Or.inr ⟨table, ⟨nonNull, isTable⟩, inside⟩

theorem orEntries_agree {pending : List Pointer} {changed : Set Nat}
    (inside : ∀ entry ∈ pending, cells entry.toNat 8 ⊆ changed) :
    AgreeOff changed (orEntries flags linked pending).mem linked.mem := by
  induction pending generalizing linked with
  | nil => exact AgreeOff.refl _ _
  | cons entry pending inductionHypothesis =>
      rw [List.forall_mem_cons] at inside
      exact (inductionHypothesis inside.2).trans
        ((agreeOff_writeWord _ _ _).mono inside.1)

private theorem extended_of_good (good : Good state)
    (nonNull : state.pml4 ≠ 0#32)
    (mapped : mapPage state virt phys flags = .ok state')
    (unwrapped : state.usedMemory.toNat ≤ state'.usedMemory.toNat) :
    Extended state state' virt := by
  obtain ⟨page, frame, _⟩ := mapPage_usedMemory mapped
  obtain ⟨linked, done, table, pending, progress, grows, stored⟩ :=
    mapPage_progress good nonNull page frame mapped unwrapped
  have descended := progress.descended
  obtain ⟨_, _, walks⟩ := descended.store stored
  have pml4Eq : state'.pml4 = state.pml4 := by
    rw [stored]
    exact descended.pml4
  have nonNull' : state'.pml4 ≠ 0#32 := by
    rw [pml4Eq]
    exact nonNull
  have usedEq : state'.usedMemory = linked.usedMemory := by
    rw [stored, progress.done_eq, orEntries_usedMemory]
  have leafThen : leafTableOf state' virt = some table.toNat := by
    rw [leafTableOf_of_nonNull nonNull', pml4Eq, leafTable,
      walks _ (by simp)]
    exact descended.reached
  refine ⟨?_, unwrapped, ?_, ?_, ?_, ?_⟩
  · refine AgreeOff.mono ?_ (ownCells_subset_linkedCells nonNull)
    have leafOwn := descended.entryCells_own (by simp) (leafIndex virt)
      descended.reached
    have pendingOwn : ∀ entry ∈ pending,
        cells entry.toNat 8 ⊆ ownCells state := by
      intro entry member
      obtain ⟨other, above, index, shorter, reached, entryEq⟩ :=
        progress.entries entry member
      rw [length_upperPath] at shorter
      rw [entryEq]
      exact descended.entryCells_own (Nat.le_of_lt shorter) index reached
    rw [stored]
    refine ((agreeOff_writeWord _ _ _).mono leafOwn).trans ?_
    rw [progress.done_eq]
    exact (orEntries_agree pendingOwn).trans grows.agree
  · rintro other ⟨_, otherPath, short, reached⟩
    rw [pml4Eq, walks otherPath short] at reached
    rcases descended.fresh otherPath other short reached with
      old | ⟨_, above, _⟩
    · exact Or.inl ⟨nonNull, otherPath, short, old⟩
    · exact Or.inr above
  · intro other found
    rw [leafTableOf_of_nonNull nonNull, leafTable] at found
    have same := descended.walk_mono _ other (by simp) found
    rw [descended.reached] at same
    refine ⟨?_, by rw [leafThen, same]⟩
    rw [usedEq]
    exact grows.found (by rw [found]; rfl)
  · intro missing
    rw [leafTableOf_of_nonNull nonNull, leafTable] at missing
    refine ⟨table.toNat, leafThen, ?_⟩
    rw [usedEq]
    exact grows.allocated missing
  · intro other found otherReached different
    rw [leafTableOf_of_nonNull nonNull', pml4Eq, leafTable,
      walks _ (by simp)] at otherReached
    rw [leafTableOf_of_nonNull nonNull]
    rcases descended.old_or_prefix _ (by simp) otherReached with
      old | prefixed
    · exact old
    · exact absurd (prefixed.eq_of_length (by simp)) different

theorem extended_of_mapPage
    (good : state.pml4 ≠ 0#32 → Good state)
    (aligned : state.usedMemory.toNat % 4096 = 0)
    (above : 0x100000 ≤ state.usedMemory.toNat)
    (mapped : mapPage state virt phys flags = .ok state')
    (unwrapped : state.usedMemory.toNat ≤ state'.usedMemory.toNat) :
    Extended state state' virt := by
  by_cases null : state.pml4 = 0#32
  · obtain ⟨nonzero, fits, grown⟩ :=
      ensureRoot_fits null aligned above mapped unwrapped
    have rootedEq := ensureRoot_of_null null
    have rootNonNull : (ensureRoot state).pml4 ≠ 0#32 := by
      rw [rootedEq]
      exact nonzero
    rw [← mapPage_ensureRoot nonzero] at mapped
    have result := extended_of_good (good_ensureRoot null aligned fits)
      rootNonNull mapped grown
    have onlyRoot : ∀ table, LinkedTable (ensureRoot state) table →
        table = state.usedMemory.toNat := by
      rintro table ⟨_, path, _, reached⟩
      rw [rootedEq] at reached
      have empty := readEntry_ensureRoot null
      rw [rootedEq] at empty
      exact (walk_empty_root empty path reached).2
    have noLeaf : ∀ other, leafTableOf (ensureRoot state) other = none := by
      intro other
      cases found : leafTableOf (ensureRoot state) other with
      | none => rfl
      | some table =>
          rw [leafTableOf_of_nonNull rootNonNull, leafTable] at found
          have start := found
          rw [rootedEq] at start
          have empty := readEntry_ensureRoot null
          rw [rootedEq] at empty
          exact absurd (walk_empty_root empty _ start).1 (List.cons_ne_nil _ _)
    have rootUsed : (ensureRoot state).usedMemory.toNat =
        state.usedMemory.toNat + 4096 := by
      rw [rootedEq]
      exact toNat_newPage fits
    refine ⟨?_, unwrapped, ?_, ?_, fun _ => result.appended (noLeaf virt), ?_⟩
    · refine (result.agree.mono ?_).trans ?_
      · rintro cell (far | ⟨table, isLinked, inside⟩)
        · exact Or.inl (by omega)
        · rw [onlyRoot table isLinked, mem_cells] at inside
          exact Or.inl inside.1
      · rw [rootedEq]
        refine (agreeOff_fill _ _ _ _).mono fun cell inside => ?_
        rw [mem_cells] at inside
        exact Or.inl inside.1
    · intro table isLinked
      rcases result.linked table isLinked with old | new
      · exact Or.inr (Nat.le_of_eq (onlyRoot table old).symm)
      · exact Or.inr (by omega)
    · intro table found
      rw [leafTableOf, if_pos null] at found
      cases found
    · intro other table found different
      have old := result.others other table found different
      rw [noLeaf] at old
      cases old
  · exact extended_of_good (good null) null mapped unwrapped

/-! ## Loaders whose tables lie above the memory in use -/

/-- What holds between the calls of a loader that found `base` as the first
free page. -/
structure Ready (base : Nat) (state : Loader) : Prop where
  aligned : state.usedMemory.toNat % 4096 = 0
  above : 0x100000 ≤ state.usedMemory.toNat
  base_le : base ≤ state.usedMemory.toNat
  good : state.pml4 ≠ 0#32 → Good state
  linked_above : ∀ table, LinkedTable state table → base ≤ table

theorem Ready.of_fresh (fresh : Fresh state) :
    Ready state.usedMemory.toNat state :=
  ⟨fresh.aligned, fresh.above, Nat.le_refl _,
    fun nonNull => absurd fresh.pml4 nonNull,
    fun _ linked => absurd fresh.pml4 linked.1⟩

variable {base : Nat} {call : Call}

theorem Ready.linked_bounds (ready : Ready base state)
    (linked : LinkedTable state table) :
    table % 4096 = 0 ∧ table + 4096 ≤ state.usedMemory.toNat := by
  have good := ready.good linked.1
  exact ⟨(linked.2.bounds good.tree).1, good.below table linked.2⟩

theorem Ready.mapped (ready : Ready base state)
    (mapped : mapPage state virt phys flags = .ok state')
    (unwrapped : state.usedMemory.toNat ≤ state'.usedMemory.toNat) :
    Ready base state' ∧ Mapped state state' virt phys flags ∧
      Extended state state' virt := by
  have result := mapped_of_mapPage ready.good ready.aligned ready.above mapped
    unwrapped
  have extended := extended_of_mapPage ready.good ready.aligned ready.above
    mapped unwrapped
  refine ⟨⟨result.good.aligned, ready.above.trans unwrapped,
    ready.base_le.trans unwrapped, fun _ => result.good, ?_⟩, result, extended⟩
  intro table linked
  rcases extended.linked table linked with old | new
  · exact ready.linked_above table old
  · exact ready.base_le.trans new

theorem Ready.quiet (ready : Ready base state)
    (quiet : Quiet state state' call) : Ready base state' := by
  refine ⟨quiet.aligned, ready.above.trans quiet.grown,
    ready.base_le.trans quiet.grown, ?_, ?_⟩
  · intro nonNull
    rw [quiet.pml4] at nonNull
    exact quiet.good nonNull (ready.good nonNull)
  · exact fun table linked => ready.linked_above table (quiet.linkedTable linked)

theorem Quiet.leafTableOf_eq (quiet : Quiet state state' call)
    (virt : Word) : leafTableOf state' virt = leafTableOf state virt := by
  rw [leafTableOf, leafTableOf, quiet.pml4]
  by_cases null : state.pml4 = 0#32
  · rw [if_pos null, if_pos null]
  · rw [if_neg null, if_neg null]
    exact leafTable_congr (quiet.child_eq null) virt

/-- Stores below the first free page touch no table. -/
theorem Ready.quiet_of_below (ready : Ready base state) {memory : Memory}
    {changed : Set Nat} (agree : AgreeOff changed memory state.mem)
    (below : ∀ cell ∈ changed, cell < base) :
    Quiet state { state with mem := memory } (.other memory) := by
  refine quiet_of_step ready.aligned ready.good (Step.other ?_) (by simp)
  intro table linked cell lower _
  refine agree cell fun inside => ?_
  have above := ready.linked_above table linked
  have bound := below cell inside
  omega

end Growth

/-! ## Which tables a call links -/

/-- How many tables on the way along `path` are not linked yet. -/
def missing (state : Loader) (path : List Index) : Nat :=
  path.inits.countP fun upper =>
    (walk (child state.mem) state.pml4.toNat upper).isNone

/-- What a call of a loader with a root table does to the upper levels: it
links the missing tables on its way, and gives its flags to the entries that
it passes. -/
structure Linked (state state' : Loader) (virt flags : Word) : Prop where
  pml4 : state'.pml4 = state.pml4
  used :
    state'.usedMemory.toNat =
      state.usedMemory.toNat + 4096 * missing state (upperPath virt)
  walked :
    ∀ path : List Index, path.length ≤ 3 →
      ((walk (child state'.mem) state.pml4.toNat path).isSome ↔
        (walk (child state.mem) state.pml4.toNat path).isSome ∨
          path <+: upperPath virt)
  flagged :
    ∀ path table index, path ++ [index] <+: upperPath virt →
      walk (child state'.mem) state.pml4.toNat path = some table →
      ∃ before, readEntry state'.mem table index =
        before ||| ((flags ||| pagePBit) &&& pml4FlagsMask)
  kept :
    ∀ path table index, path.length < 3 →
      ¬ path ++ [index] <+: upperPath virt →
      walk (child state'.mem) state.pml4.toNat path = some table →
      readEntry state'.mem table index = 0#64 ∨
        walk (child state.mem) state.pml4.toNat path = some table ∧
          readEntry state'.mem table index = readEntry state.mem table index

section Missing

variable {state state' linked done : Loader} {virt phys flags : Word}
  {path : List Index} {table : Pointer} {entry : Pointer}
  {pending : List Pointer} {index : Index} {low : Nat}

@[simp]
theorem missing_nil : missing state [] = 0 := rfl

theorem missing_snoc :
    missing state (path ++ [index]) = missing state path +
      if (walk (child state.mem) state.pml4.toNat (path ++ [index])).isSome
      then 0 else 1 := by
  have inits : (path ++ [index]).inits = path.inits ++ [path ++ [index]] := by
    rw [List.inits_append]
    rfl
  rw [missing, inits, List.countP_append, List.countP_singleton, missing]
  cases walk (child state.mem) state.pml4.toNat (path ++ [index]) <;> rfl

theorem missing_le_snoc :
    missing state path ≤ missing state (path ++ [index]) := by
  rw [missing_snoc]
  exact Nat.le_add_right _ _

/-- A level links one table if it has to, and none otherwise. -/
theorem Progress.counted
    (progress : Progress state linked done path table pending flags)
    (short : path.length < 3)
    (pointer : entry = entryPointer table virt low (low + 9))
    (counted :
      linked.usedMemory.toNat =
        state.usedMemory.toNat + 4096 * missing state path)
    (fits :
      state.usedMemory.toNat +
        4096 * missing state (path ++ [indexAt virt low]) < 2 ^ 32) :
    (ensureTable linked entry).usedMemory.toNat =
      state.usedMemory.toNat +
        4096 * missing state (path ++ [indexAt virt low]) := by
  have present := progress.has_loadEntry_iff short pointer
  rw [missing_snoc] at fits ⊢
  by_cases found : Has (loadEntry linked entry) pagePBit
  · rw [ensureTable_of_has found, if_pos (present.mp found), counted]
    rfl
  · rw [if_neg (mt present.mpr found)] at fits ⊢
    rw [ensureTable_of_not_has found, BitVec.toNat_add, counted]
    simp only [BitVec.toNat_ofNat]
    omega

theorem mapPage_accepts (page : IsPage virt) (frame : IsFrame phys) :
    ∃ state', mapPage state virt phys flags = .ok state' := by
  have physical : phys &&& ~~~pageAddrBits = 0#64 := frame
  simp only [mapPage, page.1, page.2, physical, not_true_eq_false, if_false]
  exact ⟨_, rfl⟩

/-- A call for which the missing tables fit below 4 GiB allocates just
these. -/
theorem mapPage_counted (good : Good state) (nonNull : state.pml4 ≠ 0#32)
    (mapped : mapPage state virt phys flags = .ok state')
    (fits :
      state.usedMemory.toNat + 4096 * missing state (upperPath virt) <
        2 ^ 32) :
    state'.usedMemory.toNat =
      state.usedMemory.toNat + 4096 * missing state (upperPath virt) := by
  obtain ⟨page, frame, _⟩ := mapPage_usedMemory mapped
  have carries : Has ((flags ||| pagePBit) &&& pml4FlagsMask) pagePBit :=
    (has_and_of_subset (by decide)).mpr (has_or.mpr (Or.inr (by decide)))
  have noAddress : frameOf ((flags ||| pagePBit) &&& pml4FlagsMask) = 0#64 :=
    frameOf_and_of_disjoint (by decide)
  obtain ⟨first, second, third, linkedFirst, linkedSecond, linkedThird,
    firstEq, linkedFirstEq, secondEq, linkedSecondEq, thirdEq, linkedThirdEq,
    stored⟩ := mapPage_chain nonNull page frame mapped
  have paths : upperPath virt =
      [] ++ [indexAt virt 39] ++ [indexAt virt 30] ++ [indexAt virt 21] := rfl
  have used : state'.usedMemory = linkedThird.usedMemory := by
    rw [stored]
    exact orEntries_usedMemory
  rw [used]
  rw [paths] at fits ⊢
  have more := @missing_le_snoc state ([] ++ [indexAt virt 39])
    (indexAt virt 30)
  have most := @missing_le_snoc state
    ([] ++ [indexAt virt 39] ++ [indexAt virt 30]) (indexAt virt 21)
  have start : Progress state state state [] state.pml4 []
      ((flags ||| pagePBit) &&& pml4FlagsMask) :=
    ⟨Descended.start good _, rfl, by simp⟩
  have countFirst := start.counted (by decide) firstEq (by simp) (by omega)
  have one := start.step (by decide) noAddress carries firstEq (by
    rw [countFirst]
    omega)
  rw [← linkedFirstEq] at one countFirst
  have countSecond := one.counted (by simp) secondEq countFirst (by omega)
  have two := one.step (by simp) noAddress carries secondEq (by
    rw [countSecond, countFirst]
    omega)
  rw [← linkedSecondEq] at two countSecond
  have countThird := two.counted (by simp) thirdEq countSecond fits
  rw [← linkedThirdEq] at countThird
  exact countThird

theorem linked_of_mapPage (good : Good state) (nonNull : state.pml4 ≠ 0#32)
    (mapped : mapPage state virt phys flags = .ok state')
    (fits :
      state.usedMemory.toNat + 4096 * missing state (upperPath virt) <
        2 ^ 32) :
    Linked state state' virt flags := by
  obtain ⟨page, frame, _⟩ := mapPage_usedMemory mapped
  have used := mapPage_counted good nonNull mapped fits
  obtain ⟨_, done, table, _, progress, _, stored⟩ :=
    mapPage_progress good nonNull page frame mapped (by omega)
  have descended := progress.descended
  obtain ⟨updated, _, walks⟩ := descended.store stored
  have sameEntry : ∀ (path : List Index) (found : Nat) (index : Index),
      path.length < 3 →
      walk (child state'.mem) state.pml4.toNat path = some found →
      walk (child done.mem) state.pml4.toNat path = some found ∧
        readEntry state'.mem found index = readEntry done.mem found index := by
    intro path found index short reached
    rw [walks path (Nat.le_of_lt short)] at reached
    refine ⟨reached, updated.entry_eq path found index (Nat.le_of_lt short)
      reached ?_⟩
    rintro ⟨rfl, _⟩
    exact Nat.lt_irrefl 3 short
  refine ⟨?_, used, ?_, ?_, ?_⟩
  · rw [stored]
    exact descended.pml4
  · intro path short
    rw [walks path short]
    constructor
    · intro found
      obtain ⟨other, reached⟩ := Option.isSome_iff_exists.mp found
      rcases descended.old_or_prefix path short reached with old | onPath
      · rw [old]
        exact Or.inl rfl
      · exact Or.inr onPath
    · rintro (old | ⟨rest, onPath⟩)
      · obtain ⟨other, reached⟩ := Option.isSome_iff_exists.mp old
        rw [descended.walk_mono path other short reached]
        rfl
      · have whole := descended.reached
        rw [← onPath] at whole
        obtain ⟨middle, reached⟩ := exists_walk_of_append whole
        rw [reached]
        rfl
  · intro path found index onPath reached
    have lengths := onPath.length_le
    simp only [List.length_append, List.length_singleton,
      length_upperPath] at lengths
    obtain ⟨reachedDone, same⟩ := sameEntry path found index (by omega) reached
    obtain ⟨before, value, _⟩ :=
      descended.flagged path found index onPath reachedDone
    exact ⟨before, by rw [same, value]⟩
  · intro path found index short offPath reached
    obtain ⟨reachedDone, same⟩ := sameEntry path found index short reached
    rw [same]
    rcases descended.fresh path found (Nat.le_of_lt short) reachedDone with
      old | ⟨_, _, empty⟩
    · exact Or.inr ⟨old, descended.entry_eq path found index
        (Nat.le_of_lt short) old offPath⟩
    · exact Or.inl (empty index offPath)

end Missing

end BeaverOS.LoaderPaging
