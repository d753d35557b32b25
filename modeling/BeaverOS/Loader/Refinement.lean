import Mathlib.Logic.Function.Basic
import BeaverOS.Lib.Transition
import BeaverOS.Loader.Level

/-!
# The loader's page tables refine a finite map

A run of the loader is any sequence of `map_page`, `extend_used_memory` and
page allocations, with arbitrary stores outside the tables in between. After
every run the walk from `pml4` agrees with the map from pages to the arguments
of their last `map_page`.
-/

namespace BeaverOS.LoaderPaging

open BeaverOS.ByteMemory
open BeaverOS.RadixTree
open BeaverOS.Paging
open BeaverOS.Window
open BeaverOS.PageTree
open BeaverOS.TableUpdate
open BeaverOS.Transition

/-! ## The abstract map -/

/-- What the loader does to its page tables. -/
inductive Call where
  | map (virt phys flags : Word)
  | extend (newAddr : Pointer)
  | newPage
  | newZeroPage
  /-- Stores of the rest of the loader, which leave this memory. -/
  | other (memory : Memory)

/-- The frame and the flags of every mapped page. -/
abbrev PageMap := Word → Option (Word × Word)

/-- A call of `map_page` overwrites the entry of its page. -/
def applyCall (pages : PageMap) : Call → PageMap
  | .map virt phys flags =>
      Function.update pages virt
        (some (phys, (flags ||| pagePBit) &&& ptFlagsMask))
  | _ => pages

/-- The map that a sequence of calls leaves: of the calls for one page the last
counts. -/
def pageMap (calls : List Call) : PageMap :=
  calls.foldl applyCall fun _ => none

/-! ## Runs of the loader -/

/-- `table` is `pml4` or a table below it. -/
def LinkedTable (state : Loader) (table : Nat) : Prop :=
  state.pml4 ≠ 0#32 ∧ IsTable state.mem state.pml4.toNat table

/-- The walk from `pml4`. -/
def translationOf (state : Loader) (virt : Word) : Option (Word × Word) :=
  if state.pml4 = 0#32 then none
  else translation state.mem state.pml4.toNat virt

/-- One call. The allocation pointer stays below 4 GiB, and nothing but
`map_page` writes page tables. -/
inductive Step : Loader → Call → Loader → Prop
  | map {state state' : Loader} {virt phys flags : Word} :
      mapPage state virt phys flags = .ok state' →
      state.usedMemory.toNat ≤ state'.usedMemory.toNat →
      Step state (.map virt phys flags) state'
  | extend {state : Loader} {newAddr : Pointer} :
      (newAddr.toNat + 4095) / 4096 * 4096 < 2 ^ 32 →
      Step state (.extend newAddr) (extendUsedMemory state newAddr)
  | newPage {state : Loader} :
      state.usedMemory.toNat + 4096 < 2 ^ 32 →
      Step state .newPage (newPhysPage state).2
  | newZeroPage {state : Loader} :
      state.usedMemory.toNat + 4096 < 2 ^ 32 →
      Step state .newZeroPage (newPhysZeroPage state).2
  | other {state : Loader} {memory : Memory} :
      (∀ table, LinkedTable state table →
        AgreeOn memory state.mem table 4096) →
      Step state (.other memory) { state with mem := memory }

/-- The state that the loader starts in: no tables yet, and the allocation
pointer at `loader_end`, which the linker script aligns above 1 MiB. -/
structure Fresh (state : Loader) : Prop where
  pml4 : state.pml4 = 0#32
  aligned : state.usedMemory.toNat % 4096 = 0
  above : 0x100000 ≤ state.usedMemory.toNat

theorem toNat_newPage {state : Loader}
    (fits : state.usedMemory.toNat + 4096 < 2 ^ 32) :
    (state.usedMemory + 4096#32).toNat = state.usedMemory.toNat + 4096 := by
  rw [BitVec.toNat_add]
  simp only [BitVec.toNat_ofNat]
  omega

/-! ## The first table -/

section Root

variable {state state' : Loader} {virt phys flags : Word} {table : Nat}

theorem ensureRoot_of_null (null : state.pml4 = 0#32) :
    ensureRoot state =
      { mem := fill state.mem state.usedMemory.toNat 4096 0
        usedMemory := state.usedMemory + 4096#32
        pml4 := state.usedMemory } := by
  rw [ensureRoot, if_pos null]
  rfl

/-- An empty root table has no table below it. -/
theorem walk_empty_root {memory : Memory} {root : Nat}
    (empty : ∀ index, readEntry memory root index = 0#64) :
    ∀ path : List Index, walk (child memory) root path = some table →
      path = [] ∧ table = root
  | [], reached => ⟨rfl, (Option.some.inj reached).symm⟩
  | index :: path, reached => by
      have missing : child memory root index = none := by
        rw [child, empty, if_neg (by decide)]
      rw [walk, missing] at reached
      cases reached

/-- The memory behind a new root. -/
theorem readEntry_ensureRoot (null : state.pml4 = 0#32) (index : Index) :
    readEntry (ensureRoot state).mem state.usedMemory.toNat index = 0#64 := by
  have inside := entryAddress_mem_frame state.usedMemory.toNat index
  rw [ensureRoot_of_null null]
  exact readWord_fill_zero inside.1 inside.2

theorem good_ensureRoot (null : state.pml4 = 0#32)
    (aligned : state.usedMemory.toNat % 4096 = 0)
    (fits : state.usedMemory.toNat + 4096 < 2 ^ 32) :
    Good (ensureRoot state) := by
  have walks : ∀ (path : List Index) (table : Nat),
      walk (child (ensureRoot state).mem) state.usedMemory.toNat path =
        some table → path = [] ∧ table = state.usedMemory.toNat :=
    fun path _ => walk_empty_root (readEntry_ensureRoot null) path
  have usedEq : (ensureRoot state).usedMemory.toNat =
      state.usedMemory.toNat + 4096 := by
    rw [ensureRoot_of_null null]
    exact toNat_newPage fits
  have rootEq : (ensureRoot state).pml4 = state.usedMemory := by
    rw [ensureRoot_of_null null]
  refine ⟨by omega, ⟨by rw [rootEq]; omega, by rw [rootEq]; omega, ?_⟩, ?_⟩
  · rw [rootEq]
    intro left right table _ _ leftWalk rightWalk
    rw [(walks left table leftWalk).1, (walks right table rightWalk).1]
  · rw [rootEq, usedEq]
    rintro table ⟨path, _, reached⟩
    rw [(walks path table reached).2]

theorem translation_ensureRoot (null : state.pml4 = 0#32) (virt : Word) :
    translation (ensureRoot state).mem (ensureRoot state).pml4.toNat virt =
      none := by
  have rootEq : (ensureRoot state).pml4 = state.usedMemory := by
    rw [ensureRoot_of_null null]
  have absent :
      leafTable (ensureRoot state).mem state.usedMemory.toNat virt = none := by
    cases found :
        leafTable (ensureRoot state).mem state.usedMemory.toNat virt with
    | none => rfl
    | some table =>
        have path :=
          (walk_empty_root (readEntry_ensureRoot null) _ found).1
        cases path
  rw [rootEq, translation, leafEntry_eq_none absent]
  rfl

theorem mapPage_usedMemory (mapped : mapPage state virt phys flags = .ok state') :
    IsPage virt ∧ IsFrame phys ∧
      ∃ count, count ≤ 3 ∧ state'.usedMemory.toNat =
        ((ensureRoot state).usedMemory.toNat + 4096 * count) % 2 ^ 32 := by
  unfold mapPage at mapped
  split at mapped
  · cases mapped
  · next canonical =>
    split at mapped
    · cases mapped
    · next aligned =>
      split at mapped
      · cases mapped
      · next frame =>
        refine ⟨⟨not_not.mp canonical, not_not.mp aligned⟩,
          not_not.mp frame, ?_⟩
        cases mapped
        simp only [storeEntry, orEntry_usedMemory]
        have first := toNat_ensureTable_usedMemory (ensureRoot state)
          (entryPointer (ensureRoot state).pml4 virt 39 48)
        have bound := (ensureRoot state).usedMemory.isLt
        generalize ensureTable (ensureRoot state)
          (entryPointer (ensureRoot state).pml4 virt 39 48) = one at first ⊢
        have second := toNat_ensureTable_usedMemory one (entryPointer
          (tableAt one (entryPointer (ensureRoot state).pml4 virt 39 48))
          virt 30 39)
        generalize entryPointer
          (tableAt one (entryPointer (ensureRoot state).pml4 virt 39 48))
          virt 30 39 = pdpe at second ⊢
        generalize ensureTable one pdpe = two at second ⊢
        have third := toNat_ensureTable_usedMemory two
          (entryPointer (tableAt two pdpe) virt 21 30)
        generalize ensureTable two
          (entryPointer (tableAt two pdpe) virt 21 30) = three at third ⊢
        rcases first with first | first <;> rcases second with second | second
          <;> rcases third with third | third
        · exact ⟨0, by omega, by omega⟩
        · exact ⟨1, by omega, by omega⟩
        · exact ⟨1, by omega, by omega⟩
        · exact ⟨2, by omega, by omega⟩
        · exact ⟨1, by omega, by omega⟩
        · exact ⟨2, by omega, by omega⟩
        · exact ⟨2, by omega, by omega⟩
        · exact ⟨3, by omega, by omega⟩

end Root

/-! ## One call of `map_page` -/

/-- What one call leaves, for a loader with or without a root table. -/
structure Mapped (state state' : Loader) (virt phys flags : Word) :
    Prop where
  nonNull : state'.pml4 ≠ 0#32
  good : Good state'
  here :
    translationOf state' virt =
      some (phys, (flags ||| pagePBit) &&& ptFlagsMask)
  elsewhere :
    ∀ other, IsPage other → other ≠ virt →
      translationOf state' other = translationOf state other
  fresh :
    ∀ path table, path.length ≤ 3 →
      walk (child state'.mem) state'.pml4.toNat path = some table →
      state.pml4 ≠ 0#32 ∧
          walk (child state.mem) state.pml4.toNat path = some table ∨
        state.usedMemory.toNat ≤ table ∧
          ∀ index,
            ¬ path ++ [index] <+: upperPath virt ++ [leafIndex virt] →
            readEntry state'.mem table index = 0#64
  old :
    ∀ path table index, path.length ≤ 3 → state.pml4 ≠ 0#32 →
      walk (child state.mem) state.pml4.toNat path = some table →
      ¬ path ++ [index] <+: upperPath virt ++ [leafIndex virt] →
      readEntry state'.mem table index = readEntry state.mem table index

section Call

variable {state done state' : Loader} {virt phys flags value : Word}
  {table : Nat}

/-- The store of the leaf entry after the levels are done. -/
theorem Descended.store
    (descended : Descended state done (upperPath virt) table flags)
    (stored : state' = { done with
      mem := writeWord done.mem (entryAddress table (leafIndex virt))
        value }) :
    LeafUpdated done.mem state'.mem state.pml4.toNat virt value ∧
      Good state' ∧
      ∀ path : List Index, path.length ≤ 3 →
        walk (child state'.mem) state.pml4.toNat path =
          walk (child done.mem) state.pml4.toNat path := by
  have tree := descended.good.tree
  rw [descended.pml4] at tree
  have updated := storeLeaf tree descended.reached value
  have memEq : state'.mem =
      writeWord done.mem (entryAddress table (leafIndex virt)) value := by
    rw [stored]
  rw [← memEq] at updated
  have walks : ∀ path : List Index, path.length ≤ 3 →
      walk (child state'.mem) state.pml4.toNat path =
        walk (child done.mem) state.pml4.toNat path :=
    walk_congr updated.child_eq
  have pml4Eq : state'.pml4 = state.pml4 := by
    rw [stored]
    exact descended.pml4
  have usedEq : state'.usedMemory = done.usedMemory := by rw [stored]
  refine ⟨updated, ⟨?_, ?_, ?_⟩, walks⟩
  · rw [usedEq]
    exact descended.good.aligned
  · rw [pml4Eq]
    exact tree.congr updated.child_eq
  · rw [pml4Eq, usedEq]
    intro other isTable
    refine descended.good.below other ?_
    rw [descended.pml4]
    exact (isTable_congr walks).mp isTable

/-- The call on a loader that has a root table. -/
theorem mapped_of_good (good : Good state)
    (nonNull : state.pml4 ≠ 0#32)
    (mapped : mapPage state virt phys flags = .ok state')
    (unwrapped : state.usedMemory.toNat ≤ state'.usedMemory.toNat) :
    Mapped state state' virt phys flags := by
  obtain ⟨page, frame, _⟩ := mapPage_usedMemory mapped
  obtain ⟨_, done, table, _, progress, _, stored⟩ :=
    mapPage_progress good nonNull page frame mapped unwrapped
  have descended := progress.descended
  obtain ⟨updated, good', walks⟩ := descended.store stored
  have pml4Eq : state'.pml4 = state.pml4 := by
    rw [stored]
    exact descended.pml4
  have nonNull' : state'.pml4 ≠ 0#32 := by
    rw [pml4Eq]
    exact nonNull
  have notLeaf : ∀ path index,
      ¬ path ++ [index] <+: upperPath virt ++ [leafIndex virt] →
      ¬ (path = upperPath virt ∧ index = leafIndex virt) := by
    rintro path index notPrefix ⟨rfl, rfl⟩
    exact notPrefix (List.prefix_refl _)
  have notUpper : ∀ (path : List Index) (index : Index),
      ¬ path ++ [index] <+: upperPath virt ++ [leafIndex virt] →
      ¬ path ++ [index] <+: upperPath virt :=
    fun _ _ notPrefix prefixed =>
      notPrefix (prefixed.trans (List.prefix_append _ _))
  refine ⟨nonNull', good', ?_, ?_, ?_, ?_⟩
  · rw [translationOf, if_neg nonNull', pml4Eq,
      translation_of_leafEntry updated.here,
      frameOf_flags_or (by decide) frame, if_pos]
    · rw [BitVec.and_or_distrib_right, BitVec.and_assoc, BitVec.and_self,
        flags_of_frame frame (by decide), BitVec.or_zero]
    · exact has_or.mpr (Or.inl ((has_and_of_subset (by decide)).mpr
        (has_or.mpr (Or.inr (by decide)))))
  · intro other otherPage different
    rw [translationOf, if_neg nonNull', translationOf, if_neg nonNull, pml4Eq,
      ← descended.translation_eq other]
    exact translation_congr (updated.elsewhere page otherPage different)
  · intro path found short reached
    rw [pml4Eq, walks path short] at reached
    rcases descended.fresh path found short reached with
      old | ⟨_, above, empty⟩
    · exact Or.inl ⟨nonNull, old⟩
    · refine Or.inr ⟨above, fun index notPrefix => ?_⟩
      rw [updated.entry_eq path found index short reached
        (notLeaf path index notPrefix)]
      exact empty index (notUpper path index notPrefix)
  · intro path found index short _ reached notPrefix
    rw [updated.entry_eq path found index short
      (descended.walk_mono path found short reached)
      (notLeaf path index notPrefix)]
    exact descended.entry_eq path found index short reached
      (notUpper path index notPrefix)

/-- The first call makes the root table, then it goes on as any other. -/
theorem mapPage_ensureRoot (nonzero : state.usedMemory ≠ 0#32) :
    mapPage (ensureRoot state) virt phys flags =
      mapPage state virt phys flags := by
  have again : ensureRoot (ensureRoot state) = ensureRoot state := by
    by_cases null : state.pml4 = 0#32
    · have made : (ensureRoot state).pml4 ≠ 0#32 := by
        rw [ensureRoot_of_null null]
        exact nonzero
      rw [ensureRoot, if_neg made]
    · have kept : ensureRoot state = state := by
        rw [ensureRoot, if_neg null]
      rw [kept, kept]
  unfold mapPage
  rw [again]

/-- There is room for the root table of a call that does not wrap. -/
theorem ensureRoot_fits (null : state.pml4 = 0#32)
    (aligned : state.usedMemory.toNat % 4096 = 0)
    (above : 0x100000 ≤ state.usedMemory.toNat)
    (mapped : mapPage state virt phys flags = .ok state')
    (unwrapped : state.usedMemory.toNat ≤ state'.usedMemory.toNat) :
    state.usedMemory ≠ 0#32 ∧ state.usedMemory.toNat + 4096 < 2 ^ 32 ∧
      (ensureRoot state).usedMemory.toNat ≤ state'.usedMemory.toNat := by
  obtain ⟨_, _, count, few, usedEq⟩ := mapPage_usedMemory mapped
  have bound := state.usedMemory.isLt
  have rootUsed : (ensureRoot state).usedMemory.toNat =
      (state.usedMemory.toNat + 4096) % 2 ^ 32 := by
    rw [ensureRoot_of_null null, BitVec.toNat_add]
    rfl
  refine ⟨?_, by omega, by omega⟩
  intro zero
  rw [zero] at above
  exact absurd above (by decide)

theorem mapped_of_mapPage
    (good : state.pml4 ≠ 0#32 → Good state)
    (aligned : state.usedMemory.toNat % 4096 = 0)
    (above : 0x100000 ≤ state.usedMemory.toNat)
    (mapped : mapPage state virt phys flags = .ok state')
    (unwrapped : state.usedMemory.toNat ≤ state'.usedMemory.toNat) :
    Mapped state state' virt phys flags := by
  by_cases null : state.pml4 = 0#32
  · obtain ⟨nonzero, fits, grown⟩ :=
      ensureRoot_fits null aligned above mapped unwrapped
    have rooted := good_ensureRoot null aligned fits
    have rootUsed : (ensureRoot state).usedMemory.toNat =
        state.usedMemory.toNat + 4096 := by
      rw [ensureRoot_of_null null]
      exact toNat_newPage fits
    have rootNonNull : (ensureRoot state).pml4 ≠ 0#32 := by
      rw [ensureRoot_of_null null]
      exact nonzero
    rw [← mapPage_ensureRoot nonzero] at mapped
    have result :=
      mapped_of_good rooted rootNonNull mapped grown
    obtain ⟨nonNull, good', here, elsewhere, fresh, old⟩ := result
    refine ⟨nonNull, good', here, ?_, ?_,
      fun _ _ _ _ nonNull => absurd null nonNull⟩
    · intro other otherPage different
      rw [elsewhere other otherPage different, translationOf,
        if_neg rootNonNull, translation_ensureRoot null, translationOf,
        if_pos null]
    · intro path found short reached
      right
      rcases fresh path found short reached with
        ⟨_, before⟩ | ⟨above', empty⟩
      · have rootEq : (ensureRoot state).pml4 = state.usedMemory := by
          rw [ensureRoot_of_null null]
        have start := before
        rw [rootEq] at start
        obtain ⟨rfl, rfl⟩ :=
          walk_empty_root (readEntry_ensureRoot null) path start
        refine ⟨Nat.le_refl _, fun index notPrefix => ?_⟩
        rw [old [] _ index short rootNonNull before notPrefix]
        exact readEntry_ensureRoot null index
      · exact ⟨by omega, empty⟩
  · exact mapped_of_good (good null) null mapped unwrapped

end Call

/-! ## Every run -/

/-- The call of the run that linked `table`: the table was not linked before,
it lies above all memory that was in use by then, and it holds nothing but the
entry of the page that the call mapped. -/
def Origin (start : Loader) (calls : List Call) (state : Loader)
    (table : Nat) : Prop :=
  ∃ before virt phys flags after linkedFrom linkedTo,
    calls = before ++ [.map virt phys flags] ++ after ∧
      Run Step start before linkedFrom ∧
      Step linkedFrom (.map virt phys flags) linkedTo ∧
      Run Step linkedTo after state ∧
      ¬ LinkedTable linkedFrom table ∧
      (∀ newAddr, .extend newAddr ∈ before → newAddr.toNat ≤ table) ∧
      ∃ path : List Index, path.length ≤ 3 ∧
        walk (child linkedTo.mem) linkedTo.pml4.toNat path = some table ∧
        ∀ index, ¬ path ++ [index] <+: upperPath virt ++ [leafIndex virt] →
          readEntry linkedTo.mem table index = 0#64

/-- The loader's tables stand for the map that its calls describe. -/
structure Refines (start : Loader) (calls : List Call) (state : Loader) :
    Prop where
  pages :
    ∀ virt, IsPage virt → translationOf state virt = pageMap calls virt
  tree : state.pml4 ≠ 0#32 → TableTree state.mem state.pml4.toNat
  origin : ∀ table, LinkedTable state table → Origin start calls state table

/-- What holds between any two calls. -/
structure Invariant (calls : List Call) (state : Loader) : Prop where
  aligned : state.usedMemory.toNat % 4096 = 0
  above : 0x100000 ≤ state.usedMemory.toNat
  good : state.pml4 ≠ 0#32 → Good state
  pages :
    ∀ virt, IsPage virt → translationOf state virt = pageMap calls virt
  extended :
    ∀ newAddr, .extend newAddr ∈ calls →
      newAddr.toNat ≤ state.usedMemory.toNat

section Runs

variable {start state state' : Loader} {calls : List Call} {call : Call}
  {memory : Memory}

theorem pageMap_snoc (calls : List Call) (call : Call) :
    pageMap (calls ++ [call]) = applyCall (pageMap calls) call := by
  rw [pageMap, List.foldl_append]
  rfl

theorem extendUsedMemory_bounds {newAddr : Pointer}
    (fits : (newAddr.toNat + 4095) / 4096 * 4096 < 2 ^ 32)
    (aligned : state.usedMemory.toNat % 4096 = 0) :
    (extendUsedMemory state newAddr).usedMemory.toNat % 4096 = 0 ∧
      state.usedMemory.toNat ≤
        (extendUsedMemory state newAddr).usedMemory.toNat ∧
      newAddr.toNat ≤
        (extendUsedMemory state newAddr).usedMemory.toNat := by
  have value := toNat_alignToNextPage newAddr
  rw [Nat.mod_eq_of_lt fits] at value
  by_cases more : state.usedMemory < alignToNextPage newAddr
  · rw [extendUsedMemory, if_pos more]
    rw [BitVec.lt_def] at more
    refine ⟨?_, Nat.le_of_lt more, ?_⟩
    · rw [value]
      exact Nat.mul_mod_left _ _
    · rw [value]
      omega
  · rw [extendUsedMemory, if_neg more]
    rw [BitVec.lt_def] at more
    exact ⟨aligned, Nat.le_refl _, by omega⟩

/-- A call that leaves the tables alone: it moves the allocation pointer up
and stores outside the tables. -/
structure Quiet (state state' : Loader) (call : Call) : Prop where
  agree :
    ∀ table, LinkedTable state table →
      AgreeOn state'.mem state.mem table 4096
  pml4 : state'.pml4 = state.pml4
  aligned : state'.usedMemory.toNat % 4096 = 0
  grown : state.usedMemory.toNat ≤ state'.usedMemory.toNat
  unmapped : ∀ pages, applyCall pages call = pages
  extended :
    ∀ newAddr, call = .extend newAddr →
      newAddr.toNat ≤ state'.usedMemory.toNat

section Quiet

variable (quiet : Quiet state state' call)
include quiet

theorem Quiet.readEntry_eq {path : List Index} {table : Nat}
    (nonNull : state.pml4 ≠ 0#32) (short : path.length ≤ 3)
    (reached : walk (child state.mem) state.pml4.toNat path = some table)
    (index : Index) :
    readEntry state'.mem table index = readEntry state.mem table index := by
  have inside := entryAddress_mem_frame table index
  exact readWord_congr
    ((quiet.agree table ⟨nonNull, path, short, reached⟩).mono (by omega)
      (by omega))

theorem Quiet.child_eq (nonNull : state.pml4 ≠ 0#32) :
    ∀ path table index, path.length < 3 →
      walk (child state.mem) state.pml4.toNat path = some table →
      child state'.mem table index = child state.mem table index :=
  fun _ _ index short reached =>
    child_eq_of_readEntry
      (quiet.readEntry_eq nonNull (Nat.le_of_lt short) reached index)

theorem Quiet.good (nonNull : state.pml4 ≠ 0#32) (good : Good state) :
    Good state' := by
  obtain ⟨_, tree, below⟩ := good
  refine ⟨quiet.aligned, ?_, ?_⟩
  · rw [quiet.pml4]
    exact tree.congr (quiet.child_eq nonNull)
  · rw [quiet.pml4]
    intro table isTable
    have old := (isTable_congr (walk_congr (quiet.child_eq nonNull))).mp
      isTable
    exact Nat.le_trans (below table old) quiet.grown

theorem Quiet.translationOf_eq (virt : Word) :
    translationOf state' virt = translationOf state virt := by
  rw [translationOf, translationOf, quiet.pml4]
  by_cases null : state.pml4 = 0#32
  · rw [if_pos null, if_pos null]
  · rw [if_neg null, if_neg null]
    apply translation_congr
    rw [leafEntry, leafEntry, leafTable_congr (quiet.child_eq null)]
    cases found : leafTable state.mem state.pml4.toNat virt with
    | none => rfl
    | some table =>
        exact congrArg some (quiet.readEntry_eq null
          (Nat.le_of_eq (length_upperPath virt)) found _)

/-- Quiet calls link no table. -/
theorem Quiet.linkedTable {table : Nat}
    (linked : LinkedTable state' table) : LinkedTable state table := by
  obtain ⟨nonNull, isTable⟩ := linked
  rw [quiet.pml4] at nonNull isTable
  exact ⟨nonNull,
    (isTable_congr (walk_congr (quiet.child_eq nonNull))).mp isTable⟩

end Quiet

/-- Quiet calls keep the invariant. -/
theorem Invariant.quiet (holds : Invariant calls state)
    (quiet : Quiet state state' call) :
    Invariant (calls ++ [call]) state' := by
  refine ⟨quiet.aligned, holds.above.trans quiet.grown, ?_, ?_, ?_⟩
  · intro nonNull
    rw [quiet.pml4] at nonNull
    exact quiet.good nonNull (holds.good nonNull)
  · intro virt page
    rw [pageMap_snoc, quiet.unmapped, ← holds.pages virt page]
    exact quiet.translationOf_eq virt
  · intro newAddr member
    rcases List.mem_append.mp member with earlier | last
    · exact Nat.le_trans (holds.extended newAddr earlier) quiet.grown
    · exact quiet.extended newAddr (List.mem_singleton.mp last).symm

/-- A call of `map_page` keeps the invariant. -/
theorem Invariant.mapped {virt phys flags : Word}
    (holds : Invariant calls state)
    (result : Mapped state state' virt phys flags)
    (grown : state.usedMemory.toNat ≤ state'.usedMemory.toNat) :
    Invariant (calls ++ [.map virt phys flags]) state' := by
  refine ⟨result.good.aligned, by have := holds.above; omega,
    fun _ => result.good, ?_, ?_⟩
  · intro other otherPage
    rw [pageMap_snoc, applyCall]
    by_cases same : other = virt
    · rw [same, result.here, Function.update_self]
    · rw [Function.update_of_ne same, result.elsewhere other otherPage same]
      exact holds.pages other otherPage
  · intro newAddr member
    rcases List.mem_append.mp member with earlier | last
    · exact Nat.le_trans (holds.extended newAddr earlier) grown
    · cases List.mem_singleton.mp last

theorem agreeOn_of_eq {other : Memory} (same : memory = other)
    {address count : Nat} : AgreeOn memory other address count :=
  fun cell _ _ => congrFun same cell

/-- All calls but `map_page` are quiet. -/
theorem quiet_of_step (aligned : state.usedMemory.toNat % 4096 = 0)
    (good : state.pml4 ≠ 0#32 → Good state)
    (called : Step state call state')
    (notMap : ∀ virt phys flags, call ≠ .map virt phys flags) :
    Quiet state state' call := by
  cases called with
  | map => exact absurd rfl (notMap _ _ _)
  | @extend newAddr fits =>
      obtain ⟨aligned', grown, covered⟩ :=
        extendUsedMemory_bounds fits aligned
      have same : (extendUsedMemory state newAddr).mem = state.mem ∧
          (extendUsedMemory state newAddr).pml4 = state.pml4 := by
        rw [extendUsedMemory]
        split
        · exact ⟨rfl, rfl⟩
        · exact ⟨rfl, rfl⟩
      refine ⟨fun _ _ => agreeOn_of_eq same.1, same.2, aligned', grown,
        fun _ => rfl, ?_⟩
      intro other equal
      cases equal
      exact covered
  | newPage fits =>
      have usedEq : (newPhysPage state).2.usedMemory.toNat =
          state.usedMemory.toNat + 4096 := toNat_newPage fits
      have kept : (newPhysPage state).2.mem = state.mem ∧
          (newPhysPage state).2.pml4 = state.pml4 := by
        simp only [newPhysPage, and_self]
      exact ⟨fun _ _ => agreeOn_of_eq kept.1, kept.2, by omega, by omega,
        fun _ => rfl, fun _ equal => nomatch equal⟩
  | newZeroPage fits =>
      have usedEq : (newPhysZeroPage state).2.usedMemory.toNat =
          state.usedMemory.toNat + 4096 := toNat_newPage fits
      have kept : (newPhysZeroPage state).2.pml4 = state.pml4 ∧
          (newPhysZeroPage state).2.mem =
            fill state.mem state.usedMemory.toNat 4096 0 := by
        simp only [newPhysZeroPage, newPhysPage, and_self]
      refine ⟨?_, kept.1, by omega, by omega, fun _ => rfl,
        fun _ equal => nomatch equal⟩
      rintro table ⟨nonNull, isTable⟩ cell _ upper
      have below := (good nonNull).below table isTable
      rw [kept.2]
      exact fill_outside (Or.inl (by omega))
  | other agree =>
      exact ⟨agree, rfl, aligned, Nat.le_refl _, fun _ => rfl,
        fun _ equal => nomatch equal⟩

/-- Every call keeps the invariant. -/
theorem Invariant.step (holds : Invariant calls state)
    (called : Step state call state') :
    Invariant (calls ++ [call]) state' := by
  by_cases isMap : ∃ virt phys flags, call = .map virt phys flags
  · obtain ⟨virt, phys, flags, rfl⟩ := isMap
    cases called with
    | map mapped unwrapped =>
        exact holds.mapped (mapped_of_mapPage holds.good holds.aligned
          holds.above mapped unwrapped) unwrapped
  · refine holds.quiet (quiet_of_step holds.aligned holds.good called ?_)
    exact fun virt phys flags equal => isMap ⟨virt, phys, flags, equal⟩

theorem Invariant.of_fresh (fresh : Fresh start) : Invariant [] start := by
  refine ⟨fresh.aligned, fresh.above, fun nonNull => absurd fresh.pml4 nonNull,
    ?_, by simp⟩
  intro virt _
  rw [translationOf, if_pos fresh.pml4]
  rfl

theorem invariant_of_run (fresh : Fresh start)
    (run : Run Step start calls state) : Invariant calls state :=
  run.induct (Invariant.of_fresh fresh)
    fun _ _ _ _ _ holds called => holds.step called

theorem Origin.snoc {table : Nat} (origin : Origin start calls state table)
    (called : Step state call state') :
    Origin start (calls ++ [call]) state' table := by
  obtain ⟨before, virt, phys, flags, after, linkedFrom, linkedTo, callsEq,
    runBefore, linking, runAfter, rest⟩ := origin
  refine ⟨before, virt, phys, flags, after ++ [call], linkedFrom, linkedTo,
    ?_, runBefore, linking, runAfter.snoc called, rest⟩
  rw [callsEq, List.append_assoc]

/-- Every table was linked by some call of the run. -/
theorem origin_of_run {table : Nat} (fresh : Fresh start)
    (run : Run Step start calls state) (linked : LinkedTable state table) :
    Origin start calls state table := by
  induction run with
  | nil => exact absurd fresh.pml4 linked.1
  | @snoc calls call state state' run called inductionHypothesis =>
      have holds := invariant_of_run fresh run
      by_cases old : LinkedTable state table
      · exact (inductionHypothesis old).snoc called
      · by_cases isMap : ∃ virt phys flags, call = .map virt phys flags
        · obtain ⟨virt, phys, flags, rfl⟩ := isMap
          refine ⟨calls, virt, phys, flags, [], state, state', by simp, run,
            called, Run.nil, old, ?_⟩
          cases called with
          | map mapped unwrapped =>
              have result := mapped_of_mapPage holds.good holds.aligned
                holds.above mapped unwrapped
              obtain ⟨nonNull, path, short, reached⟩ := linked
              rcases result.fresh path table short reached with
                ⟨rooted, before⟩ | ⟨above, empty⟩
              · exact absurd ⟨rooted, path, short, before⟩ old
              · exact ⟨fun newAddr member =>
                  Nat.le_trans (holds.extended newAddr member) above,
                  path, short, reached, empty⟩
        · have quiet := quiet_of_step holds.aligned holds.good called
            fun virt phys flags equal => isMap ⟨virt, phys, flags, equal⟩
          exact absurd (quiet.linkedTable linked) old

/-- After every run of the loader, the walk from `pml4` is the map that the
calls describe, and every table was linked fresh. -/
theorem loader_refines (fresh : Fresh start)
    (run : Run Step start calls state) : Refines start calls state := by
  have holds := invariant_of_run fresh run
  exact ⟨holds.pages, fun nonNull => (holds.good nonNull).tree,
    fun _ linked => origin_of_run fresh run linked⟩

/-- A loader that ends at 1 MiB, over zeroed memory. -/
def emptyLoader : Loader :=
  { mem := fun _ => 0, usedMemory := 0x100000#32, pml4 := 0#32 }

theorem fresh_emptyLoader : Fresh emptyLoader where
  pml4 := rfl
  aligned := by decide
  above := by decide

/-- One page mapped by the empty loader. -/
theorem loader_refines_emptyLoader :
    ∃ state, Refines emptyLoader [.map 0x1000#64 0x200000#64 3#64] state := by
  obtain ⟨state, mapped⟩ : ∃ state,
      mapPage emptyLoader 0x1000#64 0x200000#64 3#64 = .ok state := by
    simp only [mapPage]
    rw [if_neg (by decide), if_neg (by decide), if_neg (by decide)]
    exact ⟨_, rfl⟩
  obtain ⟨_, _, count, atMost, usedEq⟩ := mapPage_usedMemory mapped
  have unwrapped :
      emptyLoader.usedMemory.toNat ≤ state.usedMemory.toNat := by
    rw [usedEq, ensureRoot_of_null rfl]
    change 0x100000 ≤ (0x101000 + 4096 * count) % 2 ^ 32
    omega
  exact ⟨state, loader_refines fresh_emptyLoader
    (Run.nil.snoc (Step.map mapped unwrapped))⟩

end Runs

end BeaverOS.LoaderPaging
