import Mathlib.Data.Finset.Card
import Mathlib.Data.List.Infix
import BeaverOS.Loader.Growth

/-!
# Room for the loader's tables

The tables that a loader has linked are those on the paths of the pages that it
has mapped, and everything from its first free page on is one of these tables
or a page that it made. So the memory that a sequence of mappings needs can be
counted before, and where it fits below 4 GiB every mapping goes through.
-/

namespace BeaverOS.LoaderPaging

open BeaverOS.ByteMemory
open BeaverOS.RadixTree
open BeaverOS.Paging
open BeaverOS.Window
open BeaverOS.PageTree

/-- The paths to the tables that serve a page, that of the root included. -/
def tablePaths (virt : Word) : Finset (List Index) :=
  (upperPath virt).inits.toFinset

/-- The paths to the tables that serve several pages. -/
def allTablePaths (pages : List Word) : Finset (List Index) :=
  (pages.flatMap fun page => (upperPath page).inits).toFinset

/-- A loader whose first free page was `base` has linked the tables at `paths`
and made `count` pages. -/
structure Built (base : Nat) (paths : Finset (List Index)) (count : Nat)
    (state : Loader) : Prop where
  ready : Ready base state
  used : state.usedMemory.toNat = base + 4096 * (count + paths.card)
  null : state.pml4 = 0#32 → paths = ∅
  walked :
    state.pml4 ≠ 0#32 → ∀ path : List Index, path.length ≤ 3 →
      ((walk (child state.mem) state.pml4.toNat path).isSome ↔ path ∈ paths)

section Paths

variable {paths : Finset (List Index)} {pages : List Word} {virt : Word}
  {path : List Index}

theorem mem_tablePaths : path ∈ tablePaths virt ↔ path <+: upperPath virt := by
  rw [tablePaths, List.mem_toFinset, List.mem_inits]

theorem tablePaths_subset (member : virt ∈ pages) :
    tablePaths virt ⊆ allTablePaths pages := by
  intro path onPath
  rw [mem_tablePaths] at onPath
  rw [allTablePaths, List.mem_toFinset, List.mem_flatMap]
  exact ⟨virt, member, (List.mem_inits _ _).mpr onPath⟩

theorem nodup_inits_upperPath (virt : Word) :
    (upperPath virt).inits.Nodup := by
  simp [upperPath]

/-- The tables that one more page needs are those not linked yet. -/
theorem card_union_tablePaths (paths : Finset (List Index)) (virt : Word) :
    (paths ∪ tablePaths virt).card =
      paths.card + (upperPath virt).inits.countP (· ∉ paths) := by
  have split : tablePaths virt \ paths =
      ((upperPath virt).inits.filter (· ∉ paths)).toFinset := by
    ext path
    simp only [Finset.mem_sdiff, mem_tablePaths, List.mem_toFinset,
      List.mem_filter, List.mem_inits, decide_eq_true_eq]
  rw [← Finset.union_sdiff_self_eq_union,
    Finset.card_union_of_disjoint Finset.disjoint_sdiff, split,
    List.toFinset_card_of_nodup ((nodup_inits_upperPath virt).filter _),
    List.countP_eq_length_filter]

end Paths

section Mapping

variable {state state' : Loader} {base count : Nat} {virt phys flags : Word}
  {paths : Finset (List Index)}

theorem missing_eq_countP
    (walked : ∀ path : List Index, path.length ≤ 3 →
      ((walk (child state.mem) state.pml4.toNat path).isSome ↔ path ∈ paths)) :
    missing state (upperPath virt) =
      (upperPath virt).inits.countP (· ∉ paths) := by
  refine List.countP_congr fun path member => ?_
  have short := (List.mem_inits _ _).mp member |>.length_le
  have linked := walked path (by simpa using short)
  rw [decide_eq_true_eq, ← linked]
  cases walk (child state.mem) state.pml4.toNat path <;> simp

/-- A call with a root table, for which the missing tables fit. -/
theorem walked_of_mapPage (good : Good state) (nonNull : state.pml4 ≠ 0#32)
    (walked : ∀ path : List Index, path.length ≤ 3 →
      ((walk (child state.mem) state.pml4.toNat path).isSome ↔ path ∈ paths))
    (used : state.usedMemory.toNat = base + 4096 * (count + paths.card))
    (fits :
      base + 4096 * (count + (paths ∪ tablePaths virt).card) < 2 ^ 32)
    (mapped : mapPage state virt phys flags = .ok state') :
    state'.usedMemory.toNat =
        base + 4096 * (count + (paths ∪ tablePaths virt).card) ∧
      ∀ path : List Index, path.length ≤ 3 →
        ((walk (child state'.mem) state'.pml4.toNat path).isSome ↔
          path ∈ paths ∪ tablePaths virt) := by
  have missingEq := @missing_eq_countP state virt paths walked
  rw [card_union_tablePaths] at fits ⊢
  have linked := linked_of_mapPage good nonNull mapped (by
    rw [missingEq, used]
    omega)
  refine ⟨by rw [linked.used, missingEq, used]; omega, ?_⟩
  intro path short
  rw [linked.pml4, linked.walked path short, walked path short,
    Finset.mem_union, mem_tablePaths]

/-- The first call makes the root table. -/
theorem Built.ensureRoot (built : Built base paths count state)
    (null : state.pml4 = 0#32)
    (fits : base + 4096 * (count + 1) < 2 ^ 32) :
    Good (ensureRoot state) ∧ (ensureRoot state).pml4 ≠ 0#32 ∧
      (ensureRoot state).usedMemory.toNat =
        base + 4096 * (count + ({[]} : Finset (List Index)).card) ∧
      ∀ path : List Index, path.length ≤ 3 →
        ((walk (child (ensureRoot state).mem)
            (ensureRoot state).pml4.toNat path).isSome ↔
          path ∈ ({[]} : Finset (List Index))) := by
  have used := built.used
  have above := built.ready.above
  rw [built.null null, Finset.card_empty, Nat.add_zero] at used
  have roomy : state.usedMemory.toNat + 4096 < 2 ^ 32 := by
    rw [used, Nat.add_assoc]
    exact fits
  have rootEq := ensureRoot_of_null null
  have empty := readEntry_ensureRoot null
  refine ⟨good_ensureRoot null built.ready.aligned roomy, ?_, ?_, ?_⟩
  · rw [rootEq]
    intro zero
    change state.usedMemory = 0#32 at zero
    rw [zero] at above
    exact absurd above (by decide)
  · rw [rootEq, Finset.card_singleton]
    change (state.usedMemory + 4096#32).toNat = _
    rw [toNat_newPage roomy, used, Nat.mul_add, Nat.add_assoc]
  · intro path _
    have rootPointer : (LoaderPaging.ensureRoot state).pml4 =
        state.usedMemory := by rw [rootEq]
    rw [rootPointer, Finset.mem_singleton]
    constructor
    · intro found
      obtain ⟨table, reached⟩ := Option.isSome_iff_exists.mp found
      exact (walk_empty_root empty path reached).1
    · rintro rfl
      rfl

/-- A mapping whose tables fit below 4 GiB goes through. -/
theorem Built.mapPage (built : Built base paths count state)
    (page : IsPage virt) (frame : IsFrame phys)
    (fits :
      base + 4096 * (count + (paths ∪ tablePaths virt).card) < 2 ^ 32) :
    ∃ state', mapPage state virt phys flags = .ok state' ∧
      state.usedMemory.toNat ≤ state'.usedMemory.toNat ∧
      AgreeOff (linkedCells state) state'.mem state.mem ∧
      Built base (paths ∪ tablePaths virt) count state' := by
  obtain ⟨state', mapped⟩ := @mapPage_accepts state virt phys flags page frame
  have ready := built.ready
  have counted : state'.usedMemory.toNat =
        base + 4096 * (count + (paths ∪ tablePaths virt).card) ∧
      ∀ path : List Index, path.length ≤ 3 →
        ((walk (child state'.mem) state'.pml4.toNat path).isSome ↔
          path ∈ paths ∪ tablePaths virt) := by
    by_cases null : state.pml4 = 0#32
    · have noPaths := built.null null
      have sameUnion : ({[]} : Finset (List Index)) ∪ tablePaths virt =
          paths ∪ tablePaths virt := by
        rw [noPaths, Finset.empty_union, Finset.union_eq_right,
          Finset.singleton_subset_iff, mem_tablePaths]
        exact List.nil_prefix
      have positive : 0 < (paths ∪ tablePaths virt).card := by
        rw [← sameUnion]
        exact Finset.card_pos.mpr ⟨[], by simp⟩
      have nonzero : state.usedMemory ≠ 0#32 := by
        intro zero
        have above := ready.above
        rw [zero] at above
        exact absurd above (by decide)
      obtain ⟨good, nonNull, used, walked⟩ :=
        built.ensureRoot null (by omega)
      rw [← mapPage_ensureRoot nonzero] at mapped
      rw [← sameUnion] at fits ⊢
      exact walked_of_mapPage good nonNull walked used fits mapped
    · exact walked_of_mapPage (ready.good null) null (built.walked null)
        built.used fits mapped
  have used := built.used
  have more : paths.card ≤ (paths ∪ tablePaths virt).card :=
    Finset.card_le_card Finset.subset_union_left
  have unwrapped : state.usedMemory.toNat ≤ state'.usedMemory.toNat := by
    omega
  obtain ⟨ready', result, extended⟩ := ready.mapped mapped unwrapped
  exact ⟨state', mapped, unwrapped, extended.agree, ready', counted.1,
    fun null => absurd null result.nonNull, fun _ => counted.2⟩

/-- Calls that leave tables and allocations alone. -/
theorem Built.quiet {call : Call} (built : Built base paths count state)
    (quiet : Quiet state state' call) {made : Nat}
    (used : state'.usedMemory.toNat =
      state.usedMemory.toNat + 4096 * made) :
    Built base paths (count + made) state' := by
  have usedBefore := built.used
  refine ⟨built.ready.quiet quiet, by omega, ?_, ?_⟩
  · rw [quiet.pml4]
    exact built.null
  · rw [quiet.pml4]
    intro nonNull path short
    rw [walk_congr (quiet.child_eq nonNull) path short]
    exact built.walked nonNull path short

end Mapping

end BeaverOS.LoaderPaging
