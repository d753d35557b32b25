import BeaverOS.Memory.TableUpdate
import BeaverOS.Loader.Paging

/-!
# The loader's `map_page`, level by level

`map_page` first links all missing tables without `PAGE_P_BIT` and then ORs the
flags into the three upper entries. The stores of one level do not touch what
the next levels read, so the call is the same as three complete levels and the
store of the leaf entry.
-/

namespace BeaverOS.LoaderPaging

open BeaverOS.ByteMemory
open BeaverOS.RadixTree
open BeaverOS.Paging
open BeaverOS.Window
open BeaverOS.PageTree
open BeaverOS.TableUpdate

/-- The loader has a tree of page tables below the allocation pointer. -/
structure Good (state : Loader) : Prop where
  aligned : state.usedMemory.toNat % 4096 = 0
  tree : TableTree state.mem state.pml4.toNat
  below :
    ∀ table, IsTable state.mem state.pml4.toNat table →
      table + 4096 ≤ state.usedMemory.toNat

/-- One upper level: the missing table, then the flags. -/
def level (state : Loader) (entry : Pointer) (flags : Word) : Loader :=
  orEntry (ensureTable state entry) entry flags

section Used

variable {state : Loader} {entry : Pointer} {flags : Word}

@[simp]
theorem orEntry_usedMemory :
    (orEntry state entry flags).usedMemory = state.usedMemory := rfl

@[simp]
theorem orEntry_pml4 : (orEntry state entry flags).pml4 = state.pml4 := rfl

theorem ensureTable_of_has
    (present : Has (loadEntry state entry) pagePBit) :
    ensureTable state entry = state := by
  rw [ensureTable, if_neg (not_not.mpr present)]

theorem ensureTable_of_not_has
    (missing : ¬ Has (loadEntry state entry) pagePBit) :
    ensureTable state entry =
      { state with
        mem := writeWord (fill state.mem state.usedMemory.toNat 4096 0)
          entry.toNat (state.usedMemory.setWidth 64)
        usedMemory := state.usedMemory + 4096#32 } := by
  rw [ensureTable, if_pos missing]
  rfl

theorem toNat_ensureTable_usedMemory (state : Loader) (entry : Pointer) :
    (ensureTable state entry).usedMemory.toNat = state.usedMemory.toNat ∨
      (ensureTable state entry).usedMemory.toNat =
        (state.usedMemory.toNat + 4096) % 2 ^ 32 := by
  by_cases present : Has (loadEntry state entry) pagePBit
  · rw [ensureTable_of_has present]
    exact Or.inl rfl
  · right
    rw [ensureTable_of_not_has present, BitVec.toNat_add]
    rfl

@[simp]
theorem ensureTable_pml4 : (ensureTable state entry).pml4 = state.pml4 := by
  by_cases present : Has (loadEntry state entry) pagePBit
  · rw [ensureTable_of_has present]
  · rw [ensureTable_of_not_has present]

end Used

/-! ## Stores that do not meet -/

section Commute

variable {state : Loader} {entry other : Pointer} {flags : Word}

theorem loadEntry_orEntry_of_apart
    (apart : other.toNat + 8 ≤ entry.toNat ∨
      entry.toNat + 8 ≤ other.toNat) :
    loadEntry (orEntry state entry flags) other = loadEntry state other :=
  readWord_writeWord_of_disjoint apart

theorem loadEntry_orEntry_same :
    loadEntry (orEntry state entry flags) entry =
      loadEntry state entry ||| flags :=
  readWord_writeWord_same _ _ _

theorem tableAt_orEntry_of_apart
    (apart : other.toNat + 8 ≤ entry.toNat ∨
      entry.toNat + 8 ≤ other.toNat) :
    tableAt (orEntry state entry flags) other = tableAt state other := by
  rw [tableAt, loadEntry_orEntry_of_apart apart, tableAt]

theorem tableAt_orEntry_same (noAddress : frameOf flags = 0#64) :
    tableAt (orEntry state entry flags) entry = tableAt state entry := by
  rw [tableAt, loadEntry_orEntry_same, frameOf_or, noAddress, BitVec.or_zero,
    tableAt]

/-- The flags of one level may go in before the next table is linked. -/
theorem ensureTable_orEntry_comm
    (apart : other.toNat + 8 ≤ entry.toNat ∨
      entry.toNat + 8 ≤ other.toNat)
    (old : entry.toNat + 8 ≤ state.usedMemory.toNat) :
    ensureTable (orEntry state entry flags) other =
      orEntry (ensureTable state other) entry flags := by
  by_cases present : Has (loadEntry state other) pagePBit
  · have still : Has (loadEntry (orEntry state entry flags) other)
        pagePBit := by
      rw [loadEntry_orEntry_of_apart apart]
      exact present
    rw [ensureTable_of_has present, ensureTable_of_has still]
  · have still : ¬ Has (loadEntry (orEntry state entry flags) other)
        pagePBit := by
      rw [loadEntry_orEntry_of_apart apart]
      exact present
    have unread : readWord
        (writeWord (fill state.mem state.usedMemory.toNat 4096 0)
          other.toNat (state.usedMemory.setWidth 64)) entry.toNat =
        readWord state.mem entry.toNat := by
      rw [readWord_writeWord_of_disjoint (by omega),
        readWord_fill_of_disjoint (Or.inl old)]
    rw [ensureTable_of_not_has present, ensureTable_of_not_has still]
    simp only [orEntry, storeEntry, loadEntry, unread]
    rw [fill_writeWord_comm (Or.inl old), writeWord_comm (by omega)]

end Commute

/-! ## What one level does to the tree -/

/-- After one level the entry `index` of the table at `path` is present and
leads to `next`; a table linked on the way is empty. -/
structure Leveled (state state' : Loader) (path : List Index)
    (table : Nat) (index : Index) (next : Nat) (flags : Word) : Prop where
  good : Good state'
  pml4 : state'.pml4 = state.pml4
  used : state.usedMemory.toNat ≤ state'.usedMemory.toNat
  reached :
    walk (child state'.mem) state.pml4.toNat (path ++ [index]) = some next
  walk_mono :
    ∀ other reached, other.length ≤ 3 →
      walk (child state.mem) state.pml4.toNat other = some reached →
      walk (child state'.mem) state.pml4.toNat other = some reached
  fresh :
    ∀ other reached, other.length ≤ 3 →
      walk (child state'.mem) state.pml4.toNat other = some reached →
      walk (child state.mem) state.pml4.toNat other = some reached ∨
        other = path ++ [index] ∧
          walk (child state.mem) state.pml4.toNat other = none ∧
          state.usedMemory.toNat ≤ reached ∧
          ∀ below, readEntry state'.mem reached below = 0#64
  entry_eq :
    ∀ other reached below, other.length ≤ 3 →
      walk (child state.mem) state.pml4.toNat other = some reached →
      ¬ (other = path ∧ below = index) →
      readEntry state'.mem reached below = readEntry state.mem reached below
  here :
    ∃ before, readEntry state'.mem table index = before ||| flags ∧
      (Has (readEntry state.mem table index) pagePBit →
        before = readEntry state.mem table index)
  translation_eq :
    ∀ virt, translation state'.mem state.pml4.toNat virt =
      translation state.mem state.pml4.toNat virt

section Level

variable {state : Loader} {entry : Pointer} {flags : Word}
  {path : List Index} {table next : Nat} {index : Index}

theorem loadEntry_eq (pointer : entry.toNat = entryAddress table index) :
    loadEntry state entry = readEntry state.mem table index := by
  rw [loadEntry, pointer, readEntry]

/-- The level finds its table. -/
private theorem leveled_of_present (good : Good state)
    (short : path.length < 3)
    (reached : walk (child state.mem) state.pml4.toNat path = some table)
    (pointer : entry.toNat = entryAddress table index)
    (noAddress : frameOf flags = 0#64)
    (present : Has (readEntry state.mem table index) pagePBit) :
    (tableAt state entry).toNat =
        (frameOf (readEntry state.mem table index)).toNat ∧
      Leveled state (orEntry state entry flags) path table index
        (frameOf (readEntry state.mem table index)).toNat flags := by
  have linked : child state.mem table index =
      some (frameOf (readEntry state.mem table index)).toNat := by
    rw [child, if_pos present]
  have nextReached :
      walk (child state.mem) state.pml4.toNat (path ++ [index]) =
        some (frameOf (readEntry state.mem table index)).toNat := by
    rw [walk_snoc_of_walk reached, linked]
  have below := good.below _ ⟨path ++ [index], by simp; omega, nextReached⟩
  have usedBound := state.usedMemory.isLt
  have sameFrame : frameOf (readEntry state.mem table index ||| flags) =
      frameOf (readEntry state.mem table index) := by
    rw [frameOf_or, noAddress, BitVec.or_zero]
  have flagged := flagEntry good.tree short reached present sameFrame
  have memEq : (orEntry state entry flags).mem =
      writeWord state.mem (entryAddress table index)
        (readEntry state.mem table index ||| flags) := by
    rw [orEntry, loadEntry_eq pointer, storeEntry, pointer]
  rw [← memEq] at flagged
  have walks : ∀ other : List Index, other.length ≤ 3 →
      walk (child (orEntry state entry flags).mem) state.pml4.toNat other =
        walk (child state.mem) state.pml4.toNat other :=
    walk_congr flagged.child_eq
  refine ⟨?_, ?_, rfl, Nat.le_refl _, ?_, ?_, ?_, flagged.entry_eq, ?_,
    flagged.translation_eq short⟩
  · rw [tableAt, loadEntry_eq pointer, BitVec.toNat_setWidth,
      Nat.mod_eq_of_lt (by omega)]
  · refine ⟨good.aligned, good.tree.congr flagged.child_eq, ?_⟩
    intro other isTable
    exact good.below other ((isTable_congr walks).mp isTable)
  · rw [walks _ (by simp; omega)]
    exact nextReached
  · intro other found otherShort otherReached
    rw [walks other otherShort]
    exact otherReached
  · intro other found otherShort otherReached
    rw [walks other otherShort] at otherReached
    exact Or.inl otherReached
  · exact ⟨_, flagged.here, fun _ => rfl⟩

/-- The level links a new table. -/
private theorem leveled_of_missing (good : Good state)
    (short : path.length < 3)
    (reached : walk (child state.mem) state.pml4.toNat path = some table)
    (pointer : entry.toNat = entryAddress table index)
    (noAddress : frameOf flags = 0#64)
    (carries : Has flags pagePBit)
    (missing : ¬ Has (readEntry state.mem table index) pagePBit)
    (fits : state.usedMemory.toNat + 4096 < 2 ^ 32) :
    (tableAt (ensureTable state entry) entry).toNat =
        state.usedMemory.toNat ∧
      Leveled state (level state entry flags) path table index
        state.usedMemory.toNat flags := by
  have wide : (state.usedMemory.setWidth 64).toNat =
      state.usedMemory.toNat := by
    rw [BitVec.toNat_setWidth, Nat.mod_eq_of_lt (by omega)]
  have isFrame : IsFrame (state.usedMemory.setWidth 64) := by
    rw [isFrame_iff, wide]
    have := good.aligned
    omega
  have unreached : ¬ IsTable state.mem state.pml4.toNat
      state.usedMemory.toNat := by
    intro isTable
    have := good.below _ isTable
    omega
  have frameEq : frameOf (state.usedMemory.setWidth 64 ||| flags) =
      state.usedMemory.setWidth 64 := by
    rw [frameOf_or, noAddress, BitVec.or_zero, frameOf_of_isFrame isFrame]
  have unlinked : ¬ Has (loadEntry state entry) pagePBit := by
    rw [loadEntry_eq pointer]
    exact missing
  have linkedEq := ensureTable_of_not_has unlinked
  have written : loadEntry (ensureTable state entry) entry =
      state.usedMemory.setWidth 64 := by
    rw [linkedEq]
    exact readWord_writeWord_same _ _ _
  have memEq : (level state entry flags).mem =
      writeWord (fill state.mem state.usedMemory.toNat 4096 0)
        (entryAddress table index)
        (state.usedMemory.setWidth 64 ||| flags) := by
    rw [level, orEntry, written, storeEntry, linkedEq, pointer]
    exact writeWord_writeWord_same _ _ _ _
  have usedEq : (level state entry flags).usedMemory.toNat =
      state.usedMemory.toNat + 4096 := by
    rw [level, orEntry_usedMemory, linkedEq, BitVec.toNat_add]
    simp only [BitVec.toNat_ofNat]
    omega
  have linked := linkTable good.tree short reached missing good.aligned
    unreached (has_or.mpr (Or.inr carries))
    (show (frameOf (state.usedMemory.setWidth 64 ||| flags)).toNat =
      state.usedMemory.toNat by rw [frameEq, wide])
  rw [← memEq] at linked
  have absent : walk (child state.mem) state.pml4.toNat (path ++ [index]) =
      none := by
    rw [walk_snoc_of_walk reached, child, if_neg missing]
  have pml4Eq : (level state entry flags).pml4 = state.pml4 := by
    rw [level, orEntry_pml4, ensureTable_pml4]
  refine ⟨?_, ⟨?_, ?_, ?_⟩, pml4Eq, by omega, ?_, ?_, ?_, linked.entry_eq,
    ?_, linked.translation_eq short reached missing⟩
  · rw [tableAt, written, frameOf_of_isFrame isFrame, BitVec.toNat_setWidth,
      wide, Nat.mod_eq_of_lt (by omega)]
  · rw [usedEq]
    have := good.aligned
    omega
  · rw [pml4Eq]
    exact linked.tree
  · rw [pml4Eq, usedEq]
    rintro other ⟨otherPath, otherShort, otherReached⟩
    rw [linked.walk_eq otherPath otherShort] at otherReached
    split at otherReached
    · cases otherReached
      omega
    · have := good.below other ⟨otherPath, otherShort, otherReached⟩
      omega
  · rw [linked.walk_eq _ (by simp; omega), if_pos rfl]
  · intro other found otherShort otherReached
    rw [linked.walk_eq other otherShort, if_neg, otherReached]
    rintro rfl
    rw [absent] at otherReached
    cases otherReached
  · intro other found otherShort otherReached
    rw [linked.walk_eq other otherShort] at otherReached
    split at otherReached
    · next atLink =>
      cases otherReached
      right
      rw [atLink]
      exact ⟨rfl, absent, Nat.le_refl _, linked.empty⟩
    · exact Or.inl otherReached
  · exact ⟨_, linked.here, fun present => absurd present missing⟩

/-- One level of `map_page`, as long as the allocation pointer does not
wrap. -/
theorem leveled (good : Good state) (short : path.length < 3)
    (reached : walk (child state.mem) state.pml4.toNat path = some table)
    (pointer : entry.toNat = entryAddress table index)
    (noAddress : frameOf flags = 0#64) (carries : Has flags pagePBit)
    (unwrapped :
      state.usedMemory.toNat ≤ (level state entry flags).usedMemory.toNat) :
    Leveled state (level state entry flags) path table index
      (tableAt (level state entry flags) entry).toNat flags := by
  rw [level, tableAt_orEntry_same noAddress]
  by_cases present : Has (readEntry state.mem table index) pagePBit
  · have found : Has (loadEntry state entry) pagePBit := by
      rw [loadEntry_eq pointer]
      exact present
    obtain ⟨next, result⟩ :=
      leveled_of_present good short reached pointer noAddress present
    rw [ensureTable_of_has found, next]
    exact result
  · have unlinked : ¬ Has (loadEntry state entry) pagePBit := by
      rw [loadEntry_eq pointer]
      exact present
    have bound := state.usedMemory.isLt
    have aligned := good.aligned
    have fits : state.usedMemory.toNat + 4096 < 2 ^ 32 := by
      rw [level, orEntry_usedMemory, ensureTable_of_not_has unlinked,
        BitVec.toNat_add] at unwrapped
      simp only [BitVec.toNat_ofNat] at unwrapped
      omega
    obtain ⟨next, result⟩ :=
      leveled_of_missing good short reached pointer noAddress carries present
        fits
    rw [next]
    exact result

end Level

/-! ## Several levels -/

/-- The levels along `path` are done, the last of them leads to `table`. -/
structure Descended (state state' : Loader) (path : List Index)
    (table : Nat) (flags : Word) : Prop where
  good : Good state'
  pml4 : state'.pml4 = state.pml4
  used : state.usedMemory.toNat ≤ state'.usedMemory.toNat
  reached : walk (child state'.mem) state.pml4.toNat path = some table
  walk_mono :
    ∀ other reached, other.length ≤ 3 →
      walk (child state.mem) state.pml4.toNat other = some reached →
      walk (child state'.mem) state.pml4.toNat other = some reached
  fresh :
    ∀ other reached, other.length ≤ 3 →
      walk (child state'.mem) state.pml4.toNat other = some reached →
      walk (child state.mem) state.pml4.toNat other = some reached ∨
        walk (child state.mem) state.pml4.toNat other = none ∧
          state.usedMemory.toNat ≤ reached ∧
          ∀ below, ¬ other ++ [below] <+: path →
            readEntry state'.mem reached below = 0#64
  entry_eq :
    ∀ other reached below, other.length ≤ 3 →
      walk (child state.mem) state.pml4.toNat other = some reached →
      ¬ other ++ [below] <+: path →
      readEntry state'.mem reached below = readEntry state.mem reached below
  flagged :
    ∀ other reached below, other ++ [below] <+: path →
      walk (child state'.mem) state.pml4.toNat other = some reached →
      ∃ before, readEntry state'.mem reached below = before ||| flags ∧
        (walk (child state.mem) state.pml4.toNat other = some reached →
          Has (readEntry state.mem reached below) pagePBit →
          before = readEntry state.mem reached below)
  translation_eq :
    ∀ virt, translation state'.mem state.pml4.toNat virt =
      translation state.mem state.pml4.toNat virt

section Several

variable {state middle state' : Loader} {path : List Index}
  {table next : Nat} {index : Index} {flags : Word}

theorem Descended.start (good : Good state) (flags : Word) :
    Descended state state [] state.pml4.toNat flags := by
  refine ⟨good, rfl, Nat.le_refl _, rfl, fun _ _ _ => id,
    fun _ _ _ => Or.inl, fun _ _ _ _ _ _ => rfl, ?_, fun _ => rfl⟩
  intro other _ below prefixed
  have lengths := prefixed.length_le
  simp at lengths

private theorem not_prefix_snoc {other : List Index} {below : Index}
    (notPrefix : ¬ other ++ [below] <+: path ++ [index]) :
    ¬ other ++ [below] <+: path ∧ ¬ (other = path ∧ below = index) := by
  refine ⟨fun prefixed => notPrefix (prefixed.trans (List.prefix_append _ _)),
    ?_⟩
  rintro ⟨rfl, rfl⟩
  exact notPrefix (List.prefix_refl _)

/-- The next level. -/
theorem Descended.step (done : Descended state middle path table flags)
    (short : path.length < 3)
    (level : Leveled middle state' path table index next flags) :
    Descended state state' (path ++ [index]) next flags := by
  obtain ⟨good, pml4, used, reached, walkMono, fresh, entryEq, here,
    translationEq⟩ := level
  rw [done.pml4] at reached walkMono fresh entryEq translationEq
  refine ⟨good, pml4.trans done.pml4, done.used.trans used, reached, ?_, ?_,
    ?_, ?_, fun virt => (translationEq virt).trans (done.translation_eq virt)⟩
  · intro other found otherShort otherReached
    exact walkMono other found otherShort
      (done.walk_mono other found otherShort otherReached)
  · intro other found otherShort otherReached
    rcases fresh other found otherShort otherReached with
      before | ⟨_, missing, above, empty⟩
    · rcases done.fresh other found otherShort before with
        old | ⟨missing, above, empty⟩
      · exact Or.inl old
      · refine Or.inr ⟨missing, above, fun below notPrefix => ?_⟩
        obtain ⟨notBefore, notHere⟩ := not_prefix_snoc notPrefix
        rw [entryEq other found below otherShort before notHere]
        exact empty below notBefore
    · refine Or.inr ⟨?_, done.used.trans above, fun below _ => empty below⟩
      cases walked : walk (child state.mem) state.pml4.toNat other with
      | none => rfl
      | some old =>
          rw [done.walk_mono other old otherShort walked] at missing
          cases missing
  · intro other found below otherShort otherReached notPrefix
    obtain ⟨notBefore, notHere⟩ := not_prefix_snoc notPrefix
    rw [entryEq other found below otherShort
      (done.walk_mono other found otherShort otherReached) notHere]
    exact done.entry_eq other found below otherShort otherReached notBefore
  · intro other found below prefixed otherReached
    rcases List.prefix_concat_iff.mp prefixed with last | earlier
    · obtain ⟨rfl, lasts⟩ := List.append_inj' last rfl
      cases lasts
      have tableEq : found = table := by
        rcases fresh other found (by omega) otherReached with
          before | ⟨longer, _⟩
        · rw [done.reached] at before
          exact (Option.some.inj before).symm
        · have lengths := congrArg List.length longer
          simp at lengths
      subst tableEq
      obtain ⟨before, entry, kept⟩ := here
      refine ⟨before, entry, fun walked present => ?_⟩
      have unchanged := done.entry_eq other found index (by omega) walked
        (fun prefixed => by
          have lengths := prefixed.length_le
          simp at lengths)
      rw [← unchanged] at present ⊢
      exact kept present
    · have lengths := earlier.length_le
      rw [List.length_append, List.length_singleton] at lengths
      have walked : walk (child middle.mem) state.pml4.toNat other =
          some found := by
        rcases fresh other found (by omega) otherReached with
          before | ⟨longer, _⟩
        · exact before
        · have lengths' := congrArg List.length longer
          simp at lengths'
          omega
      have notHere : ¬ (other = path ∧ below = index) := by
        rintro ⟨rfl, _⟩
        omega
      rw [entryEq other found below (by omega) walked notHere]
      exact done.flagged other found below earlier walked

end Several

/-! ## Flags that go in later -/

/-- OR the flags into all `entries`. -/
def orEntries (flags : Word) (state : Loader) (entries : List Pointer) :
    Loader :=
  entries.foldl (fun state entry => orEntry state entry flags) state

/-- The tables along `path` are linked in `linked`, and `done` is what it will
be when the flags have gone into the `pending` entries. -/
structure Progress (state linked done : Loader) (path : List Index)
    (table : Pointer) (pending : List Pointer) (flags : Word) : Prop where
  descended : Descended state done path table.toNat flags
  done_eq : done = orEntries flags linked pending
  entries :
    ∀ entry ∈ pending, ∃ other above index, other.length < path.length ∧
      walk (child done.mem) state.pml4.toNat other = some above ∧
      entry.toNat = entryAddress above index

section Pending

variable {state linked done : Loader} {path : List Index}
  {table entry : Pointer} {pending : List Pointer} {flags virt : Word}
  {low : Nat}

theorem orEntries_usedMemory :
    (orEntries flags linked pending).usedMemory = linked.usedMemory := by
  induction pending generalizing linked with
  | nil => rfl
  | cons entry pending inductionHypothesis =>
      exact inductionHypothesis.trans orEntry_usedMemory

theorem tableAt_orEntries
    (apart : ∀ other ∈ pending, entry.toNat + 8 ≤ other.toNat ∨
      other.toNat + 8 ≤ entry.toNat) :
    tableAt (orEntries flags linked pending) entry = tableAt linked entry := by
  induction pending generalizing linked with
  | nil => rfl
  | cons other pending inductionHypothesis =>
      rw [List.forall_mem_cons] at apart
      exact (inductionHypothesis apart.2).trans
        (tableAt_orEntry_of_apart apart.1)

theorem ensureTable_orEntries
    (apart : ∀ other ∈ pending, entry.toNat + 8 ≤ other.toNat ∨
      other.toNat + 8 ≤ entry.toNat)
    (old : ∀ other ∈ pending, other.toNat + 8 ≤ linked.usedMemory.toNat) :
    ensureTable (orEntries flags linked pending) entry =
      orEntries flags (ensureTable linked entry) pending := by
  induction pending generalizing linked with
  | nil => rfl
  | cons other pending inductionHypothesis =>
      rw [List.forall_mem_cons] at apart old
      have later :
          ensureTable (orEntries flags (orEntry linked other flags) pending)
              entry =
            orEntries flags (ensureTable (orEntry linked other flags) entry)
              pending :=
        inductionHypothesis apart.2 old.2
      rw [ensureTable_orEntry_comm apart.1 old.1] at later
      exact later

theorem loadEntry_orEntries
    (apart : ∀ other ∈ pending, entry.toNat + 8 ≤ other.toNat ∨
      other.toNat + 8 ≤ entry.toNat) :
    loadEntry (orEntries flags linked pending) entry =
      loadEntry linked entry := by
  induction pending generalizing linked with
  | nil => rfl
  | cons other pending inductionHypothesis =>
      rw [List.forall_mem_cons] at apart
      exact (inductionHypothesis apart.2).trans
        (loadEntry_orEntry_of_apart apart.1)

theorem Progress.toNat_pointer
    (progress : Progress state linked done path table pending flags)
    (pointer : entry = entryPointer table virt low (low + 9)) :
    entry.toNat = entryAddress table.toNat (indexAt virt low) := by
  have good := progress.descended.good
  have reached := progress.descended.reached
  rw [← progress.descended.pml4] at reached
  rw [pointer, toNat_entryPointer virt low (walk_bounds good.tree reached).1]

/-- Pending entries lie in tables further up. -/
theorem Progress.apart
    (progress : Progress state linked done path table pending flags)
    (short : path.length < 3)
    (pointer : entry = entryPointer table virt low (low + 9)) :
    ∀ other ∈ pending,
      (entry.toNat + 8 ≤ other.toNat ∨ other.toNat + 8 ≤ entry.toNat) ∧
        other.toNat + 8 ≤ done.usedMemory.toNat := by
  intro other member
  have pointerEq := progress.toNat_pointer pointer
  have good := progress.descended.good
  have reached := progress.descended.reached
  have entries := progress.entries
  rw [← progress.descended.pml4] at reached entries
  have tableAligned := (walk_bounds good.tree reached).1
  obtain ⟨otherPath, above, index, shorter, otherReached, otherEq⟩ :=
    entries other member
  have otherAligned := (walk_bounds good.tree otherReached).1
  have inside := entryAddress_mem_frame above index
  have bound := good.below above ⟨otherPath, by omega, otherReached⟩
  rw [pointerEq, otherEq]
  refine ⟨entryAddress_disjoint tableAligned otherAligned ?_, by omega⟩
  rintro ⟨same, _⟩
  have paths := good.tree.separated path otherPath above (by omega)
    (by omega) (same ▸ reached) otherReached
  rw [paths] at shorter
  exact Nat.lt_irrefl _ shorter

/-- The next table is linked: the same as one more complete level. -/
theorem Progress.step
    (progress : Progress state linked done path table pending flags)
    (short : path.length < 3) (noAddress : frameOf flags = 0#64)
    (carries : Has flags pagePBit)
    (pointer : entry = entryPointer table virt low (low + 9))
    (unwrapped :
      linked.usedMemory.toNat ≤
        (ensureTable linked entry).usedMemory.toNat) :
    Progress state (ensureTable linked entry) (level done entry flags)
      (path ++ [indexAt virt low]) (tableAt (ensureTable linked entry) entry)
      (pending ++ [entry]) flags := by
  have pointerEq := progress.toNat_pointer pointer
  have facts := progress.apart short pointer
  obtain ⟨descended, doneEq, entries⟩ := progress
  have good := descended.good
  have root := descended.pml4
  have reached := descended.reached
  rw [← root] at reached entries
  have usedEq : done.usedMemory = linked.usedMemory := by
    rw [doneEq, orEntries_usedMemory]
  have commuted : ensureTable done entry =
      orEntries flags (ensureTable linked entry) pending := by
    rw [doneEq]
    refine ensureTable_orEntries (fun other member => (facts other member).1)
      fun other member => ?_
    rw [← usedEq]
    exact (facts other member).2
  have nextDone : level done entry flags =
      orEntries flags (ensureTable linked entry) (pending ++ [entry]) := by
    rw [level, commuted, orEntries, orEntries, List.foldl_append]
    rfl
  have tableEq : tableAt (level done entry flags) entry =
      tableAt (ensureTable linked entry) entry := by
    rw [level, tableAt_orEntry_same noAddress, commuted]
    exact tableAt_orEntries fun other member => (facts other member).1
  have grown : done.usedMemory.toNat ≤
      (level done entry flags).usedMemory.toNat := by
    rw [nextDone, orEntries_usedMemory, usedEq]
    exact unwrapped
  have result := leveled good short reached pointerEq noAddress carries grown
  rw [tableEq] at result
  refine ⟨descended.step short result, nextDone, ?_⟩
  intro other member
  rw [List.length_append, List.length_singleton]
  rcases List.mem_append.mp member with earlier | last
  · obtain ⟨otherPath, above, index, shorter, otherReached, otherEq⟩ :=
      entries other earlier
    refine ⟨otherPath, above, index, by omega, ?_, otherEq⟩
    have kept := result.walk_mono otherPath above (by omega) otherReached
    rw [root] at kept
    exact kept
  · rw [List.mem_singleton.mp last]
    refine ⟨path, table.toNat, indexAt virt low, by omega, ?_, pointerEq⟩
    have kept := result.walk_mono path table.toNat (by omega) reached
    rw [root] at kept
    exact kept

/-- The next entry is the old one, or an empty one below a new table. -/
theorem Progress.has_loadEntry_iff
    (progress : Progress state linked done path table pending flags)
    (short : path.length < 3)
    (pointer : entry = entryPointer table virt low (low + 9)) :
    Has (loadEntry linked entry) pagePBit ↔
      (walk (child state.mem) state.pml4.toNat
        (path ++ [indexAt virt low])).isSome := by
  have notPrefix : ¬ path ++ [indexAt virt low] <+: path := fun prefixed => by
    have lengths := prefixed.length_le
    simp at lengths
  have apart := progress.apart short pointer
  have pointerEq := progress.toNat_pointer pointer
  have sameEntry : loadEntry linked entry =
      readEntry done.mem table.toNat (indexAt virt low) := by
    rw [← loadEntry_eq pointerEq, progress.done_eq]
    exact (loadEntry_orEntries fun other member =>
      (apart other member).1).symm
  rw [sameEntry]
  rcases progress.descended.fresh path table.toNat (Nat.le_of_lt short)
      progress.descended.reached with old | ⟨missing, _, empty⟩
  · rw [progress.descended.entry_eq path table.toNat _ (Nat.le_of_lt short)
      old notPrefix, walk_snoc_of_walk old, child]
    split
    · next present => simp [present]
    · next absent => simp [absent]
  · rw [empty _ notPrefix, walk_snoc, missing]
    simp [Has]

/-! ## What the allocations write -/

/-- The bytes that belong to the page tables, those of future tables
included. -/
def ownCells (state : Loader) : Set Nat :=
  fun cell =>
    state.usedMemory.toNat ≤ cell ∨
      ∃ table, IsTable state.mem state.pml4.toNat table ∧
        cell ∈ cells table 4096

/-- The tables along `path` are linked in `linked`: found, or else allocated,
the last one last. -/
structure Grows (state linked : Loader) (path : List Index)
    (table : Pointer) : Prop where
  agree : AgreeOff (ownCells state) linked.mem state.mem
  grown : state.usedMemory.toNat ≤ linked.usedMemory.toNat
  found :
    (walk (child state.mem) state.pml4.toNat path).isSome →
      linked.usedMemory = state.usedMemory
  allocated :
    walk (child state.mem) state.pml4.toNat path = none →
      table.toNat + 4096 = linked.usedMemory.toNat

theorem Grows.start (state : Loader) : Grows state state [] state.pml4 :=
  ⟨AgreeOff.refl _ _, Nat.le_refl _, fun _ => rfl, fun none => nomatch none⟩

/-- Entries of the tables on the way are the loader's own. -/
theorem Descended.entryCells_own {above : Nat} {other : List Index}
    (descended : Descended state done path table.toNat flags)
    (short : other.length ≤ 3) (index : Index)
    (reached : walk (child done.mem) state.pml4.toNat other = some above) :
    cells (entryAddress above index) 8 ⊆ ownCells state := by
  intro cell inside
  have inFrame := entryAddress_mem_frame above index
  rw [mem_cells] at inside
  rcases descended.fresh other above short reached with old | ⟨_, fresh, _⟩
  · refine Or.inr ⟨above, ⟨other, short, old⟩, ?_⟩
    rw [mem_cells]
    omega
  · exact Or.inl (by omega)

theorem Grows.step (grows : Grows state linked path table)
    (progress : Progress state linked done path table pending flags)
    (short : path.length < 3)
    (pointer : entry = entryPointer table virt low (low + 9))
    (unwrapped :
      linked.usedMemory.toNat ≤
        (ensureTable linked entry).usedMemory.toNat) :
    Grows state (ensureTable linked entry) (path ++ [indexAt virt low])
      (tableAt (ensureTable linked entry) entry) := by
  have present := progress.has_loadEntry_iff short pointer
  by_cases found : Has (loadEntry linked entry) pagePBit
  · have complete := present.mp found
    obtain ⟨next, walked⟩ := Option.isSome_iff_exists.mp complete
    obtain ⟨middle, before⟩ := exists_walk_of_append walked
    rw [ensureTable_of_has found]
    refine ⟨grows.agree, grows.grown, fun _ => grows.found ?_, fun absent => ?_⟩
    · rw [before]
      rfl
    · rw [absent] at complete
      cases complete
  · have linkedEq := ensureTable_of_not_has found
    have bound := linked.usedMemory.isLt
    have aligned : linked.usedMemory.toNat % 4096 = 0 := by
      have usedEq : done.usedMemory = linked.usedMemory := by
        rw [progress.done_eq, orEntries_usedMemory]
      rw [← usedEq]
      exact progress.descended.good.aligned
    have usedEq : (ensureTable linked entry).usedMemory.toNat =
        linked.usedMemory.toNat + 4096 := by
      rw [linkedEq, BitVec.toNat_add] at unwrapped ⊢
      simp only [BitVec.toNat_ofNat] at unwrapped ⊢
      omega
    have wide : (linked.usedMemory.setWidth 64).toNat =
        linked.usedMemory.toNat := by
      rw [BitVec.toNat_setWidth, Nat.mod_eq_of_lt (by omega)]
    have isFrame : IsFrame (linked.usedMemory.setWidth 64) := by
      rw [isFrame_iff, wide]
      omega
    have tableEq : (tableAt (ensureTable linked entry) entry).toNat =
        linked.usedMemory.toNat := by
      have written : loadEntry (ensureTable linked entry) entry =
          linked.usedMemory.setWidth 64 := by
        rw [linkedEq]
        exact readWord_writeWord_same _ _ _
      rw [tableAt, written, frameOf_of_isFrame isFrame, BitVec.toNat_setWidth,
        wide, Nat.mod_eq_of_lt (by omega)]
    refine ⟨?_, by have := grows.grown; omega, ?_, fun _ => by omega⟩
    · have own := progress.descended.entryCells_own (Nat.le_of_lt short)
        (indexAt virt low) progress.descended.reached
      rw [linkedEq, progress.toNat_pointer pointer]
      refine ((agreeOff_writeWord _ _ _).mono own).trans
        (((agreeOff_fill _ _ _ _).mono ?_).trans grows.agree)
      intro cell inside
      rw [mem_cells] at inside
      have grown := grows.grown
      exact Or.inl (by omega)
    · intro complete
      exact absurd (present.mpr complete) found

end Pending

/-! ## The whole call -/

section Whole

variable {state state' : Loader} {virt phys flags : Word}

theorem orEntry_storeEntry {entry : Pointer} {first second : Word} :
    orEntry (storeEntry state entry first) entry second =
      storeEntry state entry (first ||| second) := by
  simp only [orEntry, storeEntry, loadEntry, readWord_writeWord_same,
    writeWord_writeWord_same]

/-- The entries that `map_page` finds on its way down, with the missing tables
linked one after the other, and its stores after that. -/
theorem mapPage_chain (nonNull : state.pml4 ≠ 0#32)
    (page : IsPage virt) (frame : IsFrame phys)
    (mapped : mapPage state virt phys flags = .ok state') :
    ∃ first second third linkedFirst linkedSecond linkedThird,
      first = entryPointer state.pml4 virt 39 48 ∧
      linkedFirst = ensureTable state first ∧
      second = entryPointer (tableAt linkedFirst first) virt 30 39 ∧
      linkedSecond = ensureTable linkedFirst second ∧
      third = entryPointer (tableAt linkedSecond second) virt 21 30 ∧
      linkedThird = ensureTable linkedSecond third ∧
      state' = storeEntry
        (orEntries ((flags ||| pagePBit) &&& pml4FlagsMask) linkedThird
          [first, second, third])
        (entryPointer (tableAt linkedThird third) virt 12 21)
        (((flags ||| pagePBit) &&& ptFlagsMask) ||| phys) := by
  have canonical := page.1
  have aligned := page.2
  have physical : phys &&& ~~~pageAddrBits = 0#64 := frame
  have root : ensureRoot state = state := by
    rw [ensureRoot, if_neg nonNull]
  simp only [mapPage, canonical, aligned, physical, not_true_eq_false,
    if_false, root, orEntry_storeEntry, pure, Except.pure,
    Except.ok.injEq] at mapped
  exact ⟨_, _, _, _, _, _, rfl, rfl, rfl, rfl, rfl, rfl, mapped.symm⟩

/-- A call with a root is three complete levels and the leaf entry. -/
theorem mapPage_progress (good : Good state) (nonNull : state.pml4 ≠ 0#32)
    (page : IsPage virt) (frame : IsFrame phys)
    (mapped : mapPage state virt phys flags = .ok state')
    (unwrapped : state.usedMemory.toNat ≤ state'.usedMemory.toNat) :
    ∃ linked done table pending,
      Progress state linked done (upperPath virt) table pending
        ((flags ||| pagePBit) &&& pml4FlagsMask) ∧
      Grows state linked (upperPath virt) table ∧
      state' = { done with
        mem := writeWord done.mem (entryAddress table.toNat (leafIndex virt))
          (((flags ||| pagePBit) &&& ptFlagsMask) ||| phys) } := by
  have carries : Has ((flags ||| pagePBit) &&& pml4FlagsMask) pagePBit :=
    (has_and_of_subset (by decide)).mpr (has_or.mpr (Or.inr (by decide)))
  have noAddress : frameOf ((flags ||| pagePBit) &&& pml4FlagsMask) = 0#64 :=
    frameOf_and_of_disjoint (by decide)
  obtain ⟨first, second, third, linkedFirst, linkedSecond, linkedThird,
    firstEq, linkedFirstEq, secondEq, linkedSecondEq, thirdEq, linkedThirdEq,
    stored⟩ := mapPage_chain nonNull page frame mapped
  -- the pointer grows by at most three pages, so it wraps nowhere
  have bound := state.usedMemory.isLt
  have used : state'.usedMemory = linkedThird.usedMemory := by
    rw [stored]
    exact orEntries_usedMemory
  rw [used] at unwrapped
  have growsFirst := toNat_ensureTable_usedMemory state first
  have growsSecond := toNat_ensureTable_usedMemory linkedFirst second
  have growsThird := toNat_ensureTable_usedMemory linkedSecond third
  rw [← linkedFirstEq] at growsFirst
  rw [← linkedSecondEq] at growsSecond
  rw [← linkedThirdEq] at growsThird
  have start : Progress state state state [] state.pml4 []
      ((flags ||| pagePBit) &&& pml4FlagsMask) :=
    ⟨Descended.start good _, rfl, by simp⟩
  have unwrappedFirst : state.usedMemory.toNat ≤
      (ensureTable state first).usedMemory.toNat := by
    rw [← linkedFirstEq]
    omega
  have unwrappedSecond : linkedFirst.usedMemory.toNat ≤
      (ensureTable linkedFirst second).usedMemory.toNat := by
    rw [← linkedSecondEq]
    omega
  have unwrappedThird : linkedSecond.usedMemory.toNat ≤
      (ensureTable linkedSecond third).usedMemory.toNat := by
    rw [← linkedThirdEq]
    omega
  have one := start.step (by decide) noAddress carries firstEq unwrappedFirst
  have growsOne := (Grows.start state).step start (by decide) firstEq
    unwrappedFirst
  rw [← linkedFirstEq] at one growsOne
  have two := one.step (by simp) noAddress carries secondEq unwrappedSecond
  have growsTwo := growsOne.step one (by simp) secondEq unwrappedSecond
  rw [← linkedSecondEq] at two growsTwo
  have three := two.step (by simp) noAddress carries thirdEq unwrappedThird
  have growsThree := growsTwo.step two (by simp) thirdEq unwrappedThird
  rw [← linkedThirdEq] at three growsThree
  have tableAligned := (walk_bounds three.descended.good.tree
    (three.descended.pml4 ▸ three.descended.reached)).1
  refine ⟨_, _, _, _, three, growsThree, ?_⟩
  rw [stored, three.done_eq]
  simp only [storeEntry, leafIndex,
    toNat_entryPointer virt 12 tableAligned]
  rfl

end Whole

end BeaverOS.LoaderPaging
