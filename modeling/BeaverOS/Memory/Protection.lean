import BeaverOS.Memory.Entries

/-!
# Permissions that the processor enforces

The processor combines the four entries on the walk of a page: the page is
writable if all of them say so, open to user code if all of them say so, and
closed to execution if one of them says so. `map_page` ORs its flags into the
upper entries and never takes them out, so the upper entries cover the leaf
entries below them. That is right for the first two bits; a no-execute bit in
an upper entry closes every page below it.
-/

namespace BeaverOS.Protection

open BeaverOS.ByteMemory
open BeaverOS.RadixTree
open BeaverOS.Paging
open BeaverOS.Window
open BeaverOS.FrameAllocator
open BeaverOS.PageTree
open BeaverOS.Mapper
open BeaverOS.MapperState
open BeaverOS.UpperFlags
open BeaverOS.Entries

/-! ## The processor's rule -/

/-- What the processor allows at an address. -/
@[ext]
structure Permissions where
  writable : Bool
  user : Bool
  noExecute : Bool
  deriving DecidableEq, Repr

/-- The permissions of a page with these entries on its walk. -/
def combine (entries : List Word) : Permissions where
  writable := entries.all fun entry => decide (Has entry pageRwBit)
  user := entries.all fun entry => decide (Has entry pageUsBit)
  noExecute := entries.any fun entry => decide (Has entry pageNxBit)

/-- The entries that the processor reads, one for each index. -/
def entriesAlong (memory : Memory) : Nat → List Index → List Word
  | _, [] => []
  | table, index :: path =>
      readEntry memory table index ::
        entriesAlong memory (frameOf (readEntry memory table index)).toNat path

/-- The four entries of a page. -/
def entriesOf (memory : Memory) (root : Nat) (virt : Word) : List Word :=
  entriesAlong memory root (upperPath virt ++ [leafIndex virt])

/-- The permissions of a mapped page. -/
def permissions (memory : Memory) (root : Nat) (virt : Word) :
    Option Permissions :=
  if ∀ entry ∈ entriesOf memory root virt, Has entry pagePBit then
    some (combine (entriesOf memory root virt))
  else none

/-- The permissions that a caller of `map_page` asks for. -/
def ofFlags (flags : Word) : Permissions where
  writable := decide (Has flags pageRwBit)
  user := decide (Has flags pageUsBit)
  noExecute := decide (Has flags pageNxBit)

section Walks

variable {memory : Memory} {table last root : Nat} {path : List Index}
  {entry virt bit : Word} {entries : List Word} {allowed : Permissions}

theorem entriesAlong_present_iff :
    (∀ entry ∈ entriesAlong memory table path, Has entry pagePBit) ↔
      (walk (child memory) table path).isSome := by
  induction path generalizing table with
  | nil => simp [entriesAlong, walk]
  | cons index path inductionHypothesis =>
      rw [entriesAlong, List.forall_mem_cons, inductionHypothesis, walk, child]
      split
      · next present => simp [present]
      · next absent => simp [absent]

/-- The entries along a path that leads somewhere. -/
theorem mem_entriesAlong_iff
    (reached : walk (child memory) table path = some last) :
    entry ∈ entriesAlong memory table path ↔
      ∃ before found index, before ++ [index] <+: path ∧
        walk (child memory) table before = some found ∧
        entry = readEntry memory found index := by
  induction path generalizing table with
  | nil =>
      simp only [entriesAlong, List.not_mem_nil, false_iff]
      rintro ⟨before, found, index, inside, -⟩
      have lengths := inside.length_le
      simp at lengths
  | cons index path inductionHypothesis =>
      rw [walk] at reached
      obtain ⟨next, linked, reached⟩ := Option.bind_eq_some_iff.mp reached
      have nextEq := frame_of_child linked
      rw [entriesAlong, List.mem_cons, ← nextEq, inductionHypothesis reached]
      constructor
      · rintro (rfl | ⟨before, found, other, inside, walked, rfl⟩)
        · exact ⟨[], table, index, by simp, rfl, rfl⟩
        · refine ⟨index :: before, found, other, ?_, ?_, rfl⟩
          · exact List.cons_prefix_cons.mpr ⟨rfl, inside⟩
          · rw [walk, linked]
            exact walked
      · rintro ⟨before, found, other, inside, walked, rfl⟩
        cases before with
        | nil =>
            cases walked
            obtain ⟨rfl, -⟩ := List.cons_prefix_cons.mp inside
            exact Or.inl rfl
        | cons first before =>
            obtain ⟨rfl, below⟩ := List.cons_prefix_cons.mp inside
            rw [walk, linked] at walked
            exact Or.inr ⟨before, found, other, below, walked, rfl⟩

end Walks

/-! ## One bit at a time -/

/-- Every entry on the walk carries `bit`. -/
def AllCarry (memory : Memory) (root : Nat) (virt bit : Word) : Prop :=
  ∀ entry ∈ entriesOf memory root virt, Has entry bit

/-- An upper entry of `virt` carries `bit`. -/
def UpperCarries (memory : Memory) (root : Nat) (virt bit : Word) : Prop :=
  ∃ path table index, path ++ [index] <+: upperPath virt ∧
    walk (child memory) root path = some table ∧
    Has (readEntry memory table index) bit

section Bits

variable {memory : Memory} {table root : Nat} {path : List Index}
  {entry virt bit : Word} {allowed : Permissions}

theorem entriesOf_present_iff :
    (∀ entry ∈ entriesOf memory root virt, Has entry pagePBit) ↔
      ∃ entry, leafEntry memory root virt = some entry ∧
        Has entry pagePBit := by
  rw [entriesOf, entriesAlong_present_iff, walk_snoc]
  cases found : leafTable memory root virt with
  | none =>
      rw [leafEntry_eq_none found]
      rw [leafTable] at found
      simp [found]
  | some table =>
      rw [leafEntry_of_leafTable found]
      rw [leafTable] at found
      rw [found, Option.bind_some, child]
      split
      · next present => simpa using present
      · next absent => simpa using absent

theorem permissions_of_mapped
    (found : leafEntry memory root virt = some entry)
    (present : Has entry pagePBit) :
    permissions memory root virt = some (combine (entriesOf memory root virt)) :=
  if_pos (entriesOf_present_iff.mpr ⟨entry, found, present⟩)

theorem mapped_of_permissions
    (allows : permissions memory root virt = some allowed) :
    ∃ entry, leafEntry memory root virt = some entry ∧ Has entry pagePBit ∧
      allowed = combine (entriesOf memory root virt) := by
  rw [permissions] at allows
  split at allows
  · next present =>
    obtain ⟨entry, found, has⟩ := entriesOf_present_iff.mp present
    exact ⟨entry, found, has, (Option.some.inj allows).symm⟩
  · cases allows

/-- The entries of a mapped page: the upper ones, and the leaf entry. -/
theorem mem_entriesOf_iff (found : leafEntry memory root virt = some entry)
    (present : Has entry pagePBit) {other : Word} :
    other ∈ entriesOf memory root virt ↔
      (∃ path table index, path ++ [index] <+: upperPath virt ∧
        walk (child memory) root path = some table ∧
        other = readEntry memory table index) ∨ other = entry := by
  have complete := entriesAlong_present_iff.mp
    (entriesOf_present_iff.mpr ⟨entry, found, present⟩)
  obtain ⟨last, reached⟩ := Option.isSome_iff_exists.mp complete
  rw [leafEntry] at found
  obtain ⟨leaf, walked, rfl⟩ := Option.map_eq_some_iff.mp found
  rw [leafTable] at walked
  rw [entriesOf, mem_entriesAlong_iff reached]
  constructor
  · rintro ⟨before, table, index, inside, walkedTo, rfl⟩
    rcases List.prefix_concat_iff.mp inside with whole | upper
    · obtain ⟨rfl, lasts⟩ := List.append_inj' whole rfl
      cases lasts
      rw [walked] at walkedTo
      cases walkedTo
      exact Or.inr rfl
    · exact Or.inl ⟨before, table, index, upper, walkedTo, rfl⟩
  · rintro (⟨before, table, index, upper, walkedTo, rfl⟩ | rfl)
    · exact ⟨before, table, index, upper.trans (List.prefix_append _ _),
        walkedTo, rfl⟩
    · exact ⟨upperPath virt, leaf, leafIndex virt, List.prefix_refl _, walked,
        rfl⟩

theorem allCarry_iff (found : leafEntry memory root virt = some entry)
    (present : Has entry pagePBit) :
    AllCarry memory root virt bit ↔
      (∀ path table index, path ++ [index] <+: upperPath virt →
        walk (child memory) root path = some table →
        Has (readEntry memory table index) bit) ∧ Has entry bit := by
  constructor
  · intro carry
    refine ⟨?_, carry _ ((mem_entriesOf_iff found present).mpr (Or.inr rfl))⟩
    intro path table index upper walked
    exact carry _ ((mem_entriesOf_iff found present).mpr
      (Or.inl ⟨path, table, index, upper, walked, rfl⟩))
  · rintro ⟨upper, leaf⟩ other member
    rcases (mem_entriesOf_iff found present).mp member with
      ⟨path, table, index, inside, walked, rfl⟩ | rfl
    · exact upper path table index inside walked
    · exact leaf

theorem writable_iff :
    (combine (entriesOf memory root virt)).writable = true ↔
      AllCarry memory root virt pageRwBit := by
  simp only [combine, AllCarry, List.all_eq_true, decide_eq_true_eq]

theorem user_iff :
    (combine (entriesOf memory root virt)).user = true ↔
      AllCarry memory root virt pageUsBit := by
  simp only [combine, AllCarry, List.all_eq_true, decide_eq_true_eq]

theorem noExecute_iff (found : leafEntry memory root virt = some entry)
    (present : Has entry pagePBit) :
    (combine (entriesOf memory root virt)).noExecute = true ↔
      UpperCarries memory root virt pageNxBit ∨ Has entry pageNxBit := by
  simp only [combine, List.any_eq_true, decide_eq_true_eq, UpperCarries,
    mem_entriesOf_iff found present]
  constructor
  · rintro ⟨other, ⟨path, table, index, inside, walked, rfl⟩ | rfl, has⟩
    · exact Or.inl ⟨path, table, index, inside, walked, has⟩
    · exact Or.inr has
  · rintro (⟨path, table, index, inside, walked, has⟩ | has)
    · exact ⟨_, Or.inl ⟨path, table, index, inside, walked, rfl⟩, has⟩
    · exact ⟨entry, Or.inr rfl, has⟩

end Bits

/-! ## Upper entries cover the leaf entries -/

/-- Where a present leaf entry outside the window carries `bit`, so do the
upper entries above it. -/
def Covers (layout : Layout) (memory : Memory) (root : Nat) (bit : Word) :
    Prop :=
  ∀ virt entry, IsPage virt → ¬ InWindow layout virt →
    leafEntry memory root virt = some entry → Has entry pagePBit →
    Has entry bit →
    ∀ path table index, path ++ [index] <+: upperPath virt →
      walk (child memory) root path = some table →
      Has (readEntry memory table index) bit

section Coverage

variable {layout : Layout} {state state' : Mapper} {virt flags bit : Word}
  {path : List Index} {table root : Nat} {index : Index} {memory : Memory}
  {entry other : Word}

theorem mem_upperEntries_iff :
    path ++ [index] ∈ upperEntries virt ↔
      path ++ [index] <+: upperPath virt := by
  have split : ∀ list : List Index, list ≠ [] →
      (list ∈ upperEntries virt ↔ list <+: upperPath virt) := by
    intro list nonempty
    rcases list with _ | ⟨first, _ | ⟨second, _ | ⟨third, rest⟩⟩⟩
    · exact absurd rfl nonempty
    · simp [upperEntries, upperPath]
    · simp [upperEntries, upperPath, List.cons_prefix_cons]
    · simp [upperEntries, upperPath, List.cons_prefix_cons]
  exact split _ (by simp)

theorem short_of_upper (upper : path ++ [index] <+: upperPath virt) :
    path.length < 3 := by
  have lengths := upper.length_le
  simp only [List.length_append, List.length_singleton,
    length_upperPath] at lengths
  omega

/-- An upper entry afterwards: the old one, with the flags if it is on the way
to the page of the call. -/
theorem upper_after (after : EntriesAfter layout state state' virt flags)
    (upper : path ++ [index] <+: upperPath other)
    (walked : walk (child state.mem) state.pml4.toNat path = some table) :
    Has (readEntry state'.mem table index) bit ↔
      Has (readEntry state.mem table index) bit ∨
        (path ++ [index] <+: upperPath virt ∧ Has flags bit) := by
  have short := short_of_upper upper
  by_cases marked : path ++ [index] <+: upperPath virt
  · rw [after.flagged path table index short walked
      (mem_upperEntries_iff.mpr marked), has_or]
    simp only [marked, true_and]
  · rw [after.unflagged path table index short walked
      (mt mem_upperEntries_iff.mp marked)]
    simp only [marked, false_and, or_false]

theorem walked_before (after : EntriesAfter layout state state' virt flags)
    (upper : path ++ [index] <+: upperPath other) :
    walk (child state'.mem) state'.pml4.toNat path = some table ↔
      walk (child state.mem) state.pml4.toNat path = some table := by
  rw [after.pml4, after.walk_eq path (Nat.le_of_lt (short_of_upper upper))]

/-- The cover stays, if the new leaf entry carries the bit only with the
flags, or is the old one. -/
theorem covers_after (after : EntriesAfter layout state state' virt flags)
    (covers : Covers layout state.mem state.pml4.toNat bit)
    (here : ¬ InWindow layout virt → ∀ entry,
      leafEntry state'.mem state'.pml4.toNat virt = some entry →
      Has entry pagePBit → Has entry bit →
      Has flags bit ∨
        leafEntry state.mem state.pml4.toNat virt = some entry) :
    Covers layout state'.mem state'.pml4.toNat bit := by
  intro page entry isPage outside found present has path table index upper
    walked
  rw [walked_before after upper] at walked
  rw [upper_after after upper walked]
  by_cases isHere : page = virt
  · subst isHere
    rcases here outside entry found present has with flagged | old
    · exact Or.inr ⟨upper, flagged⟩
    · exact Or.inl (covers page entry isPage outside old present has path
        table index upper walked)
  · rw [after.elsewhere page isPage isHere outside] at found
    exact Or.inl (covers page entry isPage outside found present has path
      table index upper walked)

/-- With a cover, the leaf entry decides. -/
theorem allCarry_of_covers (covers : Covers layout memory root bit)
    (page : IsPage virt) (outside : ¬ InWindow layout virt)
    (found : leafEntry memory root virt = some entry)
    (present : Has entry pagePBit) :
    AllCarry memory root virt bit ↔ Has entry bit := by
  rw [allCarry_iff found present]
  constructor
  · exact fun both => both.2
  · exact fun has =>
      ⟨covers virt entry page outside found present has, has⟩

end Coverage

/-! ## One call -/

/-- The call changes the permissions of no other page that is mapped, and gives
its own page the ones that were asked for. The window's own pages, which every
call maps anew, are left out. -/
structure Enforces (layout : Layout) (state state' : Mapper)
    (virt flags : Word) : Prop where
  others :
    ∀ other allowed, IsPage other → other ≠ virt → ¬ InWindow layout other →
      permissions state.mem state.pml4.toNat other = some allowed →
      permissions state'.mem state'.pml4.toNat other = some allowed
  here :
    Has flags pagePBit →
      permissions state'.mem state'.pml4.toNat virt = some (ofFlags flags)

/-- Where the flags close the page to execution, so are all other pages below
its level-4 entry already. Otherwise no upper entry of the page carries the
bit. -/
def NoExecuteFits (layout : Layout) (state : Mapper) (virt flags : Word) :
    Prop :=
  if Has flags pageNxBit then
    ∀ other allowed, IsPage other → other ≠ virt → ¬ InWindow layout other →
      permissions state.mem state.pml4.toNat other = some allowed →
      indexAt other 39 = indexAt virt 39 → allowed.noExecute = true
  else
    ¬ UpperCarries state.mem state.pml4.toNat virt pageNxBit

section Enforcement

variable {layout : Layout} {state state' : Mapper}
  {virt other flags entry target : Word} {allowed : Permissions}

theorem upperCarries_after
    (after : EntriesAfter layout state state' virt flags) {bit : Word} :
    UpperCarries state'.mem state'.pml4.toNat other bit ↔
      UpperCarries state.mem state.pml4.toNat other bit ∨
        (indexAt other 39 = indexAt virt 39 ∧ Has flags bit) := by
  constructor
  · rintro ⟨path, table, index, upper, walked, has⟩
    rw [walked_before after upper] at walked
    rcases (upper_after after upper walked).mp has with old | ⟨shared, flagged⟩
    · exact Or.inl ⟨path, table, index, upper, walked, old⟩
    · refine Or.inr ⟨?_, flagged⟩
      have first : ∀ {virt : Word}, path ++ [index] <+: upperPath virt →
          (path ++ [index]).head? = some (indexAt virt 39) := by
        intro virt inside
        cases path with
        | nil => exact congrArg some (List.cons_prefix_cons.mp inside).1
        | cons head path =>
            exact congrArg some (List.cons_prefix_cons.mp inside).1
      exact Option.some.inj ((first upper).symm.trans (first shared))
  · rintro (⟨path, table, index, upper, walked, has⟩ | ⟨shared, flagged⟩)
    · exact ⟨path, table, index, upper, (walked_before after upper).mpr walked,
        (upper_after after upper walked).mpr (Or.inl has)⟩
    · have upper : [] ++ [indexAt other 39] <+: upperPath other := by
        simp [upperPath]
      have upperHere : [] ++ [indexAt other 39] <+: upperPath virt := by
        simp [upperPath, shared]
      refine ⟨[], state.pml4.toNat, indexAt other 39, upper,
        (walked_before after upper).mpr rfl, ?_⟩
      exact (upper_after after upper rfl).mpr (Or.inr ⟨upperHere, flagged⟩)

/-- The leaf entry that `map_page` stores. -/
theorem stored_iff {bit : Word} (frame : IsFrame target)
    (inside : ptFlagsMask &&& bit = bit)
    (outside : pageAddrBits &&& bit = 0#64) :
    Has ((flags &&& ptFlagsMask) ||| target) bit ↔ Has flags bit := by
  rw [has_or, has_and_of_subset inside]
  exact or_iff_left (not_has_of_isFrame frame outside)

/-- All entries of the page of a call carry a bit exactly if its flags do. -/
theorem allCarry_here {bit : Word}
    (after : EntriesAfter layout state state' virt (flags &&& pml4FlagsMask))
    (frame : IsFrame target)
    (stored : leafEntry state'.mem state'.pml4.toNat virt =
      some ((flags &&& ptFlagsMask) ||| target))
    (present : Has ((flags &&& ptFlagsMask) ||| target) pagePBit)
    (upperKept : pml4FlagsMask &&& bit = bit)
    (leafKept : ptFlagsMask &&& bit = bit)
    (noAddress : pageAddrBits &&& bit = 0#64) :
    AllCarry state'.mem state'.pml4.toNat virt bit ↔ Has flags bit := by
  rw [allCarry_iff stored present, stored_iff frame leafKept noAddress]
  constructor
  · exact fun both => both.2
  · refine fun has => ⟨?_, has⟩
    intro path table index upper walked
    rw [walked_before after upper] at walked
    exact (upper_after after upper walked).mpr
      (Or.inr ⟨upper, (has_and_of_subset upperKept).mpr has⟩)

/-- What the call makes of its own page. -/
theorem permissions_here
    (after : EntriesAfter layout state state' virt (flags &&& pml4FlagsMask))
    (frame : IsFrame target)
    (stored : leafEntry state'.mem state'.pml4.toNat virt =
      some ((flags &&& ptFlagsMask) ||| target))
    (mapping : Has flags pagePBit) :
    ∃ allowed,
      permissions state'.mem state'.pml4.toNat virt = some allowed ∧
        (allowed.writable = true ↔ Has flags pageRwBit) ∧
        (allowed.user = true ↔ Has flags pageUsBit) ∧
        (allowed.noExecute = true ↔ Has flags pageNxBit ∨
          UpperCarries state.mem state.pml4.toNat virt pageNxBit) := by
  have present : Has ((flags &&& ptFlagsMask) ||| target) pagePBit :=
    (stored_iff frame (by decide) (by decide)).mpr mapping
  refine ⟨_, permissions_of_mapped stored present, ?_, ?_, ?_⟩
  · rw [writable_iff, allCarry_here after frame stored present (by decide)
      (by decide) (by decide)]
  · rw [user_iff, allCarry_here after frame stored present (by decide)
      (by decide) (by decide)]
  · rw [noExecute_iff stored present, upperCarries_after after,
      stored_iff frame (by decide) (by decide),
      has_and_of_subset (by decide)]
    tauto

/-- What the call makes of another page. -/
theorem permissions_elsewhere
    (after : EntriesAfter layout state state' virt flags)
    (covers : ∀ bit ∈ [pageRwBit, pageUsBit],
      Covers layout state.mem state.pml4.toNat bit ∧
        Covers layout state'.mem state'.pml4.toNat bit)
    (page : IsPage other) (different : other ≠ virt)
    (outside : ¬ InWindow layout other)
    (allows : permissions state.mem state.pml4.toNat other = some allowed) :
    ∃ allowed',
      permissions state'.mem state'.pml4.toNat other = some allowed' ∧
        (allowed'.writable = true ↔ allowed.writable = true) ∧
        (allowed'.user = true ↔ allowed.user = true) ∧
        (allowed'.noExecute = true ↔ allowed.noExecute = true ∨
          (indexAt other 39 = indexAt virt 39 ∧ Has flags pageNxBit)) := by
  obtain ⟨entry, found, present, rfl⟩ := mapped_of_permissions allows
  have found' := (after.elsewhere other page different outside).trans found
  have carry : ∀ bit ∈ [pageRwBit, pageUsBit],
      AllCarry state'.mem state'.pml4.toNat other bit ↔
        AllCarry state.mem state.pml4.toNat other bit := by
    intro bit member
    obtain ⟨before, afterwards⟩ := covers bit member
    rw [allCarry_of_covers before page outside found present,
      allCarry_of_covers afterwards page outside found' present]
  refine ⟨_, permissions_of_mapped found' present, ?_, ?_, ?_⟩
  · rw [writable_iff, writable_iff]
    exact carry pageRwBit (by simp)
  · rw [user_iff, user_iff]
    exact carry pageUsBit (by simp)
  · rw [noExecute_iff found' present, noExecute_iff found present,
      upperCarries_after after]
    exact or_right_comm

theorem permissions_ext {left right : Permissions}
    (writable : left.writable = true ↔ right.writable = true)
    (user : left.user = true ↔ right.user = true)
    (noExecute : left.noExecute = true ↔ right.noExecute = true) :
    left = right :=
  Permissions.ext (Bool.eq_iff_iff.mpr writable) (Bool.eq_iff_iff.mpr user)
    (Bool.eq_iff_iff.mpr noExecute)

/-- A mapping enforces what was asked for exactly if its no-execute flag agrees
with the tables. -/
theorem enforces_iff
    (after : EntriesAfter layout state state' virt (flags &&& pml4FlagsMask))
    (covers : ∀ bit ∈ [pageRwBit, pageUsBit],
      Covers layout state.mem state.pml4.toNat bit ∧
        Covers layout state'.mem state'.pml4.toNat bit)
    (frame : IsFrame target)
    (stored : leafEntry state'.mem state'.pml4.toNat virt =
      some ((flags &&& ptFlagsMask) ||| target))
    (mapping : Has flags pagePBit) :
    Enforces layout state state' virt flags ↔
      NoExecuteFits layout state virt flags := by
  have kept : Has (flags &&& pml4FlagsMask) pageNxBit ↔
      Has flags pageNxBit := has_and_of_subset (by decide)
  obtain ⟨own, ownEq, writable, user, noExecute⟩ :=
    permissions_here after frame stored mapping
  constructor
  · intro enforces
    rw [NoExecuteFits]
    split
    · next closes =>
      intro other allowed page different outside allows shared
      obtain ⟨allowed', allows', -, -, closed⟩ := permissions_elsewhere after
        covers page different outside allows
      rw [enforces.others other allowed page different outside allows]
        at allows'
      cases allows'
      exact closed.mpr (Or.inr ⟨shared, kept.mpr closes⟩)
    · next opens =>
      intro carries
      have asked := enforces.here mapping
      rw [ownEq] at asked
      cases asked
      exact opens (of_decide_eq_true (noExecute.mpr (Or.inr carries)))
  · intro fits
    refine ⟨?_, fun _ => ?_⟩
    · intro other allowed page different outside allows
      obtain ⟨allowed', allows', writable', user', closed⟩ :=
        permissions_elsewhere after covers page different outside allows
      rw [allows']
      refine congrArg some (permissions_ext writable' user' ?_)
      refine closed.trans (or_iff_left_of_imp ?_)
      rintro ⟨shared, closes⟩
      rw [NoExecuteFits, if_pos (kept.mp closes)] at fits
      exact fits other allowed page different outside allows shared
    · rw [ownEq]
      refine congrArg some (permissions_ext ?_ ?_ ?_)
      · exact writable.trans decide_eq_true_iff.symm
      · exact user.trans decide_eq_true_iff.symm
      · refine noExecute.trans (Iff.trans ?_ decide_eq_true_iff.symm)
        by_cases closes : Has flags pageNxBit
        · exact iff_of_true (Or.inl closes) closes
        · rw [NoExecuteFits, if_neg closes] at fits
          exact or_iff_left fits

/-- A call that puts no flags into upper entries changes nothing for the other
pages. -/
theorem enforces_of_unflagged
    (after : EntriesAfter layout state state' virt 0#64)
    (covers : ∀ bit ∈ [pageRwBit, pageUsBit],
      Covers layout state.mem state.pml4.toNat bit ∧
        Covers layout state'.mem state'.pml4.toNat bit)
    (unmap : ¬ Has flags pagePBit) :
    Enforces layout state state' virt flags := by
  refine ⟨?_, fun mapping => absurd mapping unmap⟩
  intro other allowed page different outside allows
  obtain ⟨allowed', allows', writable, user, closed⟩ :=
    permissions_elsewhere after covers page different outside allows
  rw [allows']
  refine congrArg some (permissions_ext writable user ?_)
  refine closed.trans (or_iff_left_of_imp ?_)
  rintro ⟨-, closes⟩
  exact absurd closes (by decide)

end Enforcement

end BeaverOS.Protection
