import BeaverOS.Memory.PageTree

/-!
# Changing page tables

The three changes that the page-table code of both kernels is made of: a leaf
entry is stored, flags are OR-ed into a present upper entry, and an empty table
is linked below a missing entry. Each lemma says which entries stay and what
becomes of the tree and of the translations.
-/

namespace BeaverOS.TableUpdate

open BeaverOS.ByteMemory
open BeaverOS.RadixTree
open BeaverOS.Paging
open BeaverOS.PageTree

section Updates

variable {memory memory' : Memory} {root table fresh : Nat}
  {virt flags word : Word} {index : Index} {path : List Index}

/-! ## Storing one leaf entry -/

/-- `memory'` is `memory` with `value` stored as the leaf entry of `virt`. -/
structure LeafUpdated (memory memory' : Memory) (root : Nat)
    (virt value : Word) : Prop where
  here : leafEntry memory' root virt = some value
  entry_eq :
    ∀ path table index, path.length ≤ 3 →
      walk (child memory) root path = some table →
      ¬ (path = upperPath virt ∧ index = leafIndex virt) →
      readEntry memory' table index = readEntry memory table index

theorem LeafUpdated.child_eq {value : Word}
    (updated : LeafUpdated memory memory' root virt value) :
    ∀ path table index, path.length < 3 →
      walk (child memory) root path = some table →
      child memory' table index = child memory table index := by
  intro path table index short reached
  refine child_eq_of_readEntry (updated.entry_eq path table index
    (Nat.le_of_lt short) reached ?_)
  rintro ⟨rfl, _⟩
  simp at short

theorem LeafUpdated.elsewhere {value other : Word}
    (updated : LeafUpdated memory memory' root virt value)
    (page : IsPage virt) (otherPage : IsPage other)
    (different : other ≠ virt) :
    leafEntry memory' root other = leafEntry memory root other := by
  rw [leafEntry, leafEntry, leafTable_congr updated.child_eq other]
  cases found : leafTable memory root other with
  | none => rfl
  | some table =>
      refine congrArg some (updated.entry_eq _ table _
        (Nat.le_of_eq (length_upperPath other)) found ?_)
      rintro ⟨samePath, sameIndex⟩
      exact different (otherPage.ext page samePath sameIndex)

theorem storeLeaf (tree : TableTree memory root)
    (found : leafTable memory root virt = some table) (value : Word) :
    LeafUpdated memory
      (writeWord memory (entryAddress table (leafIndex virt)) value)
      root virt value := by
  have aligned := (walk_bounds tree found).1
  have others : ∀ path other index, path.length ≤ 3 →
      walk (child memory) root path = some other →
      ¬ (path = upperPath virt ∧ index = leafIndex virt) →
      readEntry
          (writeWord memory (entryAddress table (leafIndex virt)) value)
          other index =
        readEntry memory other index := by
    intro path other index short reached different
    refine readWord_writeWord_of_disjoint
      (entryAddress_disjoint (walk_bounds tree reached).1 aligned ?_)
    rintro ⟨rfl, sameIndex⟩
    exact different ⟨tree.separated _ _ _ short (by simp) reached found,
      sameIndex⟩
  refine ⟨?_, others⟩
  have sameTable : leafTable
      (writeWord memory (entryAddress table (leafIndex virt)) value) root
      virt = some table := by
    refine (leafTable_congr ?_ virt).trans found
    intro path other index short reached
    refine child_eq_of_readEntry (others path other index
      (Nat.le_of_lt short) reached ?_)
    rintro ⟨rfl, _⟩
    simp at short
  rw [leafEntry_of_leafTable sameTable, readEntry, readWord_writeWord_same]

/-! ## OR-ing flags into a present entry -/

/-- `memory'` is `memory` with `word` in the entry `index` of the upper table
at `path`, and nothing else changed in the tree. -/
structure EntryFlagged (memory memory' : Memory) (root table : Nat)
    (path : List Index) (index : Index) (word : Word) : Prop where
  here : readEntry memory' table index = word
  entry_eq :
    ∀ other reached below, other.length ≤ 3 →
      walk (child memory) root other = some reached →
      ¬ (other = path ∧ below = index) →
      readEntry memory' reached below = readEntry memory reached below
  child_eq :
    ∀ other reached below, other.length < 3 →
      walk (child memory) root other = some reached →
      child memory' reached below = child memory reached below

theorem flagEntry (tree : TableTree memory root) (short : path.length < 3)
    (reached : walk (child memory) root path = some table)
    (present : Has (readEntry memory table index) pagePBit)
    (sameFrame :
      frameOf (readEntry memory table index ||| flags) =
        frameOf (readEntry memory table index)) :
    EntryFlagged memory
      (writeWord memory (entryAddress table index)
        (readEntry memory table index ||| flags))
      root table path index (readEntry memory table index ||| flags) := by
  have aligned := (walk_bounds tree reached).1
  have here : readEntry
      (writeWord memory (entryAddress table index)
        (readEntry memory table index ||| flags)) table index =
      readEntry memory table index ||| flags :=
    readWord_writeWord_same _ _ _
  have others : ∀ other upper below, other.length ≤ 3 →
      walk (child memory) root other = some upper →
      ¬ (other = path ∧ below = index) →
      readEntry
          (writeWord memory (entryAddress table index)
            (readEntry memory table index ||| flags)) upper below =
        readEntry memory upper below := by
    intro other upper below otherShort otherReached different
    refine readWord_writeWord_of_disjoint
      (entryAddress_disjoint (walk_bounds tree otherReached).1 aligned ?_)
    rintro ⟨rfl, sameIndex⟩
    exact different ⟨tree.separated _ _ _ otherShort (by omega) otherReached
      reached, sameIndex⟩
  refine ⟨here, others, ?_⟩
  intro other upper below otherShort otherReached
  by_cases same : other = path ∧ below = index
  · obtain ⟨rfl, rfl⟩ := same
    rw [reached] at otherReached
    cases otherReached
    have still : Has (readEntry memory table below ||| flags) pagePBit :=
      has_or.mpr (Or.inl present)
    unfold child
    rw [here, if_pos still, if_pos present, sameFrame]
  · exact child_eq_of_readEntry
      (others other upper below (Nat.le_of_lt otherShort) otherReached same)

theorem EntryFlagged.translation_eq
    (flagged : EntryFlagged memory memory' root table path index word)
    (short : path.length < 3) (virt : Word) :
    translation memory' root virt = translation memory root virt := by
  apply translation_congr
  rw [leafEntry, leafEntry, leafTable_congr flagged.child_eq]
  cases found : leafTable memory root virt with
  | none => rfl
  | some leaf =>
      refine congrArg some (flagged.entry_eq _ leaf _
        (Nat.le_of_eq (length_upperPath virt)) found ?_)
      rintro ⟨rfl, _⟩
      simp at short

/-! ## Linking an empty table -/

/-- `memory'` is `memory` with the empty table `fresh` linked by `word` below
the missing entry `index` of the table at `path`. -/
structure TableLinked (memory memory' : Memory) (root table : Nat)
    (path : List Index) (index : Index) (fresh : Nat) (word : Word) :
    Prop where
  tree : TableTree memory' root
  here : readEntry memory' table index = word
  empty : ∀ below, readEntry memory' fresh below = 0#64
  entry_eq :
    ∀ other reached below, other.length ≤ 3 →
      walk (child memory) root other = some reached →
      ¬ (other = path ∧ below = index) →
      readEntry memory' reached below = readEntry memory reached below
  walk_eq :
    ∀ other : List Index, other.length ≤ 3 →
      walk (child memory') root other =
        if other = path ++ [index] then some fresh
        else walk (child memory) root other

theorem linkTable (tree : TableTree memory root) (short : path.length < 3)
    (reached : walk (child memory) root path = some table)
    (missing : ¬ Has (readEntry memory table index) pagePBit)
    (aligned : fresh % 4096 = 0)
    (unreached : ¬ IsTable memory root fresh)
    (present : Has word pagePBit) (leads : (frameOf word).toNat = fresh) :
    TableLinked memory
      (writeWord (fill memory fresh 4096 0) (entryAddress table index) word)
      root table path index fresh word := by
  have tableAligned := (walk_bounds tree reached).1
  have different : ∀ other upper, other.length ≤ 3 →
      walk (child memory) root other = some upper → upper ≠ fresh :=
    fun other upper otherShort otherReached equal =>
      unreached (equal ▸ ⟨other, otherShort, otherReached⟩)
  have apart := different path table (by omega) reached
  have here : readEntry
      (writeWord (fill memory fresh 4096 0) (entryAddress table index) word)
      table index = word := readWord_writeWord_same _ _ _
  have empty : ∀ below, readEntry
      (writeWord (fill memory fresh 4096 0) (entryAddress table index) word)
      fresh below = 0#64 := by
    intro below
    have inside := entryAddress_mem_frame fresh below
    rw [readEntry, readWord_writeWord_of_disjoint
      (entryAddress_disjoint aligned tableAligned
        fun both => apart both.1.symm)]
    exact readWord_fill_zero inside.1 inside.2
  have others : ∀ other upper below, other.length ≤ 3 →
      walk (child memory) root other = some upper →
      ¬ (other = path ∧ below = index) →
      readEntry
          (writeWord (fill memory fresh 4096 0) (entryAddress table index)
            word) upper below =
        readEntry memory upper below := by
    intro other upper below otherShort otherReached distinct
    have upperAligned := (walk_bounds tree otherReached).1
    have notFresh := different other upper otherShort otherReached
    have inside := entryAddress_mem_frame upper below
    rw [readEntry, readWord_writeWord_of_disjoint
      (entryAddress_disjoint upperAligned tableAligned ?_),
      readWord_fill_of_disjoint (by omega)]
    · rfl
    · rintro ⟨rfl, sameIndex⟩
      exact distinct ⟨tree.separated _ _ _ otherShort (by omega)
        otherReached reached, sameIndex⟩
  have links : Links (child memory)
      (child (writeWord (fill memory fresh 4096 0)
        (entryAddress table index) word))
      root 3 path table index fresh := by
    refine ⟨short, reached, ?_, ?_, ?_, ?_, ?_⟩
    · rw [child, if_neg missing]
    · rw [child, here, if_pos present, leads]
    · intro other otherShort otherReached
      exact different other fresh otherShort otherReached rfl
    · intro below
      rw [child, empty, if_neg (by decide)]
    · intro other upper below otherShort otherReached distinct
      refine child_eq_of_readEntry (others other upper below
        (Nat.le_of_lt otherShort) otherReached ?_)
      rintro ⟨rfl, sameIndex⟩
      rw [reached] at otherReached
      cases otherReached
      exact distinct ⟨rfl, sameIndex⟩
  exact ⟨⟨tree.root_aligned, tree.root_bounded,
      links.separated tree.separated⟩, here, empty, others,
    links.walk_eq tree.separated⟩

/-- An empty table translates nothing. -/
theorem TableLinked.translation_eq
    (linked : TableLinked memory memory' root table path index fresh word)
    (short : path.length < 3)
    (reached : walk (child memory) root path = some table)
    (missing : ¬ Has (readEntry memory table index) pagePBit)
    (virt : Word) :
    translation memory' root virt = translation memory root virt := by
  have leaf := linked.walk_eq (upperPath virt) (by simp)
  by_cases here : upperPath virt = path ++ [index]
  · rw [if_pos here] at leaf
    have before : leafTable memory root virt = none := by
      rw [leafTable, here, walk_snoc_of_walk reached, child, if_neg missing]
    rw [translation_of_leafEntry (leafEntry_of_leafTable leaf), linked.empty,
      if_neg (by decide), translation, leafEntry_eq_none before]
    rfl
  · rw [if_neg here] at leaf
    apply translation_congr
    have sameTable :
        leafTable memory' root virt = leafTable memory root virt := leaf
    rw [leafEntry, leafEntry, sameTable]
    cases found : leafTable memory root virt with
    | none => rfl
    | some table =>
        refine congrArg some (linked.entry_eq _ table _
          (Nat.le_of_eq (length_upperPath virt)) found ?_)
        rintro ⟨rfl, _⟩
        simp at short

end Updates

end BeaverOS.TableUpdate
