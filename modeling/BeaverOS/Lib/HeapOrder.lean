import Mathlib.Algebra.Order.Group.Nat
import Mathlib.Data.Multiset.AddSub
import Mathlib.Data.Multiset.Range
import Mathlib.Logic.Equiv.Basic

/-!
# Heap order on an array whose nodes have the parent `i / 2`

The root is node `0`. It is its own parent, and node `1` is its only child;
every other node `i` has the children `2 * i` and `2 * i + 1`. The order is any
total preorder. `UpOrdered` and `DownOrdered` say that the array is ordered but
for one node, which may be too small for its parent or too large for its
children; swapping it with that neighbour moves the exception one level.
-/

namespace BeaverOS.HeapOrder

universe u

/-- A total preorder. -/
structure TotalPreorder {α : Type u} (le : α → α → Prop) : Prop where
  total : ∀ first second, le first second ∨ le second first
  trans : ∀ {first second third}, le first second → le second third →
    le first third

section Arrays

variable {α : Type u} {le : α → α → Prop} {size item child index : Nat}
  {data data' data'' : Nat → α} {value : α}

theorem TotalPreorder.refl (order : TotalPreorder le) (first : α) :
    le first first :=
  (order.total first first).elim id id

theorem TotalPreorder.of_not (order : TotalPreorder le) {first second : α}
    (greater : ¬ le first second) : le second first :=
  (order.total first second).resolve_left greater

/-! ## Rearrangements -/

/-- The first `size` items. -/
def contents (size : Nat) (data : Nat → α) : Multiset α :=
  (Multiset.range size).map data

/-- `data` with two items exchanged. -/
def swapped (data : Nat → α) (item child : Nat) : Nat → α :=
  data ∘ Equiv.swap item child

/-- `data'` has the items of `data` in some order, and the same words behind
them. -/
structure Rearranged (size : Nat) (data data' : Nat → α) : Prop where
  contents : contents size data' = contents size data
  behind : ∀ index, size ≤ index → data' index = data index

theorem Rearranged.refl : Rearranged size data data :=
  ⟨rfl, fun _ _ => rfl⟩

theorem Rearranged.trans (first : Rearranged size data data')
    (second : Rearranged size data' data'') :
    Rearranged size data data'' :=
  ⟨second.contents.trans first.contents,
    fun index far =>
      (second.behind index far).trans (first.behind index far)⟩

@[simp] theorem swapped_left : swapped data item child item = data child := by
  rw [swapped, Function.comp_apply, Equiv.swap_apply_left]

@[simp] theorem swapped_right :
    swapped data item child child = data item := by
  rw [swapped, Function.comp_apply, Equiv.swap_apply_right]

theorem swapped_of_ne (left : index ≠ item) (right : index ≠ child) :
    swapped data item child index = data index := by
  rw [swapped, Function.comp_apply, Equiv.swap_apply_of_ne_of_ne left right]

/-- The two stores of an exchange. -/
theorem update_update_eq_swapped :
    Function.update (Function.update data item (data child)) child
      (data item) = swapped data item child := by
  funext index
  by_cases atChild : index = child
  · rw [atChild, Function.update_self, swapped_right]
  · rw [Function.update_of_ne atChild]
    by_cases atItem : index = item
    · rw [atItem, Function.update_self, swapped_left]
    · rw [Function.update_of_ne atItem, swapped_of_ne atItem atChild]

theorem map_swap_range (itemBound : item < size) (childBound : child < size) :
    (Multiset.range size).map (Equiv.swap item child) =
      Multiset.range size := by
  have inside : ∀ index, index < size →
      Equiv.swap item child index < size := by
    intro index bound
    rw [Equiv.swap_apply_def]
    split
    · exact childBound
    · split
      · exact itemBound
      · exact bound
  apply (Multiset.Nodup.ext ((Multiset.nodup_range size).map
    (Equiv.swap item child).injective) (Multiset.nodup_range size)).mpr
  intro index
  rw [Multiset.mem_map, Multiset.mem_range]
  constructor
  · rintro ⟨source, member, rfl⟩
    exact inside source (Multiset.mem_range.mp member)
  · intro bound
    exact ⟨Equiv.swap item child index,
      Multiset.mem_range.mpr (inside index bound),
      Equiv.swap_apply_self item child index⟩

theorem rearranged_swapped (itemBound : item < size)
    (childBound : child < size) :
    Rearranged size data (swapped data item child) := by
  constructor
  · rw [contents, contents, swapped, ← Multiset.map_map,
      map_swap_range itemBound childBound]
  · intro index far
    exact swapped_of_ne (by omega) (by omega)

theorem mem_contents (bound : index < size) :
    data index ∈ contents size data :=
  Multiset.mem_map_of_mem data (Multiset.mem_range.mpr bound)

theorem exists_of_mem_contents (member : value ∈ contents size data) :
    ∃ index < size, data index = value := by
  obtain ⟨index, bound, equality⟩ := Multiset.mem_map.mp member
  exact ⟨index, Multiset.mem_range.mp bound, equality⟩

theorem contents_succ (size : Nat) (data : Nat → α) :
    contents (size + 1) data = data size ::ₘ contents size data := by
  rw [contents, Multiset.range_succ, Multiset.map_cons, contents]

theorem contents_congr (same : ∀ index < size, data' index = data index) :
    contents size data' = contents size data :=
  Multiset.map_congr rfl fun index member =>
    same index (Multiset.mem_range.mp member)

/-- Moving the last item over the root removes the root. -/
theorem contents_replace_root :
    data 0 ::ₘ contents size (Function.update data 0 (data size)) =
      contents (size + 1) data := by
  cases size with
  | zero =>
      rw [Function.update_eq_self]
      exact (contents_succ 0 data).symm
  | succ size =>
      have moved :
          Rearranged (size + 2) data (swapped data 0 (size + 1)) :=
        rearranged_swapped (by omega) (by omega)
      rw [← moved.contents,
        contents_succ (size + 1) (swapped data 0 (size + 1)), swapped_right]
      refine congrArg (data 0 ::ₘ ·) (contents_congr ?_)
      intro index bound
      by_cases root : index = 0
      · rw [root, Function.update_self, swapped_left]
      · rw [Function.update_of_ne root, swapped_of_ne root (by omega)]

/-! ## Heap order -/

/-- No item is below its parent. -/
def Ordered (le : α → α → Prop) (size : Nat) (data : Nat → α) : Prop :=
  ∀ index < size, le (data (index / 2)) (data index)

/-- Ordered, but `item` may be below its parent. -/
structure UpOrdered (le : α → α → Prop) (size : Nat) (data : Nat → α)
    (item : Nat) : Prop where
  except :
    ∀ index < size, index ≠ item → le (data (index / 2)) (data index)
  below :
    ∀ index < size, index / 2 = item → index ≠ item →
      le (data (item / 2)) (data index)

/-- Ordered, but the children of `item` may be below it. -/
structure DownOrdered (le : α → α → Prop) (size : Nat) (data : Nat → α)
    (item : Nat) : Prop where
  except :
    ∀ index < size, index / 2 ≠ item ∨ index = item →
      le (data (index / 2)) (data index)
  below :
    item ≠ 0 → ∀ index < size, index / 2 = item → index ≠ item →
      le (data (item / 2)) (data index)

/-- The root is a least item. -/
theorem Ordered.root_le (order : TotalPreorder le)
    (ordered : Ordered le size data) :
    ∀ index < size, le (data 0) (data index) := by
  intro index
  induction index using Nat.strongRecOn with
  | ind index inductionHypothesis =>
      intro bound
      by_cases root : index = 0
      · rw [root]
        exact order.refl _
      · exact order.trans
          (inductionHypothesis (index / 2) (by omega) (by omega))
          (ordered index bound)

/-- An item stored behind the others. -/
theorem Ordered.upOrdered_update (ordered : Ordered le size data) :
    UpOrdered le (size + 1) (Function.update data size value) size := by
  constructor
  · intro index bound different
    rw [Function.update_of_ne (by omega), Function.update_of_ne different]
    exact ordered index (by omega)
  · intro index bound above different
    omega

theorem UpOrdered.ordered (up : UpOrdered le size data item)
    (inOrder : le (data (item / 2)) (data item)) :
    Ordered le size data := by
  intro index bound
  by_cases same : index = item
  · rw [same]
    exact inOrder
  · exact up.except index bound same

theorem UpOrdered.swap (order : TotalPreorder le)
    (up : UpOrdered le size data item) (bound : item < size)
    (greater : ¬ le (data (item / 2)) (data item)) :
    UpOrdered le size (swapped data item (item / 2)) (item / 2) := by
  have positive : item / 2 < item := by
    rcases Nat.eq_zero_or_pos item with rfl | positive
    · exact absurd (order.refl _) greater
    · omega
  have less := order.of_not greater
  constructor
  · intro index indexBound different
    by_cases atItem : index = item
    · subst atItem
      rw [swapped_right, swapped_left]
      exact less
    · rw [swapped_of_ne atItem different]
      by_cases below : index / 2 = item
      · rw [below, swapped_left]
        exact up.below index indexBound below atItem
      · by_cases beside : index / 2 = item / 2
        · rw [beside, swapped_right]
          have sibling := up.except index indexBound atItem
          rw [beside] at sibling
          exact order.trans less sibling
        · rw [swapped_of_ne below beside]
          exact up.except index indexBound atItem
  · intro index indexBound beside different
    -- the parent of `item` was in order with its own parent
    have parentInOrder :
        le (data (item / 2 / 2)) (data (item / 2)) :=
      up.except (item / 2) (by omega) (by omega)
    have parentKept :
        le (swapped data item (item / 2) (item / 2 / 2)) (data (item / 2)) := by
      by_cases root : item / 2 / 2 = item / 2
      · rw [root, swapped_right]
        exact less
      · rw [swapped_of_ne (by omega) root]
        exact parentInOrder
    by_cases atItem : index = item
    · rw [atItem, swapped_left]
      exact parentKept
    · rw [swapped_of_ne atItem different]
      have sibling := up.except index indexBound atItem
      rw [beside] at sibling
      exact order.trans parentKept sibling

/-- A new item in place of the root. -/
theorem Ordered.downOrdered_update {fewer : Nat} (order : TotalPreorder le)
    (ordered : Ordered le size data) (atMost : fewer ≤ size) :
    DownOrdered le fewer (Function.update data 0 value) 0 := by
  constructor
  · rintro index bound (apart | rfl)
    · rw [Function.update_of_ne apart, Function.update_of_ne (by omega)]
      exact ordered index (by omega)
    · exact order.refl _
  · intro notRoot
    exact absurd rfl notRoot

theorem DownOrdered.ordered (down : DownOrdered le size data item)
    (inOrder : ∀ index < size, index / 2 = item → index ≠ item →
      le (data item) (data index)) :
    Ordered le size data := by
  intro index bound
  by_cases below : index / 2 = item ∧ index ≠ item
  · rw [below.1]
    exact inOrder index bound below.1 below.2
  · exact down.except index bound (by omega)

theorem DownOrdered.swap (order : TotalPreorder le)
    (down : DownOrdered le size data item) (bound : child < size)
    (isChild : child / 2 = item) (different : child ≠ item)
    (least : ∀ index < size, index / 2 = item → index ≠ item →
      le (data child) (data index))
    (greater : ¬ le (data item) (data child)) :
    DownOrdered le size (swapped data item child) child := by
  have less := order.of_not greater
  constructor
  · intro index indexBound off
    by_cases atChild : index = child
    · subst atChild
      rw [isChild, swapped_left, swapped_right]
      exact less
    · by_cases atItem : index = item
      · subst atItem
        rw [swapped_left]
        by_cases root : index = 0
        · subst root
          rw [Nat.zero_div, swapped_left]
          exact order.refl _
        · rw [swapped_of_ne (by omega) (by omega)]
          exact down.below root child bound isChild different
      · rw [swapped_of_ne atItem atChild]
        by_cases below : index / 2 = item
        · rw [below, swapped_left]
          exact least index indexBound below atItem
        · rw [swapped_of_ne below (by omega)]
          exact down.except index indexBound (Or.inl below)
  · intro _ index indexBound below apart
    have kept := down.except index indexBound (Or.inl (by omega))
    rw [isChild, swapped_left, swapped_of_ne (by omega) (by omega)]
    rw [below] at kept
    exact kept

end Arrays

end BeaverOS.HeapOrder
