import Mathlib.Algebra.Order.Group.Multiset
import BeaverOS.Lib.HeapOrder
import BeaverOS.Lib.Transition

/-!
# The binary heap

`data/heap.c`. Pointers are values of an arbitrary type, and the comparator is
any function into the integers. An access outside the allocation has no result,
and neither has a loop that does not end.
-/

namespace BeaverOS.Heap

open BeaverOS.HeapOrder
open BeaverOS.Transition

/-- `min_heap_t`. The words that were never written have arbitrary values. The
comparator is an argument of the operations, since what it reads changes. The
sizes are natural numbers: `size` items take 8 bytes each of memory that was
allocated, so `capacity * 8` does not wrap as long as `realloc` succeeds. -/
structure MinHeap (α : Type) where
  data : Nat → α
  size : Nat
  capacity : Nat

/-- The items that the heap holds. -/
def MinHeap.items {α : Type} (heap : MinHeap α) : Multiset α :=
  contents heap.size heap.data

section Model

variable {α : Type}

/-- `make_heap`. -/
def makeHeap (uninitialised : Nat → α) : MinHeap α :=
  { data := uninitialised, size := 0, capacity := 1 }

/-- `data[index]`, in an allocation of `bound` words. -/
def load (bound : Nat) (data : Nat → α) (index : Nat) : Option α :=
  if index < bound then some (data index) else none

/-- `data[index] = value`. -/
def store (bound : Nat) (data : Nat → α) (index : Nat) (value : α) :
    Option (Nat → α) :=
  if index < bound then some (Function.update data index value) else none

/-- The exchange of two words through `t`. -/
def exchange (bound : Nat) (data : Nat → α) (item child : Nat) :
    Option (Nat → α) := do
  let t ← load bound data item
  let data ← store bound data item (← load bound data child)
  store bound data child t

/-- `sift_down`, run for at most `fuel` rounds. -/
def siftDown (cmp : α → α → Int) (bound size : Nat) :
    Nat → (Nat → α) → Nat → Option (Nat → α)
  | 0, _, _ => none
  | fuel + 1, data, item => do
      if item * 2 < size then
        let right ←
          if item * 2 + 1 < size then
            pure (cmp (← load bound data (item * 2 + 1))
              (← load bound data (item * 2)) < 0 : Bool)
          else
            pure false
        if right then
          if cmp (← load bound data (item * 2 + 1))
              (← load bound data item) < 0 then
            let data ← exchange bound data item (item * 2 + 1)
            siftDown cmp bound size fuel data (item * 2 + 1)
          else
            return data
        else
          if cmp (← load bound data (item * 2))
              (← load bound data item) < 0 then
            let data ← exchange bound data item (item * 2)
            siftDown cmp bound size fuel data (item * 2)
          else
            return data
      else
        return data

/-- `sift_up`, run for at most `fuel` rounds. -/
def siftUp (cmp : α → α → Int) (bound : Nat) :
    Nat → (Nat → α) → Nat → Option (Nat → α)
  | 0, _, _ => none
  | fuel + 1, data, item => do
      if cmp (← load bound data item) (← load bound data (item / 2)) < 0 then
        let data ← exchange bound data item (item / 2)
        siftUp cmp bound fuel data (item / 2)
      else
        return data

/-- `heap_pop`. On an empty heap the decrement of `size` wraps, and the word
read then is not in the allocation. -/
def heapPop (cmp : α → α → Int) (heap : MinHeap α) :
    Option (α × MinHeap α) := do
  let ret ← load heap.capacity heap.data 0
  if heap.size = 0 then
    none
  else
    let size := heap.size - 1
    let last ← load heap.capacity heap.data size
    let data ← store heap.capacity heap.data 0 last
    let data ← siftDown cmp heap.capacity size (size + 1) data 0
    return (ret, { heap with data := data, size := size })

/-- `heap_push`. `realloc` keeps the words that there were. -/
def heapPush (cmp : α → α → Int) (heap : MinHeap α) (item : α) :
    Option (MinHeap α) := do
  let capacity :=
    if heap.size + 1 > heap.capacity then heap.capacity * 2
    else heap.capacity
  let data ← store capacity heap.data heap.size item
  let data ← siftUp cmp capacity (heap.size + 1) data heap.size
  return { data := data, size := heap.size + 1, capacity := capacity }

end Model

/-! ## The loops -/

section Loops

variable {α : Type} {cmp : α → α → Int} {bound size fuel item child : Nat}
  {data : Nat → α}

theorem load_of_lt (inside : item < bound) :
    load bound data item = some (data item) :=
  if_pos inside

theorem exchange_of_lt (itemBound : item < bound) (childBound : child < bound) :
    exchange bound data item child = some (swapped data item child) := by
  simp only [exchange, load_of_lt itemBound, load_of_lt childBound, store,
    if_pos itemBound, if_pos childBound, Option.bind_eq_bind,
    Option.bind_some, update_update_eq_swapped]

/-- The child that `sift_down` compares with `item`. -/
def smallerChild (cmp : α → α → Int) (size : Nat) (data : Nat → α)
    (item : Nat) : Nat :=
  if item * 2 + 1 < size ∧ cmp (data (item * 2 + 1)) (data (item * 2)) < 0
  then item * 2 + 1
  else item * 2

/-- One round of `sift_down`. -/
theorem siftDown_succ (within : size ≤ bound) :
    siftDown cmp bound size (fuel + 1) data item =
      if item * 2 < size ∧
          cmp (data (smallerChild cmp size data item)) (data item) < 0 then
        siftDown cmp bound size fuel
          (swapped data item (smallerChild cmp size data item))
          (smallerChild cmp size data item)
      else
        some data := by
  rw [siftDown]
  by_cases left : item * 2 < size
  · have loadItem : load bound data item = some (data item) :=
      load_of_lt (by omega)
    have loadLeft : load bound data (item * 2) = some (data (item * 2)) :=
      load_of_lt (by omega)
    have exchangeLeft : exchange bound data item (item * 2) =
        some (swapped data item (item * 2)) :=
      exchange_of_lt (by omega) (by omega)
    by_cases right : item * 2 + 1 < size
    · have loadRight :
          load bound data (item * 2 + 1) = some (data (item * 2 + 1)) :=
        load_of_lt (by omega)
      have exchangeRight : exchange bound data item (item * 2 + 1) =
          some (swapped data item (item * 2 + 1)) :=
        exchange_of_lt (by omega) (by omega)
      by_cases smaller : cmp (data (item * 2 + 1)) (data (item * 2)) < 0
      · simp [left, right, smaller, smallerChild, loadItem, loadLeft,
          loadRight, exchangeRight]
      · simp [left, right, smaller, smallerChild, loadItem, loadLeft,
          loadRight, exchangeLeft]
    · simp [left, right, smallerChild, loadItem, loadLeft, exchangeLeft]
  · simp [left]

/-- One round of `sift_up`. -/
theorem siftUp_succ (itemBound : item < bound) :
    siftUp cmp bound (fuel + 1) data item =
      if cmp (data item) (data (item / 2)) < 0 then
        siftUp cmp bound fuel (swapped data item (item / 2)) (item / 2)
      else
        some data := by
  have loadItem : load bound data item = some (data item) :=
    load_of_lt itemBound
  have loadParent : load bound data (item / 2) = some (data (item / 2)) :=
    load_of_lt (by omega)
  have exchangeParent : exchange bound data item (item / 2) =
      some (swapped data item (item / 2)) :=
    exchange_of_lt itemBound (by omega)
  simp [siftUp, loadItem, loadParent, exchangeParent]

theorem smallerChild_cases (cmp : α → α → Int) (size : Nat) (data : Nat → α)
    (item : Nat) :
    smallerChild cmp size data item = item * 2 ∨
      smallerChild cmp size data item = item * 2 + 1 ∧
        item * 2 + 1 < size := by
  rw [smallerChild]
  split
  · next right => exact Or.inr ⟨rfl, right.1⟩
  · exact Or.inl rfl

theorem smallerChild_lt (left : item * 2 < size) :
    smallerChild cmp size data item < size := by
  rcases smallerChild_cases cmp size data item with isLeft | ⟨isRight, right⟩
  · rw [isLeft]
    exact left
  · rw [isRight]
    exact right

theorem smallerChild_div : smallerChild cmp size data item / 2 = item := by
  rcases smallerChild_cases cmp size data item with isLeft | ⟨isRight, _⟩ <;> omega

/-- An item below another one is not the same item. -/
theorem lt_smallerChild (irreflexive : ∀ value, ¬ cmp value value < 0)
    (less : cmp (data (smallerChild cmp size data item)) (data item) < 0) :
    item < smallerChild cmp size data item := by
  have different : smallerChild cmp size data item ≠ item := by
    intro same
    rw [same] at less
    exact irreflexive _ less
  rcases smallerChild_cases cmp size data item with isLeft | ⟨isRight, _⟩ <;> omega

/-! ### Termination -/

/-- `sift_down` ends, whatever the comparator says about different items. -/
theorem siftDown_rearranges (irreflexive : ∀ value, ¬ cmp value value < 0)
    (within : size ≤ bound) (enough : size - item < fuel) :
    ∃ data', siftDown cmp bound size fuel data item = some data' ∧
      Rearranged size data data' := by
  induction fuel generalizing data item with
  | zero => exact absurd enough (Nat.not_lt_zero _)
  | succ fuel inductionHypothesis =>
      rw [siftDown_succ within]
      split
      · next continued =>
          obtain ⟨left, less⟩ := continued
          have deeper := lt_smallerChild irreflexive less
          have inside : smallerChild cmp size data item < size :=
            smallerChild_lt left
          obtain ⟨data', result, rearranged⟩ :
              ∃ data', siftDown cmp bound size fuel
                  (swapped data item (smallerChild cmp size data item))
                  (smallerChild cmp size data item) = some data' ∧
                Rearranged size
                  (swapped data item (smallerChild cmp size data item))
                  data' :=
            inductionHypothesis (by omega)
          exact ⟨data', result,
            (rearranged_swapped (by omega) inside).trans rearranged⟩
      · exact ⟨data, rfl, Rearranged.refl⟩

/-- `sift_up` ends, whatever the comparator says about different items. -/
theorem siftUp_rearranges (irreflexive : ∀ value, ¬ cmp value value < 0)
    (itemBound : item < size) (within : size ≤ bound)
    (enough : item < fuel) :
    ∃ data', siftUp cmp bound fuel data item = some data' ∧
      Rearranged size data data' := by
  induction fuel generalizing data item with
  | zero => exact absurd enough (Nat.not_lt_zero _)
  | succ fuel inductionHypothesis =>
      rw [siftUp_succ (by omega)]
      split
      · next less =>
          have notRoot : item ≠ 0 := by
            rintro rfl
            exact irreflexive _ less
          obtain ⟨data', result, rearranged⟩ :
              ∃ data', siftUp cmp bound fuel (swapped data item (item / 2))
                  (item / 2) = some data' ∧
                Rearranged size (swapped data item (item / 2)) data' :=
            inductionHypothesis (by omega) (by omega)
          exact ⟨data', result,
            (rearranged_swapped itemBound (by omega)).trans rearranged⟩
      · exact ⟨data, rfl, Rearranged.refl⟩

/-! ### Access -/

/-- `sift_down` touches no word from `size` on: it does the same when these
words are not there. -/
theorem siftDown_within (within : size ≤ bound) :
    siftDown cmp bound size fuel data item =
      siftDown cmp size size fuel data item := by
  induction fuel generalizing data item with
  | zero => rfl
  | succ fuel inductionHypothesis =>
      rw [siftDown_succ within, siftDown_succ (Nat.le_refl size)]
      split
      · exact inductionHypothesis
      · rfl

/-- `sift_up` touches no word behind `item`. -/
theorem siftUp_within (itemBound : item < size) (within : size ≤ bound) :
    siftUp cmp bound fuel data item = siftUp cmp size fuel data item := by
  induction fuel generalizing data item with
  | zero => rfl
  | succ fuel inductionHypothesis =>
      rw [siftUp_succ (by omega), siftUp_succ itemBound]
      split
      · exact inductionHypothesis (by omega)
      · rfl

/-! ### Order -/

/-- On these items, a negative result of the comparator means less. -/
def Decides (cmp : α → α → Int) (le : α → α → Prop) (items : Multiset α) :
    Prop :=
  ∀ first ∈ items, ∀ second ∈ items,
    cmp first second < 0 ↔ ¬ le second first

variable {le : α → α → Prop} {data' : Nat → α}

theorem Decides.swap {child : Nat}
    (decides : Decides cmp le (contents size data))
    (itemBound : item < size) (childBound : child < size) :
    Decides cmp le (contents size (swapped data item child)) := by
  rw [(rearranged_swapped itemBound childBound).contents]
  exact decides

/-- Of two children the smaller one is chosen. -/
theorem smallerChild_least (order : TotalPreorder le)
    (decides : Decides cmp le (contents size data)) :
    ∀ index < size, index / 2 = item → index ≠ item →
      le (data (smallerChild cmp size data item)) (data index) := by
  intro index bound below different
  rcases (by omega : index = item * 2 ∨ index = item * 2 + 1) with rfl | rfl
  · rw [smallerChild]
    split
    · next right =>
        exact order.of_not ((decides _ (mem_contents right.1) _
          (mem_contents bound)).mp right.2)
    · exact order.refl _
  · rw [smallerChild]
    split
    · exact order.refl _
    · next notSmaller =>
        by_contra greater
        exact notSmaller ⟨bound, (decides _ (mem_contents bound) _
          (mem_contents (by omega))).mpr greater⟩

theorem siftDown_ordered (order : TotalPreorder le)
    (within : size ≤ bound) (decides : Decides cmp le (contents size data))
    (down : DownOrdered le size data item)
    (result : siftDown cmp bound size fuel data item = some data') :
    Ordered le size data' := by
  induction fuel generalizing data item with
  | zero => cases result
  | succ fuel inductionHypothesis =>
      rw [siftDown_succ within] at result
      have least : ∀ index < size, index / 2 = item → index ≠ item →
          le (data (smallerChild cmp size data item)) (data index) :=
        smallerChild_least order decides
      split at result
      · next continued =>
          obtain ⟨left, less⟩ := continued
          have inside : smallerChild cmp size data item < size :=
            smallerChild_lt left
          have greater := (decides _ (mem_contents inside) _
            (mem_contents (by omega))).mp less
          have different : smallerChild cmp size data item ≠ item := by
            intro same
            rw [same] at greater
            exact greater (order.refl _)
          exact inductionHypothesis (decides.swap (by omega) inside)
            (down.swap order inside smallerChild_div different least greater)
            result
      · next stopped =>
          cases result
          apply down.ordered
          intro index indexBound below different
          have left : item * 2 < size := by omega
          have inside : smallerChild cmp size data' item < size :=
            smallerChild_lt left
          refine order.trans ?_ (least index indexBound below different)
          by_contra greater
          exact stopped ⟨left, (decides _ (mem_contents inside) _
            (mem_contents (by omega))).mpr greater⟩

theorem siftUp_ordered (order : TotalPreorder le) (itemBound : item < size)
    (within : size ≤ bound) (decides : Decides cmp le (contents size data))
    (up : UpOrdered le size data item)
    (result : siftUp cmp bound fuel data item = some data') :
    Ordered le size data' := by
  induction fuel generalizing data item with
  | zero => cases result
  | succ fuel inductionHypothesis =>
      rw [siftUp_succ (by omega)] at result
      have compared := decides _ (mem_contents itemBound) _
        (mem_contents (show item / 2 < size by omega))
      split at result
      · next less =>
          exact inductionHypothesis (by omega)
            (decides.swap itemBound (by omega))
            (up.swap order itemBound (compared.mp less)) result
      · next stopped =>
          cases result
          apply up.ordered
          by_contra greater
          exact stopped (compared.mpr greater)

end Loops

/-! ## The operations -/

section Operations

variable {α : Type} {cmp : α → α → Int} {le : α → α → Prop}
  {heap heap' : MinHeap α} {item : α}

/-- The live words are allocated, and so is the root. -/
structure Allocated (heap : MinHeap α) : Prop where
  size_le : heap.size ≤ heap.capacity
  capacity_pos : 0 < heap.capacity

theorem allocated_makeHeap (uninitialised : Nat → α) :
    Allocated (makeHeap uninitialised) :=
  ⟨Nat.zero_le 1, Nat.one_pos⟩

theorem items_makeHeap (uninitialised : Nat → α) :
    (makeHeap uninitialised).items = 0 :=
  rfl

/-- What `heap_push` does: the loop ends, within the live words. -/
structure Pushed (cmp : α → α → Int) (heap : MinHeap α) (item : α)
    (heap' : MinHeap α) : Prop where
  result : heapPush cmp heap item = some heap'
  size : heap'.size = heap.size + 1
  allocated : Allocated heap'
  items : heap'.items = item ::ₘ heap.items
  within :
    siftUp cmp heap'.size (heap.size + 1)
      (Function.update heap.data heap.size item) heap.size = some heap'.data

theorem heapPush_spec (irreflexive : ∀ value, ¬ cmp value value < 0)
    (allocated : Allocated heap) (item : α) :
    ∃ heap', Pushed cmp heap item heap' := by
  have atMost := allocated.size_le
  have positive := allocated.capacity_pos
  obtain ⟨capacity, capacityEq, fits⟩ : ∃ capacity,
      (if heap.size + 1 > heap.capacity then heap.capacity * 2
        else heap.capacity) = capacity ∧ heap.size < capacity := by
    refine ⟨_, rfl, ?_⟩
    split <;> omega
  have fits' : 0 < capacity := by omega
  obtain ⟨data, sifted, rearranged⟩ :
      ∃ data, siftUp cmp capacity (heap.size + 1)
          (Function.update heap.data heap.size item) heap.size = some data ∧
        Rearranged (heap.size + 1)
          (Function.update heap.data heap.size item) data :=
    siftUp_rearranges irreflexive (Nat.lt_succ_self _) fits
      (Nat.lt_succ_self _)
  refine ⟨⟨data, heap.size + 1, capacity⟩, ?_, rfl, ⟨fits, fits'⟩, ?_, ?_⟩
  · simp only [heapPush, capacityEq, store, if_pos fits, sifted,
      Option.bind_eq_bind, Option.bind_some, Option.pure_def]
  · rw [MinHeap.items, rearranged.contents, contents_succ,
      Function.update_self, MinHeap.items]
    exact congrArg (item ::ₘ ·) (contents_congr fun index bound =>
      Function.update_of_ne (by omega) _ _)
  · rw [← sifted]
    exact (siftUp_within (Nat.lt_succ_self _) fits).symm

/-- What `heap_pop` does to a heap that is not empty: it returns the root, and
the loop ends, within the live words. -/
structure Popped (cmp : α → α → Int) (heap : MinHeap α) (item : α)
    (heap' : MinHeap α) : Prop where
  result : heapPop cmp heap = some (item, heap')
  root : item = heap.data 0
  size : heap.size = heap'.size + 1
  allocated : Allocated heap'
  items : heap.items = item ::ₘ heap'.items
  within :
    siftDown cmp heap'.size heap'.size (heap'.size + 1)
      (Function.update heap.data 0 (heap.data heap'.size)) 0 =
        some heap'.data

theorem heapPop_spec (irreflexive : ∀ value, ¬ cmp value value < 0)
    (allocated : Allocated heap) (nonEmpty : heap.size ≠ 0) :
    ∃ item heap', Popped cmp heap item heap' := by
  have atMost := allocated.size_le
  obtain ⟨size, sizeEq⟩ := Nat.exists_eq_succ_of_ne_zero nonEmpty
  have within : size ≤ heap.capacity := by omega
  obtain ⟨data, sifted, rearranged⟩ :
      ∃ data, siftDown cmp heap.capacity size (size + 1)
          (Function.update heap.data 0 (heap.data size)) 0 = some data ∧
        Rearranged size (Function.update heap.data 0 (heap.data size)) data :=
    siftDown_rearranges irreflexive within (by omega)
  refine ⟨heap.data 0, ⟨data, size, heap.capacity⟩, ?_, rfl, sizeEq,
    ⟨within, allocated.capacity_pos⟩, ?_, ?_⟩
  · have loadRoot : load heap.capacity heap.data 0 = some (heap.data 0) :=
      load_of_lt (by omega)
    have loadLast : load heap.capacity heap.data size = some (heap.data size) :=
      load_of_lt (by omega)
    have fewer : heap.size - 1 = size := by omega
    have storeRoot :
        store heap.capacity heap.data 0 (heap.data size) =
          some (Function.update heap.data 0 (heap.data size)) :=
      if_pos (by omega)
    simp only [heapPop, loadRoot, if_neg nonEmpty, fewer, loadLast, storeRoot,
      sifted, Option.bind_eq_bind, Option.bind_some, Option.pure_def]
  · rw [MinHeap.items, MinHeap.items, rearranged.contents, sizeEq]
    exact contents_replace_root.symm
  · rw [← sifted]
    exact (siftDown_within within).symm

/-- An empty heap has nothing to return. -/
theorem heapPop_empty (empty : heap.size = 0) : heapPop cmp heap = none := by
  simp only [heapPop, if_pos empty, load]
  split <;> rfl

/-- A push keeps the order, when the comparator decides it on all items. -/
theorem Pushed.ordered (pushed : Pushed cmp heap item heap')
    (order : TotalPreorder le) (decides : Decides cmp le heap'.items)
    (ordered : Ordered le heap.size heap.data) :
    Ordered le heap'.size heap'.data := by
  have within := pushed.within
  rw [pushed.size] at within ⊢
  refine siftUp_ordered order (Nat.lt_succ_self _) (Nat.le_refl _) ?_
    ordered.upOrdered_update within
  have kept : contents heap.size (Function.update heap.data heap.size item) =
      contents heap.size heap.data :=
    contents_congr fun index bound => Function.update_of_ne (by omega) _ _
  rw [contents_succ, Function.update_self, kept]
  rw [pushed.items] at decides
  exact decides

/-- A pop returns a least item. -/
theorem Popped.least (popped : Popped cmp heap item heap')
    (order : TotalPreorder le) (ordered : Ordered le heap.size heap.data) :
    ∀ other ∈ heap.items, le item other := by
  intro other member
  obtain ⟨index, bound, rfl⟩ := exists_of_mem_contents member
  rw [popped.root]
  exact ordered.root_le order index bound

/-- A pop keeps the order, when the comparator decides it on the rest. -/
theorem Popped.ordered (popped : Popped cmp heap item heap')
    (order : TotalPreorder le) (decides : Decides cmp le heap'.items)
    (ordered : Ordered le heap.size heap.data) :
    Ordered le heap'.size heap'.data := by
  have fewer := popped.size
  refine siftDown_ordered order (Nat.le_refl _) ?_
    (ordered.downOrdered_update order (by omega)) popped.within
  have kept : heap'.items = contents heap'.size
      (Function.update heap.data 0 (heap.data heap'.size)) := by
    have whole := popped.items
    rw [MinHeap.items, fewer, ← contents_replace_root, popped.root] at whole
    exact ((Multiset.cons_inj_right _).mp whole).symm
  rw [← kept]
  exact decides

end Operations

/-! ## Runs -/

/-- A comparator that is a total preorder. -/
structure Comparator {α : Type} (cmp : α → α → Int) : Prop where
  swap : ∀ first second, cmp first second < 0 ↔ 0 < cmp second first
  trans : ∀ first second third, cmp first second ≤ 0 →
    cmp second third ≤ 0 → cmp first third ≤ 0

/-- A call, with the item that it stores or returns. -/
inductive Call (α : Type) where
  | push (item : α)
  | pop (item : α)

def Call.pushed {α : Type} : Call α → Multiset α
  | .push item => {item}
  | .pop _ => 0

def Call.popped {α : Type} : Call α → Multiset α
  | .push _ => 0
  | .pop item => {item}

/-- All items that the calls contribute. -/
def total {α : Type} (part : Call α → Multiset α) :
    List (Call α) → Multiset α
  | [] => 0
  | call :: calls => part call + total part calls

/-- One call; `heap_pop` is called only when there is an item. -/
inductive Step {α : Type} (cmp : α → α → Int) :
    MinHeap α → Call α → MinHeap α → Prop
  | push {heap heap' : MinHeap α} {item : α} :
      heapPush cmp heap item = some heap' →
      Step cmp heap (.push item) heap'
  | pop {heap heap' : MinHeap α} {item : α} :
      heap.size ≠ 0 →
      heapPop cmp heap = some (item, heap') →
      Step cmp heap (.pop item) heap'

/-- What holds after any calls: the heap holds what was stored and not yet
returned, in order, and every next call ends and does what it should. -/
structure PriorityQueue {α : Type} (cmp : α → α → Int)
    (calls : List (Call α)) (heap : MinHeap α) : Prop where
  allocated : Allocated heap
  ordered :
    ∀ index < heap.size,
      cmp (heap.data (index / 2)) (heap.data index) ≤ 0
  items : total Call.popped calls + heap.items = total Call.pushed calls
  push : ∀ item, ∃ heap', Pushed cmp heap item heap'
  pop :
    heap.size ≠ 0 →
      ∃ item heap', Popped cmp heap item heap' ∧
        ∀ other ∈ heap.items, cmp item other ≤ 0

section Runs

variable {α : Type} {cmp : α → α → Int} {calls : List (Call α)}
  {call : Call α} {heap heap' : MinHeap α} {uninitialised : Nat → α}

theorem Comparator.irreflexive (comparator : Comparator cmp) (value : α) :
    ¬ cmp value value < 0 := by
  intro less
  have greater := (comparator.swap value value).mp less
  omega

theorem Comparator.totalPreorder (comparator : Comparator cmp) :
    TotalPreorder fun first second => cmp first second ≤ 0 := by
  constructor
  · intro first second
    rcases Int.lt_or_le 0 (cmp first second) with greater | atMost
    · exact Or.inr (Int.le_of_lt ((comparator.swap second first).mpr greater))
    · exact Or.inl atMost
  · intro first second third
    exact comparator.trans first second third

theorem Comparator.decides (comparator : Comparator cmp)
    (items : Multiset α) :
    Decides cmp (fun first second => cmp first second ≤ 0) items := by
  intro first _ second _
  rw [comparator.swap, Int.not_le]

theorem total_snoc (part : Call α → Multiset α) :
    total part (calls ++ [call]) = total part calls + part call := by
  induction calls with
  | nil => exact (add_zero _).trans (zero_add _).symm
  | cons first calls inductionHypothesis =>
      rw [List.cons_append, total, inductionHypothesis, total,
        add_assoc (part first)]

/-- What the next calls need. -/
theorem PriorityQueue.of_ordered (comparator : Comparator cmp)
    (allocated : Allocated heap)
    (ordered : Ordered (fun first second => cmp first second ≤ 0)
      heap.size heap.data)
    (items :
      total Call.popped calls + heap.items = total Call.pushed calls) :
    PriorityQueue cmp calls heap := by
  refine ⟨allocated, ordered, items,
    fun item => heapPush_spec comparator.irreflexive allocated item, ?_⟩
  intro nonEmpty
  obtain ⟨item, heap', popped⟩ :=
    heapPop_spec comparator.irreflexive allocated nonEmpty
  exact ⟨item, heap', popped, popped.least comparator.totalPreorder ordered⟩

/-- Every call keeps the queue. -/
theorem PriorityQueue.step (comparator : Comparator cmp)
    (queue : PriorityQueue cmp calls heap)
    (called : Step cmp heap call heap') :
    PriorityQueue cmp (calls ++ [call]) heap' := by
  have items := queue.items
  cases called with
  | @push _ item result =>
      obtain ⟨heap'', pushed⟩ := queue.push item
      obtain rfl : heap'' = heap' :=
        Option.some.inj (pushed.result.symm.trans result)
      refine .of_ordered comparator pushed.allocated
        (pushed.ordered comparator.totalPreorder (comparator.decides _)
          queue.ordered) ?_
      rw [total_snoc, total_snoc, Call.popped, Call.pushed,
        add_zero, pushed.items, ← items, ← Multiset.singleton_add,
        add_left_comm]
      exact add_comm _ _
  | @pop _ item nonEmpty result =>
      obtain ⟨item', heap'', popped, _⟩ := queue.pop nonEmpty
      obtain ⟨rfl, rfl⟩ : item' = item ∧ heap'' = heap' :=
        Prod.mk.inj (Option.some.inj (popped.result.symm.trans result))
      refine .of_ordered comparator popped.allocated
        (popped.ordered comparator.totalPreorder (comparator.decides _)
          queue.ordered) ?_
      rw [total_snoc, total_snoc, Call.popped, Call.pushed,
        add_zero, ← items, popped.items, ← Multiset.singleton_add, add_assoc]

/-- After every sequence of calls the heap is a priority queue. -/
theorem heap_priorityQueue (comparator : Comparator cmp)
    (run : Run (Step cmp) (makeHeap uninitialised) calls heap) :
    PriorityQueue cmp calls heap := by
  refine run.induct ?_ fun _ _ _ _ _ queue called =>
    queue.step comparator called
  refine .of_ordered comparator (allocated_makeHeap uninitialised) ?_ ?_
  · intro index bound
    exact absurd bound (Nat.not_lt_zero index)
  · rw [items_makeHeap]
    rfl

end Runs

/-- Numbers compared by subtraction. -/
def subtract (first second : Nat) : Int := first - second

theorem comparator_subtract : Comparator subtract := by
  constructor
  · intro first second
    rw [subtract, subtract]
    omega
  · intro first second third
    rw [subtract, subtract, subtract]
    omega

/-- Two pushes and a pop. -/
theorem heap_priorityQueue_subtract :
    ∃ heap, PriorityQueue subtract [.push 3, .push 1, .pop 1] heap := by
  have run : Run (Step subtract) (makeHeap fun _ => 0)
      ([] ++ [.push 3] ++ [.push 1] ++ [.pop 1]) _ :=
    ((Run.nil.snoc (Step.push rfl)).snoc (Step.push rfl)).snoc
      (Step.pop (by decide) rfl)
  exact ⟨_, heap_priorityQueue comparator_subtract run⟩

end BeaverOS.Heap
