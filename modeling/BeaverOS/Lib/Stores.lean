import BeaverOS.Lib.ByteMemory

/-!
# Stores

A structure that is filled field by field: stores at offsets from its base. Where
no two of them overlap, each field holds what was stored in it.
-/

namespace BeaverOS.ByteMemory

/-- A store of the low `count` bytes of a value. -/
structure Store where
  offset : Nat
  count : Nat
  value : Nat

/-- Two stores do not overlap. -/
def Store.Apart (store other : Store) : Prop :=
  store.offset + store.count ≤ other.offset ∨
    other.offset + other.count ≤ store.offset

instance (store other : Store) : Decidable (store.Apart other) :=
  inferInstanceAs (Decidable (_ ∨ _))

/-- The cells of a store. -/
def Store.cells (base : Nat) (store : Store) : Set Nat :=
  ByteMemory.cells (base + store.offset) store.count

/-- One store. -/
def Store.put (base : Nat) (memory : Memory) (store : Store) : Memory :=
  writeLE memory (base + store.offset) store.count store.value

/-- The stores one after another. -/
def storeAll (memory : Memory) (base : Nat) (stores : List Store) : Memory :=
  stores.foldl (Store.put base) memory

section Stores

variable {memory : Memory} {base length cell : Nat} {store : Store}
  {stores : List Store}

theorem storeAll_outside
    (outside : ∀ store ∈ stores, cell ∉ store.cells base) :
    storeAll memory base stores cell = memory cell := by
  induction stores generalizing memory with
  | nil => rfl
  | cons store stores inductionHypothesis =>
      rw [storeAll, List.foldl_cons]
      refine (inductionHypothesis fun other member =>
        outside other (List.mem_cons_of_mem _ member)).trans ?_
      have missed := outside store List.mem_cons_self
      rw [Store.cells, mem_cells] at missed
      exact writeLE_outside (by omega)

/-- Nothing changes but the structure. -/
theorem agreeOff_storeAll
    (inside : ∀ store ∈ stores, store.offset + store.count ≤ length) :
    AgreeOff (ByteMemory.cells base length) (storeAll memory base stores)
      memory := by
  intro cell outside
  refine storeAll_outside fun store member inStore => outside ?_
  have bound := inside store member
  rw [Store.cells, mem_cells] at inStore
  rw [mem_cells]
  omega

/-- Each field holds what was stored. -/
theorem readLE_storeAll (apart : stores.Pairwise Store.Apart)
    (member : store ∈ stores) :
    readLE (storeAll memory base stores) (base + store.offset) store.count =
      store.value % 256 ^ store.count := by
  induction stores generalizing memory with
  | nil => cases member
  | cons first stores inductionHypothesis =>
      obtain ⟨others, apart⟩ := List.pairwise_cons.mp apart
      rw [storeAll, List.foldl_cons]
      rcases List.mem_cons.mp member with rfl | later
      · have kept : AgreeOn
            (storeAll (store.put base memory) base stores)
            (store.put base memory) (base + store.offset) store.count := by
          intro cell lower upper
          refine storeAll_outside fun other inStores inOther => ?_
          have separate := others other inStores
          rw [Store.cells, mem_cells] at inOther
          rw [Store.Apart] at separate
          omega
        exact (readLE_congr kept).trans (readLE_writeLE_same _ _ _ _)
      · exact inductionHypothesis apart later

end Stores

end BeaverOS.ByteMemory
