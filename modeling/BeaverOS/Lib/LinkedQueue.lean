import Mathlib.Data.List.Nodup

/-!
# Linked queues

A queue of cells, each with an item and a link to the next one. The head is
the first cell, or null. The tail is the last cell while there is one, and
anything at all in an empty queue.
-/

namespace BeaverOS.LinkedQueue

universe u v

variable {Address : Type u} {Item : Type v}

/-- Following the links from an address spells the items, each with its
cell. -/
inductive Spells (cell : Address → Option (Item × Address)) (null : Address) :
    Address → List (Address × Item) → Prop
  | nil : Spells cell null null []
  | cons {start next : Address} {item : Item}
      {items : List (Address × Item)} :
      start ≠ null →
      cell start = some (item, next) →
      Spells cell null next items →
      Spells cell null start ((start, item) :: items)

section Chains

variable {cell cell' : Address → Option (Item × Address)}
  {null start fresh last : Address} {item value : Item}
  {items others : List (Address × Item)}

theorem Spells.start_eq_null_iff (spells : Spells cell null start items) :
    start = null ↔ items = [] := by
  cases spells with
  | nil => exact iff_of_true rfl rfl
  | cons nonnull => exact iff_of_false nonnull (List.cons_ne_nil _ _)

/-- Every item is found in its cell. -/
theorem Spells.found {entry : Address × Item}
    (spells : Spells cell null start items) (member : entry ∈ items) :
    ∃ next, cell entry.1 = some (entry.2, next) := by
  induction spells with
  | nil => exact absurd member List.not_mem_nil
  | @cons _ next _ _ _ here _ inductionHypothesis =>
      rcases List.mem_cons.mp member with rfl | inRest
      · exact ⟨next, here⟩
      · exact inductionHypothesis inRest

theorem Spells.unique (first : Spells cell null start items)
    (second : Spells cell null start others) : items = others := by
  induction first generalizing others with
  | nil => exact (second.start_eq_null_iff.mp rfl).symm
  | cons nonnull found _ inductionHypothesis =>
      cases second with
      | nil => exact absurd rfl nonnull
      | cons _ again rest =>
          rw [found] at again
          cases again
          rw [inductionHypothesis rest]

/-- Only the cells of the chain matter. -/
theorem Spells.congr (spells : Spells cell null start items)
    (same : ∀ entry ∈ items, cell' entry.1 = cell entry.1) :
    Spells cell' null start items := by
  induction spells with
  | nil => exact Spells.nil
  | cons nonnull found _ inductionHypothesis =>
      refine Spells.cons nonnull ?_ (inductionHypothesis fun entry member =>
        same entry (List.mem_cons_of_mem _ member))
      rw [same _ List.mem_cons_self]
      exact found

/-- From each cell of a chain the rest of it is spelled. -/
theorem Spells.suffix (spells : Spells cell null start items)
    (member : last ∈ items.map Prod.fst) :
    ∃ before after, items = before ++ after ∧ after ≠ [] ∧
      Spells cell null last after := by
  induction spells with
  | nil => exact absurd member List.not_mem_nil
  | @cons start next item items nonnull found rest inductionHypothesis =>
      rw [List.map_cons, List.mem_cons] at member
      rcases member with rfl | inRest
      · exact ⟨[], _, rfl, List.cons_ne_nil _ _,
          Spells.cons nonnull found rest⟩
      · obtain ⟨before, after, split, nonempty, spelled⟩ :=
          inductionHypothesis inRest
        exact ⟨(start, item) :: before, after, by rw [split]; rfl, nonempty,
          spelled⟩

/-- A chain that ends comes to no cell twice. -/
theorem Spells.nodup (spells : Spells cell null start items) :
    (items.map Prod.fst).Nodup := by
  induction spells with
  | nil => exact List.nodup_nil
  | @cons start next item items nonnull found rest inductionHypothesis =>
      rw [List.map_cons, List.nodup_cons]
      refine ⟨fun again => ?_, inductionHypothesis⟩
      -- From there it would be as long as the whole chain.
      obtain ⟨before, after, split, -, spelled⟩ := rest.suffix again
      have same := spelled.unique (Spells.cons nonnull found rest)
      have lengths := congrArg List.length split
      rw [same, List.length_append, List.length_cons] at lengths
      omega

/-- A new cell behind the last one. -/
theorem Spells.snoc {front : List (Address × Item)}
    (spells : Spells cell null start (front ++ [(last, item)]))
    (linked : cell' last = some (item, fresh)) (nonnull : fresh ≠ null)
    (new : cell' fresh = some (value, null))
    (kept : ∀ entry ∈ front, cell' entry.1 = cell entry.1) :
    Spells cell' null start (front ++ [(last, item), (fresh, value)]) := by
  induction front generalizing start with
  | nil =>
      cases spells with
      | cons lastNonnull =>
          exact Spells.cons lastNonnull linked
            (Spells.cons nonnull new Spells.nil)
  | cons entry front inductionHypothesis =>
      cases spells with
      | cons startNonnull found rest =>
          refine Spells.cons startNonnull ?_ (inductionHypothesis rest
            fun other member => kept other (List.mem_cons_of_mem _ member))
          exact (kept _ List.mem_cons_self).trans found

end Chains

/-! ## The queue -/

/-- The cells from `head` on spell the items, and `tail` is the last cell if
there is one. -/
structure Represents (cell : Address → Option (Item × Address))
    (null head tail : Address) (items : List (Address × Item)) : Prop where
  spells : Spells cell null head items
  last : ∀ entry ∈ items.getLast?, tail = entry.1

section Queues

variable {cell cell' : Address → Option (Item × Address)}
  {null head tail fresh : Address} {item value : Item}
  {items : List (Address × Item)}

/-- An empty queue may have any tail. -/
theorem represents_empty (cell : Address → Option (Item × Address))
    (null tail : Address) : Represents cell null null tail [] :=
  ⟨Spells.nil, fun _ member => absurd member (Option.not_mem_none _)⟩

theorem Represents.congr (queue : Represents cell null head tail items)
    (same : ∀ entry ∈ items, cell' entry.1 = cell entry.1) :
    Represents cell' null head tail items :=
  ⟨queue.spells.congr same, queue.last⟩

/-- The first item to come becomes head and tail. -/
theorem represents_single (nonnull : fresh ≠ null)
    (new : cell fresh = some (value, null)) :
    Represents cell null fresh fresh [(fresh, value)] := by
  refine ⟨Spells.cons nonnull new Spells.nil, ?_⟩
  rintro entry ⟨⟩
  rfl

/-- A queue that is not empty has its tail at the end. -/
theorem Represents.split (queue : Represents cell null head tail items)
    (nonnull : head ≠ null) :
    ∃ front item, items = front ++ [(tail, item)] := by
  have nonempty : items ≠ [] := mt queue.spells.start_eq_null_iff.mpr nonnull
  obtain ⟨entry, isLast⟩ : ∃ entry, items.getLast? = some entry :=
    ⟨_, List.getLast?_eq_some_getLast nonempty⟩
  obtain ⟨front, rfl⟩ := List.getLast?_eq_some_iff.mp isLast
  refine ⟨front, entry.2, ?_⟩
  rw [queue.last entry isLast]

/-- Linking a new cell to the tail appends its item. -/
theorem Represents.push (queue : Represents cell null head tail items)
    (nonnull : head ≠ null) (freshNonnull : fresh ≠ null)
    (linked : ∀ item, (tail, item) ∈ items →
      cell' tail = some (item, fresh))
    (new : cell' fresh = some (value, null))
    (kept : ∀ entry ∈ items, entry.1 ≠ tail →
      cell' entry.1 = cell entry.1) :
    Represents cell' null head fresh (items ++ [(fresh, value)]) := by
  obtain ⟨front, item, rfl⟩ := queue.split nonnull
  have distinct := queue.spells.nodup
  rw [List.map_append, List.nodup_append] at distinct
  rw [List.append_assoc, List.singleton_append]
  refine ⟨queue.spells.snoc (linked item (by simp)) freshNonnull new ?_, ?_⟩
  · intro entry member
    refine kept entry (List.mem_append_left _ member) ?_
    exact distinct.2.2 entry.1 (List.mem_map_of_mem member) tail (by simp)
  · intro entry isLast
    simp at isLast
    rw [← isLast]

/-- The first cell leaves, and the tail may be left behind. -/
theorem Represents.pop {entry : Address × Item}
    (queue : Represents cell null head tail (entry :: items)) :
    head = entry.1 ∧ ∃ next, cell head = some (entry.2, next) ∧
      Represents cell null next tail items := by
  obtain ⟨spells, last⟩ := queue
  cases spells with
  | @cons _ next item _ nonnull found rest =>
      refine ⟨rfl, next, found, rest, fun other isLast => last other ?_⟩
      rw [Option.mem_def, List.getLast?_cons, isLast]
      rfl

end Queues

end BeaverOS.LinkedQueue
