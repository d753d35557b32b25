import BeaverOS.Lib.LinkedQueue
import BeaverOS.Lib.Loop
import BeaverOS.Lib.Transition
import BeaverOS.Memory.Malloc

/-!
# The queue of waiting tasks

`data/queue.c`. A cell is a chunk of the heap, and the state remembers what the
two functions have done with their chunks. `dequeue` does not touch the tail,
which stays behind in a freed chunk when the queue gets empty, and `malloc` may
return that chunk again. The scheduler's mutexes keep such a queue as a list.
-/

namespace BeaverOS.Fifo

open BeaverOS.ByteMemory
open BeaverOS.LinkedQueue
open BeaverOS.Loop
open BeaverOS.Malloc
open BeaverOS.Paging
open BeaverOS.Transition
open BeaverOS.Window

/-! ## The code -/

/-- `queue_t`. -/
structure Queue where
  head : Nat
  tail : Nat

/-- The heap, the queue, and the accesses that the queue's functions made. -/
structure State (Arena : Type) where
  machine : Machine Arena
  queue : Queue
  trace : List Access

/-- `sizeof(queue_item_t)`. -/
def sizeofQueueItem : Nat := 16

/-- The offset of `head` in `queue_item_t`. -/
def headOffset : Nat := 0

/-- The offset of `tail` in `queue_item_t`. -/
def tailOffset : Nat := 8

section Code

variable {Arena : Type} (allocator : Allocator Arena)

/-- The state after an access that leaves the heap in `machine`. -/
def State.after (state : State Arena) (access : Access)
    (machine : Machine Arena) : State Arena :=
  { state with machine := machine, trace := state.trace ++ [access] }

def mallocItem (state : State Arena) : Except Halt (Nat × State Arena) := do
  let (item, machine) ← allocator.malloc state.machine sizeofQueueItem
  return (item, state.after (.malloc item) machine)

def freeItem (state : State Arena) (pointer : Nat) :
    Except Halt (State Arena) := do
  let machine ← allocator.free state.machine pointer
  return state.after (.free pointer) machine

/-- Read a field of the item at `pointer`. -/
def loadField (state : State Arena) (pointer offset : Nat) :
    Except Halt (Nat × State Arena) := do
  let value ← loadHeap state.machine pointer offset 8
  return (value, state.after (.read pointer) state.machine)

/-- Write a field of the item at `pointer`. -/
def storeField (state : State Arena) (pointer offset value : Nat) :
    Except Halt (State Arena) := do
  let machine ← storeHeap state.machine pointer offset 8 value
  return state.after (.write pointer) machine

/-- The first half of `enqueue`: a new item with the payload and no link. -/
def newItem (state : State Arena) (e : Word) :
    Except Halt (Nat × State Arena) := do
  let (item, state) ← mallocItem allocator state
  let state ← storeField state item headOffset e.toNat
  let state ← storeField state item tailOffset 0
  return (item, state)

/-- The second half of `enqueue`: the item becomes the tail. -/
def linkItem (state : State Arena) (item : Nat) :
    Except Halt (State Arena) := do
  if state.queue.head ≠ 0 then
    let state ← storeField state state.queue.tail tailOffset item
    return { state with queue := { state.queue with tail := item } }
  else
    return { state with queue := { head := item, tail := item } }

/-- `enqueue`. -/
def enqueue (state : State Arena) (e : Word) : Except Halt (State Arena) := do
  let (item, state) ← newItem allocator state e
  linkItem state item

/-- `dequeue`. -/
def dequeue (state : State Arena) : Except Halt (Word × State Arena) := do
  let cell := state.queue.head
  if cell = 0 then
    return (0#64, state)
  else
    let (ret, state) ← loadField state cell headOffset
    let (next, state) ← loadField state state.queue.head tailOffset
    let state := { state with queue := { state.queue with head := next } }
    let state ← freeItem allocator state cell
    return (BitVec.ofNat 64 ret, state)

end Code

/-! ## Cells -/

/-- What an item holds: the payload, and the next item. -/
def itemOf (chunk : Chunk) : Option (Word × Nat) :=
  if sizeofQueueItem ≤ chunk.size then
    some (BitVec.ofNat 64 (readLE chunk.bytes headOffset 8),
      readLE chunk.bytes tailOffset 8)
  else none

/-- The item at an address. -/
def cellAt (chunks : Nat → Option Chunk) (pointer : Nat) :
    Option (Word × Nat) :=
  (chunks pointer).bind itemOf

section Cells

variable {Arena : Type} {allocator : Allocator Arena}
  {ready : Machine Arena → Prop} {state state' : State Arena}
  {chunk : Chunk} {chunks : Nat → Option Chunk} {value : Word}
  {pointer next : Nat}

theorem itemOf_eq_some_iff :
    itemOf chunk = some (value, next) ↔
      16 ≤ chunk.size ∧ readLE chunk.bytes 0 8 = value.toNat ∧
        readLE chunk.bytes 8 8 = next := by
  have bound : readLE chunk.bytes 0 8 < 2 ^ 64 := readLE_lt chunk.bytes 0 8
  have valueBound := value.isLt
  rw [itemOf, sizeofQueueItem, headOffset, tailOffset]
  by_cases size : 16 ≤ chunk.size
  · rw [if_pos size, Option.some.injEq, Prod.mk.injEq, ← BitVec.toNat_inj,
      BitVec.toNat_ofNat, Nat.mod_eq_of_lt bound]
    simp only [size, true_and]
  · rw [if_neg size]
    simp only [size, false_and, reduceCtorEq]

theorem cellAt_update_same (item : Option Chunk) :
    cellAt (Function.update chunks pointer item) pointer =
      item.bind itemOf := by
  rw [cellAt, Function.update_self]

theorem cellAt_update_of_ne {other : Nat} (different : other ≠ pointer)
    (item : Option Chunk) :
    cellAt (Function.update chunks pointer item) other =
      cellAt chunks other := by
  rw [cellAt, Function.update_of_ne different, cellAt]

/-- An access leaves the queue alone and the heap in order, with these
chunks. -/
structure Accessed (ready : Machine Arena → Prop) (state state' : State Arena)
    (access : Access) (chunks : Nat → Option Chunk) : Prop where
  queue : state'.queue = state.queue
  trace : state'.trace = state.trace ++ [access]
  chunks : state'.machine.chunks = chunks
  ready : ready state'.machine

theorem mallocItem_ok (supplies : Supplies ready allocator)
    (initially : ready state.machine) {machine : Machine Arena}
    (returned : allocator.malloc state.machine sizeofQueueItem =
      .ok (pointer, machine)) :
    ∃ state' chunk, mallocItem allocator state = .ok (pointer, state') ∧
      16 ≤ chunk.size ∧
      Accessed ready state state' (.malloc pointer)
        (Function.update state.machine.chunks pointer (some chunk)) := by
  obtain ⟨-, -, -, ⟨chunk, size, chunks⟩, readyAfter⟩ :=
    supplies.malloc state.machine _ pointer machine initially returned
  refine ⟨state.after _ machine, chunk, ?_, size,
    ⟨rfl, rfl, chunks, readyAfter⟩⟩
  rw [mallocItem, returned]
  rfl

theorem freeItem_ok (supplies : Supplies ready allocator)
    (initially : ready state.machine)
    (held : state.machine.chunks pointer = some chunk) :
    ∃ state', freeItem allocator state pointer = .ok state' ∧
      Accessed ready state state' (.free pointer)
        (Function.update state.machine.chunks pointer none) := by
  obtain ⟨machine, returned, chunks, readyAfter⟩ :=
    supplies.free state.machine pointer chunk initially held
  refine ⟨state.after _ machine, ?_, ⟨rfl, rfl, chunks, readyAfter⟩⟩
  rw [freeItem, returned]
  rfl

theorem storeField_ok (supplies : Supplies ready allocator)
    (initially : ready state.machine)
    (held : state.machine.chunks pointer = some chunk) {offset : Nat}
    (inside : offset + 8 ≤ chunk.size) (value : Nat) :
    ∃ state', storeField state pointer offset value = .ok state' ∧
      Accessed ready state state' (.write pointer)
        (Function.update state.machine.chunks pointer
          (some ⟨chunk.size, writeLE chunk.bytes offset 8 value⟩)) := by
  refine ⟨state.after _ (putChunk state.machine pointer
    ⟨chunk.size, writeLE chunk.bytes offset 8 value⟩), ?_, ⟨rfl, rfl, rfl,
      supplies.put state.machine pointer chunk _ initially held rfl⟩⟩
  rw [storeField, storeHeap_ok value held inside]
  rfl

theorem loadField_ok (initially : ready state.machine)
    (held : state.machine.chunks pointer = some chunk) {offset : Nat}
    (inside : offset + 8 ≤ chunk.size) :
    ∃ state',
      loadField state pointer offset =
        .ok (readLE chunk.bytes offset 8, state') ∧
      Accessed ready state state' (.read pointer) state.machine.chunks := by
  refine ⟨state.after _ state.machine, ?_, ⟨rfl, rfl, rfl, initially⟩⟩
  rw [loadField, loadHeap_ok held inside]
  rfl

/-- Both fields of a new item. -/
theorem itemOf_filled (size : 16 ≤ chunk.size) (value : Word) :
    itemOf ⟨chunk.size,
      writeLE (writeLE chunk.bytes headOffset 8 value.toNat)
        tailOffset 8 0⟩ = some (value, 0) := by
  have bound := value.isLt
  rw [itemOf_eq_some_iff, headOffset, tailOffset]
  refine ⟨size, ?_, ?_⟩
  · rw [readLE_writeLE_of_disjoint (by omega), readLE_writeLE_same]
    exact Nat.mod_eq_of_lt bound
  · rw [readLE_writeLE_same]
    rfl

/-- An item that is linked to another one keeps its payload. -/
theorem itemOf_linked (item : itemOf chunk = some (value, next)) {link : Nat}
    (bound : link < 2 ^ 64) :
    itemOf ⟨chunk.size, writeLE chunk.bytes tailOffset 8 link⟩ =
      some (value, link) := by
  rw [itemOf_eq_some_iff] at item ⊢
  obtain ⟨size, payload, -⟩ := item
  rw [tailOffset]
  refine ⟨size, ?_, ?_⟩
  · rw [readLE_writeLE_of_disjoint (by omega)]
    exact payload
  · rw [readLE_writeLE_same]
    exact Nat.mod_eq_of_lt bound

end Cells

/-! ## The invariant -/

/-- All accesses were to chunks in use, which are `cells` now, and the chunks
were freed in the order in which they came. -/
structure Traced (trace : List Access) (cells : List Nat) : Prop where
  inUse : inUseAfter trace = some cells
  account : allocated trace = freed trace ++ cells

/-- The queue holds the items, each with its cell. -/
structure Holds {Arena : Type} (ready : Machine Arena → Prop)
    (state : State Arena) (items : List (Nat × Word)) : Prop where
  represents :
    Represents (cellAt state.machine.chunks) 0 state.queue.head
      state.queue.tail items
  traced : Traced state.trace (items.map Prod.fst)
  nonnull : ∀ entry ∈ items, entry.2 ≠ 0
  ready : ready state.machine

section Traces

variable {trace : List Access} {cells : List Nat} {pointer : Nat}

theorem traced_nil : Traced [] [] := ⟨rfl, rfl⟩

theorem Traced.step (traced : Traced trace cells) {access : Access}
    {cells' : List Nat} (followed : follow cells access = some cells')
    (account : cells ++ allocated [access] = freed [access] ++ cells') :
    Traced (trace ++ [access]) cells' := by
  refine ⟨?_, ?_⟩
  · rw [inUseAfter_snoc, traced.inUse]
    exact followed
  · rw [allocated_snoc, freed_snoc, traced.account, List.append_assoc, account,
      List.append_assoc]

theorem Traced.malloc (traced : Traced trace cells) (fresh : pointer ∉ cells) :
    Traced (trace ++ [.malloc pointer]) (cells ++ [pointer]) :=
  traced.step (if_neg fresh) rfl

theorem Traced.read (traced : Traced trace cells) (member : pointer ∈ cells) :
    Traced (trace ++ [.read pointer]) cells :=
  traced.step (if_pos member) (List.append_nil _)

theorem Traced.write (traced : Traced trace cells) (member : pointer ∈ cells) :
    Traced (trace ++ [.write pointer]) cells :=
  traced.step (if_pos member) (List.append_nil _)

theorem Traced.free (traced : Traced trace (pointer :: cells)) :
    Traced (trace ++ [.free pointer]) cells := by
  refine traced.step ?_ (List.append_nil _)
  change (if pointer ∈ pointer :: cells then _ else _) = _
  rw [if_pos List.mem_cons_self, List.erase_cons_head]

end Traces

section Calls

variable {Arena : Type} {allocator : Allocator Arena}
  {ready : Machine Arena → Prop} {state state' : State Arena}
  {items : List (Nat × Word)} {entry : Nat × Word} {e : Word}
  {pointer : Nat} {machine : Machine Arena}

/-- The cells are chunks of the heap. -/
theorem Holds.allocated (holds : Holds ready state items)
    (member : pointer ∈ items.map Prod.fst) :
    state.machine.chunks pointer ≠ none := by
  intro free
  obtain ⟨entry, inside, rfl⟩ := List.mem_map.mp member
  obtain ⟨next, found⟩ := holds.represents.spells.found inside
  rw [cellAt, free] at found
  cases found

/-- What `malloc` returns is none of the cells. -/
theorem Holds.fresh (holds : Holds ready state items)
    (free : state.machine.chunks pointer = none) :
    pointer ∉ items.map Prod.fst :=
  fun member => holds.allocated member free

/-- There is a new item, filled in and not linked. -/
structure Filled (ready : Machine Arena → Prop) (state filled : State Arena)
    (pointer : Nat) (e : Word) : Prop where
  queue : filled.queue = state.queue
  trace :
    filled.trace = state.trace ++ [.malloc pointer] ++ [.write pointer] ++
      [.write pointer]
  chunks :
    ∃ chunk, itemOf chunk = some (e, 0) ∧
      filled.machine.chunks =
        Function.update state.machine.chunks pointer (some chunk)
  ready : ready filled.machine

theorem newItem_ok (supplies : Supplies ready allocator)
    (initially : ready state.machine)
    (returned : allocator.malloc state.machine sizeofQueueItem =
      .ok (pointer, machine)) (e : Word) :
    ∃ filled, newItem allocator state e = .ok (pointer, filled) ∧
      Filled ready state filled pointer e := by
  obtain ⟨first, chunk, allocates, size, allocated⟩ :=
    mallocItem_ok supplies initially returned
  have held : first.machine.chunks pointer = some chunk := by
    rw [allocated.chunks, Function.update_self]
  have headInside : headOffset + 8 ≤ chunk.size :=
    Nat.le_trans (by decide) size
  have tailInside : tailOffset + 8 ≤ chunk.size := size
  obtain ⟨second, storesHead, headStored⟩ :=
    storeField_ok supplies allocated.ready held headInside e.toNat
  have held' : second.machine.chunks pointer =
      some ⟨chunk.size, writeLE chunk.bytes headOffset 8 e.toNat⟩ := by
    rw [headStored.chunks, Function.update_self]
  obtain ⟨third, storesTail, tailStored⟩ :=
    storeField_ok supplies headStored.ready held' tailInside 0
  refine ⟨third, ?_, ?_, ?_, ⟨_, itemOf_filled size e, ?_⟩,
    tailStored.ready⟩
  · rw [newItem, allocates]
    change (storeField first pointer headOffset e.toNat >>= _) = _
    rw [storesHead]
    change (storeField second pointer tailOffset 0 >>= _) = _
    rw [storesTail]
    rfl
  · rw [tailStored.queue, headStored.queue, allocated.queue]
  · rw [tailStored.trace, headStored.trace, allocated.trace]
  · rw [tailStored.chunks, headStored.chunks, allocated.chunks,
      Function.update_idem, Function.update_idem]

section Linking

variable {filled : State Arena} (new : Filled ready state filled pointer e)
include new

theorem Filled.traced (holds : Holds ready state items)
    (fresh : pointer ∉ items.map Prod.fst) :
    Traced filled.trace ((items ++ [(pointer, e)]).map Prod.fst) := by
  rw [new.trace, List.map_append]
  exact ((holds.traced.malloc fresh).write (by simp)).write (by simp)

theorem Filled.cellAt_new :
    cellAt filled.machine.chunks pointer = some (e, 0) := by
  obtain ⟨chunk, item, chunks⟩ := new.chunks
  rw [chunks, cellAt_update_same]
  exact item

theorem Filled.chunks_of_ne {other : Nat} (different : other ≠ pointer) :
    filled.machine.chunks other = state.machine.chunks other := by
  obtain ⟨chunk, item, chunks⟩ := new.chunks
  rw [chunks, Function.update_of_ne different]

/-- The first item becomes head and tail. -/
theorem linkItem_empty (holds : Holds ready state [])
    (nonnull : pointer ≠ 0) (payload : e ≠ 0) :
    ∃ state', linkItem filled pointer = .ok state' ∧
      Holds ready state' [(pointer, e)] ∧
      state'.machine.chunks = filled.machine.chunks := by
  have empty := holds.represents.spells.start_eq_null_iff.mpr rfl
  refine ⟨{ filled with queue := ⟨pointer, pointer⟩ }, ?_, ⟨?_, ?_, ?_,
    new.ready⟩, rfl⟩
  · rw [linkItem, new.queue, if_neg (not_not.mpr empty)]
    rfl
  · exact represents_single nonnull new.cellAt_new
  · exact new.traced holds List.not_mem_nil
  · intro entry member
    rw [List.mem_singleton.mp member]
    exact payload

/-- Another item is linked to the tail. -/
theorem linkItem_behind (supplies : Supplies ready allocator)
    (holds : Holds ready state items) (nonempty : state.queue.head ≠ 0)
    (fresh : pointer ∉ items.map Prod.fst) (nonnull : pointer ≠ 0)
    (bound : pointer < 2 ^ 64) (payload : e ≠ 0) :
    ∃ state', linkItem filled pointer = .ok state' ∧
      Holds ready state' (items ++ [(pointer, e)]) ∧
      ∀ other, other ≠ state.queue.tail →
        state'.machine.chunks other = filled.machine.chunks other := by
  obtain ⟨front, item, split⟩ := holds.represents.split nonempty
  have isItem : (state.queue.tail, item) ∈ items := by
    rw [split]
    exact List.mem_append_right _ List.mem_cons_self
  have cells : ∀ entry ∈ items, entry.1 ≠ pointer := by
    rintro entry member rfl
    exact fresh (List.mem_map_of_mem member)
  have notNew : state.queue.tail ≠ pointer := cells _ isItem
  obtain ⟨next, found⟩ := holds.represents.spells.found isItem
  obtain ⟨chunk, held, fields⟩ := Option.bind_eq_some_iff.mp found
  have heldAfter : filled.machine.chunks state.queue.tail = some chunk :=
    (new.chunks_of_ne notNew).trans held
  have inside : tailOffset + 8 ≤ chunk.size :=
    (itemOf_eq_some_iff.mp fields).1
  obtain ⟨linked, links, accessed⟩ :=
    storeField_ok supplies new.ready heldAfter inside pointer
  refine ⟨{ linked with queue := { state.queue with tail := pointer } }, ?_,
    ⟨?_, ?_, ?_, accessed.ready⟩, ?_⟩
  · rw [linkItem, new.queue, if_pos nonempty, links]
    change Except.ok { linked with
      queue := { linked.queue with tail := pointer } } = _
    rw [accessed.queue, new.queue]
  · change Represents (cellAt linked.machine.chunks) 0 state.queue.head pointer
      (items ++ [(pointer, e)])
    rw [accessed.chunks]
    refine holds.represents.push nonempty nonnull ?_ ?_ ?_
    · intro other member
      have same := holds.represents.spells.found member
      obtain ⟨next', found'⟩ := same
      rw [found] at found'
      cases found'
      rw [cellAt_update_same]
      exact itemOf_linked fields bound
    · rw [cellAt_update_of_ne notNew.symm]
      exact new.cellAt_new
    · intro entry member notTail
      rw [cellAt_update_of_ne notTail, cellAt,
        new.chunks_of_ne (cells entry member)]
      rfl
  · change Traced linked.trace _
    rw [accessed.trace]
    refine (new.traced holds fresh).write ?_
    rw [List.map_append]
    exact List.mem_append_left _ (List.mem_map_of_mem isItem)
  · intro entry member
    rcases List.mem_append.mp member with old | isNew
    · exact holds.nonnull entry old
    · rw [List.mem_singleton.mp isNew]
      exact payload
  · intro other different
    change linked.machine.chunks other = _
    rw [accessed.chunks, Function.update_of_ne different]

end Linking

/-- `enqueue` returns when `malloc` does, with the payload behind the others,
and touches no chunks but those of the queue. -/
theorem enqueue_ok (supplies : Supplies ready allocator)
    (holds : Holds ready state items) (payload : e ≠ 0)
    (returned : allocator.malloc state.machine sizeofQueueItem =
      .ok (pointer, machine)) :
    ∃ state', enqueue allocator state e = .ok state' ∧
      Holds ready state' (items ++ [(pointer, e)]) ∧
      ∀ other, other ∉ (items ++ [(pointer, e)]).map Prod.fst →
        state'.machine.chunks other = state.machine.chunks other := by
  obtain ⟨nonnull, bound, free, -, -⟩ :=
    supplies.malloc state.machine _ pointer machine holds.ready returned
  have fresh := holds.fresh free
  obtain ⟨filled, makes, new⟩ := newItem_ok supplies holds.ready returned e
  have enqueues : enqueue allocator state e = linkItem filled pointer := by
    rw [enqueue, makes]
    rfl
  rw [enqueues]
  by_cases empty : state.queue.head = 0
  · obtain rfl := holds.represents.spells.start_eq_null_iff.mp empty
    obtain ⟨state', links, after, chunks⟩ :=
      linkItem_empty new holds nonnull payload
    refine ⟨state', links, after, fun other outside => ?_⟩
    rw [chunks]
    exact new.chunks_of_ne fun same => outside (by simp [same])
  · obtain ⟨state', links, after, chunks⟩ :=
      linkItem_behind new supplies holds empty fresh nonnull bound payload
    obtain ⟨front, item, split⟩ := holds.represents.split empty
    refine ⟨state', links, after, fun other outside => ?_⟩
    rw [chunks other fun same => outside (by rw [split]; simp [same])]
    exact new.chunks_of_ne fun same => outside (by simp [same])

/-- The head was read and freed, and the next item is the head. -/
structure Unlinked (ready : Machine Arena → Prop) (state unlinked : State Arena)
    (next : Nat) : Prop where
  queue : unlinked.queue = { state.queue with head := next }
  trace :
    unlinked.trace = state.trace ++ [.read state.queue.head] ++
      [.read state.queue.head] ++ [.free state.queue.head]
  chunks :
    unlinked.machine.chunks =
      Function.update state.machine.chunks state.queue.head none
  ready : ready unlinked.machine

theorem dequeue_unlinks (supplies : Supplies ready allocator)
    (initially : ready state.machine) (nonempty : state.queue.head ≠ 0)
    {value : Word} {next : Nat}
    (found : cellAt state.machine.chunks state.queue.head =
      some (value, next)) :
    ∃ unlinked, dequeue allocator state = .ok (value, unlinked) ∧
      Unlinked ready state unlinked next := by
  obtain ⟨chunk, held, fields⟩ := Option.bind_eq_some_iff.mp found
  obtain ⟨size, payload, link⟩ := itemOf_eq_some_iff.mp fields
  have headInside : headOffset + 8 ≤ chunk.size :=
    Nat.le_trans (by decide) size
  have tailInside : tailOffset + 8 ≤ chunk.size := size
  obtain ⟨first, loadsHead, headLoaded⟩ :=
    loadField_ok initially held headInside
  have held' : first.machine.chunks first.queue.head = some chunk := by
    rw [headLoaded.chunks, headLoaded.queue]
    exact held
  obtain ⟨second, loadsTail, tailLoaded⟩ :=
    loadField_ok headLoaded.ready held' tailInside
  have held'' : second.machine.chunks state.queue.head = some chunk := by
    rw [tailLoaded.chunks, headLoaded.chunks]
    exact held
  obtain ⟨third, frees, released⟩ := @freeItem_ok Arena allocator ready
    { second with queue := { second.queue with head := next } } chunk
    state.queue.head supplies tailLoaded.ready held''
  refine ⟨third, ?_, ?_, ?_, ?_, released.ready⟩
  · rw [dequeue, if_neg nonempty, loadsHead]
    change (loadField first first.queue.head tailOffset >>= _) = _
    rw [loadsTail]
    change (freeItem allocator { second with
      queue := { second.queue with
        head := readLE chunk.bytes 8 8 } } state.queue.head >>= _) = _
    rw [link, frees]
    change Except.ok (BitVec.ofNat 64 (readLE chunk.bytes 0 8), third) = _
    rw [payload, BitVec.ofNat_toNat, BitVec.setWidth_eq]
  · rw [released.queue, tailLoaded.queue, headLoaded.queue]
  · rw [released.trace]
    change second.trace ++ _ = _
    rw [tailLoaded.trace, headLoaded.trace, headLoaded.queue]
  · rw [released.chunks]
    change Function.update second.machine.chunks _ _ = _
    rw [tailLoaded.chunks, headLoaded.chunks]

/-- `dequeue` returns the first payload, and frees its cell. -/
theorem dequeue_ok (supplies : Supplies ready allocator)
    (holds : Holds ready state (entry :: items)) :
    ∃ state', dequeue allocator state = .ok (entry.2, state') ∧
      Holds ready state' items ∧
      state'.machine.chunks =
        Function.update state.machine.chunks entry.1 none := by
  obtain ⟨isHead, next, found, rest⟩ := holds.represents.pop
  have nonempty : state.queue.head ≠ 0 :=
    mt holds.represents.spells.start_eq_null_iff.mp (List.cons_ne_nil _ _)
  obtain ⟨state', dequeues, unlinked⟩ :=
    dequeue_unlinks supplies holds.ready nonempty found
  have chunks := unlinked.chunks
  rw [isHead] at chunks
  refine ⟨state', dequeues, ⟨?_, ?_, ?_, unlinked.ready⟩, chunks⟩
  · rw [unlinked.queue, chunks]
    refine rest.congr fun other member => cellAt_update_of_ne ?_ none
    have distinct := holds.represents.spells.nodup
    rw [List.map_cons, List.nodup_cons] at distinct
    exact fun same => distinct.1 (same ▸ List.mem_map_of_mem member)
  · rw [unlinked.trace, isHead]
    have first := List.mem_cons_self (a := entry.1) (l := items.map Prod.fst)
    exact ((holds.traced.read first).read first).free
  · exact fun other member =>
      holds.nonnull other (List.mem_cons_of_mem _ member)

/-- `dequeue` returns `NULL` for an empty queue. -/
theorem dequeue_empty (holds : Holds ready state []) :
    dequeue allocator state = .ok (0#64, state) := by
  have empty := holds.represents.spells.start_eq_null_iff.mpr rfl
  rw [dequeue, if_pos empty]
  rfl

/-- When `enqueue` returns, so has `malloc`. -/
theorem malloc_of_enqueue (enqueued : enqueue allocator state e = .ok state') :
    ∃ pointer machine, allocator.malloc state.machine sizeofQueueItem =
      .ok (pointer, machine) := by
  rw [enqueue] at enqueued
  obtain ⟨item, made, -⟩ := ok_of_bind enqueued
  rw [newItem] at made
  obtain ⟨item, allocated, -⟩ := ok_of_bind made
  rw [mallocItem] at allocated
  obtain ⟨⟨pointer, machine⟩, returned, -⟩ := ok_of_bind allocated
  exact ⟨pointer, machine, returned⟩

end Calls

/-! ## Runs -/

/-- What happens to the queue and to the heap. -/
inductive Event (Arena : Type) where
  | enqueue (e : Word)
  | dequeue (ret : Word)
  /-- The rest of the kernel uses the heap, and leaves it so. -/
  | other (machine : Machine Arena)

/-- One event. Payloads are not `NULL`, and only the queue's functions use its
cells. -/
inductive Step {Arena : Type} (ready : Machine Arena → Prop)
    (allocator : Allocator Arena) :
    State Arena → Event Arena → State Arena → Prop
  | enqueue {state state' : State Arena} {e : Word} :
      e ≠ 0 →
      enqueue allocator state e = .ok state' →
      Step ready allocator state (.enqueue e) state'
  | dequeue {state state' : State Arena} {ret : Word} :
      dequeue allocator state = .ok (ret, state') →
      Step ready allocator state (.dequeue ret) state'
  | other {state : State Arena} {machine : Machine Arena} :
      (∀ items,
        Spells (cellAt state.machine.chunks) 0 state.queue.head items →
        ∀ entry ∈ items,
          machine.chunks entry.1 = state.machine.chunks entry.1) →
      ready machine →
      Step ready allocator state (.other machine)
        { state with machine := machine }

/-- The queue as a list. -/
def applyEvent {Arena : Type} (payloads : List Word) :
    Event Arena → List Word
  | .enqueue e => payloads ++ [e]
  | .dequeue _ => payloads.tail
  | .other _ => payloads

/-- The payloads that were enqueued and not yet dequeued, in order. -/
def pending {Arena : Type} (events : List (Event Arena)) : List Word :=
  events.foldl applyEvent []

/-- Each `dequeue` has returned the first payload that was waiting, and `NULL`
just where none was. -/
def Answered {Arena : Type} (events : List (Event Arena)) : Prop :=
  ∀ before ret after, events = before ++ .dequeue ret :: after →
    ret = (pending before).headD 0 ∧ (ret = 0 ↔ pending before = [])

/-- What a call does to the heap, with the queue's cells before and after it:
a cell that the queue has given up is no chunk any more, and the chunks of
others are as they were. -/
structure OnlyCells (cells cells' : List Nat)
    (chunks chunks' : Nat → Option Chunk) : Prop where
  linked : ∀ pointer ∈ cells', chunks' pointer ≠ none
  gone : ∀ pointer ∈ cells, pointer ∉ cells' → chunks' pointer = none
  others :
    ∀ pointer, pointer ∉ cells → pointer ∉ cells' →
      chunks' pointer = chunks pointer

/-- The queue behaves as a list, its cells are freed once, in their order, and
every access was to a cell in use. A cell that is dequeued is given back to the
heap, so that of the queue's chunks only the linked cells stay allocated. -/
structure Behaves {Arena : Type} (ready : Machine Arena → Prop)
    (allocator : Allocator Arena) (events : List (Event Arena))
    (state : State Arena) : Prop where
  spelled :
    ∃ items, Spells (cellAt state.machine.chunks) 0 state.queue.head items ∧
      items.map Prod.snd = pending events ∧
      inUseAfter state.trace = some (items.map Prod.fst) ∧
      allocated state.trace = freed state.trace ++ items.map Prod.fst
  answered : Answered events
  dequeues :
    ∃ state',
      dequeue allocator state = .ok ((pending events).headD 0, state') ∧
      (pending events ≠ [] →
        state'.machine.chunks =
          Function.update state.machine.chunks state.queue.head none)
  enqueues :
    ∀ e pointer machine, e ≠ 0 →
      allocator.malloc state.machine sizeofQueueItem =
        .ok (pointer, machine) →
      ∃ state', enqueue allocator state e = .ok state'
  heap :
    ∀ event state' cells cells', Step ready allocator state event state' →
      (∀ machine, event ≠ .other machine) →
      inUseAfter state.trace = some cells →
      inUseAfter state'.trace = some cells' →
      OnlyCells cells cells' state.machine.chunks state'.machine.chunks

section Runs

variable {Arena : Type} {ready : Machine Arena → Prop}
  {allocator : Allocator Arena} {start state state' : State Arena}
  {events : List (Event Arena)} {event : Event Arena}
  {items : List (Nat × Word)}

theorem pending_snoc (events : List (Event Arena)) (event : Event Arena) :
    pending (events ++ [event]) = applyEvent (pending events) event := by
  rw [pending, List.foldl_append]
  rfl

/-- The last event is another one, or a `dequeue` that is answered rightly. -/
theorem Answered.snoc (answered : Answered events)
    (last : ∀ ret, event = .dequeue ret →
      ret = (pending events).headD 0 ∧ (ret = 0 ↔ pending events = [])) :
    Answered (events ++ [event]) := by
  intro before ret after split
  rcases after.eq_nil_or_concat with rfl | ⟨rest, final, rfl⟩
  · obtain ⟨rfl, same⟩ := List.append_inj' split rfl
    exact last ret (List.singleton_inj.mp same)
  · rw [List.concat_eq_append, ← List.cons_append,
      ← List.append_assoc] at split
    exact answered before ret rest (List.append_inj' split rfl).1

/-- Every event keeps the queue a queue, and a call changes no chunks but its
cells: the one that it gives up is gone. -/
theorem holds_step (supplies : Supplies ready allocator)
    (holds : Holds ready state items)
    (step : Step ready allocator state event state') :
    ∃ items', Holds ready state' items' ∧
      items'.map Prod.snd = applyEvent (items.map Prod.snd) event ∧
      (∀ ret, event = .dequeue ret →
        ret = (items.map Prod.snd).headD 0 ∧
          (ret = 0 ↔ items.map Prod.snd = [])) ∧
      ((∀ machine, event ≠ .other machine) →
        OnlyCells (items.map Prod.fst) (items'.map Prod.fst)
          state.machine.chunks state'.machine.chunks) := by
  cases step with
  | @enqueue _ e payload enqueued =>
      obtain ⟨pointer, machine, returned⟩ := malloc_of_enqueue enqueued
      obtain ⟨after, again, holds', untouched⟩ :=
        enqueue_ok supplies holds payload returned
      rw [enqueued] at again
      cases again
      refine ⟨_, holds', List.map_append, ?_, fun _ => ⟨?_, ?_, ?_⟩⟩
      · rintro ret ⟨⟩
      · exact fun pointer member => holds'.allocated member
      · intro pointer member outside
        refine absurd ?_ outside
        rw [List.map_append]
        exact List.mem_append_left _ member
      · exact fun pointer _ outside => untouched pointer outside
  | @dequeue _ ret dequeued =>
      cases items with
      | nil =>
          rw [dequeue_empty holds] at dequeued
          cases dequeued
          refine ⟨[], holds, rfl, ?_, fun _ => ⟨?_, ?_, fun _ _ _ => rfl⟩⟩
          · rintro ret ⟨⟩
            exact ⟨rfl, iff_of_true rfl rfl⟩
          · exact fun pointer member => absurd member List.not_mem_nil
          · exact fun pointer member _ => absurd member List.not_mem_nil
      | cons entry items =>
          obtain ⟨after, again, holds', chunks⟩ := dequeue_ok supplies holds
          rw [dequeued] at again
          cases again
          refine ⟨items, holds', rfl, ?_, fun _ => ⟨?_, ?_, ?_⟩⟩
          · rintro ret ⟨⟩
            exact ⟨rfl, iff_of_false (holds.nonnull entry List.mem_cons_self)
              (List.cons_ne_nil _ _)⟩
          · exact fun pointer member => holds'.allocated member
          · intro pointer member outside
            rw [List.map_cons, List.mem_cons] at member
            rw [member.resolve_right outside, chunks, Function.update_self]
          · intro pointer outside _
            rw [List.map_cons, List.mem_cons, not_or] at outside
            rw [chunks, Function.update_of_ne outside.1]
  | @other machine kept readyAfter =>
      have same := kept items holds.represents.spells
      refine ⟨items, ⟨holds.represents.congr ?_, holds.traced, holds.nonnull,
        readyAfter⟩, rfl, ?_, fun call => absurd rfl (call machine)⟩
      · intro entry member
        change cellAt machine.chunks entry.1 = _
        rw [cellAt, same entry member]
        rfl
      · rintro ret ⟨⟩

theorem holds_start (empty : start.queue.head = 0) (untraced : start.trace = [])
    (initially : ready start.machine) : Holds ready start [] := by
  refine ⟨?_, ?_, fun _ member => absurd member List.not_mem_nil, initially⟩
  · rw [empty]
    exact represents_empty _ 0 start.queue.tail
  · rw [untraced]
    exact traced_nil

/-- A queue that holds what is pending behaves as a list. -/
theorem behaves_of_holds (supplies : Supplies ready allocator)
    (holds : Holds ready state items)
    (payloads : items.map Prod.snd = pending events)
    (answered : Answered events) : Behaves ready allocator events state := by
  refine ⟨⟨items, holds.represents.spells, payloads, holds.traced.inUse,
    holds.traced.account⟩, answered, ?_, ?_, ?_⟩
  · rw [← payloads]
    cases items with
    | nil =>
        exact ⟨state, dequeue_empty holds, fun some => absurd rfl some⟩
    | cons entry items =>
        obtain ⟨state', dequeued, -, chunks⟩ := dequeue_ok supplies holds
        refine ⟨state', dequeued, fun _ => ?_⟩
        rw [chunks, holds.represents.pop.1]
  · intro e pointer machine payload returned
    obtain ⟨state', enqueued, -⟩ := enqueue_ok supplies holds payload returned
    exact ⟨state', enqueued⟩
  · intro event state' cells cells' step call inUse inUse'
    obtain ⟨items', holds', -, -, onlyCells⟩ := holds_step supplies holds step
    rw [holds.traced.inUse] at inUse
    rw [holds'.traced.inUse] at inUse'
    cases inUse
    cases inUse'
    exact onlyCells call

end Runs

/-- From an empty queue with any tail, the queue behaves as a list. -/
theorem run_behaves {Arena : Type} (ready : Machine Arena → Prop)
    (allocator : Allocator Arena) (start state : State Arena)
    (events : List (Event Arena)) (supplies : Supplies ready allocator)
    (empty : start.queue.head = 0) (untraced : start.trace = [])
    (initially : ready start.machine)
    (run : Run (Step ready allocator) start events state) :
    Behaves ready allocator events state := by
  obtain ⟨⟨items, holds, payloads⟩, answered⟩ :
      (∃ items, Holds ready state items ∧
        items.map Prod.snd = pending events) ∧ Answered events := by
    induction run with
    | nil =>
        refine ⟨⟨[], holds_start empty untraced initially, rfl⟩, ?_⟩
        intro before ret after split
        exact absurd split.symm (by simp)
    | @snoc events event state state' run step inductionHypothesis =>
        obtain ⟨⟨items, holds, payloads⟩, answered⟩ := inductionHypothesis
        obtain ⟨items', holds', after, answers, -⟩ :=
          holds_step supplies holds step
        rw [payloads] at after answers
        rw [pending_snoc]
        exact ⟨⟨items', holds', after⟩, answered.snoc answers⟩
  exact behaves_of_holds supplies holds payloads answered

/-- An empty queue with a stray tail, over a heap of one chunk. -/
def oneCell : State (List Nat) where
  machine := {
    mapper := ⟨fun _ => 0, 0, 0, 0, 0⟩
    chunks := fun _ => none
    arena := [0x1000] }
  queue := { head := 0, tail := 0xdead }
  trace := []

theorem recycles_oneCell : Recycles oneCell.machine := by
  refine ⟨by decide, fun _ _ => rfl, ?_⟩
  rintro pointer (member | used)
  · obtain rfl := List.mem_singleton.mp member
    decide
  · exact absurd rfl used

/-- The only cell is freed, and comes back while the tail still points to
it. -/
theorem run_behaves_oneCell :
    ∃ state, Behaves Recycles recycling
      [.enqueue 5#64, .dequeue 5#64, .enqueue 7#64] state := by
  have first : Run (Step Recycles recycling) oneCell [.enqueue 5#64] _ :=
    Run.nil.snoc (.enqueue (by decide) rfl)
  have second := first.snoc (.dequeue rfl)
  have third := second.snoc (.enqueue (by decide : (7#64 : Word) ≠ 0) rfl)
  exact ⟨_, run_behaves Recycles recycling oneCell _ _ supplies_recycling rfl
    rfl recycles_oneCell third⟩

end BeaverOS.Fifo
