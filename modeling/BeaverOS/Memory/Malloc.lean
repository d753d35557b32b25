import BeaverOS.Memory.Window
import Mathlib.Logic.Function.Basic

/-!
# The heap as its callers see it

`malloc`, `realloc` and `free` are those of the vendored allocator. Their
callers rely on what the three promise: a chunk of at least the size asked for,
apart from the others, and contents that survive a move. A heap that grows maps
new pages, and so moves the window.
-/

namespace BeaverOS.Malloc

open BeaverOS.ByteMemory
open BeaverOS.Paging
open BeaverOS.Window

/-- A chunk: the number of bytes that can be used, and what they hold. -/
structure Chunk where
  size : Nat
  bytes : Memory

/-- The kernel with its heap: the chunks by their addresses, and the variables
of the allocator. -/
structure Machine (Arena : Type) where
  mapper : Mapper
  chunks : Nat → Option Chunk
  arena : Arena

/-- The functions of the allocator. -/
structure Allocator (Arena : Type) where
  malloc : Machine Arena → Nat → Except Halt (Nat × Machine Arena)
  realloc : Machine Arena → Nat → Nat → Except Halt (Nat × Machine Arena)
  free : Machine Arena → Nat → Except Halt (Machine Arena)

section Access

variable {Arena : Type}

/-- `phys_look`, which leaves the heap alone. -/
def look (layout : Layout) (machine : Machine Arena) (phys : Word) :
    Machine Arena :=
  { machine with mapper := physLook layout machine.mapper phys }

/-- Replace what a chunk holds. -/
def putChunk (machine : Machine Arena) (pointer : Nat) (chunk : Chunk) :
    Machine Arena :=
  { machine with
    chunks := Function.update machine.chunks pointer (some chunk) }

/-- Read `count` bytes of a chunk. -/
def loadHeap (machine : Machine Arena) (pointer offset count : Nat) :
    Except Halt Nat :=
  match machine.chunks pointer with
  | some chunk =>
      if offset + count ≤ chunk.size then
        .ok (readLE chunk.bytes offset count)
      else .error .fault
  | none => .error .fault

/-- Store `count` bytes into a chunk. -/
def storeHeap (machine : Machine Arena) (pointer offset count value : Nat) :
    Except Halt (Machine Arena) :=
  match machine.chunks pointer with
  | some chunk =>
      if offset + count ≤ chunk.size then
        .ok (putChunk machine pointer
          ⟨chunk.size, writeLE chunk.bytes offset count value⟩)
      else .error .fault
  | none => .error .fault

variable {machine : Machine Arena} {chunk : Chunk}
  {pointer other offset count value : Nat}

theorem loadHeap_ok (held : machine.chunks pointer = some chunk)
    (inside : offset + count ≤ chunk.size) :
    loadHeap machine pointer offset count =
      .ok (readLE chunk.bytes offset count) := by
  rw [loadHeap, held]
  exact if_pos inside

theorem storeHeap_ok (value : Nat) (held : machine.chunks pointer = some chunk)
    (inside : offset + count ≤ chunk.size) :
    storeHeap machine pointer offset count value =
      .ok (putChunk machine pointer
        ⟨chunk.size, writeLE chunk.bytes offset count value⟩) := by
  rw [storeHeap, held]
  exact if_pos inside

@[simp]
theorem putChunk_same :
    (putChunk machine pointer chunk).chunks pointer = some chunk := by
  simp only [putChunk, Function.update_self]

theorem putChunk_of_ne (different : other ≠ pointer) :
    (putChunk machine pointer chunk).chunks other = machine.chunks other := by
  simp only [putChunk, Function.update_of_ne different]

end Access

/-! ## What the allocator promises -/

section Promises

variable {Arena : Type} (usable : Nat → Nat → Prop) (kept : Set Nat)
  (ready : Machine Arena → Prop)

/-- A call leaves the physical memory in `kept`, and the heap in order. -/
structure Keeps (machine machine' : Machine Arena) : Prop where
  memory : ∀ cell, cell ∈ kept →
    machine'.mapper.mem cell = machine.mapper.mem cell
  ready : ready machine'

/-- The allocator serves requests of up to `room` bytes: it has memory left for
all of them. For a request of `bytes` bytes it may return a chunk of any size
with `usable bytes size`. Its callers may move the window and write into their
chunks in between. -/
structure Serves (layout : Layout) (allocator : Allocator Arena)
    (room : Nat) : Prop where
  enough : ∀ bytes size, usable bytes size → bytes ≤ size
  look : ∀ machine phys, ready machine → ready (look layout machine phys)
  put : ∀ machine pointer chunk chunk', ready machine →
    machine.chunks pointer = some chunk → chunk'.size = chunk.size →
    ready (putChunk machine pointer chunk')
  malloc : ∀ machine bytes, ready machine → bytes ≤ room →
    ∃ pointer machine' chunk,
      allocator.malloc machine bytes = .ok (pointer, machine') ∧
      machine.chunks pointer = none ∧ usable bytes chunk.size ∧
      machine'.chunks = Function.update machine.chunks pointer (some chunk) ∧
      Keeps kept ready machine machine'
  realloc : ∀ machine pointer old bytes, ready machine → bytes ≤ room →
    machine.chunks pointer = some old →
    ∃ pointer' machine' chunk,
      allocator.realloc machine pointer bytes = .ok (pointer', machine') ∧
      (pointer' = pointer ∨ machine.chunks pointer' = none) ∧
      usable bytes chunk.size ∧
      AgreeOn chunk.bytes old.bytes 0 (min old.size bytes) ∧
      machine'.chunks =
        Function.update (Function.update machine.chunks pointer none)
          pointer' (some chunk) ∧
      Keeps kept ready machine machine'
  free : ∀ machine pointer chunk, ready machine →
    machine.chunks pointer = some chunk →
    ∃ machine', allocator.free machine pointer = .ok machine' ∧
      machine'.chunks = Function.update machine.chunks pointer none ∧
      Keeps kept ready machine machine'

end Promises

/-- What is promised of an allocator whose memory may run out. What `malloc`
returns is a chunk of its own, and not at `NULL`. -/
structure Supplies {Arena : Type} (ready : Machine Arena → Prop)
    (allocator : Allocator Arena) : Prop where
  put : ∀ machine pointer chunk chunk', ready machine →
    machine.chunks pointer = some chunk → chunk'.size = chunk.size →
    ready (putChunk machine pointer chunk')
  malloc : ∀ machine bytes pointer machine', ready machine →
    allocator.malloc machine bytes = .ok (pointer, machine') →
    pointer ≠ 0 ∧ pointer < 2 ^ 64 ∧ machine.chunks pointer = none ∧
      (∃ chunk, bytes ≤ chunk.size ∧
        machine'.chunks =
          Function.update machine.chunks pointer (some chunk)) ∧
      ready machine'
  free : ∀ machine pointer chunk, ready machine →
    machine.chunks pointer = some chunk →
    ∃ machine', allocator.free machine pointer = .ok machine' ∧
      machine'.chunks = Function.update machine.chunks pointer none ∧
      ready machine'

/-! ## Traces -/

/-- What a program does with its chunks. -/
inductive Access where
  | malloc (pointer : Nat)
  | read (pointer : Nat)
  | write (pointer : Nat)
  | free (pointer : Nat)
  deriving DecidableEq

/-- The chunks in use after an access. Only chunks in use are read, written and
freed, and `malloc` returns another one. -/
def follow (inUse : List Nat) : Access → Option (List Nat)
  | .malloc pointer =>
      if pointer ∈ inUse then none else some (inUse ++ [pointer])
  | .read pointer | .write pointer =>
      if pointer ∈ inUse then some inUse else none
  | .free pointer =>
      if pointer ∈ inUse then some (inUse.erase pointer) else none

/-- The chunks in use after all of a trace, if every access in it is to a chunk
in use. -/
def inUseAfter (trace : List Access) : Option (List Nat) :=
  trace.foldlM follow []

/-- The chunks that `malloc` has returned. -/
def allocated (trace : List Access) : List Nat :=
  trace.filterMap fun
    | .malloc pointer => some pointer
    | _ => none

/-- The chunks that `free` was called with. -/
def freed (trace : List Access) : List Nat :=
  trace.filterMap fun
    | .free pointer => some pointer
    | _ => none

theorem inUseAfter_snoc (trace : List Access) (access : Access) :
    inUseAfter (trace ++ [access]) =
      (inUseAfter trace).bind fun inUse => follow inUse access := by
  rw [inUseAfter, inUseAfter, List.foldlM_append]
  cases trace.foldlM follow [] with
  | none => rfl
  | some inUse =>
      change (follow inUse access).bind some = follow inUse access
      exact Option.bind_fun_some _

@[simp]
theorem allocated_snoc (trace : List Access) (access : Access) :
    allocated (trace ++ [access]) =
      allocated trace ++ allocated [access] :=
  List.filterMap_append

@[simp]
theorem freed_snoc (trace : List Access) (access : Access) :
    freed (trace ++ [access]) = freed trace ++ freed [access] :=
  List.filterMap_append

/-! ## An allocator that uses no address twice -/

/-- `request2size`: the size of the chunk for a request, with its overhead. -/
def request2size (bytes : Nat) : Nat :=
  if bytes < 23 then 32 else (bytes + 23) / 16 * 16

/-- The bytes of that chunk behind its `CHUNK_OVERHEAD`. -/
def usableBytes (bytes : Nat) : Nat := request2size bytes - 8

theorem usableBytes_bounds (bytes : Nat) :
    bytes ≤ usableBytes bytes ∧ 24 ≤ usableBytes bytes := by
  rw [usableBytes, request2size]
  split
  · omega
  · omega

/-- The chunk that a request gets. -/
def freshChunk (machine : Machine Nat) (bytes : Nat) (contents : Memory) :
    Nat × Machine Nat :=
  (machine.arena, { putChunk machine machine.arena ⟨bytes, contents⟩ with
    arena := machine.arena + 1 })

/-- The machine without a chunk. -/
def dropChunk (machine : Machine Nat) (pointer : Nat) : Machine Nat :=
  { machine with chunks := Function.update machine.chunks pointer none }

/-- Chunks are numbered as they are asked for. -/
def numbered : Allocator Nat where
  malloc machine bytes :=
    .ok (freshChunk machine (usableBytes bytes) fun _ => 0)
  realloc machine pointer bytes :=
    match machine.chunks pointer with
    | some old =>
        .ok (freshChunk (dropChunk machine pointer) (usableBytes bytes)
          old.bytes)
    | none => .error (.panic "malloc error")
  free machine pointer :=
    match machine.chunks pointer with
    | some _ => .ok (dropChunk machine pointer)
    | none => .error (.panic "malloc error")

/-- The sizes that this allocator returns. -/
def UsableBytes (bytes size : Nat) : Prop := size = usableBytes bytes

/-- The numbers from the next one on are not in use. -/
def Unused (machine : Machine Nat) : Prop :=
  ∀ pointer, machine.arena ≤ pointer → machine.chunks pointer = none

theorem serves_numbered (layout : Layout) (kept : Set Nat) (room : Nat) :
    Serves UsableBytes kept Unused layout numbered room where
  enough bytes _ size := size ▸ (usableBytes_bounds bytes).1
  look _ _ unused := unused
  put machine pointer chunk chunk' unused held _ other above := by
    have different : other ≠ pointer := by
      rintro rfl
      rw [unused other above] at held
      cases held
    rw [putChunk_of_ne different]
    exact unused other above
  malloc machine bytes unused _ := by
    refine ⟨machine.arena, _, ⟨usableBytes bytes, fun _ => 0⟩, rfl,
      unused _ (Nat.le_refl _), rfl, rfl, fun _ _ => rfl, ?_⟩
    intro other above
    have beyond : machine.arena + 1 ≤ other := above
    exact (Function.update_of_ne (by omega) _ _).trans
      (unused other (by omega))
  realloc machine pointer old bytes unused _ held := by
    refine ⟨machine.arena,
      (freshChunk (dropChunk machine pointer) (usableBytes bytes)
        old.bytes).2,
      ⟨usableBytes bytes, old.bytes⟩, ?_, Or.inr (unused _ (Nat.le_refl _)), rfl,
      fun _ _ _ => rfl, rfl, fun _ _ => rfl, ?_⟩
    · simp only [numbered, held]
      rfl
    · intro other above
      have beyond : machine.arena + 1 ≤ other := above
      have notNew : other ≠ machine.arena := by omega
      have notOld : other ≠ pointer := by
        rintro rfl
        rw [unused other (by omega)] at held
        cases held
      exact (Function.update_of_ne notNew _ _).trans
        ((Function.update_of_ne notOld _ _).trans (unused other (by omega)))
  free machine pointer chunk unused held := by
    refine ⟨dropChunk machine pointer, ?_, rfl, fun _ _ => rfl, ?_⟩
    · simp only [numbered, held]
    · intro other above
      have notOld : other ≠ pointer := by
        rintro rfl
        rw [unused other above] at held
        cases held
      exact (Function.update_of_ne notOld _ _).trans (unused other above)

/-! ## An allocator that hands out freed chunks first -/

/-- The arena is the list of the addresses to hand out. -/
def recycling : Allocator (List Nat) where
  malloc machine bytes :=
    match machine.arena with
    | pointer :: rest =>
        .ok (pointer, { putChunk machine pointer ⟨bytes, fun _ => 0⟩ with
          arena := rest })
    | [] => .error (.panic "malloc error")
  realloc _ _ _ := .error (.panic "malloc error")
  free machine pointer :=
    match machine.chunks pointer with
    | some _ => .ok { machine with
        chunks := Function.update machine.chunks pointer none
        arena := pointer :: machine.arena }
    | none => .error (.panic "malloc error")

/-- The addresses to hand out are not in use, and no address is `NULL`. -/
structure Recycles (machine : Machine (List Nat)) : Prop where
  distinct : machine.arena.Nodup
  unused : ∀ pointer ∈ machine.arena, machine.chunks pointer = none
  bounded :
    ∀ pointer, pointer ∈ machine.arena ∨ machine.chunks pointer ≠ none →
      pointer ≠ 0 ∧ pointer < 2 ^ 64

theorem supplies_recycling : Supplies Recycles recycling where
  put machine pointer chunk chunk' ready held _ := by
    have notFree : pointer ∉ machine.arena := fun member => by
      rw [ready.unused pointer member] at held
      cases held
    refine ⟨ready.distinct, ?_, ?_⟩
    · intro other member
      have different : other ≠ pointer := by
        rintro rfl
        exact notFree member
      rw [putChunk_of_ne different]
      exact ready.unused other member
    · intro other known
      by_cases same : other = pointer
      · subst same
        exact ready.bounded other (Or.inr (by simp [held]))
      · rw [putChunk_of_ne same] at known
        exact ready.bounded other known
  malloc machine bytes pointer machine' ready returned := by
    cases free : machine.arena with
    | nil =>
        simp only [recycling, free, reduceCtorEq] at returned
    | cons first rest =>
        simp only [recycling, free, Except.ok.injEq, Prod.mk.injEq]
          at returned
        obtain ⟨rfl, rfl⟩ := returned
        have member : first ∈ machine.arena := free ▸ List.mem_cons_self
        have distinct := ready.distinct
        rw [free, List.nodup_cons] at distinct
        obtain ⟨nonnull, bound⟩ := ready.bounded first (Or.inl member)
        refine ⟨nonnull, bound, ready.unused first member,
          ⟨⟨bytes, fun _ => 0⟩, Nat.le_refl _, rfl⟩, distinct.2, ?_, ?_⟩
        · intro other inRest
          have different : other ≠ first :=
            fun same => distinct.1 (same ▸ inRest)
          refine (putChunk_of_ne different).trans (ready.unused other ?_)
          exact free ▸ List.mem_cons_of_mem first inRest
        · intro other known
          by_cases same : other = first
          · exact same ▸ ⟨nonnull, bound⟩
          · refine ready.bounded other (known.imp ?_ fun used => ?_)
            · exact fun inRest => free ▸ List.mem_cons_of_mem first inRest
            · exact (putChunk_of_ne same).symm ▸ used
  free machine pointer chunk ready held := by
    have known := ready.bounded pointer (Or.inr (by simp [held]))
    have notFree : pointer ∉ machine.arena := fun member => by
      rw [ready.unused pointer member] at held
      cases held
    refine ⟨{ machine with
      chunks := Function.update machine.chunks pointer none
      arena := pointer :: machine.arena }, ?_, rfl,
      List.nodup_cons.mpr ⟨notFree, ready.distinct⟩, ?_, ?_⟩
    · simp only [recycling, held]
    · intro other member
      by_cases same : other = pointer
      · exact same ▸ Function.update_self ..
      · have inArena := (List.mem_cons.mp member).resolve_left same
        exact (Function.update_of_ne same _ _).trans
          (ready.unused other inArena)
    · intro other used
      by_cases same : other = pointer
      · exact same ▸ known
      · have kept : Function.update machine.chunks pointer none other =
            machine.chunks other := Function.update_of_ne same _ _
        refine ready.bounded other (used.imp ?_ fun held' => ?_)
        · exact fun member => (List.mem_cons.mp member).resolve_left same
        · exact kept ▸ held'

end BeaverOS.Malloc
