import BeaverOS.Acpi.Tables

/-!
# The PCI configuration entries

`find_mcfg` of `mcfg.c` copies the entries of the one `"MCFG"` table into an
array. It asks for as many bytes as there are entries, hands `realloc` the
address of the caller's variable, and steps over every second entry. None of
this shows when the table has one entry: the smallest chunk of the allocator
has room for it.
-/

namespace BeaverOS.Acpi

open BeaverOS.ByteMemory
open BeaverOS.Loop
open BeaverOS.Malloc
open BeaverOS.Paging
open BeaverOS.Window

/-! ## The code -/

/-- `sizeof(mcfg_t)`. -/
def mcfgHeader : Word := 44

/-- `sizeof(mcfg_conf_base_addr_t)`. -/
def confSize : Word := 16

/-- What a pointer given to `realloc` points to: a chunk of the heap, or a
variable of the caller. -/
inductive Target where
  | chunk (pointer : Nat)
  | variable

/-- The loop over the entries: `addr`, and the addresses looked at. -/
structure Copying (Arena : Type) where
  machine : Machine Arena
  addr : Word
  looked : List Word

/-- What `find_mcfg` leaves behind: the value returned, `*bases`, `*size`, and
the addresses of the entries that were read. -/
structure Extracted (Arena : Type) where
  returned : Word
  machine : Machine Arena
  bases : Nat
  size : Nat
  looked : List Word

section Code

variable {Arena : Type} (layout : Layout) (allocator : Allocator Arena)
  (root : Root)

/-- `realloc`. What happens to a pointer that is not from the heap is not
defined. -/
def reallocAt (machine : Machine Arena) (bytes : Nat) :
    Target → Except Halt (Nat × Machine Arena)
  | .chunk pointer => allocator.realloc machine pointer bytes
  | .variable => .error .fault

/-- The array for `cnt` entries. In the second case `bases` is passed, not
`*bases`. -/
def reserveBases (machine : Machine Arena) (bases size : Nat) (cnt : Word) :
    Except Halt (Machine Arena × Nat × Nat) :=
  if size = 0 then do
    let (bases, machine) ← allocator.malloc machine cnt.toNat
    return (machine, bases, cnt.toNat)
  else if size < cnt.toNat then do
    let (bases, machine) ←
      reallocAt allocator machine (cnt * confSize).toNat .variable
    return (machine, bases, cnt.toNat)
  else return (machine, bases, size)

/-- A round of the copying loop, with the `++addr` of its body and that of
its head. -/
def copyEntry (bases i : Nat) (copying : Copying Arena) :
    Except Halt (Copying Arena) := do
  let machine := look layout copying.machine copying.addr
  let entry ← readWindow layout machine 0 16
  let machine ← storeHeap machine bases (16 * i) 16 entry
  let addr := copying.addr + confSize
  return ⟨machine, addr + confSize, copying.looked ++ [copying.addr]⟩

/-- The rest of `find_mcfg`, once there is an array. -/
def copyEntries (machine : Machine Arena) (ptrs bases size : Nat)
    (cnt : Word) : Except Halt (Extracted Arena) := do
  let table ← loadHeap machine ptrs 0 8
  let copied ← forLoop 0 cnt.toNat (copyEntry layout bases)
    ⟨machine, BitVec.ofNat 64 table + mcfgHeader, []⟩
  let machine ← allocator.free copied.machine ptrs
  return ⟨cnt, machine, bases, size, copied.looked⟩

/-- `find_mcfg` from the table on, whose address is in the array `ptrs`. -/
def extractEntries (machine : Machine Arena) (ptrs bases size : Nat) :
    Except Halt (Extracted Arena) := do
  let table ← loadHeap machine ptrs 0 8
  let machine := look layout machine (BitVec.ofNat 64 table)
  let length ← readWindow layout machine lengthOffset 4
  let cnt := entryCount (BitVec.ofNat 32 length) mcfgHeader confSize
  let (machine, bases, size) ← reserveBases allocator machine bases size cnt
  copyEntries layout allocator machine ptrs bases size cnt

/-- `find_mcfg`. -/
def findMcfg (machine : Machine Arena) (bases size : Nat) :
    Except Halt (Extracted Arena) := do
  let found ← findAcpiTable layout allocator root mcfgSign machine 0 0
  if found.size ≠ 1 then
    .error (.panic
      ("Found " ++ toString found.size ++ " MCFG(s), expected 1"))
  else extractEntries layout allocator found.machine found.ptrs bases size

end Code

/-! ## Lengths from the firmware -/

/-- The tables whose lengths bound a loop. -/
inductive Listing where
  | rsdt
  | xsdt
  | mcfg
  deriving DecidableEq

/-- The size of the header. -/
def Listing.header : Listing → Word
  | .rsdt => tableHeader
  | .xsdt => tableHeader
  | .mcfg => mcfgHeader

/-- The size of an entry. -/
def Listing.entrySize : Listing → Word
  | .rsdt => Acpi.entrySize ⟨0, 0⟩
  | .xsdt => Acpi.entrySize ⟨0, 1⟩
  | .mcfg => confSize

/-- The number of rounds of the loop over a table of some length. -/
def Listing.rounds (listing : Listing) (length : BitVec 32) : Nat :=
  (entryCount length listing.header listing.entrySize).toNat

/-- The entries that are processed lie in the table. -/
def Bounded (listing : Listing) (length : BitVec 32) : Prop :=
  listing.rounds length * listing.entrySize.toNat + listing.header.toNat ≤
      length.toNat ∨
    listing.rounds length = 0

instance decidableBounded (listing : Listing) (length : BitVec 32) :
    Decidable (Bounded listing length) :=
  inferInstanceAs (Decidable (_ ∨ _))

/-- A length below that of the header wraps. -/
theorem toNat_entryCount_short {length : BitVec 32} {header : Word}
    (size : Word) (short : length.toNat < header.toNat) :
    (entryCount length header size).toNat =
      (2 ^ 64 - header.toNat + length.toNat) / size.toNat := by
  have bound := length.isLt
  have headerBound := header.isLt
  rw [entryCount, BitVec.toNat_udiv, BitVec.toNat_sub, BitVec.toNat_setWidth]
  congr 1
  omega

/-- The loops stay in their tables exactly for lengths that have room for the
header. -/
theorem rounds_bounded_iff (listing : Listing) (length : BitVec 32) :
    Bounded listing length ↔ listing.header.toNat ≤ length.toNat := by
  constructor
  · rintro (inside | none)
    · exact Nat.le_of_add_left_le inside
    · by_contra short
      have below : length.toNat < listing.header.toNat := Nat.lt_of_not_le short
      rw [Listing.rounds, toNat_entryCount_short _ below,
        Nat.div_eq_zero_iff] at none
      cases listing with
      | rsdt =>
          change 4 = 0 ∨ 2 ^ 64 - 36 + length.toNat < 4 at none
          omega
      | xsdt =>
          change 8 = 0 ∨ 2 ^ 64 - 36 + length.toNat < 8 at none
          omega
      | mcfg =>
          change 16 = 0 ∨ 2 ^ 64 - 44 + length.toNat < 16 at none
          omega
  · intro long
    have fit := Nat.div_mul_le_self (length.toNat - listing.header.toNat)
      listing.entrySize.toNat
    refine Or.inl ?_
    rw [Listing.rounds, toNat_entryCount _ long]
    omega

/-- An empty length makes the loop go on for 2 ^ 62 - 9 entries. -/
theorem rounds_empty : ¬ Bounded .rsdt 0 := by
  decide

/-! ## The entries that are copied -/

section Extraction

variable {Arena : Type} {layout : Layout} {allocator : Allocator Arena}
  {usable : Nat → Nat → Prop} {kept : Set Nat} {room : Nat}
  {ready : Machine Arena → Prop}
  {memory : Memory} {root : Root} {machine : Machine Arena} {table : Word}
  {n ptrs bases size i : Nat}

/-- The one `"MCFG"` table of the root table, with `n` entries. -/
structure SoleMcfg (memory : Memory) (root : Root) (kept : Set Nat)
    (table : Word) (n : Nat) : Prop where
  sole : matching memory root mcfgSign = [table]
  length : readLE memory (table.toNat + 4) 4 = 44 + 16 * n
  entries : 1 ≤ n
  physical : table.toNat + (44 + 16 * n) ≤ 2 ^ 52
  table_kept : cells table.toNat (44 + 16 * n) ⊆ kept

/-- All entries are in the array, in order, and no byte outside the table has
been read for them. -/
structure Extracts (memory : Memory) (table : Word) (n : Nat)
    (extracted : Extracted Arena) : Prop where
  returned : extracted.returned.toNat = n
  copied : ∃ chunk, extracted.machine.chunks extracted.bases = some chunk ∧
    16 * n ≤ chunk.size ∧ ∀ i, i < n →
      readLE chunk.bytes (16 * i) 16 =
        readLE memory (table.toNat + (44 + 16 * i)) 16
  inside : ∀ addr, addr ∈ extracted.looked →
    table.toNat ≤ addr.toNat ∧
      addr.toNat + 16 ≤ table.toNat + (44 + 16 * n)

/-- The array of `find_acpi_table` holds the address of the table. -/
structure HoldsTable (machine : Machine Arena) (ptrs : Nat) (table : Word) :
    Prop where
  holds : ∃ chunk, machine.chunks ptrs = some chunk ∧ 8 ≤ chunk.size ∧
    readWord chunk.bytes 0 = table

theorem HoldsTable.load (holds : HoldsTable machine ptrs table) :
    ∃ value, loadHeap machine ptrs 0 8 = .ok value ∧
      BitVec.ofNat 64 value = table := by
  obtain ⟨chunk, held, size, word⟩ := holds.holds
  refine ⟨_, loadHeap_ok held (by omega), ?_⟩
  rw [← readWord]
  exact word

/-- The state in which the table has been found. -/
structure AtTable (memory : Memory) (kept : Set Nat)
    (ready : Machine Arena → Prop) (machine : Machine Arena) (ptrs : Nat)
    (table : Word) : Prop where
  table : HoldsTable machine ptrs table
  same : ∀ cell, cell ∈ kept → machine.mapper.mem cell = memory cell
  ready : ready machine

/-- A caller's array with room for `size` entries. -/
def HasBuffer (machine : Machine Arena) (bases size : Nat) : Prop :=
  size ≠ 0 →
    ∃ chunk, machine.chunks bases = some chunk ∧ 16 * size ≤ chunk.size

/-- No chunk is smaller than `MIN_CHUNK_SIZE`, less its overhead. -/
def AtLeastMinimum (usable : Nat → Nat → Prop) : Prop :=
  ∀ bytes size, usable bytes size → 24 ≤ size

/-- The search for the table leaves the caller's array alone. -/
theorem findMcfg_found (window : 1 < layout.windowSize)
    (listed : Listed machine.mapper.mem root layout kept)
    (serves : Serves usable kept ready layout allocator room)
    (enough : 16 * tableEntries machine.mapper.mem root ≤ room)
    (initially : ready machine)
    (sole : SoleMcfg machine.mapper.mem root kept table n)
    (buffer : HasBuffer machine bases size) :
    ∃ machine' ptrs, findMcfg layout allocator root machine bases size =
        extractEntries layout allocator machine' ptrs bases size ∧
      AtTable machine.mapper.mem kept ready machine' ptrs table ∧
      HasBuffer machine' bases size ∧ (size ≠ 0 → bases ≠ ptrs) := by
  obtain ⟨found, result, follows⟩ := @findAcpiTable_follows Arena layout
    allocator usable kept room ready root mcfgSign machine 0 0 window listed serves
    enough initially ⟨Nat.le_refl 0, fun some => absurd rfl some⟩
  rw [sole.sole] at follows
  have long : 1 ≤ found.size := follows.held.1
  have one : found.size = 1 := by
    rcases follows.modest with same | short
    · rw [same] at long
      exact absurd long (Nat.not_succ_le_zero 0)
    · exact Nat.le_antisymm (Nat.le_of_lt_succ short) long
  refine ⟨found.machine, found.ptrs, ?_, ⟨⟨?_⟩, follows.keeps.memory,
    follows.keeps.ready⟩, fun some => ?_, fun some => ?_⟩
  · rw [findMcfg, result]
    exact if_neg fun different => different one
  · obtain ⟨chunk, held, chunkSize, words⟩ := follows.held.2 (by omega)
    have long := serves.enough _ _ chunkSize
    refine ⟨chunk, held, by omega, ?_⟩
    exact words 0 Nat.one_pos
  · obtain ⟨chunk, held, chunkSize⟩ := buffer some
    exact ⟨chunk, (follows.untouched bases chunk held
      fun other => absurd rfl other).1, chunkSize⟩
  · obtain ⟨chunk, held, _⟩ := buffer some
    exact (follows.untouched bases chunk held
      fun other => absurd rfl other).2 (by omega)

theorem SoleMcfg.toNat_count (sole : SoleMcfg memory root kept table n) :
    (entryCount (BitVec.ofNat 32 (44 + 16 * n)) mcfgHeader confSize).toNat =
      n := by
  have bound := readLE_lt memory (table.toNat + 4) 4
  rw [sole.length] at bound
  have header : mcfgHeader.toNat = 44 := rfl
  have size : confSize.toNat = 16 := rfl
  have length : (BitVec.ofNat 32 (44 + 16 * n)).toNat = 44 + 16 * n := by
    rw [BitVec.toNat_ofNat, Nat.mod_eq_of_lt (by omega)]
  rw [toNat_entryCount confSize (by omega), length, header, size]
  omega

/-- The length of the table gives the number of its entries. -/
theorem extractEntries_eq (window : 1 < layout.windowSize)
    (spared : Disjoint kept (slotCells layout))
    (sole : SoleMcfg memory root kept table n)
    (atTable : AtTable memory kept ready machine ptrs table) :
    ∃ cnt : Word, cnt.toNat = n ∧
      extractEntries layout allocator machine ptrs bases size =
        (reserveBases allocator (look layout machine table) bases size
          cnt).bind fun reserved => copyEntries layout allocator reserved.1
            ptrs reserved.2.1 reserved.2.2 cnt := by
  refine ⟨_, sole.toNat_count, ?_⟩
  obtain ⟨value, loaded, word⟩ := atTable.table.load
  have physical := sole.physical
  have page : table.toNat % 4096 < 4096 := Nat.mod_lt _ (by decide)
  have lengthCells : cells (table.toNat + 4) 4 ⊆ kept := by
    refine Set.Subset.trans (fun cell member => ?_) sole.table_kept
    rw [mem_cells] at member ⊢
    omega
  have offset : lengthOffset.toNat = 4 := rfl
  have read := @readWindow_ok Arena layout (look layout machine table) table
    lengthOffset 4 (looks_physLook layout machine.mapper table) (by decide)
    (by omega) (by omega)
  rw [offset, readLE_kept lengthCells (look_same spared table atTable.same),
    sole.length] at read
  rw [extractEntries, loaded]
  change (readWindow layout (look layout machine (BitVec.ofNat 64 value))
    lengthOffset 4).bind _ = _
  rw [word, read]
  rfl

/-! ## Rounds of the copying loop -/

section Copying

variable {start : Word} {copying copying' : Copying Arena}

/-- What a round does that goes through. -/
theorem copyEntry_inv
    (copied : copyEntry layout bases i copying = .ok copying') :
    copying'.looked = copying.looked ++ [copying.addr] ∧
      copying'.addr = copying.addr + confSize + confSize := by
  rw [copyEntry] at copied
  obtain ⟨entry, _, rest⟩ := ok_of_bind copied
  obtain ⟨machine, _, done⟩ := ok_of_bind rest
  cases done
  exact ⟨rfl, rfl⟩

/-- The loop looks at every second entry. -/
theorem forLoop_looked
    (copied : forLoop 0 n (copyEntry layout bases)
      ⟨machine, start, []⟩ = .ok copying) :
    copying.looked =
      (List.range n).map fun k => start + BitVec.ofNat 64 (32 * k) := by
  have invariant := forLoop_invariant
    (fun i copying =>
      copying.addr = start + BitVec.ofNat 64 (32 * i) ∧
      copying.looked =
        (List.range i).map fun k => start + BitVec.ofNat 64 (32 * k))
    (Nat.zero_le n) ⟨(BitVec.add_zero start).symm, rfl⟩ ?_ copied
  · exact invariant.2
  · intro i state state' _ _ before round
    obtain ⟨addr, looked⟩ := before
    obtain ⟨looked', addr'⟩ := copyEntry_inv round
    have step : confSize + confSize = BitVec.ofNat 64 32 := rfl
    constructor
    · rw [addr', addr, BitVec.add_assoc, step, BitVec.add_assoc,
        ← BitVec.ofNat_add, Nat.mul_succ]
    · rw [looked', looked, addr, List.range_succ, List.map_append,
        List.map_singleton]

end Copying

theorem SoleMcfg.toNat_first (sole : SoleMcfg memory root kept table n) :
    (table + mcfgHeader).toNat = table.toNat + 44 := by
  have physical := sole.physical
  have header : mcfgHeader.toNat = 44 := rfl
  rw [BitVec.toNat_add, header]
  omega

/-- A single entry is copied to where it belongs. -/
theorem copyEntries_single {cnt : Word} {chunk : Chunk}
    (window : 1 < layout.windowSize)
    (spared : Disjoint kept (slotCells layout))
    (serves : Serves usable kept ready layout allocator room)
    (sole : SoleMcfg memory root kept table 1)
    (atTable : AtTable memory kept ready machine ptrs table)
    (held : machine.chunks bases = some chunk) (roomy : 16 ≤ chunk.size)
    (apart : bases ≠ ptrs) (one : cnt.toNat = 1) :
    ∃ extracted,
      copyEntries layout allocator machine ptrs bases size cnt =
        .ok extracted ∧ Extracts memory table 1 extracted := by
  obtain ⟨value, loaded, word⟩ := atTable.table.load
  have physical := sole.physical
  have first := sole.toNat_first
  have page : (table + mcfgHeader).toNat % 4096 < 4096 :=
    Nat.mod_lt _ (by decide)
  have entryCells : cells ((table + mcfgHeader).toNat + 0) 16 ⊆ kept := by
    refine Set.Subset.trans (fun cell member => ?_) sole.table_kept
    rw [mem_cells] at member ⊢
    omega
  have zero : (0 : Word).toNat = 0 := rfl
  have read := @readWindow_ok Arena layout
    (look layout machine (table + mcfgHeader)) (table + mcfgHeader) 0 16
    (looks_physLook layout machine.mapper _) (by decide) (by omega) (by omega)
  rw [zero, readLE_kept entryCells (look_same spared _ atTable.same)] at read
  -- the one round
  obtain ⟨entry, entryEq⟩ :
      ∃ entry, entry = readLE memory ((table + mcfgHeader).toNat + 0) 16 :=
    ⟨_, rfl⟩
  rw [← entryEq] at read
  have heldLooked : (look layout machine (table + mcfgHeader)).chunks bases =
      some chunk := held
  have round : copyEntry layout bases 0 ⟨machine, table + mcfgHeader, []⟩ =
      .ok ⟨putChunk (look layout machine (table + mcfgHeader)) bases
        ⟨chunk.size, writeLE chunk.bytes 0 16 entry⟩,
        table + mcfgHeader + confSize + confSize, [table + mcfgHeader]⟩ := by
    rw [copyEntry, read]
    change (storeHeap (look layout machine (table + mcfgHeader)) bases (16 * 0)
      16 entry).bind _ = _
    rw [storeHeap_ok entry heldLooked roomy]
    rfl
  -- the array of `find_acpi_table` is given back
  obtain ⟨pointers, pointersHeld, _⟩ := atTable.table.holds
  have readyAfter := serves.put _ bases chunk
    ⟨chunk.size, writeLE chunk.bytes 0 16 entry⟩
    (serves.look _ (table + mcfgHeader) atTable.ready) heldLooked rfl
  obtain ⟨final, freed, chunks, _⟩ := serves.free _ ptrs pointers readyAfter
    ((putChunk_of_ne apart.symm).trans pointersHeld)
  refine ⟨⟨cnt, final, bases, size, [table + mcfgHeader]⟩, ?_, one, ?_, ?_⟩
  · rw [copyEntries, loaded]
    change (forLoop 0 cnt.toNat (copyEntry layout bases)
      ⟨machine, BitVec.ofNat 64 value + mcfgHeader, []⟩).bind _ = _
    rw [word, one, forLoop_next Nat.one_pos round,
      forLoop_done (Nat.le_refl 1)]
    change (allocator.free _ ptrs).bind _ = _
    rw [freed]
    rfl
  · refine ⟨⟨chunk.size, writeLE chunk.bytes 0 16 entry⟩, ?_, roomy,
      fun i inside => ?_⟩
    · simp only [chunks, Function.update_of_ne apart, putChunk_same]
    · obtain rfl : i = 0 := Nat.lt_one_iff.mp inside
      change readLE (writeLE chunk.bytes 0 16 entry) 0 16 = _
      rw [readLE_writeLE_same, entryEq, Nat.mod_eq_of_lt (readLE_lt _ _ _),
        first]
  · intro addr member
    rw [List.mem_singleton] at member
    rw [member, first]
    omega

/-- The array that `malloc` returns is another one than that of
`find_acpi_table`, which is still there. -/
theorem malloc_atTable (serves : Serves usable kept ready layout allocator room)
    (atTable : AtTable memory kept ready machine ptrs table)
    (enough : n ≤ room) :
    ∃ pointer machine' chunk,
      allocator.malloc machine n = .ok (pointer, machine') ∧
      AtTable memory kept ready machine' ptrs table ∧
      machine'.chunks pointer = some chunk ∧ usable n chunk.size ∧
      pointer ≠ ptrs := by
  obtain ⟨pointer, machine', chunk, allocated, fresh, chunkSize, chunks,
    keeps⟩ := serves.malloc machine n atTable.ready enough
  obtain ⟨pointers, pointersHeld, size, word⟩ := atTable.table.holds
  have apart : pointer ≠ ptrs := by
    rintro rfl
    rw [fresh] at pointersHeld
    cases pointersHeld
  refine ⟨pointer, machine', chunk, allocated, ⟨⟨pointers, ?_, size, word⟩,
    fun cell inside => ?_, keeps.ready⟩, ?_, chunkSize, apart⟩
  · rw [chunks, Function.update_of_ne apart.symm]
    exact pointersHeld
  · rw [keeps.memory cell inside]
    exact atTable.same cell inside
  · rw [chunks, Function.update_self]

/-- The array of `find_acpi_table` is still there when there is one for the
entries. -/
theorem reserveBases_atTable {cnt : Word} {reserved : Machine Arena × Nat × Nat}
    (serves : Serves usable kept ready layout allocator room)
    (atTable : AtTable memory kept ready machine ptrs table)
    (count : cnt.toNat = n) (enough : n ≤ room)
    (returned : reserveBases allocator machine bases size cnt = .ok reserved) :
    AtTable memory kept ready reserved.1 ptrs table := by
  rw [reserveBases, count] at returned
  by_cases empty : size = 0
  · rw [if_pos empty] at returned
    obtain ⟨pointer, machine', chunk, allocated, atTable', -⟩ :=
      malloc_atTable serves atTable enough
    rw [allocated] at returned
    cases returned
    exact atTable'
  · rw [if_neg empty] at returned
    split at returned
    · cases returned
    · cases returned
      exact atTable

/-- For one entry there is an array with room for it: the caller's one, or the
smallest chunk. -/
theorem reserveBases_single {cnt : Word}
    (serves : Serves usable kept ready layout allocator room)
    (minimum : AtLeastMinimum usable)
    (atTable : AtTable memory kept ready machine ptrs table)
    (count : cnt.toNat = 1) (enough : 1 ≤ room)
    (buffer : HasBuffer machine bases size) (apart : size ≠ 0 → bases ≠ ptrs) :
    ∃ machine' bases' size' chunk,
      reserveBases allocator machine bases size cnt =
        .ok (machine', bases', size') ∧
      AtTable memory kept ready machine' ptrs table ∧
      machine'.chunks bases' = some chunk ∧ 16 ≤ chunk.size ∧
      bases' ≠ ptrs := by
  rw [reserveBases, count]
  by_cases empty : size = 0
  · obtain ⟨pointer, machine', chunk, allocated, atTable', held, chunkSize,
      different⟩ := malloc_atTable serves atTable enough
    have long := minimum _ _ chunkSize
    refine ⟨machine', pointer, 1, chunk, ?_, atTable', held, by omega,
      different⟩
    rw [if_pos empty, allocated]
    rfl
  · obtain ⟨chunk, held, chunkSize⟩ := buffer empty
    refine ⟨machine, bases, size, chunk, ?_, atTable, held, by omega,
      apart empty⟩
    rw [if_neg empty, if_neg (by omega)]
    rfl

/-- Two steps a round: the loop reads beyond the table unless it has only one
entry. -/
theorem single_of_extracts {extracted : Extracted Arena}
    (window : 1 < layout.windowSize)
    (spared : Disjoint kept (slotCells layout))
    (serves : Serves usable kept ready layout allocator room)
    (enough : n ≤ room) (sole : SoleMcfg memory root kept table n)
    (atTable : AtTable memory kept ready machine ptrs table)
    (returned : extractEntries layout allocator machine ptrs bases size =
      .ok extracted)
    (extracts : Extracts memory table n extracted) : n = 1 := by
  have entries := sole.entries
  have physical := sole.physical
  obtain ⟨cnt, count, run⟩ := @extractEntries_eq Arena layout allocator kept
    ready memory root machine table n ptrs bases size window spared sole
    atTable
  rw [run] at returned
  obtain ⟨⟨machine', bases', size'⟩, reserved, copied⟩ := ok_of_bind returned
  obtain ⟨value, loaded, afterLoad⟩ := ok_of_bind copied
  obtain ⟨copying, looped, afterLoop⟩ := ok_of_bind afterLoad
  obtain ⟨final, -, done⟩ := ok_of_bind afterLoop
  cases done
  rw [count] at looped
  have away : AtTable memory kept ready (look layout machine table) ptrs
      table :=
    ⟨⟨atTable.table.holds⟩, look_same spared table atTable.same,
      serves.look _ table atTable.ready⟩
  obtain ⟨value', loaded', word⟩ :=
    (reserveBases_atTable serves away count enough reserved).table.load
  have same : value = value' := by
    have both : Except.ok value = Except.ok value' :=
      loaded.symm.trans loaded'
    injection both
  subst same
  have looked := forLoop_looked looped
  rw [word] at looked
  have last := extracts.inside
    (table + mcfgHeader + BitVec.ofNat 64 (32 * (n - 1))) (by
      rw [looked]
      exact List.mem_map.mpr ⟨n - 1, List.mem_range.mpr (by omega), rfl⟩)
  have bound := readLE_lt memory (table.toNat + 4) 4
  rw [sole.length] at bound
  rw [BitVec.toNat_add, sole.toNat_first, BitVec.toNat_ofNat] at last
  omega

/-- The same for the whole function. -/
theorem single_of_findMcfg {extracted : Extracted Arena}
    (window : 1 < layout.windowSize)
    (listed : Listed machine.mapper.mem root layout kept)
    (serves : Serves usable kept ready layout allocator room)
    (enough : 16 * tableEntries machine.mapper.mem root ≤ room)
    (enoughEntries : n ≤ room) (initially : ready machine)
    (sole : SoleMcfg machine.mapper.mem root kept table n)
    (buffer : HasBuffer machine bases size)
    (returned : findMcfg layout allocator root machine bases size =
      .ok extracted)
    (extracts : Extracts machine.mapper.mem table n extracted) : n = 1 := by
  obtain ⟨machine', ptrs, run, atTable, -⟩ :=
    findMcfg_found window listed serves enough initially sole buffer
  rw [run] at returned
  exact single_of_extracts window listed.spared serves enoughEntries sole
    atTable returned extracts

end Extraction

/-- The entries are extracted exactly where there is one of them. -/
theorem findMcfg_extracts_iff {Arena : Type} {layout : Layout}
    {allocator : Allocator Arena} {usable : Nat → Nat → Prop} {kept : Set Nat}
    {room : Nat} {ready : Machine Arena → Prop} {root : Root}
    {machine : Machine Arena} {table : Word} {n bases size : Nat}
    (window : 1 < layout.windowSize)
    (listed : Listed machine.mapper.mem root layout kept)
    (serves : Serves usable kept ready layout allocator room)
    (minimum : AtLeastMinimum usable)
    (enough : 16 * tableEntries machine.mapper.mem root ≤ room)
    (enoughEntries : n ≤ room) (initially : ready machine)
    (sole : SoleMcfg machine.mapper.mem root kept table n)
    (buffer : HasBuffer machine bases size) :
    (∃ extracted,
      findMcfg layout allocator root machine bases size = .ok extracted ∧
        Extracts machine.mapper.mem table n extracted) ↔
      n = 1 := by
  constructor
  · rintro ⟨extracted, returned, extracts⟩
    exact single_of_findMcfg window listed serves enough enoughEntries
      initially sole buffer returned extracts
  · rintro rfl
    obtain ⟨machine', ptrs, run, atTable, buffer', apart⟩ :=
      findMcfg_found window listed serves enough initially sole buffer
    obtain ⟨cnt, count, opened⟩ := @extractEntries_eq Arena layout allocator
      kept ready machine.mapper.mem root machine' table 1 ptrs bases size
      window listed.spared sole atTable
    have away : AtTable machine.mapper.mem kept ready
        (look layout machine' table) ptrs table :=
      ⟨⟨atTable.table.holds⟩, look_same listed.spared table atTable.same,
        serves.look _ table atTable.ready⟩
    obtain ⟨machine'', bases', size', chunk, reserved, atTable', held, long,
      different⟩ := @reserveBases_single Arena layout allocator usable kept
        room ready machine.mapper.mem (look layout machine' table) table ptrs
        bases size cnt serves minimum away count enoughEntries buffer' apart
    rw [run, opened, reserved]
    exact copyEntries_single window listed.spared serves sole atTable' held
      long different count

/-! ## One entry, and two -/

theorem atLeastMinimum_usableBytes : AtLeastMinimum UsableBytes :=
  fun bytes _ size => size ▸ (usableBytes_bounds bytes).2

theorem soleMcfg_twoTables :
    SoleMcfg twoTables ⟨0x1000, 0⟩ (cells 0x1000 0x2000) 0x2000 1 := by
  refine ⟨by decide, by decide, Nat.le_refl 1, by decide, ?_⟩
  intro cell member
  rw [mem_cells] at member ⊢
  change 0x2000 ≤ cell ∧ cell < 0x2000 + (44 + 16 * 1) at member
  omega

theorem findMcfg_oneEntry :
    ∃ extracted, findMcfg fourPages numbered ⟨0x1000, 0⟩ freshMachine 0 0 =
        .ok extracted ∧ Extracts twoTables 0x2000 1 extracted :=
  (@findMcfg_extracts_iff Nat fourPages numbered UsableBytes
    (cells 0x1000 0x2000) 64 Unused ⟨0x1000, 0⟩ freshMachine 0x2000 1 0 0
    (by decide) listed_twoTables (serves_numbered _ _ _)
    atLeastMinimum_usableBytes (by decide) (by decide) (fun _ _ => rfl)
    soleMcfg_twoTables fun some => absurd rfl some).mpr rfl

/-- The two tables, with two entries in the first. -/
def twoEntries : Memory :=
  Function.update twoTables 0x2004 76

/-- The state in which a caller brings an array of two entries, at 0. -/
def twoSlots : Machine Nat where
  mapper := ⟨twoEntries, 0, 0, 0, 0⟩
  chunks pointer := if pointer = 0 then some ⟨32, fun _ => 0⟩ else none
  arena := 1

theorem listed_twoEntries :
    Listed twoEntries ⟨0x1000, 0⟩ fourPages (cells 0x1000 0x2000) :=
  listed_of_length (by decide) (by decide) (by decide)

theorem soleMcfg_twoEntries :
    SoleMcfg twoEntries ⟨0x1000, 0⟩ (cells 0x1000 0x2000) 0x2000 2 := by
  refine ⟨by decide, by decide, by decide, by decide, ?_⟩
  intro cell member
  rw [mem_cells] at member ⊢
  change 0x2000 ≤ cell ∧ cell < 0x2000 + (44 + 16 * 2) at member
  omega

/-- Two entries are not extracted, neither into the caller's array nor, without
one, into an array of its own. -/
theorem findMcfg_twoEntries :
    (¬ ∃ extracted,
      findMcfg fourPages numbered ⟨0x1000, 0⟩ twoSlots 0 2 = .ok extracted ∧
        Extracts twoEntries 0x2000 2 extracted) ∧
      ¬ ∃ extracted,
        findMcfg fourPages numbered ⟨0x1000, 0⟩ twoSlots 0 0 =
          .ok extracted ∧ Extracts twoEntries 0x2000 2 extracted := by
  have unused : Unused twoSlots := by
    intro pointer above
    have positive : 1 ≤ pointer := above
    exact if_neg (by omega)
  have single : ∀ size, HasBuffer twoSlots 0 size → ∀ extracted,
      findMcfg fourPages numbered ⟨0x1000, 0⟩ twoSlots 0 size =
          .ok extracted →
        ¬ Extracts twoEntries 0x2000 2 extracted := by
    intro size buffer extracted returned extracts
    have one := @single_of_findMcfg Nat fourPages numbered UsableBytes
      (cells 0x1000 0x2000) 64 Unused ⟨0x1000, 0⟩ twoSlots 0x2000 2 0 size
      extracted (by decide) listed_twoEntries (serves_numbered _ _ _)
      (by decide) (by decide) unused soleMcfg_twoEntries buffer returned
      extracts
    exact absurd one (by decide)
  constructor
  · rintro ⟨extracted, returned, extracts⟩
    exact single 2 (fun _ => ⟨⟨32, fun _ => 0⟩, rfl, Nat.le_refl 32⟩) extracted
      returned extracts
  · rintro ⟨extracted, returned, extracts⟩
    exact single 0 (fun some => absurd rfl some) extracted returned extracts

end BeaverOS.Acpi
