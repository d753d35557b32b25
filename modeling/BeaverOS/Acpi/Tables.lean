import BeaverOS.Acpi.RootPointer
import BeaverOS.Memory.Malloc

/-!
# The tables of the root table

`find_acpi_table` of `acpi.c` goes through the addresses in the root table and
collects those of the tables with a given signature, in an array that it
doubles when it is full. The root table, the tables that it lists, and the new
pages of a growing heap are all seen through the one window, which is put back
to the root table after each of them.
-/

namespace BeaverOS.Acpi

open BeaverOS.ByteMemory
open BeaverOS.CString
open BeaverOS.Loop
open BeaverOS.Malloc
open BeaverOS.Paging
open BeaverOS.Window

/-! ## The code -/

/-- `sizeof(acpi_table_header_t)`. -/
def tableHeader : Word := 36

/-- The offset of `length` in a header. -/
def lengthOffset : Word := 4

/-- `size_t entry_size = 4 << xsdt;`. -/
def entrySize (root : Root) : Word := 4 <<< root.xsdt.toNat

/-- `(length - sizeof(header)) / entry_size`, where the length is an
`uint32_t` and the sizes are `size_t`. -/
def entryCount (length : BitVec 32) (header size : Word) : Word :=
  (length.setWidth 64 - header) / size

/-- What `find_acpi_table` works on: `*ptrs`, `*size` and `cur_size`. -/
structure Found (Arena : Type) where
  machine : Machine Arena
  ptrs : Nat
  size : Nat
  curSize : Nat

section Code

variable {Arena : Type} (layout : Layout) (allocator : Allocator Arena)
  (root : Root) (sign : Vector (BitVec 8) 4)

/-- Read `count` bytes at an offset from `_phys_window`. -/
def readWindow (machine : Machine Arena) (offset : Word) (count : Nat) :
    Except Halt Nat :=
  (windowAddress layout machine.mapper (machine.mapper.physWindow + offset)
    count).map fun address => readLE machine.mapper.mem address count

/-- `PHYS_WINDOW(char)[k]`. -/
def windowChar (machine : Machine Arena) (k : Nat) :
    Except Halt (BitVec 8) :=
  (windowAddress layout machine.mapper
    (machine.mapper.physWindow + BitVec.ofNat 64 k) 1).map machine.mapper.mem

/-- `sign[k]`. -/
def signChar (k : Nat) : Except Halt (BitVec 8) :=
  if inside : k < 4 then .ok (sign.get ⟨k, inside⟩) else .error .fault

/-- Make room for one more pointer. -/
def growArray (found : Found Arena) : Except Halt (Found Arena) :=
  if found.size = 0 then do
    let (ptrs, machine) ← allocator.malloc found.machine 8
    return { found with machine, ptrs, size := 1 }
  else if found.curSize = found.size then do
    let size := found.size * 2
    let (ptrs, machine) ←
      allocator.realloc found.machine found.ptrs (8 * size)
    return { found with machine, ptrs, size }
  else return found

/-- `(*ptrs)[cur_size++] = (void *) addr;`, with room made for it. -/
def appendPtr (found : Found Arena) (addr : Word) :
    Except Halt (Found Arena) := do
  let found ← growArray allocator found
  let machine ← storeHeap found.machine found.ptrs (8 * found.curSize) 8
    addr.toNat
  return { found with machine, curSize := found.curSize + 1 }

/-- `phys_look` in the course of the search. -/
def lookAt (found : Found Arena) (phys : Word) : Found Arena :=
  { found with machine := look layout found.machine phys }

/-- `addr`, read at `addr_ptr`. -/
def readAddr (machine : Machine Arena) (i : Nat) : Except Halt Word :=
  let addrPtr := tableHeader + entrySize root * BitVec.ofNat 64 i
  if entrySize root = 4 then
    (readWindow layout machine addrPtr 4).map (BitVec.ofNat 64)
  else
    (readWindow layout machine addrPtr 8).map (BitVec.ofNat 64)

/-- Append the address of the table in the window, if it is one of those
searched for. -/
def collectTable (found : Found Arena) (addr : Word) :
    Except Halt (Found Arena) := do
  let order ← strncmp (signChar sign) (windowChar layout found.machine) 4
  if order = 0 then appendPtr allocator found addr else return found

/-- The round for one entry of the root table. -/
def inspectEntry (i : Nat) (found : Found Arena) :
    Except Halt (Found Arena) := do
  let addr ← readAddr layout root found.machine i
  let found ← collectTable layout allocator sign (lookAt layout found addr) addr
  return lookAt layout found root.sdt

/-- `find_acpi_table`. The value returned is `cur_size`. -/
def findAcpiTable (machine : Machine Arena) (ptrs size : Nat) :
    Except Halt (Found Arena) := do
  let machine := look layout machine root.sdt
  let length ← readWindow layout machine lengthOffset 4
  let entries :=
    entryCount (BitVec.ofNat 32 length) tableHeader (entrySize root)
  forLoop 0 entries.toNat (inspectEntry layout allocator root sign)
    ⟨machine, ptrs, size, 0⟩

end Code

/-! ## The root table -/

section Table

variable (memory : Memory) (root : Root) (sign : Vector (BitVec 8) 4)

/-- The length of the root table. -/
def tableLength : BitVec 32 :=
  BitVec.ofNat 32 (readLE memory (root.sdt.toNat + 4) 4)

/-- The number of entries of the root table. -/
def tableEntries : Nat :=
  ((tableLength memory root).toNat - 36) / (entrySize root).toNat

/-- An entry of the root table: the physical address of a table. -/
def entryAt (i : Nat) : Word :=
  BitVec.ofNat 64 (readLE memory
    (root.sdt.toNat + (36 + (entrySize root).toNat * i))
    (entrySize root).toNat)

/-- The table at an address starts with the signature, a text of at most four
characters. -/
def StartsWith (addr : Word) : Prop :=
  SameText (fun k => sign.toList.getD k 0)
    (fun k => memory (addr.toNat + k)) 4

instance decidableStartsWith (addr : Word) :
    Decidable (StartsWith memory sign addr) :=
  inferInstanceAs (Decidable (∀ k, k < 4 →
    (∀ j, j < k → sign.toList.getD (0 + j) 0 ≠ 0) →
    sign.toList.getD (0 + k) 0 = memory (addr.toNat + (0 + k))))

/-- Those of the first entries whose tables start with the signature. -/
def matchingUpTo (count : Nat) : List Word :=
  ((List.range count).map (entryAt memory root)).filter fun addr =>
    StartsWith memory sign addr

/-- The tables with the signature, in the order of the root table. -/
def matching : List Word :=
  matchingUpTo memory root sign (tableEntries memory root)

/-- A root table inside the window opened at it, whose entries are physical
addresses. It and the signatures that it refers to lie in `kept`, which the
slots of the window are no part of. -/
structure Listed (layout : Layout) (kept : Set Nat) : Prop where
  kind : root.xsdt = 0 ∨ root.xsdt = 1
  header : 36 ≤ (tableLength memory root).toNat
  inWindow : root.sdt.toNat % 4096 + (tableLength memory root).toNat ≤
    4096 * layout.windowSize
  physical : root.sdt.toNat + (tableLength memory root).toNat ≤ 2 ^ 52
  entries : ∀ i, i < tableEntries memory root →
    (entryAt memory root i).toNat + 4 ≤ 2 ^ 52
  table_kept :
    cells root.sdt.toNat (tableLength memory root).toNat ⊆ kept
  signatures_kept : ∀ i, i < tableEntries memory root →
    cells (entryAt memory root i).toNat 4 ⊆ kept
  spared : Disjoint kept (slotCells layout)

/-- An array of `size` slots that starts with the given words. Without slots
there is none. -/
def HoldsWords (usable : Nat → Nat → Prop) (chunks : Nat → Option Chunk)
    (ptrs size : Nat) (words : List Word) : Prop :=
  words.length ≤ size ∧
    (size ≠ 0 → ∃ chunk, chunks ptrs = some chunk ∧
      usable (8 * size) chunk.size ∧
      ∀ (j : Nat) (inside : j < words.length),
        readWord chunk.bytes (8 * j) = words[j])

end Table

/-! ## The array -/

section Growing

variable {Arena : Type} {layout : Layout} {allocator : Allocator Arena}
  {usable : Nat → Nat → Prop} {kept : Set Nat} {room : Nat}
  {ready : Machine Arena → Prop}
  {found found' found'' : Found Arena} {words words' : List Word}

/-- The chunks other than the array stay as they are, and apart from it. -/
def Untouched (found found' : Found Arena) : Prop :=
  ∀ pointer chunk, found.machine.chunks pointer = some chunk →
    (found.size ≠ 0 → pointer ≠ found.ptrs) →
    found'.machine.chunks pointer = some chunk ∧
      (found'.size ≠ 0 → pointer ≠ found'.ptrs)

variable (usable kept ready) in
/-- A search has gone on from `found` to `found'`, and has collected the given
words by now, in an array that is not much longer. -/
structure Follows (found found' : Found Arena) (words : List Word) :
    Prop where
  onward : found.curSize ≤ words.length
  counted : found'.curSize = words.length
  held : HoldsWords usable found'.machine.chunks found'.ptrs found'.size words
  modest : found'.size = found.size ∨ found'.size < 2 * words.length
  keeps : Keeps kept ready found.machine found'.machine
  untouched : Untouched found found'

theorem Follows.trans (first : Follows usable kept ready found found' words)
    (second : Follows usable kept ready found' found'' words') :
    Follows usable kept ready found found'' words' where
  onward := by
    have passed := second.onward
    rw [first.counted] at passed
    exact first.onward.trans passed
  counted := second.counted
  held := second.held
  modest := by
    have passed := second.onward
    rw [first.counted] at passed
    have before := first.modest
    have after := second.modest
    omega
  keeps := ⟨fun cell inside => (second.keeps.memory cell inside).trans
    (first.keeps.memory cell inside), second.keeps.ready⟩
  untouched pointer chunk holds apart := by
    obtain ⟨holds', apart'⟩ := first.untouched pointer chunk holds apart
    exact second.untouched pointer chunk holds' apart'

/-- A search that stays where it is. -/
theorem Follows.refl (counted : found.curSize = words.length)
    (held : HoldsWords usable found.machine.chunks found.ptrs found.size words)
    (initially : ready found.machine) :
    Follows usable kept ready found found words where
  onward := Nat.le_of_eq counted
  counted := counted
  held := held
  modest := Or.inl rfl
  keeps := ⟨fun _ _ => rfl, initially⟩
  untouched _ _ holds apart := ⟨holds, apart⟩

variable (usable kept ready) in
/-- The array has room for one more word. -/
structure Grown (found grown : Found Arena) (words : List Word) : Prop where
  roomy : words.length < grown.size
  counted : grown.curSize = words.length
  held : HoldsWords usable grown.machine.chunks grown.ptrs grown.size words
  modest : grown.size = found.size ∨ grown.size ≤ 2 * words.length + 1
  keeps : Keeps kept ready found.machine grown.machine
  untouched : Untouched found grown

/-- Growing the array makes room, and keeps its words. -/
theorem growArray_ok (serves : Serves usable kept ready layout allocator room)
    (counted : found.curSize = words.length)
    (held : HoldsWords usable found.machine.chunks found.ptrs found.size words)
    (initially : ready found.machine)
    (enough : 16 * (words.length + 1) ≤ room) :
    ∃ grown, growArray allocator found = .ok grown ∧
      Grown usable kept ready found grown words := by
  obtain ⟨short, array⟩ := held
  rw [growArray]
  by_cases empty : found.size = 0
  · obtain ⟨ptrs, machine, chunk, allocated, fresh, size, chunks, keeps⟩ :=
      serves.malloc found.machine 8 initially (by omega)
    have nothing : words = [] := List.length_eq_zero_iff.mp (by omega)
    subst nothing
    refine ⟨⟨machine, ptrs, 1, found.curSize⟩, ?_, Nat.one_pos, counted, ?_,
      Or.inr (Nat.le_refl 1), keeps, ?_⟩
    · rw [if_pos empty, allocated]
      rfl
    · refine ⟨Nat.zero_le 1, fun _ => ⟨chunk, ?_, size, fun j inside => ?_⟩⟩
      · simp only [chunks, Function.update_self]
      · exact absurd inside (Nat.not_lt_zero j)
    · intro pointer other holds _
      have different : pointer ≠ ptrs := by
        rintro rfl
        rw [fresh] at holds
        cases holds
      refine ⟨?_, fun _ => different⟩
      simp only [chunks, Function.update_of_ne different, holds]
  rw [if_neg empty]
  obtain ⟨old, oldHeld, oldSize, oldWords⟩ := array empty
  by_cases full : found.curSize = found.size
  · obtain ⟨ptrs, machine, chunk, allocated, place, size, agree, chunks,
      keeps⟩ := serves.realloc found.machine found.ptrs old
        (8 * (found.size * 2)) initially (by omega) oldHeld
    refine ⟨⟨machine, ptrs, found.size * 2, found.curSize⟩, ?_, ?_, counted,
      ?_, Or.inr ?_, keeps, ?_⟩
    · rw [if_pos full]
      simp only [allocated]
      rfl
    · simp only
      omega
    · refine ⟨?_, fun _ => ⟨chunk, ?_, size, fun j inside => ?_⟩⟩
      · simp only
        omega
      · simp only [chunks, Function.update_self]
      · rw [← oldWords j inside]
        have oldLong := serves.enough _ _ oldSize
        exact readWord_congr (agree.mono (Nat.zero_le _) (by omega))
    · simp only
      omega
    · intro pointer other holds apart
      have notOld := apart empty
      have notNew : pointer ≠ ptrs := by
        rcases place with same | fresh
        · rwa [same]
        · rintro rfl
          rw [fresh] at holds
          cases holds
      refine ⟨?_, fun _ => notNew⟩
      simp only [chunks, Function.update_of_ne notNew,
        Function.update_of_ne notOld, holds]
  · rw [if_neg full]
    exact ⟨found, rfl, by omega, counted, ⟨short, array⟩, Or.inl rfl,
      ⟨fun _ _ => rfl, initially⟩, fun _ _ holds apart => ⟨holds, apart⟩⟩

/-- A pointer is appended inside the array. -/
theorem appendPtr_ok (serves : Serves usable kept ready layout allocator room)
    (addr : Word) (counted : found.curSize = words.length)
    (held : HoldsWords usable found.machine.chunks found.ptrs found.size words)
    (initially : ready found.machine)
    (enough : 16 * (words.length + 1) ≤ room) :
    ∃ found', appendPtr allocator found addr = .ok found' ∧
      Follows usable kept ready found found' (words ++ [addr]) := by
  obtain ⟨grown, result, grows⟩ :=
    growArray_ok serves counted held initially enough
  have roomy := grows.roomy
  have place := grows.counted
  have modest := grows.modest
  obtain ⟨chunk, chunkHeld, size, contents⟩ := grows.held.2 (by omega)
  have long := serves.enough _ _ size
  have stored := storeHeap_ok addr.toNat chunkHeld
    (show 8 * grown.curSize + 8 ≤ chunk.size by omega)
  have longer : (words ++ [addr]).length = words.length + 1 := by
    rw [List.length_append, List.length_singleton]
  refine ⟨⟨putChunk grown.machine grown.ptrs
    ⟨chunk.size, writeLE chunk.bytes (8 * grown.curSize) 8 addr.toNat⟩,
    grown.ptrs, grown.size, grown.curSize + 1⟩, ?_, ?_, ?_, ?_, ?_,
    ⟨grows.keeps.memory, ?_⟩, ?_⟩
  · rw [appendPtr, result]
    change (storeHeap _ _ _ _ _).bind _ = _
    rw [stored]
    rfl
  · omega
  · simp only [longer, place]
  · refine ⟨?_, fun _ => ⟨_, putChunk_same, size, fun j inside => ?_⟩⟩
    · rw [longer]
      exact roomy
    · simp only
      rw [← writeWord]
      rw [longer] at inside
      by_cases last : j = words.length
      · subst last
        rw [place, readWord_writeWord_same]
        exact (List.getElem_concat_length rfl _).symm
      · have before : j < words.length := by omega
        rw [readWord_writeWord_of_disjoint (by omega), contents j before,
          List.getElem_append_left before]
  · rw [longer]
    simp only
    omega
  · exact serves.put _ _ _ _ grows.keeps.ready chunkHeld rfl
  · intro pointer other holds apart
    obtain ⟨holds', apart'⟩ := grows.untouched pointer other holds apart
    have different := apart' (by omega)
    exact ⟨(putChunk_of_ne different).trans holds', fun _ => different⟩

/-- Moving the window is a step of the search. -/
theorem follows_look (spared : Disjoint kept (slotCells layout))
    (serves : Serves usable kept ready layout allocator room) (phys : Word)
    (counted : found.curSize = words.length)
    (held : HoldsWords usable found.machine.chunks found.ptrs found.size words)
    (initially : ready found.machine) :
    Follows usable kept ready found (lookAt layout found phys) words where
  onward := Nat.le_of_eq counted
  counted := counted
  held := held
  modest := Or.inl rfl
  keeps := ⟨fun cell inside => agreeOff_physLook layout _ phys cell
    (Set.disjoint_left.mp spared inside), serves.look _ phys initially⟩
  untouched _ _ holds apart := ⟨holds, apart⟩

end Growing

/-! ## The lengths -/

section Lengths

variable {length : BitVec 32} {header size : Word} {root : Root}

theorem toNat_entryCount (size : Word) (long : header.toNat ≤ length.toNat) :
    (entryCount length header size).toNat =
      (length.toNat - header.toNat) / size.toNat := by
  have bound := length.isLt
  have headerBound := header.isLt
  rw [entryCount, BitVec.toNat_udiv, BitVec.toNat_sub, BitVec.toNat_setWidth]
  congr 1
  omega

theorem entrySize_cases (kind : root.xsdt = 0 ∨ root.xsdt = 1) :
    entrySize root = 4 ∨ entrySize root = 8 := by
  rcases kind with rsdt | xsdt
  · rw [entrySize, rsdt]
    exact Or.inl rfl
  · rw [entrySize, xsdt]
    exact Or.inr rfl

theorem toNat_entrySize (kind : root.xsdt = 0 ∨ root.xsdt = 1) :
    (entrySize root).toNat = 4 ∨ (entrySize root).toNat = 8 := by
  rcases entrySize_cases kind with size | size
  · rw [size]
    exact Or.inl rfl
  · rw [size]
    exact Or.inr rfl

end Lengths

/-! ## The search -/

section Searching

variable {Arena : Type} {layout : Layout} {allocator : Allocator Arena}
  {usable : Nat → Nat → Prop} {kept : Set Nat} {room : Nat}
  {ready : Machine Arena → Prop}
  {memory : Memory} {root : Root} {sign : Vector (BitVec 8) 4}
  {machine : Machine Arena} {found : Found Arena} {phys : Word} {i : Nat}

theorem readWindow_ok {offset : Word} {count : Nat}
    (looks : Looks machine.mapper phys) (positive : 0 < count)
    (fits : phys.toNat + offset.toNat + count ≤ 2 ^ 52)
    (inside : phys.toNat % 4096 + offset.toNat + count ≤
      4096 * layout.windowSize) :
    readWindow layout machine offset count =
      .ok (readLE machine.mapper.mem (phys.toNat + offset.toNat) count) := by
  rw [readWindow, looks.windowAddress positive fits inside]
  rfl

theorem windowChar_ok {k : Nat} (window : 1 < layout.windowSize)
    (looks : Looks machine.mapper phys) (fits : phys.toNat + 4 ≤ 2 ^ 52)
    (inside : k < 4) :
    windowChar layout machine k =
      .ok (machine.mapper.mem (phys.toNat + k)) := by
  have offset : (BitVec.ofNat 64 k).toNat = k := by
    rw [BitVec.toNat_ofNat]
    omega
  have page : phys.toNat % 4096 < 4096 := Nat.mod_lt _ (by decide)
  rw [windowChar, looks.windowAddress Nat.one_pos (by omega) (by omega), offset]
  rfl

theorem signChar_ok {k : Nat} (inside : k < 4) :
    signChar sign k = .ok (sign.toList.getD k 0) := by
  rw [signChar, dif_pos inside]
  simp [Vector.get, inside]

theorem matchingUpTo_succ :
    matchingUpTo memory root sign (i + 1) =
      matchingUpTo memory root sign i ++
        if StartsWith memory sign (entryAt memory root i) then
          [entryAt memory root i] else [] := by
  rw [matchingUpTo, List.range_succ, List.map_append, List.filter_append,
    matchingUpTo]
  congr 1
  by_cases starts : StartsWith memory sign (entryAt memory root i)
  · simp only [List.map_singleton, starts, List.filter_cons, decide_true,
      if_true, List.filter_nil]
  · simp only [List.map_singleton, starts, List.filter_cons, decide_false,
      if_false, List.filter_nil, Bool.false_eq_true]

theorem length_matchingUpTo_le :
    (matchingUpTo memory root sign i).length ≤ i := by
  rw [matchingUpTo]
  refine (List.length_filter_le _ _).trans (Nat.le_of_eq ?_)
  rw [List.length_map, List.length_range]

/-- The entries lie inside the root table. -/
theorem Listed.entry_fits (listed : Listed memory root layout kept)
    (inside : i < tableEntries memory root) :
    36 + (entrySize root).toNat * i + (entrySize root).toNat ≤
      (tableLength memory root).toNat := by
  have header := listed.header
  have fit := Nat.mul_div_le ((tableLength memory root).toNat - 36)
    (entrySize root).toNat
  have below := Nat.mul_le_mul_left (entrySize root).toNat inside
  rw [tableEntries] at below
  rw [Nat.mul_succ] at below
  omega

/-- The pointer to an entry does not wrap. -/
theorem Listed.toNat_addrPtr (listed : Listed memory root layout kept)
    (inside : i < tableEntries memory root) :
    (tableHeader + entrySize root * BitVec.ofNat 64 i).toNat =
      36 + (entrySize root).toNat * i := by
  have fits := listed.entry_fits inside
  have bound := (tableLength memory root).isLt
  have header : tableHeader.toNat = 36 := rfl
  rw [BitVec.toNat_add, BitVec.toNat_mul, BitVec.toNat_ofNat, header]
  rcases toNat_entrySize listed.kind with size | size <;>
    rw [size] at fits ⊢ <;> omega

/-- What lies in `kept` reads as before. -/
theorem readLE_kept {mem : Memory} {address count : Nat}
    (subset : cells address count ⊆ kept)
    (same : ∀ cell, cell ∈ kept → mem cell = memory cell) :
    readLE mem address count = readLE memory address count :=
  readLE_congr fun cell lower upper => same cell (subset ⟨lower, upper⟩)

variable (usable kept ready memory root sign) in
/-- The loop after `i` rounds: the window shows the root table, and the tables
of `i` entries have been collected. -/
structure Collecting (start : Found Arena) (i : Nat) (found : Found Arena) :
    Prop where
  looks : Looks found.machine.mapper root.sdt
  same : ∀ cell, cell ∈ kept → found.machine.mapper.mem cell = memory cell
  follows :
    Follows usable kept ready start found (matchingUpTo memory root sign i)

/-- The address of the table for an entry is read from the root table. -/
theorem Collecting.readAddr_ok {start : Found Arena}
    (collecting : Collecting usable kept ready memory root sign start i found)
    (listed : Listed memory root layout kept)
    (inside : i < tableEntries memory root) :
    readAddr layout root found.machine i = .ok (entryAt memory root i) := by
  have fits := listed.entry_fits inside
  have pointer := listed.toNat_addrPtr inside
  have inWindow := listed.inWindow
  have physical := listed.physical
  have table : cells (root.sdt.toNat + (36 + (entrySize root).toNat * i))
      (entrySize root).toNat ⊆ kept := by
    refine Set.Subset.trans (fun cell member => ?_) listed.table_kept
    rw [mem_cells] at member ⊢
    omega
  have positive : 0 < (entrySize root).toNat := by
    rcases toNat_entrySize listed.kind with size | size <;> omega
  have read := @readWindow_ok Arena layout found.machine root.sdt
    (tableHeader + entrySize root * BitVec.ofNat 64 i) (entrySize root).toNat
    collecting.looks positive (by omega) (by omega)
  rw [pointer, readLE_kept table collecting.same] at read
  have both : readAddr layout root found.machine i =
      (readWindow layout found.machine
        (tableHeader + entrySize root * BitVec.ofNat 64 i)
        (entrySize root).toNat).map (BitVec.ofNat 64) := by
    rcases entrySize_cases listed.kind with size | size
    · rw [readAddr, size]
      rfl
    · rw [readAddr, size]
      rfl
  rw [both, read]
  rfl

/-- The comparison tells whether the table starts with the signature. -/
theorem strncmp_sign {addr : Word} (window : 1 < layout.windowSize)
    (looks : Looks machine.mapper addr) (fits : addr.toNat + 4 ≤ 2 ^ 52)
    (signature : cells addr.toNat 4 ⊆ kept)
    (same : ∀ cell, cell ∈ kept → machine.mapper.mem cell = memory cell) :
    ∃ order, strncmp (signChar sign) (windowChar layout machine) 4 =
        .ok order ∧ (order = 0 ↔ StartsWith memory sign addr) := by
  refine strncmp_ok (fun k => signChar_ok) fun k inside => ?_
  rw [windowChar_ok window looks fits inside]
  exact congrArg Except.ok
    (same _ (signature ⟨Nat.le_add_right _ _, Nat.add_lt_add_left inside _⟩))

theorem look_same (spared : Disjoint kept (slotCells layout)) (phys : Word)
    (same : ∀ cell, cell ∈ kept → machine.mapper.mem cell = memory cell) :
    ∀ cell, cell ∈ kept →
      (look layout machine phys).mapper.mem cell = memory cell := by
  intro cell inside
  exact (agreeOff_physLook layout machine.mapper phys cell
    (Set.disjoint_left.mp spared inside)).trans (same cell inside)

/-- The table in the window is collected if it starts with the signature. -/
theorem collectTable_ok {addr : Word} {words : List Word}
    (window : 1 < layout.windowSize)
    (serves : Serves usable kept ready layout allocator room)
    (looks : Looks found.machine.mapper addr)
    (fits : addr.toNat + 4 ≤ 2 ^ 52) (signature : cells addr.toNat 4 ⊆ kept)
    (same : ∀ cell, cell ∈ kept → found.machine.mapper.mem cell = memory cell)
    (counted : found.curSize = words.length)
    (held : HoldsWords usable found.machine.chunks found.ptrs found.size words)
    (initially : ready found.machine)
    (enough : 16 * (words.length + 1) ≤ room) :
    ∃ found', collectTable layout allocator sign found addr = .ok found' ∧
      Follows usable kept ready found found'
        (words ++ if StartsWith memory sign addr then [addr] else []) := by
  obtain ⟨order, compared, decides⟩ := @strncmp_sign Arena layout kept memory
    sign found.machine addr window looks fits signature same
  rw [collectTable, compared]
  change ∃ found', (if order = 0 then _ else _) = _ ∧ _
  by_cases starts : StartsWith memory sign addr
  · rw [if_pos starts, if_pos (decides.mpr starts)]
    exact appendPtr_ok serves addr counted held initially enough
  · rw [if_neg starts, if_neg fun zero => starts (decides.mp zero),
      List.append_nil]
    exact ⟨found, rfl, Follows.refl counted held initially⟩

/-- A round looks at one table and back at the root table. -/
theorem Collecting.round {start : Found Arena}
    (window : 1 < layout.windowSize)
    (listed : Listed memory root layout kept)
    (serves : Serves usable kept ready layout allocator room)
    (enough : 16 * tableEntries memory root ≤ room)
    (collecting : Collecting usable kept ready memory root sign start i found)
    (inside : i < tableEntries memory root) :
    ∃ found', inspectEntry layout allocator root sign i found = .ok found' ∧
      Collecting usable kept ready memory root sign start (i + 1) found' := by
  have read := collecting.readAddr_ok listed inside
  obtain ⟨_, same, follows⟩ := collecting
  have count := @length_matchingUpTo_le memory root sign i
  have away := follows_look listed.spared serves (entryAt memory root i)
    follows.counted follows.held follows.keeps.ready
  have awaySame := look_same listed.spared (entryAt memory root i) same
  obtain ⟨next, collected, onward⟩ := @collectTable_ok Arena layout allocator
    usable kept room ready memory sign
    (lookAt layout found (entryAt memory root i)) (entryAt memory root i)
    (matchingUpTo memory root sign i) window serves
    (looks_physLook layout found.machine.mapper _) (listed.entries i inside)
    (listed.signatures_kept i inside) awaySame away.counted away.held
    away.keeps.ready (by omega)
  rw [← matchingUpTo_succ] at onward
  have nextSame : ∀ cell, cell ∈ kept →
      next.machine.mapper.mem cell = memory cell := fun cell member =>
    (onward.keeps.memory cell member).trans (awaySame cell member)
  have back := follows_look listed.spared serves root.sdt onward.counted
    onward.held onward.keeps.ready
  refine ⟨lookAt layout next root.sdt, ?_,
    looks_physLook layout next.machine.mapper root.sdt,
    look_same listed.spared root.sdt nextSame,
    ((follows.trans away).trans onward).trans back⟩
  rw [inspectEntry, read]
  change (collectTable layout allocator sign
    (lookAt layout found (entryAt memory root i)) _).bind _ = _
  rw [collected]
  rfl

/-- The whole search. -/
theorem findAcpiTable_follows {ptrs size : Nat}
    (window : 1 < layout.windowSize)
    (listed : Listed machine.mapper.mem root layout kept)
    (serves : Serves usable kept ready layout allocator room)
    (enough : 16 * tableEntries machine.mapper.mem root ≤ room)
    (initially : ready machine)
    (buffer : HoldsWords usable machine.chunks ptrs size []) :
    ∃ found, findAcpiTable layout allocator root sign machine ptrs size =
        .ok found ∧
      Follows usable kept ready ⟨machine, ptrs, size, 0⟩ found
        (matching machine.mapper.mem root sign) := by
  have inWindow := listed.inWindow
  have physical := listed.physical
  have header := listed.header
  have sameStart := @look_same Arena layout kept machine.mapper.mem machine
    listed.spared root.sdt fun _ _ => rfl
  have opened := @follows_look Arena layout allocator usable kept room ready
    ⟨machine, ptrs, size, 0⟩ [] listed.spared serves root.sdt rfl buffer
    initially
  have offset : lengthOffset.toNat = 4 := rfl
  have lengthCells : cells (root.sdt.toNat + 4) 4 ⊆ kept := by
    refine Set.Subset.trans (fun cell member => ?_) listed.table_kept
    rw [mem_cells] at member ⊢
    omega
  have read := @readWindow_ok Arena layout (look layout machine root.sdt)
    root.sdt lengthOffset 4 (looks_physLook layout machine.mapper root.sdt)
    (by decide) (by omega) (by omega)
  rw [offset, readLE_kept lengthCells sameStart] at read
  have long : tableHeader.toNat ≤
      (tableLength machine.mapper.mem root).toNat := header
  have count := toNat_entryCount (entrySize root) long
  obtain ⟨found, result, collecting⟩ := forLoop_returns
    (Collecting usable kept ready machine.mapper.mem root sign
      (lookAt layout ⟨machine, ptrs, size, 0⟩ root.sdt))
    (Nat.zero_le (tableEntries machine.mapper.mem root))
    ⟨looks_physLook layout machine.mapper root.sdt, sameStart,
      Follows.refl rfl opened.held opened.keeps.ready⟩
    fun i state _ inside collecting =>
      collecting.round window listed serves enough inside
  refine ⟨found, ?_, opened.trans collecting.follows⟩
  rw [findAcpiTable, read, ← result]
  change forLoop 0 (entryCount (tableLength machine.mapper.mem root)
    tableHeader (entrySize root)).toNat _ _ = _
  rw [count]
  rfl

/-- A signature without NUL is compared in all its four characters. -/
theorem startsWith_iff {addr : Word}
    (nonzero : ∀ k, k < 4 → sign.toList.getD k 0 ≠ 0) :
    StartsWith memory sign addr ↔
      ∀ k, k < 4 → sign.toList.getD k 0 = memory (addr.toNat + k) :=
  sameText_iff_of_left nonzero

/-- The addresses of the tables with the signature are collected in the order
of the root table. A store outside the array would have stopped the search. -/
theorem findAcpiTable_finds {ptrs size : Nat}
    (window : 1 < layout.windowSize)
    (listed : Listed machine.mapper.mem root layout kept)
    (serves : Serves usable kept ready layout allocator room)
    (enough : 16 * tableEntries machine.mapper.mem root ≤ room)
    (initially : ready machine)
    (buffer : HoldsWords usable machine.chunks ptrs size []) :
    ∃ found, findAcpiTable layout allocator root sign machine ptrs size =
        .ok found ∧
      found.curSize = (matching machine.mapper.mem root sign).length ∧
      HoldsWords usable found.machine.chunks found.ptrs found.size
        (matching machine.mapper.mem root sign) := by
  obtain ⟨found, result, follows⟩ :=
    findAcpiTable_follows window listed serves enough initially buffer
  exact ⟨found, result, follows.counted, follows.held⟩

end Searching

/-! ## Two tables -/

/-- `"MCFG"`. -/
def mcfgSign : Vector (BitVec 8) 4 := #v[0x4d#8, 0x43#8, 0x46#8, 0x47#8]

/-- A root table of two entries at 0x1000, for an `"MCFG"` of one
configuration entry at 0x2000 and an `"APIC"` at 0x2100. -/
def twoTables : Memory := fun cell =>
  ([(0x1004, 44#8), (0x1025, 0x20#8), (0x1029, 0x21#8), (0x2000, 0x4d#8),
    (0x2001, 0x43#8), (0x2002, 0x46#8), (0x2003, 0x47#8), (0x2004, 60#8),
    (0x202f, 0xe0#8), (0x2037, 0xff#8), (0x2100, 0x41#8), (0x2101, 0x50#8),
    (0x2102, 0x49#8), (0x2103, 0x43#8)].lookup cell).getD 0

/-- The window of the linker script. -/
def fourPages : Layout :=
  ⟨0x8000, 4, rfl, by decide, fourPages_pos, fourPages_le⟩

/-- The state in which a caller without a buffer starts. -/
def freshMachine : Machine Nat where
  mapper := ⟨twoTables, 0, 0, 0, 0⟩
  chunks _ := none
  arena := 0

/-- A root table of two entries at 0x1000, whose tables lie in the two pages
from there on. -/
theorem listed_of_length {memory : Memory}
    (length : (tableLength memory ⟨0x1000, 0⟩).toNat = 44)
    (count : tableEntries memory ⟨0x1000, 0⟩ = 2)
    (addresses : ∀ i, i < 2 →
      0x1000 ≤ (entryAt memory ⟨0x1000, 0⟩ i).toNat ∧
        (entryAt memory ⟨0x1000, 0⟩ i).toNat + 4 ≤ 0x3000) :
    Listed memory ⟨0x1000, 0⟩ fourPages (cells 0x1000 0x2000) := by
  refine ⟨Or.inl rfl, by omega, ?_, ?_, ?_, ?_, ?_, ?_⟩
  · rw [length]
    decide
  · rw [length]
    decide
  · intro i inside
    rw [count] at inside
    have placed := addresses i inside
    omega
  · intro cell member
    rw [length, mem_cells] at member
    rw [mem_cells]
    change 0x1000 ≤ cell ∧ cell < 0x1000 + 44 at member
    omega
  · intro i inside cell member
    rw [count] at inside
    have placed := addresses i inside
    rw [mem_cells] at member ⊢
    omega
  · exact cells_disjoint (by decide)

theorem listed_twoTables :
    Listed twoTables ⟨0x1000, 0⟩ fourPages (cells 0x1000 0x2000) :=
  listed_of_length (by decide) (by decide) (by decide)

theorem findAcpiTable_twoTables :
    ∃ found, findAcpiTable fourPages numbered ⟨0x1000, 0⟩ mcfgSign
        freshMachine 0 0 = .ok found ∧
      found.curSize = 1 ∧
      HoldsWords UsableBytes found.machine.chunks found.ptrs found.size
        [0x2000#64] := by
  have result := @findAcpiTable_finds Nat fourPages numbered UsableBytes
    (cells 0x1000 0x2000) 64 Unused ⟨0x1000, 0⟩ mcfgSign freshMachine 0 0
    (by decide) listed_twoTables (serves_numbered _ _ _) (by decide)
    (fun _ _ => rfl) ⟨Nat.le_refl 0, fun some => absurd rfl some⟩
  have found : matching freshMachine.mapper.mem ⟨0x1000, 0⟩ mcfgSign =
      [0x2000#64] := by decide
  rw [found] at result
  exact result

end BeaverOS.Acpi
