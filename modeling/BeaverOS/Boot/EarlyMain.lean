import BeaverOS.Lib.Loop
import BeaverOS.Memory.Draining

/-!
# The memory map

The tag walk of `early_main` in `boot/main.c`, which gives the available memory
above `used_mem` to `add_phys_mem`. The multiboot2 information structure is read
through the identity mapping of the loader.
-/

namespace BeaverOS.EarlyMain

open BeaverOS.Loop
open BeaverOS.ByteMemory
open BeaverOS.Paging
open BeaverOS.Window
open BeaverOS.FrameAllocator

/-! ## The code -/

/-- A `uint32_t` behind a pointer. -/
def readDword (memory : Memory) (pointer : Word) : BitVec 32 :=
  BitVec.ofNat 32 (readLE memory pointer.toNat 4)

/-- `tag->type`. -/
def tagType (memory : Memory) (tag : Word) : BitVec 32 := readDword memory tag

/-- `tag->size`. -/
def tagSize (memory : Memory) (tag : Word) : BitVec 32 :=
  readDword memory (tag + 4#64)

/-- `memory_map->entry_size`. -/
def entrySize (memory : Memory) (memoryMap : Word) : BitVec 32 :=
  readDword memory (memoryMap + 8#64)

/-- `memory_map->entry_version`. -/
def entryVersion (memory : Memory) (memoryMap : Word) : BitVec 32 :=
  readDword memory (memoryMap + 12#64)

/-- `&memory_map->entries[i]`. -/
def entryAt (memoryMap : Word) (i : Nat) : Word :=
  memoryMap + BitVec.ofNat 64 (16 + 24 * i)

/-- `entries[i].base_addr`. -/
def baseAddr (memory : Memory) (entry : Word) : Word :=
  readWord memory entry.toNat

/-- `entries[i].length`. -/
def entryLength (memory : Memory) (entry : Word) : Word :=
  readWord memory (entry + 8#64).toNat

/-- `entries[i].type`. -/
def entryType (memory : Memory) (entry : Word) : BitVec 32 :=
  readDword memory (entry + 16#64)

def multiboot2EndTag : BitVec 32 := 0

def multiboot2MemoryMapTag : BitVec 32 := 6

/-- `multiboot2_next_tag`. -/
def multiboot2NextTag (memory : Memory) (tag : Word) : Word :=
  (tag + (tagSize memory tag).setWidth 64 + 7#64) &&& -8#64

/-- `ulmax`. -/
def ulmax (a b : Word) : Word := if a > b then a else b

/-- What the loop does with an entry of type 1. -/
def addAvailable (layout : Layout) (usedMem base length : Word)
    (state : Mapper) : Except Halt Mapper :=
  if base + length > usedMem then
    let start := ulmax base usedMem
    addPhysMem layout state start (base + length - start)
  else
    .ok state

/-- The body of the loop over the entries. -/
def addEntry (layout : Layout) (usedMem memoryMap : Word) (i : Nat)
    (state : Mapper) : Except Halt Mapper :=
  let entry := entryAt memoryMap i
  if entryType state.mem entry = 1 then
    addAvailable layout usedMem (baseAddr state.mem entry)
      (entryLength state.mem entry) state
  else
    .ok state

/-- The condition of that loop. -/
def MoreEntries (memoryMap : Word) (i : Nat) (state : Mapper) : Prop :=
  16#64 + BitVec.ofNat 64 i * 24#64 <
    (tagSize state.mem memoryMap).setWidth 64

instance (memoryMap : Word) (i : Nat) (state : Mapper) :
    Decidable (MoreEntries memoryMap i state) :=
  inferInstanceAs (Decidable (_ < _))

/-- What the walk does with a memory map. The counter of the loop has 32
bits. -/
def readMemoryMap (layout : Layout) (usedMem memoryMap : Word)
    (state : Mapper) : Except Halt Mapper :=
  if entrySize state.mem memoryMap ≠ 24 then
    .error (.panic "entry_size is incorrect")
  else if entryVersion state.mem memoryMap ≠ 0 then
    .error (.panic "entry_version is not 0")
  else
    whileLoop (MoreEntries memoryMap) (addEntry layout usedMem memoryMap)
      .fault (2 ^ 32) 0 state

/-- The body of the loop over the tags. -/
def visitTag (layout : Layout) (usedMem : Word) (_ : Nat)
    (visit : Word × Mapper) : Except Halt (Word × Mapper) := do
  let (tag, state) := visit
  let state ←
    if tagType state.mem tag = multiboot2MemoryMapTag then
      readMemoryMap layout usedMem tag state
    else
      pure state
  return (multiboot2NextTag state.mem tag, state)

/-- The condition of that loop. -/
def MoreTags (_ : Nat) (visit : Word × Mapper) : Prop :=
  tagType visit.2.mem visit.1 ≠ multiboot2EndTag

instance (i : Nat) (visit : Word × Mapper) : Decidable (MoreTags i visit) :=
  inferInstanceAs (Decidable (_ ≠ _))

/-- The tag walk. Tags are aligned to eight bytes: a walk that visits more than
`2 ^ 61` is taken not to end. -/
def tagWalk (layout : Layout) (multiboot usedMem : Word) (state : Mapper) :
    Except Halt Mapper :=
  (whileLoop MoreTags (visitTag layout usedMem) .fault (2 ^ 61) 0
    (multiboot + 8#64, state)).map Prod.snd

/-! ## The structure -/

/-- `multiboot2_memory_map_entry_t`. -/
structure Entry where
  base : Word
  length : Word
  type : BitVec 32

/-- The tags that the walk tells apart. -/
inductive Tag where
  | memoryMap (entries : List Entry)
  | other (type size : BitVec 32)

/-- `size` of a tag. -/
def Tag.size : Tag → Nat
  | .memoryMap entries => 16 + 24 * entries.length
  | .other _ size => size.toNat

/-- The entries of a tag. -/
def Tag.entries : Tag → List Entry
  | .memoryMap entries => entries
  | .other _ _ => []

/-- An entry in memory. -/
structure EntryIn (memory : Memory) (place : Word) (entry : Entry) :
    Prop where
  base : baseAddr memory place = entry.base
  length : entryLength memory place = entry.length
  type : entryType memory place = entry.type

/-- A tag in memory. -/
inductive TagIn (memory : Memory) (place : Word) : Tag → Prop
  | memoryMap {entries : List Entry} :
      tagType memory place = multiboot2MemoryMapTag →
      (tagSize memory place).toNat = 16 + 24 * entries.length →
      entrySize memory place = 24 →
      entryVersion memory place = 0 →
      (∀ i (inside : i < entries.length),
        EntryIn memory (entryAt place i) entries[i]) →
      TagIn memory place (.memoryMap entries)
  | other {type size : BitVec 32} :
      type ≠ multiboot2EndTag → type ≠ multiboot2MemoryMapTag →
      8 ≤ size.toNat →
      tagType memory place = type → tagSize memory place = size →
      TagIn memory place (.other type size)

/-- The tags from `address` on, up to the end tag, which ends before
`limit`. -/
inductive TagsIn (memory : Memory) (limit : Nat) : Nat → List Tag → Prop
  | last {address : Nat} :
      tagType memory (BitVec.ofNat 64 address) = multiboot2EndTag →
      address + 8 ≤ limit →
      TagsIn memory limit address []
  | next {address : Nat} {tag : Tag} {tags : List Tag} :
      TagIn memory (BitVec.ofNat 64 address) tag →
      TagsIn memory limit ((address + tag.size + 7) / 8 * 8) tags →
      TagsIn memory limit address (tag :: tags)

/-- The entries of all memory maps, in the order of the walk. -/
def entriesOf (tags : List Tag) : List Entry := tags.flatMap Tag.entries

/-- What the walk does with an entry. -/
def addType (layout : Layout) (usedMem : Word) (entry : Entry)
    (state : Mapper) : Except Halt Mapper :=
  if entry.type = 1 then
    addAvailable layout usedMem entry.base entry.length state
  else
    .ok state

/-! ## Reading the structure -/

section Reading

variable {layout : Layout} {usedMem place : Word} {memory memory' : Memory}
  {state state' : Mapper} {address first limit : Nat} {entry : Entry}
  {tag : Tag} {tags : List Tag}

theorem readDword_congr (agree : AgreeOn memory' memory first (limit - first))
    (lower : first ≤ place.toNat) (upper : place.toNat + 4 ≤ limit) :
    readDword memory' place = readDword memory place := by
  rw [readDword, readDword, readLE_congr (agree.mono lower (by omega))]

theorem readQword_congr (agree : AgreeOn memory' memory first (limit - first))
    (lower : first ≤ place.toNat) (upper : place.toNat + 8 ≤ limit) :
    readWord memory' place.toNat = readWord memory place.toNat :=
  readWord_congr (agree.mono lower (by omega))

theorem toNat_offset (offset : Nat) (lower : first ≤ place.toNat)
    (inside : place.toNat + offset ≤ limit) (small : limit < 2 ^ 64) :
    first ≤ (place + BitVec.ofNat 64 offset).toNat ∧
      (place + BitVec.ofNat 64 offset).toNat = place.toNat + offset := by
  rw [BitVec.toNat_add, BitVec.toNat_ofNat]
  omega

theorem EntryIn.congr (found : EntryIn memory place entry)
    (agree : AgreeOn memory' memory first (limit - first))
    (lower : first ≤ place.toNat) (upper : place.toNat + 24 ≤ limit)
    (small : limit < 2 ^ 64) : EntryIn memory' place entry := by
  have second := toNat_offset 8 lower (by omega) small
  have third := toNat_offset 16 lower (by omega) small
  refine ⟨?_, ?_, ?_⟩
  · rw [← found.base]
    exact readQword_congr agree lower (by omega)
  · rw [← found.length]
    exact readQword_congr agree second.1 (by omega)
  · rw [← found.type]
    exact readDword_congr agree third.1 (by omega)

theorem TagIn.size_ge (found : TagIn memory place tag) : 8 ≤ tag.size := by
  cases found with
  | memoryMap isMap sizeEq hasSize hasVersion entries =>
      rw [Tag.size]
      omega
  | other notEnd notMap long typeEq sizeEq => exact long

theorem TagIn.tagSize (found : TagIn memory place tag) :
    (tagSize memory place).toNat = tag.size := by
  cases found with
  | memoryMap isMap sizeEq hasSize hasVersion entries => exact sizeEq
  | other notEnd notMap long typeEq sizeEq =>
      rw [sizeEq]
      rfl

theorem TagIn.congr (found : TagIn memory place tag)
    (agree : AgreeOn memory' memory first (limit - first))
    (lower : first ≤ place.toNat) (upper : place.toNat + tag.size ≤ limit)
    (small : limit < 2 ^ 64) : TagIn memory' place tag := by
  have long := found.size_ge
  have sizePlace := toNat_offset 4 lower (by omega) small
  have typeSame : tagType memory' place = tagType memory place :=
    readDword_congr agree lower (by omega)
  have sizeSame : EarlyMain.tagSize memory' place =
      EarlyMain.tagSize memory place :=
    readDword_congr agree sizePlace.1 (by omega)
  cases found with
  | @memoryMap entries isMap sizeEq hasSize hasVersion inEntries =>
      rw [Tag.size] at upper
      have third := toNat_offset 8 lower (by omega) small
      have fourth := toNat_offset 12 lower (by omega) small
      refine TagIn.memoryMap (typeSame.trans isMap)
        ((congrArg BitVec.toNat sizeSame).trans sizeEq) ?_ ?_ ?_
      · rw [← hasSize]
        exact readDword_congr agree third.1 (by omega)
      · rw [← hasVersion]
        exact readDword_congr agree fourth.1 (by omega)
      · intro i inside
        have entryPlace : first ≤ (entryAt place i).toNat ∧
            (entryAt place i).toNat = place.toNat + (16 + 24 * i) :=
          toNat_offset (16 + 24 * i) lower (by omega) small
        exact (inEntries i inside).congr agree entryPlace.1 (by omega) small
  | other notEnd notMap long typeEq sizeEq =>
      exact TagIn.other notEnd notMap long (typeSame.trans typeEq)
        (sizeSame.trans sizeEq)

/-- Every tag has eight bytes at least, the end tag too. -/
theorem TagsIn.bound (found : TagsIn memory limit address tags) :
    address + 8 * (tags.length + 1) ≤ limit := by
  induction found with
  | last isEnd inside => exact inside
  | next here rest inductionHypothesis =>
      have long := here.size_ge
      rw [List.length_cons]
      omega

end Reading

/-! ## The walk -/

section Walk

variable {layout : Layout} {usedMem : Word} {memory : Memory}
  {state state' : Mapper} {first limit address : Nat} {tag : Tag}
  {tags : List Tag} {base length : Word}

variable (layout usedMem first limit) in
/-- The structure lies in `[first, limit)`, where `add_phys_mem` does not
write. -/
structure Below : Prop where
  lower : 16 ≤ first
  upper : limit ≤ usedMem.toNat
  apart : Disjoint (cells first (limit - first)) (slotCells layout)

theorem toNat_ulmax (a b : Word) :
    (ulmax a b).toNat = max a.toNat b.toNat := by
  rw [ulmax]
  split
  · next more => exact (Nat.max_eq_left (Nat.le_of_lt more)).symm
  · next less => exact (Nat.max_eq_right (Nat.le_of_not_lt less)).symm

theorem addAvailable_keeps (below : Below layout usedMem first limit)
    (added : addAvailable layout usedMem base length state = .ok state') :
    AgreeOn state'.mem state.mem first (limit - first) := by
  rw [addAvailable] at added
  split at added
  · have reach := (addPhysMem_reach added).2.2
    apply reach.agreeOn
    rw [Set.disjoint_union_right]
    refine ⟨below.apart, ?_⟩
    rw [Set.disjoint_left]
    intro cell inside reached
    have lower := below.lower
    have upper := below.upper
    have start := toNat_ulmax base usedMem
    rw [mem_cells] at inside
    change cell < 16 ∨ (ulmax base usedMem).toNat ≤ cell at reached
    omega
  · cases added
    exact fun _ _ _ => rfl

theorem addType_keeps {entry : Entry}
    (below : Below layout usedMem first limit)
    (added : addType layout usedMem entry state = .ok state') :
    AgreeOn state'.mem state.mem first (limit - first) := by
  rw [addType] at added
  split at added
  · exact addAvailable_keeps below added
  · cases added
    exact fun _ _ _ => rfl

/-- The loop over the entries of a memory map adds one after another. -/
theorem readMemoryMap_eq {entries : List Entry} {place : Word}
    (below : Below layout usedMem first limit)
    (found : TagIn memory place (.memoryMap entries))
    (lower : first ≤ place.toNat)
    (upper : place.toNat + (16 + 24 * entries.length) ≤ limit)
    (agree : AgreeOn state.mem memory first (limit - first)) :
    readMemoryMap layout usedMem place state =
      entries.foldlM (fun state entry => addType layout usedMem entry state)
        state := by
  have small : limit < 2 ^ 64 :=
    Nat.lt_of_le_of_lt below.upper usedMem.isLt
  have inside : ∀ state : Mapper,
      AgreeOn state.mem memory first (limit - first) →
        TagIn state.mem place (.memoryMap entries) := fun state agree =>
    found.congr agree lower upper small
  have sizeBound : 16 + 24 * entries.length < 2 ^ 32 := by
    have sizeEq := found.tagSize
    have bound := (tagSize memory place).isLt
    rw [Tag.size] at sizeEq
    omega
  cases inside state agree with
  | memoryMap isMap sizeEq hasSize hasVersion inEntries =>
      rw [readMemoryMap, if_neg (not_not_intro hasSize),
        if_neg (not_not_intro hasVersion)]
      refine whileLoop_eq_foldlM entries (addType layout usedMem)
        (fun state => AgreeOn state.mem memory first (limit - first)) ?_ ?_ ?_
        agree (Nat.zero_le _) (by omega)
      · intro i state bound agree
        have sizeEq := (inside state agree).tagSize
        have counted : (16#64 + BitVec.ofNat 64 i * 24#64).toNat =
            16 + 24 * i := by
          simp only [BitVec.toNat_add, BitVec.toNat_mul, BitVec.toNat_ofNat]
          omega
        have sized : ((tagSize state.mem place).setWidth 64).toNat =
            16 + 24 * entries.length := by
          rw [BitVec.toNat_setWidth, sizeEq, Tag.size]
          omega
        rw [MoreEntries, BitVec.lt_def, counted, sized]
        omega
      · intro i bound state agree
        cases inside state agree with
        | memoryMap isMap sizeEq hasSize hasVersion inEntries =>
            have entry := inEntries i bound
            simp only [addEntry, entry.type, entry.base, entry.length, addType]
      · intro entry member state state' agree added
        exact (addType_keeps below added).trans agree

theorem entries_keep {entries : List Entry}
    (below : Below layout usedMem first limit)
    (added : entries.foldlM
      (fun state entry => addType layout usedMem entry state) state =
        .ok state') :
    AgreeOn state'.mem state.mem first (limit - first) := by
  induction entries generalizing state with
  | nil =>
      cases added
      exact fun _ _ _ => rfl
  | cons entry entries inductionHypothesis =>
      rw [List.foldlM_cons] at added
      obtain ⟨middle, first, rest⟩ := ok_of_bind added
      exact (inductionHypothesis rest).trans (addType_keeps below first)

theorem toNat_and_neg_eight (word : Word) :
    (word &&& -8#64).toNat = word.toNat / 8 * 8 := by
  have low : word.toNat % 8 = (word &&& 7#64).toNat := by
    rw [BitVec.toNat_and]
    exact (Nat.and_two_pow_sub_one_eq_mod word.toNat 3).symm
  have split := toNat_split word 7#64
  rw [show -8#64 = ~~~7#64 by decide]
  omega

/-- One round of the tag loop. -/
theorem visitTag_eq {place : Word} (i : Nat)
    (below : Below layout usedMem first limit)
    (found : TagIn memory place tag) (lower : first ≤ place.toNat)
    (upper : (place.toNat + tag.size + 7) / 8 * 8 + 8 ≤ limit)
    (agree : AgreeOn state.mem memory first (limit - first)) :
    visitTag layout usedMem i (place, state) =
      (tag.entries.foldlM
        (fun state entry => addType layout usedMem entry state) state).map
          fun state' =>
            (BitVec.ofNat 64 ((place.toNat + tag.size + 7) / 8 * 8),
              state') := by
  have small : limit < 2 ^ 64 :=
    Nat.lt_of_le_of_lt below.upper usedMem.isLt
  have next : ∀ state' : Mapper,
      AgreeOn state'.mem memory first (limit - first) →
        multiboot2NextTag state'.mem place =
          BitVec.ofNat 64 ((place.toNat + tag.size + 7) / 8 * 8) := by
    intro state' agree'
    have sizeEq := (found.congr agree' lower (by omega) small).tagSize
    have bound := (tagSize state'.mem place).isLt
    apply BitVec.eq_of_toNat_eq
    rw [multiboot2NextTag, toNat_and_neg_eight, BitVec.toNat_add,
      BitVec.toNat_add, BitVec.toNat_setWidth, sizeEq]
    simp only [BitVec.toNat_ofNat]
    omega
  have here := found.congr agree lower (by omega) small
  cases found with
  | @memoryMap entries isMap sizeEq hasSize hasVersion inEntries =>
      have isMap' : tagType state.mem place = multiboot2MemoryMapTag := by
        cases here with
        | memoryMap isMap => exact isMap
      have read := readMemoryMap_eq below (TagIn.memoryMap isMap sizeEq hasSize
        hasVersion inEntries) lower (by rw [Tag.size] at upper; omega) agree
      simp only [visitTag, isMap', if_true, read, Tag.entries, bind,
        Except.bind, pure, Except.pure]
      cases added : entries.foldlM
          (fun state entry => addType layout usedMem entry state) state with
      | error halt => rfl
      | ok state' =>
          exact congrArg (fun tag => Except.ok (tag, state'))
            (next state' ((entries_keep below added).trans agree))
  | @other type size notEnd notMap long typeEq sizeEq =>
      have notMap' : ¬ tagType state.mem place = multiboot2MemoryMapTag := by
        cases here with
        | other notEnd notMap long typeEq =>
            rw [typeEq]
            exact notMap
      simp only [visitTag, notMap', if_false, bind, Except.bind, pure,
        Except.pure]
      exact congrArg (fun tag => Except.ok (tag, state)) (next state agree)

/-- The tag loop adds the entries of all memory maps one after another. -/
theorem tagLoop_eq (below : Below layout usedMem first limit)
    (found : TagsIn memory limit address tags) (lower : first ≤ address)
    (agree : AgreeOn state.mem memory first (limit - first)) {i fuel : Nat}
    (enough : tags.length < fuel) :
    (whileLoop MoreTags (visitTag layout usedMem) Halt.fault fuel i
        (BitVec.ofNat 64 address, state)).map Prod.snd =
      (entriesOf tags).foldlM
        (fun state entry => addType layout usedMem entry state) state := by
  have small : limit < 2 ^ 64 :=
    Nat.lt_of_le_of_lt below.upper usedMem.isLt
  induction found generalizing state i fuel with
  | @last address isEnd inside =>
      obtain ⟨fuel, rfl⟩ := Nat.exists_eq_succ_of_ne_zero (by omega :
        fuel ≠ 0)
      have here : (BitVec.ofNat 64 address).toNat = address := by
        rw [BitVec.toNat_ofNat]
        omega
      have sameType : tagType state.mem (BitVec.ofNat 64 address) =
          tagType memory (BitVec.ofNat 64 address) :=
        readDword_congr agree (by omega) (by omega)
      have ends : ¬ MoreTags i (BitVec.ofNat 64 address, state) := by
        intro more
        exact more (sameType.trans isEnd)
      rw [whileLoop, if_neg ends]
      rfl
  | @next address tag tags found rest inductionHypothesis =>
      obtain ⟨fuel, rfl⟩ := Nat.exists_eq_succ_of_ne_zero (by omega :
        fuel ≠ 0)
      have bound := rest.bound
      have here : (BitVec.ofNat 64 address).toNat = address := by
        rw [BitVec.toNat_ofNat]
        omega
      have foundNow := found.congr agree (by omega) (by omega) small
      have more : MoreTags i (BitVec.ofNat 64 address, state) := by
        change tagType state.mem (BitVec.ofNat 64 address) ≠ multiboot2EndTag
        cases foundNow with
        | memoryMap isMap =>
            rw [isMap]
            decide
        | other notEnd notMap long typeEq =>
            rw [typeEq]
            exact notEnd
      have visited := visitTag_eq i below found (by omega)
        (by rw [here]; omega) agree
      rw [whileLoop, if_pos more, visited, here, entriesOf, List.flatMap_cons,
        List.foldlM_append]
      cases added : tag.entries.foldlM
          (fun state entry => addType layout usedMem entry state) state with
      | error halt => rfl
      | ok state' =>
          exact inductionHypothesis (by omega)
            ((entries_keep below added).trans agree)
            (by rw [List.length_cons] at enough; omega)

end Walk

end BeaverOS.EarlyMain
