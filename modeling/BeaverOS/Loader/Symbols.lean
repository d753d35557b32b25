import BeaverOS.CString.Order
import BeaverOS.Loader.Image

/-!
# The section tables of a kernel file

The section headers, the string tables and the symbol table that `load_kernel`
searches, and what it finds in them. All of them are read from the image, so
the search has the same result on every memory that agrees on their bytes.
-/

namespace BeaverOS.Elf64

open BeaverOS.ByteMemory
open BeaverOS.Loop
open BeaverOS.Paging
open BeaverOS.Window
open BeaverOS.LoaderPaging

/-! ## Fields of the headers -/

/-- The offset and the size of `e_shoff`, `e_phnum`, `e_shnum` and
`e_shstrndx`. The other fields are read before the segment loop or never. -/
def headerFields : List (Nat × Nat) := [(40, 8), (56, 2), (60, 2), (62, 2)]

/-- The offset and the size of `p_type`, `p_offset`, `p_vaddr`, `p_filesz` and
`p_memsz`. -/
def programFields : List (Nat × Nat) :=
  [(0, 4), (8, 8), (16, 8), (32, 8), (40, 8)]

/-- The cells of the fields of a record at `place`. -/
def fieldCells (place : Nat) (fields : List (Nat × Nat)) : Set Nat :=
  fun cell => ∃ field ∈ fields, cell ∈ cells (place + field.1) field.2

theorem mem_fieldCells {fields : List (Nat × Nat)}
    {place offset count cell : Nat} (listed : (offset, count) ∈ fields)
    (lower : place + offset ≤ cell) (upper : cell < place + offset + count) :
    cell ∈ fieldCells place fields :=
  ⟨(offset, count), listed, mem_cells.mpr ⟨lower, upper⟩⟩

theorem headerFields_le : ∀ field ∈ headerFields, field.1 + field.2 ≤ 64 := by
  decide

theorem programFields_le :
    ∀ field ∈ programFields, field.1 + field.2 ≤ 56 := by
  decide

/-! ## Sections and symbols -/

section Tables

variable (memory : Memory) (start : Pointer)

/-- `&shdr[si]`. -/
def sectionHeader (si : Nat) : Pointer :=
  element (advance start (eShoff memory start)) 64 si

def sectionOffset (si : Nat) : Nat :=
  (shOffset memory (sectionHeader memory start si)).toNat

def sectionSize (si : Nat) : Nat :=
  (shSize memory (sectionHeader memory start si)).toNat

/-- `start + shdr[si].sh_offset`. -/
def sectionContent (si : Nat) : Pointer :=
  advance start (shOffset memory (sectionHeader memory start si))

/-- The index of `.shstrtab`. -/
def shstrtabOf : Nat := (eShstrndx memory start).toNat

/-- `shstr + shdr[si].sh_name`. -/
def sectionName (si : Nat) : Pointer :=
  sectionContent memory start (shstrtabOf memory start) +
    shName memory (sectionHeader memory start si)

/-- The number of symbols of the section `symtab`. -/
def symbolCount (symtab : Nat) : Nat :=
  (shSize memory (sectionHeader memory start symtab) /
    shEntsize memory (sectionHeader memory start symtab)).toNat

/-- `&symtab[index]`. -/
def symbolAt (symtab index : Nat) : Pointer :=
  element (sectionContent memory start symtab) 24 index

/-- `strtab + symtab[index].st_name`. -/
def symbolName (strtab symtab index : Nat) : Pointer :=
  sectionContent memory start strtab +
    stName memory (symbolAt memory start symtab index)

/-- Of the symbols of `symtab`, just one has the name `text`. -/
structure Defines (strtab symtab : Nat) (text : String) (value : Word) :
    Prop where
  unique :
    ∃ index, 1 ≤ index ∧ index < symbolCount memory start symtab ∧
      stValue memory (symbolAt memory start symtab index) = value ∧
      ∀ other, 1 ≤ other → other < symbolCount memory start symtab →
        (strcmpIsZero memory (literal text)
          (symbolName memory start strtab symtab other) = true ↔
          other = index)

/-- The string at offset `name` of a string table ends in the table. -/
def HasString (table : Pointer) (size : Nat) (name : BitVec 32) : Prop :=
  ∃ length, name.toNat + length < size ∧
    memory (table.toNat + name.toNat + length) = 0

/-- The file offsets of the fields of the ELF header and of the program headers
that are read once the segment loop has begun. -/
def headerCells : Set Nat :=
  fun cell =>
    cell ∈ fieldCells 0 headerFields ∨
    ∃ pi, pi < (ePhnum memory start).toNat ∧
      cell ∈ fieldCells ((ePhoff memory start).toNat + 56 * pi) programFields

/-- The file offsets of the section headers, `.shstrtab`, `.strtab` and
`.symtab`. -/
def tableCells (strtab symtab : Nat) : Set Nat :=
  fun cell =>
    cell ∈ cells (eShoff memory start).toNat
      (64 * (eShnum memory start).toNat) ∨
    ∃ si ∈ [shstrtabOf memory start, strtab, symtab],
      cell ∈ cells (sectionOffset memory start si)
        (sectionSize memory start si)

/-- A kernel file of `size` bytes at `start`, with the sections `strtab` and
`symtab`. -/
structure KernelFile (size strtab symtab : Nat) : Prop where
  nonNull : start ≠ 0#32
  aligned : start.toNat % 4096 = 0
  accepted : refusal memory start = none
  header_inside : 64 ≤ size
  table_inside :
    (ePhoff memory start).toNat + 56 * (ePhnum memory start).toNat ≤ size
  sections_inside :
    (eShoff memory start).toNat + 64 * (eShnum memory start).toNat ≤ size
  contents_inside :
    ∀ si ∈ [shstrtabOf memory start, strtab, symtab],
      si < (eShnum memory start).toNat ∧
      sectionOffset memory start si + sectionSize memory start si ≤ size
  section_names :
    ∀ si, si < (eShnum memory start).toNat →
      HasString memory (sectionContent memory start (shstrtabOf memory start))
        (sectionSize memory start (shstrtabOf memory start))
        (shName memory (sectionHeader memory start si))
  strtab_iff :
    ∀ si, si < (eShnum memory start).toNat →
      (strcmpIsZero memory (literal ".strtab")
        (sectionName memory start si) = true ↔ si = strtab)
  symtab_iff :
    ∀ si, si < (eShnum memory start).toNat →
      (strcmpIsZero memory (literal ".symtab")
        (sectionName memory start si) = true ↔ si = symtab)
  entsize : shEntsize memory (sectionHeader memory start symtab) = 24#64
  symbol_names :
    ∀ index, 1 ≤ index → index < symbolCount memory start symtab →
      HasString memory (sectionContent memory start strtab)
        (sectionSize memory start strtab)
        (stName memory (symbolAt memory start symtab index))
  offset_aligned :
    ∀ pi, IsLoad memory start pi → offsetOf memory start pi % 4096 = 0
  filesz_le :
    ∀ pi, IsLoad memory start pi →
      fileszOf memory start pi ≤ memszOf memory start pi
  inside :
    ∀ pi, IsLoad memory start pi → 0 < fileszOf memory start pi →
      offsetOf memory start pi + fileszOf memory start pi ≤ size
  pages :
    ∀ pi k, IsSegmentPage memory start pi k →
      PageTree.IsPage (segmentPageAddress memory start pi k)
  files_apart :
    ∀ pi, IsLoad memory start pi →
      Disjoint (cells (offsetOf memory start pi) (fileszOf memory start pi))
        (tableCells memory start strtab symtab)

end Tables

theorem lt_of_mem_headerCells {memory : Memory} {start : Pointer} {cell : Nat}
    (inside : cell ∈ headerCells memory start) :
    cell < 64 ∨
      cell < (ePhoff memory start).toNat + 56 * (ePhnum memory start).toNat := by
  rcases inside with ⟨field, listed, inField⟩ |
    ⟨pi, inTable, field, listed, inField⟩
  · have bound := headerFields_le field listed
    rw [mem_cells] at inField
    omega
  · have bound := programFields_le field listed
    rw [mem_cells] at inField
    omega

/-! ## What the search finds -/

/-- What the search in `memory` comes to: the sections by name, and the three
symbols. -/
structure Finds (memory : Memory) (start : Pointer) (strtab symtab : Nat)
    (pages size pt : Word) : Prop where
  strtab_lt : strtab < (eShnum memory start).toNat
  symtab_lt : symtab < (eShnum memory start).toNat
  strtab_iff :
    ∀ si, si < (eShnum memory start).toNat →
      (strcmpIsZero memory (literal ".strtab")
        (sectionName memory start si) = true ↔ si = strtab)
  symtab_iff :
    ∀ si, si < (eShnum memory start).toNat →
      (strcmpIsZero memory (literal ".symtab")
        (sectionName memory start si) = true ↔ si = symtab)
  strtab_nonNull : sectionContent memory start strtab ≠ 0#32
  symtab_nonNull : sectionContent memory start symtab ≠ 0#32
  entsize : shEntsize memory (sectionHeader memory start symtab) ≠ 0#64
  count_lt : symbolCount memory start symtab < 2 ^ 32
  pages : Defines memory start strtab symtab "_phys_window_pages" pages
  size : Defines memory start strtab symtab "_phys_window_size" size
  pt : Defines memory start strtab symtab "_phys_window_pt" pt

section Search

variable (memory : Memory) (start : Pointer) (strtab symtab : Nat)

/-- What the loop over the section headers has found before section `si`. -/
def sectionsBefore (si : Nat) : Sections where
  strtab := if strtab < si then sectionContent memory start strtab else 0
  symtab := if symtab < si then sectionContent memory start symtab else 0
  symtabSize :=
    if symtab < si then
      (shSize memory (sectionHeader memory start symtab) /
        shEntsize memory (sectionHeader memory start symtab)).setWidth 32
    else 0

/-- What it has found in the end. -/
def sectionsOf : Sections :=
  sectionsBefore memory start strtab symtab (max strtab symtab + 1)

variable {memory start strtab symtab} {pages size pt : Word}

theorem sectionsBefore_last {last : Nat} (strtabLt : strtab < last)
    (symtabLt : symtab < last) :
    sectionsBefore memory start strtab symtab last =
      sectionsOf memory start strtab symtab := by
  have strtabMax : strtab < max strtab symtab + 1 := by omega
  have symtabMax : symtab < max strtab symtab + 1 := by omega
  simp only [sectionsOf, sectionsBefore, if_pos strtabLt, if_pos symtabLt,
    if_pos strtabMax, if_pos symtabMax]

/-- A section that is `at` the sought one, or before or behind it. -/
theorem ite_lt_succ {α : Type} {sought si : Nat} (found missing : α) :
    (if sought < si + 1 then found else missing) =
      if si = sought then found
      else if sought < si then found else missing := by
  by_cases here : si = sought
  · rw [if_pos here, if_pos (by omega)]
  · by_cases before : sought < si
    · rw [if_neg here, if_pos before, if_pos (by omega)]
    · rw [if_neg here, if_neg before, if_neg (by omega)]

/-- The loop over the section headers. -/
theorem Finds.readSections_eq
    (finds : Finds memory start strtab symtab pages size pt) :
    readSections memory start =
      .ok (sectionsOf memory start strtab symtab) := by
  rw [← sectionsBefore_last finds.strtab_lt finds.symtab_lt]
  refine forLoop_states (sectionsBefore memory start strtab symtab)
    (Nat.zero_le _) fun si _ inTable => ?_
  have isStrtab := finds.strtab_iff si inTable
  have isSymtab := finds.symtab_iff si inTable
  have nonzero := finds.entsize
  rw [sectionName, shstrtabOf, sectionContent, sectionHeader, sectionHeader]
    at isStrtab isSymtab
  simp only [readSection, sectionsBefore, ite_lt_succ, isStrtab, isSymtab]
  by_cases atSymtab : si = symtab
  · subst atSymtab
    rw [sectionHeader] at nonzero
    simp only [if_true, if_neg nonzero]
    by_cases atStrtab : si = strtab
    · subst atStrtab
      simp only [if_true]
      rfl
    · simp only [if_neg atStrtab]
      rfl
  · simp only [if_neg atSymtab]
    by_cases atStrtab : si = strtab
    · subst atStrtab
      simp only [if_true]
      rfl
    · simp only [if_neg atStrtab]

/-- One symbol, field by field. -/
theorem readSymbol_eq (memory : Memory) (found : Sections)
    (symbols : WindowSymbols) (si : Nat) :
    readSymbol memory found symbols si =
      ⟨if strcmpIsZero memory (literal "_phys_window_pages")
          (found.strtab + stName memory (element found.symtab 24 si)) = true
        then stValue memory (element found.symtab 24 si)
        else symbols.physWindowPages,
      if strcmpIsZero memory (literal "_phys_window_size")
          (found.strtab + stName memory (element found.symtab 24 si)) = true
        then (stValue memory (element found.symtab 24 si)).setWidth 32
        else symbols.physWindowSize,
      if strcmpIsZero memory (literal "_phys_window_pt")
          (found.strtab + stName memory (element found.symtab 24 si)) = true
        then stValue memory (element found.symtab 24 si)
        else symbols.physWindowPt⟩ := by
  rw [readSymbol]
  split_ifs <;> rfl

/-- The loop over the symbols. -/
theorem Finds.readSymbols_eq
    (finds : Finds memory start strtab symtab pages size pt) :
    readSymbols memory (sectionsOf memory start strtab symtab) =
      ⟨pages, size.setWidth 32, pt⟩ := by
  obtain ⟨pagesAt, pagesPos, pagesLt, pagesValue, pagesIff⟩ :=
    finds.pages.unique
  obtain ⟨sizeAt, sizePos, sizeLt, sizeValue, sizeIff⟩ := finds.size.unique
  obtain ⟨ptAt, ptPos, ptLt, ptValue, ptIff⟩ := finds.pt.unique
  have strtabEq : (sectionsOf memory start strtab symtab).strtab =
      sectionContent memory start strtab := by
    rw [sectionsOf, sectionsBefore]
    exact if_pos (by omega)
  have symtabEq : (sectionsOf memory start strtab symtab).symtab =
      sectionContent memory start symtab := by
    rw [sectionsOf, sectionsBefore]
    exact if_pos (by omega)
  have countEq :
      (sectionsOf memory start strtab symtab).symtabSize.toNat =
        symbolCount memory start symtab := by
    have small := finds.count_lt
    have sizeEq : (sectionsOf memory start strtab symtab).symtabSize =
        (shSize memory (sectionHeader memory start symtab) /
          shEntsize memory (sectionHeader memory start symtab)).setWidth
          32 := by
      rw [sectionsOf, sectionsBefore]
      exact if_pos (by omega)
    rw [sizeEq, BitVec.toNat_setWidth]
    exact Nat.mod_eq_of_lt small
  have states := @foldl_states WindowSymbols 1
    (readSymbol memory (sectionsOf memory start strtab symtab))
    (symbolCount memory start symtab - 1)
    (fun index =>
      ⟨if pagesAt < index then pages else 0,
        if sizeAt < index then size.setWidth 32 else 0,
        if ptAt < index then pt else 0⟩) ?_
  · have last : 1 + (symbolCount memory start symtab - 1) =
        symbolCount memory start symtab := by omega
    rw [last] at states
    simp only [if_pos pagesLt, if_pos sizeLt, if_pos ptLt,
      if_neg (Nat.not_lt.mpr pagesPos), if_neg (Nat.not_lt.mpr sizePos),
      if_neg (Nat.not_lt.mpr ptPos)] at states
    rw [readSymbols, countEq]
    exact states
  · intro index positive inside
    have isPages := pagesIff index positive (by omega)
    have isSize := sizeIff index positive (by omega)
    have isPt := ptIff index positive (by omega)
    rw [symbolName, symbolAt] at isPages isSize isPt
    rw [symbolAt] at pagesValue sizeValue ptValue
    rw [readSymbol_eq]
    simp only [strtabEq, symtabEq, ite_lt_succ, isPages, isSize, isPt]
    rw [WindowSymbols.mk.injEq]
    refine ⟨?_, ?_, ?_⟩
    · refine ite_congr rfl (fun here => ?_) fun _ => rfl
      rw [here, pagesValue]
    · refine ite_congr rfl (fun here => ?_) fun _ => rfl
      rw [here, sizeValue]
    · refine ite_congr rfl (fun here => ?_) fun _ => rfl
      rw [here, ptValue]

/-- The search finds the symbols, as long as the size fits its 32 bits. -/
theorem Finds.findWindow_eq
    (finds : Finds memory start strtab symtab pages size pt)
    (pagesNonzero : pages ≠ 0) (sizeNonzero : size ≠ 0)
    (sizeLt : size.toNat < 2 ^ 32) (ptNonzero : pt ≠ 0) :
    findWindow memory start = .ok (.ok ⟨pages, size.setWidth 32, pt⟩) := by
  have strtabNonNull : (sectionsOf memory start strtab symtab).strtab ≠ 0 := by
    rw [sectionsOf, sectionsBefore]
    simp only
    rw [if_pos (by omega)]
    exact finds.strtab_nonNull
  have symtabNonNull : (sectionsOf memory start strtab symtab).symtab ≠ 0 := by
    rw [sectionsOf, sectionsBefore]
    simp only
    rw [if_pos (by omega)]
    exact finds.symtab_nonNull
  have narrowNonzero : size.setWidth 32 ≠ 0 := by
    intro zero
    have value := congrArg BitVec.toNat zero
    rw [BitVec.toNat_setWidth, Nat.mod_eq_of_lt sizeLt] at value
    exact sizeNonzero (BitVec.eq_of_toNat_eq value)
  rw [findWindow, finds.readSections_eq]
  change (if _ then _ else _) = _
  rw [if_neg strtabNonNull, if_neg symtabNonNull, finds.readSymbols_eq]
  simp only [if_neg pagesNonzero, if_neg narrowNonzero, if_neg ptNonzero]
  rfl

end Search

/-! ## Memories with the same tables -/

/-- `memory'` has the bytes of the ELF header's fields and of the tables. -/
def SameTables (memory memory' : Memory) (start : Pointer)
    (strtab symtab : Nat) : Prop :=
  ∀ cell,
    cell ∈ fieldCells 0 headerFields ∨
      cell ∈ tableCells memory start strtab symtab →
    memory' (start.toNat + cell) = memory (start.toNat + cell)

/-- The characters that a comparison with a literal finds. -/
theorem strcmpIsZero_eq_true_iff {memory : Memory} :
    ∀ {text : List (BitVec 8)} {pointer : Pointer},
      strcmpIsZero memory text pointer = true ↔
        ∀ k, k ≤ text.length → CString.charAt text k =
          memory (pointer + BitVec.ofNat 32 k).toNat
  | [], pointer => by
      rw [strcmpIsZero, beq_iff_eq]
      constructor
      · intro ends k upTo
        obtain rfl := Nat.le_zero.mp upTo
        rw [BitVec.add_zero]
        exact ends.symm
      · intro same
        have first := same 0 (Nat.le_refl 0)
        rw [BitVec.add_zero] at first
        exact first.symm
  | char :: text, pointer => by
      have moved : ∀ k, pointer + 1 + BitVec.ofNat 32 k =
          pointer + BitVec.ofNat 32 (k + 1) := by
        intro k
        rw [BitVec.add_assoc, BitVec.add_comm 1, BitVec.ofNat_add]
        rfl
      rw [strcmpIsZero, Bool.and_eq_true, beq_iff_eq,
        strcmpIsZero_eq_true_iff]
      constructor
      · rintro ⟨first, rest⟩ k upTo
        cases k with
        | zero =>
            rw [BitVec.add_zero]
            exact first.symm
        | succ k =>
            rw [← moved]
            exact rest k (Nat.le_of_succ_le_succ upTo)
      · intro same
        have first := same 0 (Nat.zero_le _)
        rw [BitVec.add_zero] at first
        refine ⟨first.symm, fun k upTo => ?_⟩
        rw [moved]
        exact same (k + 1) (Nat.succ_le_succ upTo)

/-- The comparisons of the loader are those of `strcmp`. -/
theorem strcmp_literal {Error : Type} (exhausted : Error) {memory : Memory}
    (text : CString.Text) (pointer : Pointer) {fuel : Nat}
    (enough : text.chars.length < fuel) :
    ∃ result,
      CString.strcmp exhausted (fun k => .ok (CString.charAt text.chars k))
        (fun k => .ok (memory (pointer + BitVec.ofNat 32 k).toNat)) fuel =
          .ok result ∧
        (result = 0 ↔ strcmpIsZero memory text.chars pointer = true) := by
  rw [strcmpIsZero_eq_true_iff]
  refine CString.strcmp_zero_iff exhausted ?_ ?_ (fun _ _ => rfl)
    (fun _ _ => rfl) enough
  · exact CString.charAt_of_length_le (Nat.le_refl _)
  · exact fun k inside => CString.charAt_ne_nul text.noNul inside

/-- A comparison reads no further than to the terminator of the string. -/
theorem strcmpIsZero_congr {memory memory' : Memory} :
    ∀ {text : List (BitVec 8)} {pointer : Pointer} {length : Nat},
      0 ∉ text → pointer.toNat + length < 2 ^ 32 →
      memory (pointer.toNat + length) = 0 →
      (∀ cell, pointer.toNat ≤ cell → cell ≤ pointer.toNat + length →
        memory' cell = memory cell) →
      strcmpIsZero memory' text pointer = strcmpIsZero memory text pointer
  | [], pointer, length, _, _, _, agree => by
      rw [strcmpIsZero, strcmpIsZero,
        agree _ (Nat.le_refl _) (Nat.le_add_right _ _)]
  | char :: text, pointer, length, noNul, bound, terminated, agree => by
      have here := agree _ (Nat.le_refl _) (Nat.le_add_right _ length)
      rw [strcmpIsZero, strcmpIsZero, here]
      cases length with
      | zero =>
          rw [Nat.add_zero] at terminated
          have differs : (memory pointer.toNat == char) = false := by
            rw [terminated, beq_eq_false_iff_ne]
            exact List.ne_of_not_mem_cons noNul
          rw [differs, Bool.false_and, Bool.false_and]
      | succ length =>
          have next : (pointer + 1).toNat = pointer.toNat + 1 := by
            have one : (1 : Pointer).toNat = 1 := rfl
            rw [BitVec.toNat_add, one, Nat.mod_eq_of_lt (by omega)]
          have rest : strcmpIsZero memory' text (pointer + 1) =
              strcmpIsZero memory text (pointer + 1) := by
            refine @strcmpIsZero_congr memory memory' text (pointer + 1) length
              (List.not_mem_of_not_mem_cons noNul) ?_ ?_ ?_
            · omega
            · rw [next, Nat.add_assoc, Nat.add_comm 1]
              exact terminated
            · intro cell lower upper
              exact agree cell (by omega) (by omega)
          rw [rest]

section Same

variable {memory memory' : Memory} {start pointer : Pointer}
  {fileSize strtab symtab place offset count si index : Nat}

/-- Pointers into the file do not wrap. -/
theorem toNat_element {table : Pointer} {width : Nat}
    (tableEq : table.toNat = start.toNat + place)
    (fits : start.toNat + (place + width * index) < 2 ^ 32) :
    (element table width index).toNat =
      start.toNat + (place + width * index) := by
  rw [element, toNat_add_ofNat (by omega), tableEq, Nat.add_assoc]

theorem SameTables.readLE_eq
    (same : SameTables memory memory' start strtab symtab)
    (pointerEq : pointer.toNat = start.toNat + place)
    (fits : start.toNat + (place + offset + count) < 2 ^ 32)
    (inside :
      ∀ cell, place + offset ≤ cell → cell < place + offset + count →
        cell ∈ fieldCells 0 headerFields ∨
          cell ∈ tableCells memory start strtab symtab) :
    readLE memory' (pointer + BitVec.ofNat 32 offset).toNat count =
      readLE memory (pointer + BitVec.ofNat 32 offset).toNat count := by
  refine readLE_congr fun cell lower upper => ?_
  rw [toNat_add_ofNat (by omega), pointerEq] at lower upper
  obtain ⟨position, rfl⟩ : ∃ position, cell = start.toNat + position :=
    ⟨cell - start.toNat, by omega⟩
  exact same position (inside position (by omega) (by omega))

variable (file : KernelFile memory start fileSize strtab symtab)
  (fits : start.toNat + fileSize < 2 ^ 32)
  (same : SameTables memory memory' start strtab symtab)
include file fits

theorem KernelFile.toNat_sectionHeader
    (inTable : si < (eShnum memory start).toNat) :
    (sectionHeader memory start si).toNat =
      start.toNat + ((eShoff memory start).toNat + 64 * si) := by
  have inside := file.sections_inside
  exact toNat_element (toNat_advance start _ (by omega)) (by omega)

theorem KernelFile.toNat_sectionContent
    (named : si ∈ [shstrtabOf memory start, strtab, symtab]) :
    (sectionContent memory start si).toNat =
      start.toNat + sectionOffset memory start si := by
  have inside := (file.contents_inside si named).2
  rw [sectionOffset] at inside ⊢
  exact toNat_advance start _ (by omega)

omit fits in
theorem KernelFile.symbolCount_eq :
    symbolCount memory start symtab = sectionSize memory start symtab / 24 := by
  rw [symbolCount, file.entsize, BitVec.toNat_udiv]
  rfl

theorem KernelFile.toNat_symbolAt
    (inTable : index < symbolCount memory start symtab) :
    (symbolAt memory start symtab index).toNat =
      start.toNat + (sectionOffset memory start symtab + 24 * index) := by
  have inside := (file.contents_inside symtab (by simp)).2
  rw [file.symbolCount_eq] at inTable
  exact toNat_element (file.toNat_sectionContent fits (by simp)) (by omega)

include same

theorem KernelFile.eShoff_same :
    eShoff memory' start = eShoff memory start := by
  have header := file.header_inside
  rw [eShoff, elf64Xword, same.readLE_eq (Nat.add_zero _).symm (by omega)
    fun cell lower upper => Or.inl (mem_fieldCells (by decide) lower upper)]
  rfl

theorem KernelFile.half_same (listed : (offset, 2) ∈ headerFields) :
    elf64Half memory' start offset = elf64Half memory start offset := by
  have header := file.header_inside
  have field := headerFields_le _ listed
  rw [elf64Half, same.readLE_eq (Nat.add_zero _).symm (by omega)
    fun cell lower upper => Or.inl (mem_fieldCells listed lower upper)]
  rfl

theorem KernelFile.sectionHeader_same :
    sectionHeader memory' start si = sectionHeader memory start si := by
  rw [sectionHeader, file.eShoff_same fits same, sectionHeader]

/-- A field of a section header. -/
theorem KernelFile.section_same (inTable : si < (eShnum memory start).toNat)
    (field : offset + count ≤ 64) :
    readLE memory' (sectionHeader memory start si +
        BitVec.ofNat 32 offset).toNat count =
      readLE memory (sectionHeader memory start si +
        BitVec.ofNat 32 offset).toNat count := by
  have inside := file.sections_inside
  refine same.readLE_eq (file.toNat_sectionHeader fits inTable) (by omega)
    fun cell lower upper => Or.inr (Or.inl ?_)
  rw [mem_cells]
  omega

theorem KernelFile.sectionContent_same
    (inTable : si < (eShnum memory start).toNat) :
    sectionContent memory' start si = sectionContent memory start si := by
  rw [sectionContent, file.sectionHeader_same fits same, shOffset, elf64Xword,
    file.section_same fits same inTable (by decide)]
  rfl

theorem KernelFile.symbolCount_same :
    symbolCount memory' start symtab = symbolCount memory start symtab := by
  have inTable := (file.contents_inside symtab (by simp)).1
  rw [symbolCount, file.sectionHeader_same fits same, shSize, elf64Xword,
    file.section_same fits same inTable (by decide), shEntsize, elf64Xword,
    file.section_same fits same inTable (by decide)]
  rfl

theorem KernelFile.symbolAt_same :
    symbolAt memory' start symtab index = symbolAt memory start symtab index := by
  rw [symbolAt, file.sectionContent_same fits same
    (file.contents_inside symtab (by simp)).1, symbolAt]

/-- A field of a symbol. -/
theorem KernelFile.symbol_same
    (inTable : index < symbolCount memory start symtab)
    (field : offset + count ≤ 24) :
    readLE memory' (symbolAt memory start symtab index +
        BitVec.ofNat 32 offset).toNat count =
      readLE memory (symbolAt memory start symtab index +
        BitVec.ofNat 32 offset).toNat count := by
  have inside := (file.contents_inside symtab (by simp)).2
  have place := file.toNat_symbolAt fits inTable
  rw [file.symbolCount_eq] at inTable
  refine same.readLE_eq place (by omega)
    fun cell lower upper => Or.inr (Or.inr ⟨symtab, by simp, ?_⟩)
  rw [mem_cells]
  omega

/-- A comparison with a string of one of the string tables. -/
theorem KernelFile.strcmpIsZero_same {text : String} {name : BitVec 32}
    (named : si ∈ [shstrtabOf memory start, strtab])
    (noNul : 0 ∉ literal text)
    (string : HasString memory (sectionContent memory start si)
      (sectionSize memory start si) name) :
    strcmpIsZero memory' (literal text)
        (sectionContent memory start si + name) =
      strcmpIsZero memory (literal text)
        (sectionContent memory start si + name) := by
  have member : si ∈ [shstrtabOf memory start, strtab, symtab] := by
    simp only [List.mem_cons, List.not_mem_nil, or_false] at named ⊢
    exact named.elim Or.inl fun equal => Or.inr (Or.inl equal)
  have inside := (file.contents_inside si member).2
  have content := file.toNat_sectionContent fits member
  obtain ⟨length, inTable, terminated⟩ := string
  have place : (sectionContent memory start si + name).toNat =
      start.toNat + (sectionOffset memory start si + name.toNat) := by
    rw [BitVec.toNat_add, content]
    omega
  refine @strcmpIsZero_congr memory memory' _ _ length noNul (by omega) ?_ ?_
  · rw [place, ← Nat.add_assoc, ← content]
    exact terminated
  · intro cell lower upper
    rw [place] at lower upper
    obtain ⟨position, rfl⟩ : ∃ position, cell = start.toNat + position :=
      ⟨cell - start.toNat, by omega⟩
    refine same position (Or.inr (Or.inr ⟨si, member, ?_⟩))
    rw [mem_cells]
    omega

end Same

section Found

variable {memory memory' : Memory} {start : Pointer}
  {fileSize strtab symtab index : Nat} {text : String} {value pages size pt : Word}
  (file : KernelFile memory start fileSize strtab symtab)
  (fits : start.toNat + fileSize < 2 ^ 32)
  (same : SameTables memory memory' start strtab symtab)
include file fits same

theorem KernelFile.defines_same (noNul : 0 ∉ literal text)
    (defines : Defines memory start strtab symtab text value) :
    Defines memory' start strtab symtab text value := by
  obtain ⟨index, positive, inTable, valueEq, names⟩ := defines.unique
  refine ⟨index, positive, ?_, ?_, ?_⟩
  · rw [file.symbolCount_same fits same]
    exact inTable
  · rw [file.symbolAt_same fits same, stValue, elf64Xword,
      file.symbol_same fits same inTable (by decide)]
    exact valueEq
  · intro other otherPositive otherInTable
    rw [file.symbolCount_same fits same] at otherInTable
    rw [← names other otherPositive otherInTable, symbolName,
      file.symbolAt_same fits same,
      file.sectionContent_same fits same
        (file.contents_inside strtab (by simp)).1,
      stName, elf64Word, file.symbol_same fits same otherInTable (by decide)]
    exact iff_of_eq (congrArg (· = true) (file.strcmpIsZero_same fits same
      (by simp) noNul (file.symbol_names other otherPositive otherInTable)))

/-- The name of a section. -/
theorem KernelFile.sectionName_same (noNul : 0 ∉ literal text)
    (inTable : index < (eShnum memory start).toNat) :
    strcmpIsZero memory' (literal text) (sectionName memory' start index) =
      strcmpIsZero memory (literal text) (sectionName memory start index) := by
  have shstrndx : shstrtabOf memory' start = shstrtabOf memory start := by
    rw [shstrtabOf, eShstrndx, file.half_same fits same (by decide)]
    rfl
  rw [sectionName, shstrndx, file.sectionHeader_same fits same,
    file.sectionContent_same fits same (file.contents_inside _ (by simp)).1,
    shName, elf64Word, file.section_same fits same inTable (by decide)]
  exact file.strcmpIsZero_same fits same (by simp) noNul
    (file.section_names index inTable)

/-- With the same tables, the search comes to the same. -/
theorem KernelFile.finds
    (pagesDefined :
      Defines memory start strtab symtab "_phys_window_pages" pages)
    (sizeDefined :
      Defines memory start strtab symtab "_phys_window_size" size)
    (ptDefined : Defines memory start strtab symtab "_phys_window_pt" pt) :
    Finds memory' start strtab symtab pages size pt := by
  have shnum : eShnum memory' start = eShnum memory start := by
    rw [eShnum, file.half_same fits same (by decide), eShnum]
  have nonNull : ∀ si ∈ [shstrtabOf memory start, strtab, symtab],
      sectionContent memory' start si ≠ 0#32 := by
    intro si named zero
    rw [file.sectionContent_same fits same (file.contents_inside si named).1]
      at zero
    have content := file.toNat_sectionContent fits named
    have startNonzero := file.nonNull
    rw [zero] at content
    refine startNonzero (BitVec.eq_of_toNat_eq ?_)
    have zeroEq : (0#32).toNat = 0 := rfl
    omega
  have symtabLt := (file.contents_inside symtab (by simp)).1
  refine ⟨?_, ?_, ?_, ?_, nonNull strtab (by simp), nonNull symtab (by simp),
    ?_, ?_, file.defines_same fits same (by decide) pagesDefined,
    file.defines_same fits same (by decide) sizeDefined,
    file.defines_same fits same (by decide) ptDefined⟩
  · rw [shnum]
    exact (file.contents_inside strtab (by simp)).1
  · rw [shnum]
    exact symtabLt
  · intro si inTable
    rw [shnum] at inTable
    rw [file.sectionName_same fits same (by decide) inTable]
    exact file.strtab_iff si inTable
  · intro si inTable
    rw [shnum] at inTable
    rw [file.sectionName_same fits same (by decide) inTable]
    exact file.symtab_iff si inTable
  · rw [file.sectionHeader_same fits same, shEntsize, elf64Xword,
      file.section_same fits same symtabLt (by decide)]
    have entsize := file.entsize
    rw [shEntsize, elf64Xword] at entsize
    rw [entsize]
    decide
  · have inside := (file.contents_inside symtab (by simp)).2
    rw [file.symbolCount_same fits same, file.symbolCount_eq]
    omega

end Found

end BeaverOS.Elf64
