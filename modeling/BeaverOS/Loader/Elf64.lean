import BeaverOS.Lib.Loop
import BeaverOS.Loader.Paging

/-!
# Loading the kernel image

`loader/elf64.c`: the loader maps the segments of the kernel's ELF image, most
of them in place, looks up where the kernel wants its window into physical
memory, and maps that as well. All headers are read from the image in memory,
which the segment loop changes while it runs.
-/

namespace BeaverOS.Elf64

open BeaverOS.ByteMemory
open BeaverOS.Loop
open BeaverOS.Paging
open BeaverOS.Window
open BeaverOS.LoaderPaging

/-! ## Fields of the headers -/

section Fields

variable (memory : Memory)

def elf64Half (pointer : Pointer) (offset : Nat) : BitVec 16 :=
  BitVec.ofNat 16 (readLE memory (pointer + BitVec.ofNat 32 offset).toNat 2)

def elf64Word (pointer : Pointer) (offset : Nat) : BitVec 32 :=
  BitVec.ofNat 32 (readLE memory (pointer + BitVec.ofNat 32 offset).toNat 4)

/-- `elf64_xword`, and also `elf64_addr` and `elf64_off`. -/
def elf64Xword (pointer : Pointer) (offset : Nat) : Word :=
  BitVec.ofNat 64 (readLE memory (pointer + BitVec.ofNat 32 offset).toNat 8)

def eIdent (ehdr : Pointer) (index : Nat) : BitVec 8 :=
  memory (ehdr + BitVec.ofNat 32 index).toNat

def eType (ehdr : Pointer) : BitVec 16 := elf64Half memory ehdr 16

def eEntry (ehdr : Pointer) : Word := elf64Xword memory ehdr 24

def ePhoff (ehdr : Pointer) : Word := elf64Xword memory ehdr 32

def eShoff (ehdr : Pointer) : Word := elf64Xword memory ehdr 40

def ePhnum (ehdr : Pointer) : BitVec 16 := elf64Half memory ehdr 56

def eShnum (ehdr : Pointer) : BitVec 16 := elf64Half memory ehdr 60

def eShstrndx (ehdr : Pointer) : BitVec 16 := elf64Half memory ehdr 62

def pType (phdr : Pointer) : BitVec 32 := elf64Word memory phdr 0

def pOffset (phdr : Pointer) : Word := elf64Xword memory phdr 8

def pVaddr (phdr : Pointer) : Word := elf64Xword memory phdr 16

def pFilesz (phdr : Pointer) : Word := elf64Xword memory phdr 32

def pMemsz (phdr : Pointer) : Word := elf64Xword memory phdr 40

def shName (shdr : Pointer) : BitVec 32 := elf64Word memory shdr 0

def shOffset (shdr : Pointer) : Word := elf64Xword memory shdr 24

def shSize (shdr : Pointer) : Word := elf64Xword memory shdr 32

def shEntsize (shdr : Pointer) : Word := elf64Xword memory shdr 56

def stName (sym : Pointer) : BitVec 32 := elf64Word memory sym 0

def stValue (sym : Pointer) : Word := elf64Xword memory sym 8

/-- `table[index]`, for entries of `size` bytes. -/
def element (table : Pointer) (size index : Nat) : Pointer :=
  table + BitVec.ofNat 32 (size * index)

/-- The 64-bit offset added to a pointer, which has 32 bits. -/
def advance (pointer : Pointer) (offset : Word) : Pointer :=
  pointer + offset.setWidth 32

/-- Whether `strcmp` of a literal, given by its bytes, and the string at
`pointer` is 0. -/
def strcmpIsZero : List (BitVec 8) → Pointer → Bool
  | [], pointer => memory pointer.toNat == 0
  | char :: literal, pointer =>
      memory pointer.toNat == char && strcmpIsZero literal (pointer + 1)

end Fields

def literal (text : String) : List (BitVec 8) :=
  text.toList.map fun char => BitVec.ofNat 8 char.toNat

def elfclass64 : BitVec 8 := 2

def elfdata2lsb : BitVec 8 := 1

def elfosabiSysv : BitVec 8 := 0

def etExec : BitVec 16 := 2

def ptLoad : BitVec 32 := 1

/-- The checks of the ELF header, with the message of the first that fails. -/
def refusal (memory : Memory) (ehdr : Pointer) : Option String :=
  if eIdent memory ehdr 0 ≠ 0x7f ∨ eIdent memory ehdr 1 ≠ 0x45 ∨
      eIdent memory ehdr 2 ≠ 0x4c ∨ eIdent memory ehdr 3 ≠ 0x46 then
    some "ELF identification incorrect\n"
  else if eIdent memory ehdr 4 ≠ elfclass64 ∨
      eIdent memory ehdr 5 ≠ elfdata2lsb then
    some "Expected 64 bit little endian ELF\n"
  else if eIdent memory ehdr 6 ≠ 1 then
    some "Expected ELF version 1\n"
  else if eIdent memory ehdr 7 ≠ elfosabiSysv ∨ eIdent memory ehdr 8 ≠ 0 then
    some "Expected System V ABI version 0\n"
  else if eType memory ehdr ≠ etExec then
    some "Expected executable\n"
  else
    none

/-! ## Segments -/

/-- `used_memory += PAGE_SIZE` past the end of the address space is undefined:
the allocations between two states must not wrap. -/
def allocating (state state' : Loader) : Except Halt Loader :=
  if state.usedMemory.toNat ≤ state'.usedMemory.toNat then .ok state'
  else .error .fault

/-- The page of a segment that starts at byte `i`: a page of the image, with
its end cleared where the file part ends, or a new one. -/
def segmentPage (start phdr : Pointer) (i : Word) (state : Loader) :
    Except Halt (Pointer × Loader) :=
  let page := advance (advance start (pOffset state.mem phdr)) i
  let filesz := pFilesz state.mem phdr
  if i < filesz then
    if filesz < i + 4096#64 then
      .ok (page, { state with
        mem := fill state.mem (page + (filesz - i).setWidth 32).toNat
          ((i + 4096#64 - filesz).setWidth 32).toNat 0 })
    else
      .ok (page, state)
  else do
    let (page, after) := newPhysZeroPage state
    let state ← allocating state after
    return (page, state)

/-- The body of the loop over the pages of a segment. -/
def loadPage (start phdr : Pointer) (i : Word) (state : Loader) :
    Except Halt Loader := do
  let (page, state) ← segmentPage start phdr i state
  let after ← mapPage state (pVaddr state.mem phdr + i) (page.setWidth 64)
    (pageRwBit ||| pageGBit)
  allocating state after

/-- The byte that round `k` of that loop starts at. -/
def pageStart (k : Nat) : Word := BitVec.ofNat 64 (4096 * k)

/-- The condition of that loop. -/
def MorePages (phdr : Pointer) (k : Nat) (state : Loader) : Prop :=
  pageStart k < pMemsz state.mem phdr

instance (phdr : Pointer) (k : Nat) (state : Loader) :
    Decidable (MorePages phdr k state) :=
  inferInstanceAs (Decidable (_ < _))

/-- The loop over the pages of a segment. Its counter has 64 bits: after
`2 ^ 52` rounds it starts again at 0, and the loop is taken not to end. -/
def loadPages (start phdr : Pointer) (state : Loader) : Except Halt Loader :=
  whileLoop (MorePages phdr)
    (fun k => loadPage start phdr (pageStart k)) .fault (2 ^ 52) 0 state

/-- The body of the loop over the program headers. -/
def loadSegment (start phdr : Pointer) (pi : Nat) (state : Loader) :
    Except Halt Loader :=
  if pType state.mem (element phdr 56 pi) = ptLoad then
    loadPages start (element phdr 56 pi) state
  else
    .ok state

/-- The condition of that loop. -/
def MoreSegments (start : Pointer) (pi : Nat) (state : Loader) : Prop :=
  pi < (ePhnum state.mem start).toNat

instance (start : Pointer) (pi : Nat) (state : Loader) :
    Decidable (MoreSegments start pi state) :=
  inferInstanceAs (Decidable (_ < _))

/-- The loop over the program headers, whose counter has 16 bits. -/
def loadSegments (start : Pointer) (state : Loader) : Except Halt Loader :=
  whileLoop (MoreSegments start)
    (loadSegment start (advance start (ePhoff state.mem start))) .fault
    (2 ^ 16) 0 state

/-! ## Symbols -/

/-- What the loop over the section headers looks for. -/
structure Sections where
  strtab : Pointer
  symtab : Pointer
  symtabSize : BitVec 32

/-- The body of the loop over the section headers. The 64-bit division does
not end on a zero divisor. -/
def readSection (memory : Memory) (start shdr shstr : Pointer) (si : Nat)
    (found : Sections) : Except Halt Sections :=
  let header := element shdr 64 si
  let name := shstr + shName memory header
  let content := advance start (shOffset memory header)
  let found :=
    if strcmpIsZero memory (literal ".strtab") name then
      { found with strtab := content }
    else
      found
  if strcmpIsZero memory (literal ".symtab") name then
    if shEntsize memory header = 0#64 then
      .error .fault
    else
      .ok { found with
        symtab := content
        symtabSize :=
          (shSize memory header / shEntsize memory header).setWidth 32 }
  else
    .ok found

/-- The loop over the section headers. -/
def readSections (memory : Memory) (start : Pointer) :
    Except Halt Sections :=
  let shdr := advance start (eShoff memory start)
  let shstr := advance start
    (shOffset memory (element shdr 64 (eShstrndx memory start).toNat))
  forLoop 0 (eShnum memory start).toNat (readSection memory start shdr shstr)
    ⟨0, 0, 0⟩

/-- Where the kernel wants its window. -/
structure WindowSymbols where
  physWindowPages : Word
  physWindowSize : BitVec 32
  physWindowPt : Word
  deriving DecidableEq

/-- The body of the loop over the symbols. -/
def readSymbol (memory : Memory) (found : Sections) (symbols : WindowSymbols)
    (si : Nat) : WindowSymbols :=
  let sym := element found.symtab 24 si
  let name := found.strtab + stName memory sym
  let symbols :=
    if strcmpIsZero memory (literal "_phys_window_size") name then
      { symbols with physWindowSize := (stValue memory sym).setWidth 32 }
    else
      symbols
  let symbols :=
    if strcmpIsZero memory (literal "_phys_window_pages") name then
      { symbols with physWindowPages := stValue memory sym }
    else
      symbols
  if strcmpIsZero memory (literal "_phys_window_pt") name then
    { symbols with physWindowPt := stValue memory sym }
  else
    symbols

/-- The loop over the symbols, which skips the first. -/
def readSymbols (memory : Memory) (found : Sections) : WindowSymbols :=
  (List.range' 1 (found.symtabSize.toNat - 1)).foldl
    (readSymbol memory found) ⟨0, 0, 0⟩

/-- The part of `load_kernel` between the segments and the window: the symbols,
or the message of the first check that fails. -/
def findWindow (memory : Memory) (start : Pointer) :
    Except Halt (Except String WindowSymbols) := do
  let found ← readSections memory start
  if found.strtab = 0 then
    return .error ".strtab not found\n"
  else if found.symtab = 0 then
    return .error ".symtab not found\n"
  else
    let symbols := readSymbols memory found
    if symbols.physWindowPages = 0 then
      return .error "_phys_window_pages not found\n"
    else if symbols.physWindowSize = 0 then
      return .error "_phys_window_size not found\n"
    else if symbols.physWindowPt = 0 then
      return .error "_phys_window_pt not found\n"
    else
      return .ok symbols

/-! ## The window -/

/-- `phys_window_pages + (wi << 12)`. -/
def windowPage (symbols : WindowSymbols) (wi : Nat) : Word :=
  symbols.physWindowPages + ((BitVec.ofNat 32 wi) <<< 12).setWidth 64

/-- The body of the loop over the window pages. -/
def mapWindowPage (symbols : WindowSymbols) (wi : Nat) (state : Loader) :
    Except Halt Loader := do
  let after ← mapPage state (windowPage symbols wi) 0#64
    (pageRwBit ||| pageGBit)
  allocating state after

/-- The loop over the window pages. -/
def mapWindowPages (symbols : WindowSymbols) (state : Loader) :
    Except Halt Loader :=
  forLoop 0 symbols.physWindowSize.toNat (mapWindowPage symbols) state

/-- The last page that was allocated is mapped at `_phys_window_pt`. -/
def mapWindowPt (symbols : WindowSymbols) (state : Loader) :
    Except Halt Loader := do
  let after ← mapPage state symbols.physWindowPt
    ((state.usedMemory - 0x1000#32).setWidth 64) (pageRwBit ||| pageGBit)
  allocating state after

/-! ## The whole function -/

/-- What `load_kernel` returns: true with `*entry`, or false after it printed
a message. -/
inductive Verdict where
  | loaded (entry : Word)
  | refused (message : String)
  deriving DecidableEq

/-- `load_kernel`. -/
def loadKernel (start : Pointer) (state : Loader) :
    Except Halt (Verdict × Loader) :=
  match refusal state.mem start with
  | some message => .ok (.refused message, state)
  | none => do
      let entry := eEntry state.mem start
      let state ← loadSegments start state
      match ← findWindow state.mem start with
      | .error message => return (.refused message, state)
      | .ok symbols =>
          let state ← mapWindowPages symbols state
          let state ← mapWindowPt symbols state
          return (.loaded entry, state)

/-! ## The stages of a call that returns true -/

section Stages

variable {state state' : Loader} {start phdr : Pointer} {entry : Word}

theorem allocating_eq_ok {after : Loader}
    (returned : allocating state after = .ok state') :
    after = state' ∧ state.usedMemory.toNat ≤ state'.usedMemory.toNat := by
  rw [allocating] at returned
  split at returned
  · cases returned
    exact ⟨rfl, ‹_›⟩
  · cases returned

/-- A call that returns true has loaded the segments and found the symbols. -/
theorem symbols_of_loadKernel
    (returned : loadKernel start state = .ok (.loaded entry, state')) :
    ∃ loaded, loadSegments start state = .ok loaded ∧
      ∃ symbols, findWindow loaded.mem start = .ok (.ok symbols) := by
  cases refused : refusal state.mem start with
  | some message =>
      simp only [loadKernel, refused] at returned
      cases returned
  | none =>
      simp only [loadKernel, refused] at returned
      obtain ⟨loaded, segments, returned⟩ := ok_of_bind returned
      obtain ⟨answer, found, returned⟩ := ok_of_bind returned
      cases answer with
      | error message => exact nomatch returned
      | ok symbols => exact ⟨loaded, segments, symbols, found⟩

/-- Then it maps the window. -/
theorem window_of_loadKernel {loaded : Loader} {symbols : WindowSymbols}
    (returned : loadKernel start state = .ok (.loaded entry, state'))
    (segments : loadSegments start state = .ok loaded)
    (found : findWindow loaded.mem start = .ok (.ok symbols)) :
    ∃ windowed, mapWindowPages symbols loaded = .ok windowed ∧
      mapWindowPt symbols windowed = .ok state' := by
  cases refused : refusal state.mem start with
  | some message =>
      simp only [loadKernel, refused] at returned
      cases returned
  | none =>
      simp only [loadKernel, refused] at returned
      obtain ⟨first, same, returned⟩ := ok_of_bind returned
      rw [segments] at same
      cases same
      obtain ⟨answer, again, returned⟩ := ok_of_bind returned
      rw [found] at again
      cases again
      obtain ⟨windowed, window, returned⟩ := ok_of_bind returned
      obtain ⟨last, pt, returned⟩ := ok_of_bind returned
      have same := (Prod.mk.inj (Except.ok.inj returned)).2
      subst same
      exact ⟨windowed, window, pt⟩

end Stages

end BeaverOS.Elf64
