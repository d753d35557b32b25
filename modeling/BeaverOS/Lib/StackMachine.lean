import BeaverOS.Lib.ByteMemory

/-!
# Machines with a stack in memory

A machine has registers of 64 bits, one of which points to the top of a stack
that grows down, and straight-line code. The rules speak of the words from the
top of the stack on: code that pushes registers puts their values there, and
code that pops them in the opposite order takes the values back.
-/

namespace BeaverOS.StackMachine

open BeaverOS.ByteMemory

/-! ## Words in memory -/

section Words

variable {memory memory' : Memory} {address place : BitVec 64} {word : BitVec 64}
  {words : List (BitVec 64)}

/-- The words from `address` on. Addresses wrap around. -/
def HoldsAt (memory : Memory) : BitVec 64 → List (BitVec 64) → Prop
  | _, [] => True
  | address, word :: words =>
      readWord memory address.toNat = word ∧ HoldsAt memory (address + 8#64) words

/-- Word `index` from `address` on. -/
def wordAt (memory : Memory) (address : BitVec 64) (index : Nat) : BitVec 64 :=
  readWord memory (address + BitVec.ofNat 64 (8 * index)).toNat

theorem wordAt_succ (index : Nat) :
    wordAt memory address (index + 1) = wordAt memory (address + 8#64) index := by
  have place : address + BitVec.ofNat 64 (8 * (index + 1)) =
      address + 8#64 + BitVec.ofNat 64 (8 * index) := by
    rw [BitVec.add_assoc, show 8#64 = BitVec.ofNat 64 8 from rfl,
      ← BitVec.ofNat_add, Nat.mul_succ, Nat.add_comm]
  rw [wordAt, wordAt, place]

theorem wordAt_zero : wordAt memory address 0 = readWord memory address.toNat := by
  rw [wordAt, Nat.mul_zero, BitVec.add_zero]

theorem HoldsAt.wordAt_eq (holds : HoldsAt memory address words) {index : Nat}
    (found : words[index]? = some word) :
    wordAt memory address index = word := by
  induction words generalizing address index with
  | nil => cases found
  | cons first rest inductionHypothesis =>
      cases index with
      | zero =>
          cases found
          rw [wordAt_zero]
          exact holds.1
      | succ index =>
          rw [wordAt_succ]
          exact inductionHypothesis holds.2 found

theorem holdsAt_wordAt (memory : Memory) (address : BitVec 64) (count : Nat) :
    HoldsAt memory address
      ((List.range count).map (wordAt memory address)) := by
  induction count generalizing address with
  | zero => trivial
  | succ count inductionHypothesis =>
      rw [List.range_succ_eq_map, List.map_cons, List.map_map]
      constructor
      · rw [wordAt_zero]
      · have shifted : wordAt memory address ∘ Nat.succ =
            wordAt memory (address + 8#64) := by
          funext index
          exact wordAt_succ index
        rw [shifted]
        exact inductionHypothesis (address + 8#64)

/-- A change of a word outside of the words does not change them. -/
theorem HoldsAt.agreeOff (holds : HoldsAt memory address words)
    (aligned : address.toNat % 8 = 0) (placeAligned : place.toNat % 8 = 0)
    (agree : AgreeOff (cells place.toNat 8) memory' memory)
    (outside : 8 * words.length ≤ (place - address).toNat) :
    HoldsAt memory' address words := by
  induction words generalizing address with
  | nil => trivial
  | cons first rest inductionHypothesis =>
      rw [List.length_cons] at outside
      have bound := address.isLt
      have placeBound := place.isLt
      rw [BitVec.toNat_sub] at outside
      constructor
      · rw [agree.readWord_eq (cells_disjoint (by omega))]
        exact holds.1
      · refine inductionHypothesis holds.2 ?_ ?_
        · rw [BitVec.toNat_add]
          simp only [BitVec.toNat_ofNat]
          omega
        · rw [BitVec.toNat_sub, BitVec.toNat_add]
          simp only [BitVec.toNat_ofNat]
          omega

/-- A store to the high half of the first word. -/
theorem HoldsAt.writeHigh (holds : HoldsAt memory address (word :: words))
    (aligned : address.toNat % 8 = 0) (short : words.length < 2 ^ 60)
    (value : BitVec 32) :
    HoldsAt (writeLE memory (address + 4#64).toNat 4 value.toNat) address
      ((value ++ word.setWidth 32 : BitVec 64) :: words) := by
  have bound := address.isLt
  have high : (address + 4#64).toNat = address.toNat + 4 := by
    rw [BitVec.toNat_add]
    simp only [BitVec.toNat_ofNat]
    omega
  rw [high]
  constructor
  · rw [readWord_writeHigh, holds.1]
  · refine holds.2.agreeOff ?_ aligned
      ((agreeOff_writeLE memory _ 4 value.toNat).mono ?_) ?_
    · rw [BitVec.toNat_add]
      simp only [BitVec.toNat_ofNat]
      omega
    · intro cell inside
      rw [mem_cells] at inside ⊢
      omega
    · rw [BitVec.toNat_sub, BitVec.toNat_add]
      simp only [BitVec.toNat_ofNat]
      omega

end Words

/-! ## Machines -/

/-- Registers and memory. -/
structure Machine (Register : Type) where
  registers : Register → BitVec 64
  memory : Memory

/-- The instructions of straight-line code. -/
inductive Instruction (Register : Type) where
  | pushImm (value : BitVec 64)
  | push (source : Register)
  | pop (target : Register)
  | movImm (value : BitVec 64) (target : Register)
  | mov (source target : Register)
  /-- Stores the low half of `source` at `offset(base)`. -/
  | movl (source : Register) (offset : BitVec 64) (base : Register)
  /-- Loads the word at `(base, index, 8)`. -/
  | load (base index target : Register)
  | addImm (value : BitVec 64) (target : Register)

section Execution

variable {Register : Type} [DecidableEq Register]

def Machine.set (machine : Machine Register) (target : Register)
    (value : BitVec 64) : Machine Register :=
  { machine with registers := Function.update machine.registers target value }

variable (sp : Register)

/-- A word is pushed on the stack. -/
def pushWord (machine : Machine Register) (value : BitVec 64) :
    Machine Register :=
  let top := machine.registers sp - 8#64
  { registers := Function.update machine.registers sp top
    memory := writeWord machine.memory top.toNat value }

/-- The word on top of the stack is popped into `target`. -/
def popWord (machine : Machine Register) (target : Register) :
    Machine Register :=
  let top := machine.registers sp
  (machine.set sp (top + 8#64)).set target
    (readWord machine.memory top.toNat)

def execute (machine : Machine Register) :
    Instruction Register → Machine Register
  | .pushImm value => pushWord sp machine value
  | .push source => pushWord sp machine (machine.registers source)
  | .pop target => popWord sp machine target
  | .movImm value target => machine.set target value
  | .mov source target => machine.set target (machine.registers source)
  | .movl source offset base =>
      { machine with
        memory := writeLE machine.memory
          (machine.registers base + offset).toNat 4
          ((machine.registers source).setWidth 32).toNat }
  | .load base index target =>
      machine.set target (readWord machine.memory
        (machine.registers base + 8#64 * machine.registers index).toNat)
  | .addImm value target =>
      machine.set target (machine.registers target + value)

/-- The instructions one after another. -/
def executeAll (machine : Machine Register)
    (code : List (Instruction Register)) : Machine Register :=
  code.foldl (execute sp) machine

variable {sp} {machine : Machine Register} {value : BitVec 64}
  {words : List (BitVec 64)} {register target : Register}

theorem executeAll_cons (instruction : Instruction Register)
    (code : List (Instruction Register)) :
    executeAll sp machine (instruction :: code) =
      executeAll sp (execute sp machine instruction) code :=
  rfl

theorem executeAll_append (first second : List (Instruction Register)) :
    executeAll sp machine (first ++ second) =
      executeAll sp (executeAll sp machine first) second :=
  List.foldl_append

variable (sp machine) in
/-- The stack is aligned and has the words on its top. -/
structure Stack (words : List (BitVec 64)) : Prop where
  aligned : (machine.registers sp).toNat % 8 = 0
  holds : HoldsAt machine.memory (machine.registers sp) words

theorem Stack.pushWord (stack : Stack sp machine words)
    (short : words.length < 2 ^ 60) (value : BitVec 64) :
    Stack sp (pushWord sp machine value) (value :: words) := by
  have aligned := stack.aligned
  have bound := (machine.registers sp).isLt
  have top : (StackMachine.pushWord sp machine value).registers sp =
      machine.registers sp - 8#64 := Function.update_self _ _ _
  have topAligned : (machine.registers sp - 8#64).toNat % 8 = 0 := by
    rw [BitVec.toNat_sub]
    simp only [BitVec.toNat_ofNat]
    omega
  constructor
  · rw [top]
    exact topAligned
  · rw [top]
    constructor
    · exact readWord_writeWord_same _ _ _
    · rw [BitVec.sub_add_cancel]
      refine stack.holds.agreeOff aligned topAligned
        (agreeOff_writeWord _ _ _) ?_
      rw [BitVec.toNat_sub, BitVec.toNat_sub]
      simp only [BitVec.toNat_ofNat]
      omega

theorem pushWord_of_ne (different : register ≠ sp) :
    (pushWord sp machine value).registers register =
      machine.registers register :=
  Function.update_of_ne different _ _

theorem Stack.popWord (stack : Stack sp machine (value :: words))
    (different : target ≠ sp) : Stack sp (popWord sp machine target) words := by
  have aligned := stack.aligned
  have top : (StackMachine.popWord sp machine target).registers sp =
      machine.registers sp + 8#64 := by
    rw [StackMachine.popWord, Machine.set]
    exact (Function.update_of_ne different.symm _ _).trans
      (Function.update_self _ _ _)
  constructor
  · rw [top, BitVec.toNat_add]
    simp only [BitVec.toNat_ofNat]
    omega
  · rw [top]
    exact stack.holds.2

theorem Stack.popWord_target (stack : Stack sp machine (value :: words)) :
    (StackMachine.popWord sp machine target).registers target = value :=
  (Function.update_self _ _ _).trans stack.holds.1

theorem popWord_of_ne (notTarget : register ≠ target)
    (notTop : register ≠ sp) :
    (popWord sp machine target).registers register =
      machine.registers register :=
  (Function.update_of_ne notTarget _ _).trans
    (Function.update_of_ne notTop _ _)

theorem registers_set :
    (machine.set target value).registers register =
      if register = target then value else machine.registers register := by
  by_cases same : register = target
  · rw [if_pos same, same]
    exact Function.update_self _ _ _
  · rw [if_neg same]
    exact Function.update_of_ne same _ _

theorem Stack.set (stack : Stack sp machine words) (different : target ≠ sp) :
    Stack sp (machine.set target value) words := by
  have top : (machine.set target value).registers sp = machine.registers sp :=
    Function.update_of_ne different.symm _ _
  constructor
  · rw [top]
    exact stack.aligned
  · rw [top]
    exact stack.holds

/-- The high half of the top word is overwritten. -/
theorem Stack.movl {offset : BitVec 64} (stack : Stack sp machine
    (value :: words)) (isHigh : offset = 4#64)
    (short : words.length < 2 ^ 60) (source : Register) :
    Stack sp (execute sp machine (.movl source offset sp))
      (((machine.registers source).setWidth 32 ++ value.setWidth 32 :
        BitVec 64) :: words) := by
  subst isHigh
  exact ⟨stack.aligned, stack.holds.writeHigh stack.aligned short _⟩

/-! ### What pushes change -/

/-- The cells of the `count` words below `top`. -/
def belowCells (top : BitVec 64) (count : Nat) : Set Nat :=
  fun cell =>
    ∃ index, index < count ∧
      cell ∈ cells (top - BitVec.ofNat 64 (8 * (index + 1))).toNat 8

variable (sp machine) in
/-- Since the top of the stack was `top` in `memory`, `count` words have been
pushed, and nothing else has been stored. -/
structure Pushed (top : BitVec 64) (memory : Memory) (count : Nat) :
    Prop where
  sp_eq : machine.registers sp = top - BitVec.ofNat 64 (8 * count)
  agree : AgreeOff (belowCells top count) machine.memory memory

section Pushes

variable {top : BitVec 64} {memory : Memory} {count : Nat}

theorem belowCells_mono {fewer : Nat} (bound : fewer ≤ count) :
    belowCells top fewer ⊆ belowCells top count := by
  intro cell member
  obtain ⟨index, inside, isCell⟩ := member
  exact ⟨index, Nat.lt_of_lt_of_le inside bound, isCell⟩

omit [DecidableEq Register] in
theorem Pushed.next (pushed : Pushed sp machine top memory count) :
    machine.registers sp - 8#64 = top - BitVec.ofNat 64 (8 * (count + 1)) := by
  rw [pushed.sp_eq, BitVec.sub_sub, show 8#64 = BitVec.ofNat 64 8 from rfl,
    ← BitVec.ofNat_add, Nat.mul_succ]

theorem Pushed.pushWord (pushed : Pushed sp machine top memory count)
    (value : BitVec 64) :
    Pushed sp (pushWord sp machine value) top memory (count + 1) := by
  have next := pushed.next
  constructor
  · exact (Function.update_self _ _ _).trans next
  · refine AgreeOff.trans ?_ (pushed.agree.mono (belowCells_mono
      (Nat.le_succ count)))
    refine (agreeOff_writeWord _ _ _).mono fun cell inside => ?_
    rw [next] at inside
    exact ⟨count, Nat.lt_succ_self count, inside⟩

theorem Pushed.set (pushed : Pushed sp machine top memory count)
    (different : target ≠ sp) :
    Pushed sp (machine.set target value) top memory count :=
  ⟨(Function.update_of_ne different.symm _ _).trans pushed.sp_eq, pushed.agree⟩

theorem Pushed.movl {offset : BitVec 64}
    (pushed : Pushed sp machine top memory (count + 1))
    (aligned : (machine.registers sp).toNat % 8 = 0)
    (isHigh : offset = 4#64) (source : Register) :
    Pushed sp (execute sp machine (.movl source offset sp)) top memory
      (count + 1) := by
  subst isHigh
  refine ⟨pushed.sp_eq, AgreeOff.trans ?_ pushed.agree⟩
  refine (agreeOff_writeLE _ _ _ _).mono fun cell inside => ?_
  refine ⟨count, Nat.lt_succ_self count, ?_⟩
  have bound := (machine.registers sp).isLt
  have high : (machine.registers sp + 4#64).toNat =
      (machine.registers sp).toNat + 4 := by
    rw [BitVec.toNat_add]
    simp only [BitVec.toNat_ofNat]
    omega
  rw [← pushed.sp_eq]
  rw [mem_cells, high] at inside
  rw [mem_cells]
  omega

theorem Pushed.pushes (pushed : Pushed sp machine top memory count)
    (sources : List Register) :
    Pushed sp (executeAll sp machine (sources.map .push)) top memory
      (count + sources.length) := by
  induction sources generalizing machine count with
  | nil => exact pushed
  | cons source sources inductionHypothesis =>
      have next := inductionHypothesis
        (pushed.pushWord (machine.registers source))
      rw [List.length_cons, Nat.add_comm sources.length, ← Nat.add_assoc]
      exact next

omit [DecidableEq Register] in
/-- A word elsewhere is as before. -/
theorem Pushed.readWord {place : Nat}
    (pushed : Pushed sp machine top memory count)
    (apart : Disjoint (cells place 8) (belowCells top count)) :
    readWord machine.memory place = ByteMemory.readWord memory place :=
  pushed.agree.readWord_eq apart

end Pushes

/-! ### Blocks of pushes and pops -/

/-- Code that pushes registers changes no other register. -/
theorem pushes_registers {sources : List Register}
    (different : register ≠ sp) :
    (executeAll sp machine (sources.map .push)).registers register =
      machine.registers register := by
  induction sources generalizing machine with
  | nil => rfl
  | cons source sources inductionHypothesis =>
      rw [List.map_cons, executeAll_cons, inductionHypothesis]
      exact pushWord_of_ne different

/-- Their values are then on the stack, the last one on top. -/
theorem Stack.pushes (stack : Stack sp machine words)
    (sources : List Register) (notTop : sp ∉ sources)
    (short : words.length + sources.length < 2 ^ 60) :
    Stack sp (executeAll sp machine (sources.map .push))
      (sources.reverse.map machine.registers ++ words) := by
  induction sources generalizing machine words with
  | nil => exact stack
  | cons source sources inductionHypothesis =>
      rw [List.length_cons] at short
      have notSource : source ≠ sp := by
        rintro rfl
        exact notTop List.mem_cons_self
      have rest : sp ∉ sources := fun member =>
        notTop (List.mem_cons_of_mem _ member)
      have pushed := stack.pushWord (by omega) (machine.registers source)
      have done := inductionHypothesis pushed rest
        (by rw [List.length_cons]; omega)
      have same : sources.reverse.map
          (StackMachine.pushWord sp machine
            (machine.registers source)).registers =
          sources.reverse.map machine.registers := by
        refine List.map_congr_left fun other member => pushWord_of_ne ?_
        rintro rfl
        exact rest (List.mem_reverse.mp member)
      rw [same] at done
      rw [List.reverse_cons, List.map_append, List.append_assoc]
      exact done

/-- Code that pops the values of `values` into registers sets these and leaves
the others. -/
theorem Stack.pops {values : Register → BitVec 64} {targets : List Register}
    (stack : Stack sp machine (targets.map values ++ words))
    (notTop : sp ∉ targets) :
    Stack sp (executeAll sp machine (targets.map .pop)) words ∧
      ∀ register, register ≠ sp →
        (executeAll sp machine (targets.map .pop)).registers register =
          if register ∈ targets then values register
          else machine.registers register := by
  induction targets generalizing machine with
  | nil => exact ⟨stack, fun _ _ => rfl⟩
  | cons target targets inductionHypothesis =>
      have notTarget : target ≠ sp := by
        rintro rfl
        exact notTop List.mem_cons_self
      have rest : sp ∉ targets := fun member =>
        notTop (List.mem_cons_of_mem _ member)
      obtain ⟨left, registers⟩ :=
        inductionHypothesis (stack.popWord notTarget) rest
      refine ⟨left, fun register different => ?_⟩
      refine (registers register different).trans ?_
      by_cases later : register ∈ targets
      · rw [if_pos later, if_pos (List.mem_cons_of_mem _ later)]
      · rw [if_neg later]
        by_cases here : register = target
        · subst here
          rw [if_pos List.mem_cons_self]
          exact stack.popWord_target
        · rw [if_neg]
          · exact popWord_of_ne here different
          · intro member
            exact (List.mem_cons.mp member).elim here later

end Execution

end BeaverOS.StackMachine
