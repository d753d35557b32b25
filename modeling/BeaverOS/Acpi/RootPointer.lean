import BeaverOS.CString.Compare
import BeaverOS.Lib.ByteMemory
import BeaverOS.Lib.Loop

/-!
# The root pointer

`find_sdt` of `acpi.c` looks through the first mebibyte for the structure that
holds the address of the root table. For revision 2 it sums 33 bytes, up to the
second checksum itself, where the structure has 36. The two sums differ on a
structure whose last bytes are not zero, and the sum of a structure at the very
end leaves the mebibyte.
-/

namespace BeaverOS.Acpi

open BeaverOS.ByteMemory
open BeaverOS.CString
open BeaverOS.Loop

/-! ## The code -/

/-- The size of the memory mapped at `_first_mb`. -/
def mebibyte : Nat := 0x100000

/-- A byte that is not in the first mebibyte is read. -/
inductive Stray where
  | outside (offset : Nat)
  deriving DecidableEq

/-- The variables `sdt` and `xsdt`. -/
structure Root where
  sdt : BitVec 64
  xsdt : BitVec 8
  deriving DecidableEq

/-- What `find_sdt` leaves behind: the value returned, the variables, and the
offset of the structure that they are taken from. -/
structure Search where
  returned : BitVec 8
  root : Root
  selected : Option Nat
  deriving DecidableEq

/-- `"RSD PTR "`. -/
def rsdPtr (i : Nat) : BitVec 8 :=
  [0x52#8, 0x53#8, 0x44#8, 0x20#8, 0x50#8, 0x54#8, 0x52#8, 0x20#8].getD i 0

section Code

variable (firstMb : Memory)

/-- `first_mb[offset]`. -/
def readByte (offset : Nat) : Except Stray (BitVec 8) :=
  if offset < mebibyte then .ok (firstMb offset) else .error (.outside offset)

/-- A little-endian field of the structure. -/
def readField (offset : Nat) : Nat → Except Stray Nat
  | 0 => .ok 0
  | count + 1 => do
      let byte ← readByte firstMb offset
      let rest ← readField (offset + 1) count
      return byte.toNat + 256 * rest

/-- `for (uint8_t j = 0; j < count; ++j) sum += first_mb[i + j];`. -/
def sumBytes (i count : Nat) : Except Stray (BitVec 8) :=
  forLoop 0 count (fun j sum => do
    let byte ← readByte firstMb (i + j)
    return sum + byte) 0

/-- The test of `rsdpd->version == 2`. -/
def probeExtended (i : Nat) (version : BitVec 8) :
    Except Stray (Option Root) :=
  if version = 2 then do
    let sum2 ← sumBytes firstMb i 33
    if sum2 = 0 then
      let xsdtAddress ← readField firstMb (i + 24) 8
      return some ⟨BitVec.ofNat 64 xsdtAddress, 1⟩
    else return none
  else return none

/-- A round of the loop, which returns or goes on. -/
def probe (i : Nat) : Except Stray (Option Root) := do
  let order ← strncmp (fun k => readByte firstMb (i + k))
    (fun k => .ok (rsdPtr k)) 8
  if order = 0 then
    let sum ← sumBytes firstMb i 20
    if sum = 0 then
      let version ← readByte firstMb (i + 15)
      match ← probeExtended firstMb i version with
      | some root => return some root
      | none =>
          if version = 0 then
            let rsdtAddress ← readField firstMb (i + 16) 4
            return some ⟨BitVec.ofNat 64 rsdtAddress, 0⟩
          else return none
    else return none
  else return none

/-- The loop of `find_sdt` at offset `i`, with the rounds that are left. -/
def findSdtFrom (root : Root) (i : Nat) : Nat → Except Stray Search
  | 0 => .ok ⟨0, root, none⟩
  | rounds + 1 => do
      match ← probe firstMb i with
      | some found => return ⟨1, found, some i⟩
      | none => findSdtFrom root (i + 16) rounds

/-- `find_sdt`. -/
def findSdt (root : Root) : Except Stray Search :=
  findSdtFrom firstMb root 0 ((mebibyte - 16) / 16)

end Code

/-! ## Structures -/

/-- The sum of `count` bytes, modulo 256. -/
def byteSum (memory : Memory) (i : Nat) : Nat → BitVec 8
  | 0 => 0
  | count + 1 => byteSum memory i count + memory (i + count)

/-- The signature and the first checksum are right. -/
structure Candidate (memory : Memory) (i : Nat) : Prop where
  signature : ∀ k, k < 8 → memory (i + k) = rsdPtr k
  sum : byteSum memory i 20 = 0

/-- The revision of a structure. -/
def revision (memory : Memory) (i : Nat) : BitVec 8 := memory (i + 15)

/-- A 16-byte-aligned offset below the end of the search. -/
structure Offset (i : Nat) : Prop where
  aligned : i % 16 = 0
  below : i < mebibyte - 16

/-- A complete structure of revision 0, or of revision 2 inside the
mebibyte. -/
structure Complete (memory : Memory) (i : Nat) : Prop where
  offset : Offset i
  candidate : Candidate memory i
  whole : revision memory i = 0 ∨
    (revision memory i = 2 ∧ i + 36 ≤ mebibyte ∧ byteSum memory i 36 = 0)

/-- The address that a structure holds. -/
def rootAt (memory : Memory) (i : Nat) : Root :=
  if revision memory i = 2 then
    ⟨BitVec.ofNat 64 (readLE memory (i + 24) 8), 1⟩
  else ⟨BitVec.ofNat 64 (readLE memory (i + 16) 4), 0⟩

/-- The search inside the mebibyte finds the first complete structure. -/
def Discovers (memory : Memory) (root : Root)
    (run : Except Stray Search) : Prop :=
  (∃ i, Complete memory i ∧ (∀ j, j < i → ¬ Complete memory j) ∧
    run = .ok ⟨1, rootAt memory i, some i⟩) ∨
  ((∀ i, ¬ Complete memory i) ∧ run = .ok ⟨0, root, none⟩)

/-- The test that the code makes: 33 bytes are summed. -/
structure Accepted (memory : Memory) (i : Nat) : Prop where
  offset : Offset i
  candidate : Candidate memory i
  summed : revision memory i = 0 ∨
    (revision memory i = 2 ∧ byteSum memory i 33 = 0)

/-- A structure of revision 2 lies inside the mebibyte, and its last three
bytes do not change whether its sum is zero. -/
def Plain (memory : Memory) (i : Nat) : Prop :=
  Candidate memory i → revision memory i = 2 →
    i + 36 ≤ mebibyte ∧
      (byteSum memory i 33 = 0 ↔ byteSum memory i 36 = 0)

/-! ## One round -/

section Round

variable {memory : Memory} {root : Root} {i count : Nat}

theorem readByte_ok (inside : i < mebibyte) :
    readByte memory i = .ok (memory i) :=
  if_pos inside

theorem inside_of_readByte {byte : BitVec 8}
    (returned : readByte memory i = .ok byte) : i < mebibyte := by
  rw [readByte] at returned
  split at returned
  · assumption
  · cases returned

theorem readField_ok (inside : i + count ≤ mebibyte) :
    readField memory i count = .ok (readLE memory i count) := by
  induction count generalizing i with
  | zero => rfl
  | succ count inductionHypothesis =>
      rw [readField, readByte_ok (by omega), inductionHypothesis (by omega),
        readLE]
      rfl

theorem sumBytes_ok (inside : i + count ≤ mebibyte) :
    sumBytes memory i count = .ok (byteSum memory i count) := by
  refine forLoop_states (byteSum memory i) (Nat.zero_le count) ?_
  intro j _ before
  rw [readByte_ok (by omega)]
  rfl

/-- A sum that is returned has read inside the mebibyte. -/
theorem inside_of_sumBytes {sum : BitVec 8} (start : i ≤ mebibyte)
    (returned : sumBytes memory i count = .ok sum) : i + count ≤ mebibyte := by
  refine forLoop_invariant (fun j _ => i + j ≤ mebibyte) (Nat.zero_le count)
    start ?_ returned
  intro j sum sum' _ _ _ round
  obtain ⟨byte, read, _⟩ := ok_of_bind round
  exact inside_of_readByte read

theorem Offset.inside (offset : Offset i) : i + 32 ≤ mebibyte := by
  have aligned := offset.aligned
  have below := offset.below
  simp only [mebibyte] at *
  omega

theorem rsdPtr_nonzero : ∀ k, k < 8 → rsdPtr k ≠ 0 := by
  decide

/-- The signature is compared as a text of eight characters. -/
theorem strncmp_signature (offset : Offset i) :
    ∃ order, strncmp (fun k => readByte memory (i + k))
        (fun k => (.ok (rsdPtr k) : Except Stray (BitVec 8))) 8 = .ok order ∧
      (order = 0 ↔ ∀ k, k < 8 → memory (i + k) = rsdPtr k) := by
  have inside := offset.inside
  obtain ⟨order, returned, decides⟩ :=
    @strncmp_ok Stray (fun k => memory (i + k)) rsdPtr 8
      (fun k => readByte memory (i + k)) (fun k => .ok (rsdPtr k))
      (fun k before => readByte_ok (by omega)) (fun k _ => rfl)
  exact ⟨order, returned,
    decides.trans (sameText_iff rsdPtr_nonzero)⟩

theorem probe_of_not_candidate (offset : Offset i)
    (other : ¬ Candidate memory i) : probe memory i = .ok none := by
  have inside := offset.inside
  obtain ⟨order, compared, decides⟩ := @strncmp_signature memory i offset
  rw [probe, compared]
  change (if order = 0 then _ else _) = _
  by_cases same : order = 0
  · rw [if_pos same, sumBytes_ok (by omega)]
    change (if byteSum memory i 20 = 0 then _ else _) = _
    rw [if_neg fun sum => other ⟨decides.mp same, sum⟩]
    rfl
  · rw [if_neg same]
    rfl

/-- A candidate is told apart by its revision. -/
theorem probe_of_candidate (offset : Offset i)
    (candidate : Candidate memory i) :
    probe memory i =
      (probeExtended memory i (revision memory i)).bind fun found =>
        match found with
        | some root => .ok (some root)
        | none =>
            if revision memory i = 0 then
              .ok (some ⟨BitVec.ofNat 64 (readLE memory (i + 16) 4), 0⟩)
            else .ok none := by
  have inside := offset.inside
  obtain ⟨order, compared, decides⟩ := @strncmp_signature memory i offset
  rw [probe, compared]
  change (if order = 0 then _ else _) = _
  rw [if_pos (decides.mpr candidate.signature), sumBytes_ok (by omega)]
  change (if byteSum memory i 20 = 0 then _ else _) = _
  rw [if_pos candidate.sum, readByte_ok (by omega),
    readField_ok (by omega)]
  rfl

theorem probeExtended_of_ne (other : revision memory i ≠ 2) :
    probeExtended memory i (revision memory i) = .ok none := by
  rw [probeExtended, if_neg other]
  rfl

theorem probeExtended_ok (extended : revision memory i = 2)
    (inside : i + 36 ≤ mebibyte) :
    probeExtended memory i (revision memory i) =
      .ok (if byteSum memory i 33 = 0 then some (rootAt memory i)
        else none) := by
  rw [probeExtended, if_pos extended, sumBytes_ok (by omega),
    readField_ok (by omega), rootAt, if_pos extended]
  change (if byteSum memory i 33 = 0 then _ else _) = _
  split <;> rfl

/-- A structure of revision 2 lies inside the mebibyte. -/
def Within (memory : Memory) (i : Nat) : Prop :=
  Candidate memory i → revision memory i = 2 → i + 36 ≤ mebibyte

theorem probe_accepted (accepted : Accepted memory i)
    (within : Within memory i) :
    probe memory i = .ok (some (rootAt memory i)) := by
  rw [probe_of_candidate accepted.offset accepted.candidate]
  rcases accepted.summed with first | ⟨extended, sum⟩
  · have other : revision memory i ≠ 2 := by
      rw [first]
      decide
    rw [probeExtended_of_ne other, rootAt, if_neg other, if_pos first]
    rfl
  · rw [probeExtended_ok extended (within accepted.candidate extended),
      if_pos sum]
    rfl

theorem probe_rejected (offset : Offset i) (rejected : ¬ Accepted memory i)
    (within : Within memory i) : probe memory i = .ok none := by
  by_cases candidate : Candidate memory i
  · have notFirst : revision memory i ≠ 0 :=
      fun first => rejected ⟨offset, candidate, Or.inl first⟩
    rw [probe_of_candidate offset candidate, if_neg notFirst]
    by_cases extended : revision memory i = 2
    · rw [probeExtended_ok extended (within candidate extended), if_neg
        fun sum => rejected ⟨offset, candidate, Or.inr ⟨extended, sum⟩⟩]
      rfl
    · rw [probeExtended_of_ne extended]
      rfl
  · exact probe_of_not_candidate offset candidate

/-- The sum of a structure that ends outside the mebibyte leaves it. -/
theorem within_of_probe {found : Option Root} (offset : Offset i)
    (returned : probe memory i = .ok found) : Within memory i := by
  intro candidate extended
  rw [probe_of_candidate offset candidate, probeExtended, if_pos extended]
    at returned
  obtain ⟨_, tested, _⟩ := ok_of_bind returned
  obtain ⟨sum2, summed, _⟩ := ok_of_bind tested
  have inside := offset.inside
  have aligned := offset.aligned
  have reached := inside_of_sumBytes (by omega) summed
  simp only [mebibyte] at *
  omega

end Round

/-! ## The search -/

section Scan

variable {memory : Memory} {root : Root} {i rounds : Nat}

/-- What the loop does from offset `i` on: it returns at the first offset that
the code accepts, or after the last one, and it leaves the mebibyte where it
comes to a structure that does. -/
inductive Scans (memory : Memory) (root : Root) (i : Nat) :
    Except Stray Search → Prop
  | selects {j : Nat} (above : i ≤ j) (accepted : Accepted memory j)
      (within : ∀ k, i ≤ k → k ≤ j → Offset k → Within memory k)
      (first : ∀ k, i ≤ k → k < j → ¬ Accepted memory k) :
      Scans memory root i (.ok ⟨1, rootAt memory j, some j⟩)
  | passes (within : ∀ k, i ≤ k → Offset k → Within memory k)
      (nowhere : ∀ k, i ≤ k → ¬ Accepted memory k) :
      Scans memory root i (.ok ⟨0, root, none⟩)
  | strays {j : Nat} {problem : Stray} (above : i ≤ j) (offset : Offset j)
      (outside : ¬ Within memory j)
      (first : ∀ k, i ≤ k → k < j → ¬ Accepted memory k) :
      Scans memory root i (.error problem)

/-- Aligned offsets are 16 bytes apart. -/
theorem Offset.next {k : Nat} (aligned : i % 16 = 0) (offset : Offset k)
    (above : i ≤ k) : k = i ∨ i + 16 ≤ k := by
  have aligned' := offset.aligned
  omega

/-- A round that goes on adds its offset to those passed. -/
theorem Scans.cons {run : Except Stray Search} (offset : Offset i)
    (within : Within memory i) (rejected : ¬ Accepted memory i)
    (scans : Scans memory root (i + 16) run) : Scans memory root i run := by
  have passed : ∀ k, i ≤ k → Accepted memory k → i + 16 ≤ k := by
    intro k above accepted
    rcases accepted.offset.next offset.aligned above with rfl | beyond
    · exact absurd accepted rejected
    · exact beyond
  have reaches : ∀ k, i ≤ k → Offset k →
      (i + 16 ≤ k → Within memory k) → Within memory k := by
    intro k above offset' later
    rcases offset'.next offset.aligned above with rfl | beyond
    · exact within
    · exact later beyond
  cases scans with
  | selects above accepted within' first =>
      refine .selects (by omega) accepted ?_ ?_
      · intro k lower upper offset'
        exact reaches k lower offset' fun beyond =>
          within' k beyond upper offset'
      · intro k lower upper accepted'
        exact first k (passed k lower accepted') upper accepted'
  | passes within' nowhere =>
      refine .passes ?_ ?_
      · intro k lower offset'
        exact reaches k lower offset' fun beyond => within' k beyond offset'
      · intro k lower accepted'
        exact nowhere k (passed k lower accepted') accepted'
  | strays above offset' outside first =>
      refine .strays (by omega) offset' outside ?_
      intro k lower upper accepted'
      exact first k (passed k lower accepted') upper accepted'

theorem scans_findSdtFrom (memory : Memory) (root : Root)
    (aligned : i % 16 = 0) (left : i + 16 * rounds = mebibyte - 16) :
    Scans memory root i (findSdtFrom memory root i rounds) := by
  induction rounds generalizing i with
  | zero =>
      have past : ∀ k, i ≤ k → ¬ Offset k := by
        intro k above offset
        have below := offset.below
        omega
      refine .passes ?_ ?_
      · intro k above offset
        exact absurd offset (past k above)
      · intro k above accepted
        exact past k above accepted.offset
  | succ rounds inductionHypothesis =>
      have offset : Offset i := ⟨aligned, by omega⟩
      have none_before : ∀ k, i ≤ k → k < i → ¬ Accepted memory k := by
        intro k lower upper
        omega
      rw [findSdtFrom]
      cases result : probe memory i with
      | error problem =>
          refine .strays (Nat.le_refl i) offset ?_ none_before
          intro within
          by_cases accepted : Accepted memory i
          · rw [probe_accepted accepted within] at result
            cases result
          · rw [probe_rejected offset accepted within] at result
            cases result
      | ok found =>
          have within := within_of_probe offset result
          by_cases accepted : Accepted memory i
          · rw [probe_accepted accepted within] at result
            cases result
            refine .selects (Nat.le_refl i) accepted ?_ none_before
            intro k lower upper _
            obtain rfl : k = i := Nat.le_antisymm upper lower
            exact within
          · rw [probe_rejected offset accepted within] at result
            cases result
            exact (inductionHypothesis (by omega) (by omega)).cons offset
              within accepted

/-- A structure is plain where it lies inside, and the code's test agrees with
the whole checksum. -/
theorem plain_iff (offset : Offset i) :
    Plain memory i ↔
      Within memory i ∧ (Accepted memory i ↔ Complete memory i) := by
  constructor
  · intro plain
    refine ⟨fun candidate extended => (plain candidate extended).1, ?_⟩
    constructor
    · rintro ⟨_, candidate, first | ⟨extended, sum⟩⟩
      · exact ⟨offset, candidate, Or.inl first⟩
      · obtain ⟨inside, agree⟩ := plain candidate extended
        exact ⟨offset, candidate, Or.inr ⟨extended, inside, agree.mp sum⟩⟩
    · rintro ⟨_, candidate, first | ⟨extended, inside, sum⟩⟩
      · exact ⟨offset, candidate, Or.inl first⟩
      · obtain ⟨_, agree⟩ := plain candidate extended
        exact ⟨offset, candidate, Or.inr ⟨extended, agree.mpr sum⟩⟩
  · rintro ⟨within, agree⟩ candidate extended
    have inside := within candidate extended
    have notFirst : revision memory i ≠ 0 := by
      rw [extended]
      decide
    refine ⟨inside, fun sum => ?_, fun sum => ?_⟩
    · have complete := agree.mp ⟨offset, candidate, Or.inr ⟨extended, sum⟩⟩
      rcases complete.whole with first | ⟨_, _, whole⟩
      · exact absurd first notFirst
      · exact whole
    · have accepted :=
        agree.mpr ⟨offset, candidate, Or.inr ⟨extended, inside, sum⟩⟩
      rcases accepted.summed with first | ⟨_, summed⟩
      · exact absurd first notFirst
      · exact summed

/-- A search that ends with an offset has found the first structure. -/
theorem Discovers.first {found : Root}
    (discovers : Discovers memory root (.ok ⟨1, found, some i⟩)) :
    Complete memory i ∧ ∀ j, j < i → ¬ Complete memory j := by
  rcases discovers with ⟨j, complete, before, same⟩ | ⟨_, same⟩
  · injection same with same
    injection same with _ _ same
    injection same with same
    rw [same]
    exact ⟨complete, before⟩
  · injection same with same
    injection same with returned
    exact absurd returned (by decide)

/-- A search that ends without an offset has had none to find. -/
theorem Discovers.none {found : Root}
    (discovers : Discovers memory root (.ok ⟨0, found, none⟩)) :
    ∀ j, ¬ Complete memory j := by
  rcases discovers with ⟨_, _, _, same⟩ | ⟨nowhere, _⟩
  · injection same with same
    injection same with returned
    exact absurd returned (by decide)
  · exact nowhere

/-- The structures that the search comes to are plain. -/
def PlainUpTo (memory : Memory) : Prop :=
  ∀ i, Offset i → (∀ j, j < i → ¬ Accepted memory j) → Plain memory i

end Scan

/-- The search finds the first complete structure, and stays inside the
mebibyte, exactly where the structures that it comes to are plain. -/
theorem findSdt_discovers_iff (memory : Memory) (root : Root) :
    Discovers memory root (findSdt memory root) ↔ PlainUpTo memory := by
  have scans : Scans memory root 0 (findSdt memory root) :=
    scans_findSdtFrom memory root rfl rfl
  revert scans
  generalize findSdt memory root = run
  intro scans
  cases scans with
  | @selects i _ accepted within first =>
      constructor
      · intro discovers
        obtain ⟨complete, before⟩ := discovers.first
        intro k offset unaccepted
        have upTo : k ≤ i :=
          Nat.le_of_not_lt fun beyond => unaccepted i beyond accepted
        refine (plain_iff offset).mpr
          ⟨within k (Nat.zero_le k) upTo offset, ?_⟩
        rcases Nat.lt_or_eq_of_le upTo with below | rfl
        · exact iff_of_false (first k (Nat.zero_le k) below) (before k below)
        · exact iff_of_true accepted complete
      · intro plain
        refine Or.inl ⟨i, ?_, ?_, rfl⟩
        · have here := plain i accepted.offset fun j =>
            first j (Nat.zero_le j)
          exact ((plain_iff accepted.offset).mp here).2.mp accepted
        · intro j below complete
          have there := plain j complete.offset fun k upTo =>
            first k (Nat.zero_le k) (by omega)
          exact first j (Nat.zero_le j) below
            (((plain_iff complete.offset).mp there).2.mpr complete)
  | passes within nowhere =>
      constructor
      · intro discovers k offset _
        exact (plain_iff offset).mpr ⟨within k (Nat.zero_le k) offset,
          iff_of_false (nowhere k (Nat.zero_le k)) (discovers.none k)⟩
      · intro plain
        refine Or.inr ⟨fun i complete => ?_, rfl⟩
        have here := plain i complete.offset fun j _ =>
          nowhere j (Nat.zero_le j)
        exact nowhere i (Nat.zero_le i)
          (((plain_iff complete.offset).mp here).2.mpr complete)
  | @strays i _ _ offset outside first =>
      constructor
      · rintro (⟨_, _, _, same⟩ | ⟨_, same⟩) <;> cases same
      · intro plain
        have here := plain i offset fun j => first j (Nat.zero_le j)
        exact absurd ((plain_iff offset).mp here).1 outside

/-- The reserved bytes of a structure are to be zero. Then it is plain unless
it ends outside the mebibyte. -/
theorem plain_of_reserved {memory : Memory} {i : Nat}
    (inside : i + 36 ≤ mebibyte)
    (mbz : ∀ k, 33 ≤ k → k < 36 → memory (i + k) = 0) : Plain memory i := by
  intro _ _
  refine ⟨inside, ?_⟩
  have sum : byteSum memory i 36 = byteSum memory i 33 := by
    rw [byteSum, byteSum, byteSum, mbz 33 (by decide) (by decide),
      mbz 34 (by decide) (by decide), mbz 35 (by decide) (by decide)]
    simp only [BitVec.add_zero, BitVec.ofNat_eq_ofNat]
  rw [sum]

/-- A structure of revision 2 whose checksums are right but for a reserved
byte. -/
def reservedByte : Memory := fun i =>
  [0x52#8, 0x53#8, 0x44#8, 0x20#8, 0x50#8, 0x54#8, 0x52#8, 0x20#8, 0xdf#8,
    0#8, 0#8, 0#8, 0#8, 0#8, 0#8, 2#8, 0#8, 0#8, 0#8, 0#8, 36#8, 0#8, 0#8,
    0#8, 0#8, 0x10#8, 0#8, 0#8, 0#8, 0#8, 0#8, 0#8, 0xcc#8, 1#8].getD i 0

/-- Its address is taken although its sum is not zero. -/
theorem findSdt_reservedByte :
    ¬ Discovers reservedByte ⟨0, 0⟩ (findSdt reservedByte ⟨0, 0⟩) := by
  have run : findSdt reservedByte ⟨0, 0⟩ = .ok ⟨1, ⟨0x1000, 1⟩, some 0⟩ := by
    rfl
  rw [run]
  intro discovers
  rcases discovers.first.1.whole with first | ⟨_, _, sum⟩
  · exact absurd first (by decide)
  · exact absurd sum (by decide)

end BeaverOS.Acpi
