import Mathlib.Algebra.GroupWithZero.Nat
import Mathlib.Data.List.Basic

/-!
# The local APIC

`isr/apic.c` writes the registers of the local APIC in one of two ways: in
x2APIC mode through model-specific registers, otherwise through a page of
memory. The accesses of the calls that follow `apic_init` are compared.
-/

namespace BeaverOS.Apic

/-! ## The code -/

inductive Halt where
  | panic (message : String)
  deriving DecidableEq, Repr

/-- A write that the processor carries out. -/
inductive Access where
  | wrmsr (number value : BitVec 64)
  /-- A 32-bit store into the APIC page. -/
  | store (offset : Nat) (value : BitVec 32)
  deriving DecidableEq, Repr

def CPUID_1_EDX_APIC_BIT : BitVec 32 := 1 <<< 9
def CPUID_1_ECX_X2APIC_BIT : BitVec 32 := 1 <<< 21

def APIC_EOI_REGISTER : BitVec 16 := 0x0b0
def APIC_EOI_MSR : BitVec 64 := 0x80b
def APIC_TMR_LVT_REGISTER : BitVec 16 := 0x320
def APIC_TMR_LVT_MSR : BitVec 64 := 0x832
def APIC_TMR_INITCNT_REGISTER : BitVec 16 := 0x380
def APIC_TMR_INITCNT_MSR : BitVec 64 := 0x838
def APIC_TMR_DIV_REGISTER : BitVec 16 := 0x3e0
def APIC_TMR_DIV_MSR : BitVec 64 := 0x83e

/-- `wrapic`. The page is an array of `uint32_t`. -/
def wrapic (number : BitVec 16) (value : BitVec 32) : Access :=
  .store (4 * (number.toNat / 4)) value

/-- `apic_init`, as far as it sets `x2apic`. -/
def apicInit (edx ecx : BitVec 32) : Except Halt Bool :=
  if edx &&& CPUID_1_EDX_APIC_BIT = 0 then
    .error (.panic "no APIC available")
  else
    .ok (decide (ecx &&& CPUID_1_ECX_X2APIC_BIT ≠ 0))

/-- `apic_set_initial_count`. -/
def apicSetInitialCount (x2apic : Bool) (count : BitVec 64) : List Access :=
  if x2apic then
    [.wrmsr APIC_TMR_INITCNT_MSR count]
  else
    [wrapic APIC_TMR_INITCNT_REGISTER (count.setWidth 32)]

/-- `isr | (periodic << 17)`, on `int`. -/
def timerEntry (isr periodic : BitVec 8) : BitVec 32 :=
  isr.setWidth 32 ||| periodic.signExtend 32 <<< 17

/-- `apic_configure_timer`. Both of its branches call `wrapic`. -/
def apicConfigureTimer (x2apic : Bool) (isr periodic divider : BitVec 8) :
    List Access :=
  if x2apic then
    [wrapic (APIC_TMR_LVT_MSR.setWidth 16) (timerEntry isr periodic),
      wrapic (APIC_TMR_DIV_MSR.setWidth 16) (divider.setWidth 32)]
  else
    [wrapic APIC_TMR_LVT_REGISTER (timerEntry isr periodic),
      wrapic APIC_TMR_DIV_REGISTER (divider.setWidth 32)]

/-- `apic_eoi`. -/
def apicEoi (x2apic : Bool) : List Access :=
  if x2apic then
    [.wrmsr APIC_EOI_MSR 0]
  else
    [wrapic APIC_EOI_REGISTER 0]

inductive Call where
  | setInitialCount (count : BitVec 64)
  | configureTimer (isr periodic divider : BitVec 8)
  | eoi
  deriving DecidableEq, Repr

/-- The accesses of a call. -/
def perform (x2apic : Bool) : Call → List Access
  | .setInitialCount count => apicSetInitialCount x2apic count
  | .configureTimer isr periodic divider =>
      apicConfigureTimer x2apic isr periodic divider
  | .eoi => apicEoi x2apic

/-- The accesses of a sequence of calls after `apic_init`, on a processor with
these features. -/
def afterInit (edx ecx : BitVec 32) (calls : List Call) :
    Except Halt (List Access) :=
  (apicInit edx ecx).map fun x2apic => calls.flatMap (perform x2apic)

/-! ## Updates of registers -/

/-- A register of the local APIC gets a value. -/
structure Update where
  offset : Nat
  value : BitVec 32

/-- The update in x2APIC mode. -/
def Update.wrmsr (update : Update) : Access :=
  .wrmsr (BitVec.ofNat 64 (0x800 + update.offset / 16))
    (update.value.setWidth 64)

/-- The update in xAPIC mode. -/
def Update.store (update : Update) : Access :=
  .store update.offset update.value

/-- A call that the two modes carry out alike. -/
def Call.SetsNoTimer : Call → Prop
  | .configureTimer _ _ _ => False
  | _ => True

section Updates

variable {call : Call} {calls : List Call}

/-- The updates of a call other than `apic_configure_timer`. -/
theorem perform_updates (setsNoTimer : call.SetsNoTimer)
    (small : ∀ count, call = .setInitialCount count → count.toNat < 2 ^ 32) :
    ∃ updates : List Update, perform true call = updates.map Update.wrmsr ∧
      perform false call = updates.map Update.store := by
  cases call with
  | setInitialCount count =>
      have kept : (count.setWidth 32).setWidth 64 = count := by
        apply BitVec.eq_of_toNat_eq
        have bound := small count rfl
        rw [BitVec.toNat_setWidth, BitVec.toNat_setWidth]
        omega
      have number : BitVec.ofNat 64 (0x800 + 0x380 / 16) =
          APIC_TMR_INITCNT_MSR := by decide
      refine ⟨[⟨0x380, count.setWidth 32⟩], ?_, rfl⟩
      rw [List.map_singleton, Update.wrmsr, kept, number]
      rfl
  | configureTimer isr periodic divider => exact setsNoTimer.elim
  | eoi => exact ⟨[⟨0x0b0, 0⟩], rfl, rfl⟩

theorem calls_updates (setNoTimer : ∀ call ∈ calls, call.SetsNoTimer)
    (small : ∀ count, .setInitialCount count ∈ calls → count.toNat < 2 ^ 32) :
    ∃ updates : List Update,
      calls.flatMap (perform true) = updates.map Update.wrmsr ∧
        calls.flatMap (perform false) = updates.map Update.store := by
  induction calls with
  | nil => exact ⟨[], rfl, rfl⟩
  | cons call calls inductionHypothesis =>
      obtain ⟨first, wrmsrs, stores⟩ := perform_updates
        (setNoTimer call List.mem_cons_self)
        fun count isCount => small count (isCount ▸ List.mem_cons_self)
      obtain ⟨rest, restWrmsrs, restStores⟩ := inductionHypothesis
        (fun other member => setNoTimer other (List.mem_cons_of_mem _ member))
        (fun count member => small count (List.mem_cons_of_mem _ member))
      refine ⟨first ++ rest, ?_, ?_⟩
      · rw [List.flatMap_cons, wrmsrs, restWrmsrs, List.map_append]
      · rw [List.flatMap_cons, stores, restStores, List.map_append]

/-- In x2APIC mode `apic_configure_timer` stores into the page. -/
theorem setNoTimer_of_wrmsrs {updates : List Update}
    (wrmsrs : calls.flatMap (perform true) = updates.map Update.wrmsr) :
    ∀ call ∈ calls, call.SetsNoTimer := by
  intro call member
  cases call with
  | configureTimer isr periodic divider =>
      have stored : wrapic (APIC_TMR_LVT_MSR.setWidth 16)
          (timerEntry isr periodic) ∈ calls.flatMap (perform true) :=
        List.mem_flatMap.mpr ⟨_, member, List.mem_cons_self⟩
      rw [wrmsrs] at stored
      obtain ⟨update, -, same⟩ := List.mem_map.mp stored
      cases same
  | setInitialCount count => trivial
  | eoi => trivial

end Updates

/-- The two modes carry out the same updates, each in its own way, exactly if
`apic_configure_timer` is not called. -/
theorem modes_agree_iff (edx ecx ecx' : BitVec 32)
    (available : edx &&& CPUID_1_EDX_APIC_BIT ≠ 0)
    (hasX2apic : ecx &&& CPUID_1_ECX_X2APIC_BIT ≠ 0)
    (noX2apic : ecx' &&& CPUID_1_ECX_X2APIC_BIT = 0) (calls : List Call)
    (small : ∀ count, .setInitialCount count ∈ calls → count.toNat < 2 ^ 32) :
    (∃ updates : List Update,
        afterInit edx ecx calls = .ok (updates.map Update.wrmsr) ∧
          afterInit edx ecx' calls = .ok (updates.map Update.store)) ↔
      ∀ call ∈ calls, call.SetsNoTimer := by
  have inX2apic : afterInit edx ecx calls =
      .ok (calls.flatMap (perform true)) := by
    rw [afterInit, apicInit, if_neg available, decide_eq_true hasX2apic]
    rfl
  have inXapic : afterInit edx ecx' calls =
      .ok (calls.flatMap (perform false)) := by
    rw [afterInit, apicInit, if_neg available,
      decide_eq_false (not_not_intro noX2apic)]
    rfl
  rw [inX2apic, inXapic]
  constructor
  · rintro ⟨updates, wrmsrs, -⟩
    exact setNoTimer_of_wrmsrs (Except.ok.inj wrmsrs)
  · intro setNoTimer
    obtain ⟨updates, wrmsrs, stores⟩ := calls_updates setNoTimer small
    exact ⟨updates, congrArg _ wrmsrs, congrArg _ stores⟩

theorem modes_agree_iff_small :
    (∃ updates : List Update,
        afterInit 0x200 0x200000 [.setInitialCount 100, .eoi] =
            .ok (updates.map Update.wrmsr) ∧
          afterInit 0x200 0 [.setInitialCount 100, .eoi] =
            .ok (updates.map Update.store)) ↔
      ∀ call ∈ [Call.setInitialCount 100, .eoi], call.SetsNoTimer := by
  refine modes_agree_iff 0x200 0x200000 0 (by decide) (by decide) (by decide)
    [.setInitialCount 100, .eoi] ?_
  intro count member
  rcases List.mem_cons.mp member with isCount | inRest
  · cases isCount
    decide
  · cases List.mem_singleton.mp inRest

/-- With x2APIC the timer is configured by stores that no register of the page
gets. -/
theorem configureTimer_stores :
    afterInit 0x200 0x200000 [.configureTimer 0x20 0 3] =
        .ok [.store 0x830 0x20, .store 0x83c 3] ∧
      ¬ ∃ updates : List Update,
        afterInit 0x200 0x200000 [.configureTimer 0x20 0 3] =
            .ok (updates.map Update.wrmsr) ∧
          afterInit 0x200 0 [.configureTimer 0x20 0 3] =
            .ok (updates.map Update.store) := by
  have stores : afterInit 0x200 0x200000 [.configureTimer 0x20 0 3] =
      .ok [.store 0x830 0x20, .store 0x83c 3] := by decide
  refine ⟨stores, ?_⟩
  rintro ⟨updates, wrmsrs, -⟩
  rw [stores] at wrmsrs
  cases updates with
  | nil => cases wrmsrs
  | cons update updates => cases wrmsrs

end BeaverOS.Apic
