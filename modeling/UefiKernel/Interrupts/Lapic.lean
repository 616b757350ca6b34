import UefiKernel.Interrupts.Gates
import UefiKernel.Xen.Platform

/-!
# UefiKernel.Interrupts.Lapic

The driver of the local APIC (`x86_lapic_enable` in `apic.c`), and the interrupt
vectors it programs.

The driver asks the processor for its features and then writes a few registers
of the APIC, as model-specific registers in x2APIC mode and in memory otherwise.
`ApicEvent.vector` is the device's reading of such a write; `raises_iff` says
that, whatever the machine answers, the driver programs two vectors: the timer's
and the spurious one.
-/

namespace UefiKernel.Interrupts

open Interact Prog

/-! ## the machine -/

inductive ApicEvent
  | cpuid (level : UInt32)
  | rdmsr (reg : UInt32)
  | wrmsr (reg : UInt32) (val : UInt64)
  | barrier
  | store (addr : UInt64) (value : UInt32)
  | printf (format : String) (args : List UInt64)
  deriving DecidableEq, Repr

abbrev ApicEvent.Answer : ApicEvent → Type
  | cpuid _ => Xen.CpuidRegs
  | rdmsr _ => UInt64
  | wrmsr _ _ => Unit
  | barrier => Unit
  | store _ _ => Unit
  | printf _ _ => Unit

abbrev ApicM := Prog ApicEvent ApicEvent.Answer

def cpuid (level : UInt32) : ApicM Xen.CpuidRegs := Prog.req (ApicEvent.cpuid level)

def rdmsr (reg : UInt32) : ApicM UInt64 := Prog.req (ApicEvent.rdmsr reg)

def wrmsr (reg : UInt32) (val : UInt64) : ApicM Unit := Prog.req (ApicEvent.wrmsr reg val)

def x86X2apicBarrier : ApicM Unit := Prog.req ApicEvent.barrier

def printf (format : String) (args : List UInt64) : ApicM Unit :=
  Prog.req (ApicEvent.printf format args)

/-! ## `apic.h` -/

def x86MsrApic : UInt32 := 0x01B

def x86MsrApicEnable : UInt32 := 0x800

def x86MsrApicX2apic : UInt32 := 0x400

def x86MsrX2apicBase : UInt32 := 0x800

/-- `(void *) (-1L)`. -/
def x86LapicX2apic : UInt64 := 0xFFFFFFFFFFFFFFFF

def x86LapicTpr : UInt32 := 0x08

def x86LapicDfr : UInt32 := 0x0E

def x86LapicSvr : UInt32 := 0x0F

def x86LapicTimer : UInt32 := 0x32

def x86LapicTimerInit : UInt32 := 0x38

def x86LapicTimerDivide : UInt32 := 0x3E

/-! ## `apic.c` -/

def x86LapicWrite (lapicBase : UInt64) (offset value : UInt32) : ApicM Unit :=
  if lapicBase = x86LapicX2apic then do
    x86X2apicBarrier
    wrmsr (x86MsrX2apicBase + offset) value.toUInt64
  else
    Prog.req (ApicEvent.store (lapicBase + (offset <<< 4).toUInt64) value)

/-- The part of `x86_lapic_enable` that sets `lapic_base` and `x2apic`. -/
def x86LapicMode (r : Xen.CpuidRegs) : ApicM (UInt64 × UInt32) :=
  -- "CPU family: before P6."
  if (r.eax >>> 8) &&& 0x0F < 6 then
    pure (0xFEE00000, 0)
  else do
    let x2apic := if r.ecx &&& ((1 : UInt32) <<< 21) ≠ 0 then x86MsrApicX2apic else 0
    let msr ← rdmsr x86MsrApic
    x86X2apicBarrier
    wrmsr x86MsrApic (msr ||| x86MsrApicEnable.toUInt64 ||| x2apic.toUInt64)
    pure (if x2apic = 0 then msr &&& 0xFFFFFF000 else x86LapicX2apic, x2apic)

/-- Returns the new `lapic_base`. -/
def x86LapicEnable : ApicM UInt64 := do
  let r ← cpuid 1
  -- "No APIC."
  if r.edx &&& ((1 : UInt32) <<< 9) = 0 then
    return 0
  let (lapicBase, x2apic) ← x86LapicMode r
  if x2apic ≠ 0 then
    printf "x2APIC enabled\n" []
  else
    printf "APIC enabled, base: %p\n" [lapicBase]
  x86LapicWrite lapicBase x86LapicSvr ((0xFF : UInt32) ||| ((0x1 : UInt32) <<< 8))
  if x2apic = 0 then
    x86LapicWrite lapicBase x86LapicDfr 0xFFFFFFFF
  x86LapicWrite lapicBase x86LapicTpr 0x00
  x86LapicWrite lapicBase x86LapicTimerInit 0x400000
  x86LapicWrite lapicBase x86LapicTimerDivide ((0x2 : UInt32) ||| ((0x1 : UInt32) <<< 3))
  x86LapicWrite lapicBase x86LapicTimer
    (apicInterruptEntry.toUInt32 ||| ((0x2 : UInt32) <<< 16))
  return lapicBase

/-! ## the device's reading -/

/-- The register of the APIC that an event writes, with the value.  In memory the
registers are 16 bytes apart, in a page. -/
def ApicEvent.write : ApicEvent → Option (UInt32 × UInt32)
  | wrmsr reg val =>
      if x86MsrX2apicBase ≤ reg ∧ reg < x86MsrX2apicBase + 0x100 then
        some (reg - x86MsrX2apicBase, val.toUInt32)
      else none
  | store addr value => some ((addr % 0x1000 / 16).toUInt32, value)
  | _ => none

/-- The vector that a register holding `value` has the APIC raise: the spurious
one if the APIC is enabled, the timer's if it is not masked. -/
def vectorOf (reg value : UInt32) : Option UInt8 :=
  if reg = x86LapicSvr ∧ value &&& 0x100 ≠ 0 then some value.toUInt8
  else if reg = x86LapicTimer ∧ value &&& 0x10000 = 0 then some value.toUInt8
  else none

def ApicEvent.vector (e : ApicEvent) : Option UInt8 := e.write.bind fun w => vectorOf w.1 w.2

/-- A machine that answers as it likes. -/
abbrev anyAnswer (_ : Unit) (e : ApicEvent) (_ : e.Answer) (_ : Unit) : Prop := True

/-- On some machine `x86_lapic_enable` comes to program the vector `v`. -/
def Raises (v : UInt8) : Prop :=
  ∃ e k, Run anyAnswer ((), x86LapicEnable) ((), call e k) ∧ e.vector = some v

/-! ## the vectors that are programmed -/

/-- The event programs no vector but the two. -/
def OnlyVectors (e : ApicEvent) : Prop :=
  e.vector ∈ [none, some apicInterruptEntry, some 0xFF]

/-- What `lapic_base` may be. -/
def IsLapicBase (lapicBase : UInt64) : Prop :=
  lapicBase = x86LapicX2apic ∨ lapicBase % 0x1000 = 0

theorem onlyVectors_of_write_eq_none {e : ApicEvent} (h : e.write = none) : OnlyVectors e := by
  rw [OnlyVectors, ApicEvent.vector, h]
  exact List.mem_cons_self

/-- The register that a store to memory is for. -/
theorem write_store {lapicBase : UInt64} (hbase : lapicBase % 0x1000 = 0) {offset : UInt32}
    (hoffset : offset < 0x100) (value : UInt32) :
    (ApicEvent.store (lapicBase + (offset <<< 4).toUInt64) value).write = some (offset, value) := by
  have hbase' : lapicBase.toNat % 0x1000 = 0 := by
    rw [← UInt64.toNat_inj, UInt64.toNat_mod] at hbase
    exact hbase
  have hoffset' : offset.toNat < 0x100 := UInt32.lt_iff_toNat_lt.mp hoffset
  have hshift : (offset <<< 4).toUInt64.toNat = offset.toNat * 16 := by
    rw [UInt32.toNat_toUInt64, UInt32.toNat_shiftLeft, Nat.shiftLeft_eq]
    show offset.toNat * 16 % 2 ^ 32 = _
    omega
  have hreg : ((lapicBase + (offset <<< 4).toUInt64) % 0x1000 / 16).toUInt32 = offset := by
    rw [← UInt32.toNat_inj, UInt64.toNat_toUInt32, UInt64.toNat_div, UInt64.toNat_mod,
      UInt64.toNat_add, hshift]
    show (lapicBase.toNat + offset.toNat * 16) % 2 ^ 64 % 0x1000 / 16 % 2 ^ 32 = _
    omega
  rw [ApicEvent.write, hreg]

/-- The register that a write to a model-specific register is for. -/
theorem write_wrmsr {offset : UInt32} (hoffset : offset < 0x100) (value : UInt32) :
    (ApicEvent.wrmsr (x86MsrX2apicBase + offset) value.toUInt64).write = some (offset, value) := by
  have hoffset' : offset.toNat < 0x100 := UInt32.lt_iff_toNat_lt.mp hoffset
  have hreg : (x86MsrX2apicBase + offset).toNat = 0x800 + offset.toNat := by
    rw [UInt32.toNat_add]
    show (0x800 + offset.toNat) % 2 ^ 32 = _
    omega
  have hrange : x86MsrX2apicBase ≤ x86MsrX2apicBase + offset ∧
      x86MsrX2apicBase + offset < x86MsrX2apicBase + 0x100 := by
    rw [UInt32.le_iff_toNat_le, UInt32.lt_iff_toNat_lt, hreg]
    show 0x800 ≤ _ ∧ _ < 0x900
    omega
  have hsub : x86MsrX2apicBase + offset - x86MsrX2apicBase = offset := by
    rw [UInt32.add_comm, UInt32.add_sub_cancel]
  rw [ApicEvent.write, if_pos hrange, hsub, UInt32.toUInt32_toUInt64]

/-- A write of the driver programs the vector of its register. -/
theorem issues_x86LapicWrite {lapicBase : UInt64} (hbase : IsLapicBase lapicBase)
    (offset value : UInt32) (hoffset : offset < 0x100)
    (hvector : vectorOf offset value ∈ [none, some apicInterruptEntry, some 0xFF]) :
    (x86LapicWrite lapicBase offset value).Issues OnlyVectors := by
  have hwrite : ∀ {e : ApicEvent}, e.write = some (offset, value) → OnlyVectors e := by
    intro e he
    rw [OnlyVectors, ApicEvent.vector, he]
    exact hvector
  refine Issues.ite (fun _ => ?_) fun hmem => ?_
  · exact Issues.seq (.req (onlyVectors_of_write_eq_none rfl))
      fun _ => .req (hwrite (write_wrmsr hoffset value))
  · exact .req (hwrite (write_store (hbase.resolve_left hmem) hoffset value))

/-- The base is a page, or the mark of x2APIC mode. -/
theorem wp_x86LapicMode (r : Xen.CpuidRegs) :
    wp anyAnswer (fun _ e => OnlyVectors e) (x86LapicMode r) (fun p _ => IsLapicBase p.1) () := by
  have hpage : ∀ msr : UInt64, (msr &&& 0xFFFFFF000) % 0x1000 = 0 := by
    intro msr
    rw [← UInt64.toNat_inj, UInt64.toNat_mod, UInt64.toNat_and]
    show (msr.toNat &&& 0xFFFFFF000) % 2 ^ 12 = 0
    rw [Nat.and_mod_two_pow]
    exact Nat.and_zero _
  refine wp_ite.mpr ⟨fun _ => .inr (by decide), fun _ => ?_⟩
  refine ⟨onlyVectors_of_write_eq_none rfl, fun msr _ _ => ?_⟩
  refine ⟨onlyVectors_of_write_eq_none rfl, fun _ _ _ => ?_⟩
  refine ⟨onlyVectors_of_write_eq_none rfl, fun _ _ _ => ?_⟩
  rcases Decidable.em (r.ecx &&& ((1 : UInt32) <<< 21) ≠ 0) with hx2apic | hx2apic
  · rw [if_pos hx2apic]
    exact .inl rfl
  · rw [if_neg hx2apic]
    exact .inr (hpage msr)

/-- Whatever is answered, the driver programs no vector but the two. -/
theorem issues_x86LapicEnable : x86LapicEnable.Issues OnlyVectors := by
  unfold x86LapicEnable
  refine Issues.seq (.req (onlyVectors_of_write_eq_none rfl)) fun r => ?_
  refine Issues.ite (fun _ => .pure _) fun _ => ?_
  refine wp_bind.mpr (wp_mono ?_ (wp_x86LapicMode r))
  rintro ⟨lapicBase, x2apic⟩ ⟨⟩ hbase
  have hwrite := issues_x86LapicWrite hbase
  have hprintf : ∀ format args, (printf format args).Issues OnlyVectors :=
    fun _ _ => .req (onlyVectors_of_write_eq_none rfl)
  -- the message, and then the registers in order
  refine Issues.ite (fun _ => Issues.seq (hprintf _ _) fun _ => ?_)
    fun _ => Issues.seq (hprintf _ _) fun _ => ?_
  all_goals
    refine Issues.seq (hwrite _ _ (by decide) (by decide)) fun _ => ?_
    refine Issues.ite (fun _ => Issues.seq (hwrite _ _ (by decide) (by decide)) fun _ => ?_)
      fun _ => ?_
    all_goals
      refine Issues.seq (hwrite _ _ (by decide) (by decide)) fun _ => ?_
      refine Issues.seq (hwrite _ _ (by decide) (by decide)) fun _ => ?_
      refine Issues.seq (hwrite _ _ (by decide) (by decide)) fun _ => ?_
      exact Issues.seq (hwrite _ _ (by decide) (by decide)) fun _ => .pure _

/-! ## the vectors that are raised -/

/-- A machine with an APIC in memory. -/
def xapicMachine (_ : Unit) : (e : ApicEvent) → e.Answer × Unit
  | .cpuid _ => ({ eax := 0x600, ebx := 0, ecx := 0, edx := 0x200 }, ())
  | .rdmsr _ => (0xFEE00900, ())
  | .wrmsr _ _ => ((), ())
  | .barrier => ((), ())
  | .store _ _ => ((), ())
  | .printf _ _ => ((), ())

theorem raises_of_play (n : Nat) {v : UInt8}
    (h : ∃ e k, play xapicMachine n ((), x86LapicEnable) = ((), call e k) ∧ e.vector = some v) :
    Raises v := by
  obtain ⟨e, k, hplay, hv⟩ := h
  refine ⟨e, k, ?_, hv⟩
  rw [← hplay]
  exact run_play (fun _ _ => trivial) n _

/-- **The vectors that the driver programs** are the timer's and the spurious one. -/
theorem raises_iff (v : UInt8) : Raises v ↔ v = apicInterruptEntry ∨ v = 0xFF := by
  constructor
  · rintro ⟨e, k, hrun, hv⟩
    have honly := ok_of_run issues_x86LapicEnable hrun
    rw [OnlyVectors, hv] at honly
    simpa using honly
  · rintro (rfl | rfl)
    · exact raises_of_play 10 ⟨_, _, rfl, by decide⟩
    · exact raises_of_play 5 ⟨_, _, rfl, by decide⟩

end UefiKernel.Interrupts
