import UefiKernel.Interrupts.Lapic

/-!
# UefiKernel.Interrupts.Vectors

Where the interrupts go: the table of `idt_init` against the vectors that
`x86_lapic_enable` programs.

All 256 gates are marked present, and those above the timer's lead to address 0
(`gate_idtInit`).  The spurious vector is one of them, so there is no choice of
the handlers with which `GatesHandled` would hold (`not_gatesHandled`).
-/

namespace UefiKernel.Interrupts

/-- The gate of a vector, as the processor reads it. -/
def IdtState.gate (s : IdtState) (v : UInt8) : Gate := Gate.decode (s.idt v).image

/-- The gate leads to a handler. -/
def Handled (h : Handlers) (g : Gate) : Prop :=
  g.offset ∈ [h.defaultInterruptHandlerPtr, h.pageFaultHandlerPtr, h.apicHandlerPtr]

instance (h : Handlers) (g : Gate) : Decidable (Handled h g) :=
  inferInstanceAs (Decidable (_ ∈ [_, _, _]))

/-- The entry code has stored an address for each handler. -/
def Handlers.NonZero (h : Handlers) : Prop :=
  h.defaultInterruptHandlerPtr ≠ 0 ∧ h.pageFaultHandlerPtr ≠ 0 ∧ h.apicHandlerPtr ≠ 0

instance (h : Handlers) : Decidable h.NonZero := inferInstanceAs (Decidable (_ ∧ _))

/-- No present gate leads anywhere else, whether or not the APIC has its vector. -/
structure GatesHandled (h : Handlers) (s : IdtState) : Prop where
  present : ∀ v, (s.gate v).present → Handled h (s.gate v)
  raised : ∀ v, Raises v → (s.gate v).present → Handled h (s.gate v)

theorem gate_idtInit (idtAddr : UInt64) (h : Handlers) (s : IdtState) (v : UInt8) :
    (idtInit idtAddr h s).gate v =
      { offset := installed h v, selector := 0x8, ist := 0, attr := 0x8E, reserved := 0 } := by
  rw [IdtState.gate, idtInit_idt, decode_idtEntry]

theorem present_idtInit (idtAddr : UInt64) (h : Handlers) (s : IdtState) (v : UInt8) :
    ((idtInit idtAddr h s).gate v).present = true := by
  rw [gate_idtInit]
  show (0x8E : UInt8).toBitVec.getLsbD 7 = true
  decide

/-- The exceptions and the timer have a handler. -/
theorem handled_of_le (idtAddr : UInt64) (h : Handlers) (s : IdtState) {v : UInt8}
    (hv : v ≤ apicInterruptEntry) : Handled h ((idtInit idtAddr h s).gate v) := by
  have hv' : v.toNat ≤ 32 := UInt8.le_iff_toNat_le.mp hv
  rw [gate_idtInit]
  show installed h v ∈ _
  unfold installed
  split
  · simp
  split
  · simp
  rename_i hne _
  have hlow : v.toNat < numCpuExceptions :=
    Nat.lt_of_le_of_ne hv' fun heq => hne (UInt8.toNat_inj.mp heq)
  rw [if_pos hlow]
  exact List.mem_cons_self

/-- The others lead to address 0. -/
theorem offset_of_lt (idtAddr : UInt64) (h : Handlers) (s : IdtState) {v : UInt8}
    (hv : apicInterruptEntry < v) : ((idtInit idtAddr h s).gate v).offset = 0 := by
  have hv' : 32 < v.toNat := UInt8.lt_iff_toNat_lt.mp hv
  have hapic : v ≠ apicInterruptEntry := (UInt8.ne_of_lt hv).symm
  have hpageFault : v ≠ pageFaultIdtIndex := by
    rintro rfl
    exact absurd hv (by decide)
  rw [gate_idtInit]
  show installed h v = 0
  exact (if_neg hapic).trans ((if_neg hpageFault).trans (if_neg (Nat.not_lt_of_lt hv')))

theorem handled_iff (idtAddr : UInt64) {h : Handlers} (hh : h.NonZero) (s : IdtState) (v : UInt8) :
    Handled h ((idtInit idtAddr h s).gate v) ↔ v ≤ apicInterruptEntry := by
  refine ⟨fun hhandled => ?_, handled_of_le idtAddr h s⟩
  refine UInt8.not_lt.mp fun hv => ?_
  rw [Handled, offset_of_lt idtAddr h s hv] at hhandled
  obtain ⟨hdefault, hpageFault, hapic⟩ := hh
  simp [hdefault.symm, hpageFault.symm, hapic.symm] at hhandled

/-- **Present gates lead to address 0**, whatever the handlers are: just those of
the exceptions and of the timer are handled, and of the vectors of the APIC just
the timer's. -/
theorem not_gatesHandled (idtAddr : UInt64) {h : Handlers} (hh : h.NonZero) (s : IdtState) :
    ¬ GatesHandled h (idtInit idtAddr h s) ∧
      (∀ v, ((idtInit idtAddr h s).gate v).present ∧
        (Handled h ((idtInit idtAddr h s).gate v) ↔ v ≤ apicInterruptEntry)) ∧
      ∀ v, Raises v →
        (Handled h ((idtInit idtAddr h s).gate v) ↔ v = apicInterruptEntry) := by
  refine ⟨?_, fun v => ⟨present_idtInit idtAddr h s v, handled_iff idtAddr hh s v⟩, ?_⟩
  · intro hgates
    have hspurious := hgates.raised 0xFF ((raises_iff 0xFF).mpr (.inr rfl))
      (present_idtInit idtAddr h s 0xFF)
    exact absurd ((handled_iff idtAddr hh s 0xFF).mp hspurious) (by decide)
  · intro v hv
    rw [handled_iff idtAddr hh s v]
    rcases (raises_iff v).mp hv with rfl | rfl <;> decide

/-- Addresses as of the entry code's labels, and a table that is all zero. -/
def sampleHandlers : Handlers where
  defaultInterruptHandlerPtr := 0x1000C0
  pageFaultHandlerPtr := 0x100100
  apicHandlerPtr := 0x100140

def zeroIdt : IdtState where
  idt _ := idtEntry 0 0 0
  idtPtr := { limit := 0, base := 0 }
  idtr := { limit := 0, base := 0 }
  interruptFlag := false

theorem not_gatesHandled_sample :
    sampleHandlers.NonZero ∧
      ¬ GatesHandled sampleHandlers (idtInit 0x104000 sampleHandlers zeroIdt) :=
  ⟨by decide, (not_gatesHandled 0x104000 (by decide) zeroIdt).1⟩

/-- The spurious interrupt goes to address 0. -/
theorem spurious_unhandled :
    sampleHandlers.NonZero ∧ Raises 0xFF ∧
      ((idtInit 0x104000 sampleHandlers zeroIdt).gate 0xFF).present ∧
      ((idtInit 0x104000 sampleHandlers zeroIdt).gate 0xFF).offset = 0 ∧
      ¬ GatesHandled sampleHandlers (idtInit 0x104000 sampleHandlers zeroIdt) := by
  have hraises : Raises 0xFF := (raises_iff 0xFF).mpr (.inr rfl)
  have hpresent := present_idtInit 0x104000 sampleHandlers zeroIdt 0xFF
  have hzero := offset_of_lt 0x104000 sampleHandlers zeroIdt
    (show apicInterruptEntry < 0xFF by decide)
  refine ⟨by decide, hraises, hpresent, hzero, fun hgates => ?_⟩
  have hhandled := hgates.present 0xFF hpresent
  rw [Handled, hzero] at hhandled
  exact absurd hhandled (by decide)

end UefiKernel.Interrupts
