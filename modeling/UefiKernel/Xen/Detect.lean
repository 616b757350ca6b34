import UefiKernel.Lib.Calculus
import UefiKernel.Xen.Platform

/-!
# UefiKernel.Xen.Detect

How the kernel finds Xen.

`xen_detect` looks at the hypervisor bit and the signature at leaf 0x40000000,
`xen_base_detect` searches for the leaf at which Xen's leaves start, and
`xen_hypercalls_init` asks the leaf two above it for the MSR that takes the
address of the hypercall page.  The specifications hold in any calculus in
which CPUID is answered by a function `f`.
-/

namespace UefiKernel.Xen

open Interact Prog

/-! ## `kernel.c` -/

/-- `HYPERVISOR_NONE` and `HYPERVISOR_XEN`. -/
inductive Hypervisor
  | none
  | xen
  deriving DecidableEq, Repr

/-- `hypervisor_entry_t`. -/
structure HypervisorEntry where
  ebx : UInt32
  ecx : UInt32
  edx : UInt32
  minLeaves : UInt32

/-- `hyperv_signature_xen`, as `xen_detect` sets it. -/
def hypervSignatureXen : HypervisorEntry where
  ebx := 0x566e6558
  ecx := 0x65584d4d
  edx := 0x4d4d566e
  minLeaves := 2

/-- The signature in the registers. -/
def CpuidRegs.HasSignature (r : CpuidRegs) : Prop :=
  r.ebx = hypervSignatureXen.ebx ∧ r.ecx = hypervSignatureXen.ecx ∧ r.edx = hypervSignatureXen.edx

instance (r : CpuidRegs) : Decidable r.HasSignature := inferInstanceAs (Decidable (_ ∧ _))

def xenDetect : XenM Hypervisor := do
  let r ← x86Cpuid 0
  if ¬ 1 ≤ r.eax then
    return .none
  let r ← x86Cpuid 1
  if r.ecx &&& ((1 : UInt32) <<< 31) = 0 then
    return .none
  let r ← x86Cpuid 0x40000000
  if ¬ 0x40000000 ≤ r.eax then
    return .none
  if r.HasSignature then
    return .xen
  return .none

/-- 0 if there is no base. -/
def xenBaseDetect : XenM UInt32 :=
  loop (fun base : UInt32 => do
    if ¬ base < 0x40010000 then
      return .inr 0
    let r ← x86Cpuid base
    if r.eax - base ≥ hypervSignatureXen.minLeaves ∧ r.HasSignature then
      return .inr base
    return .inl (base + 0x100)) 0x40000000

/-- Returns the new `xen_base`. -/
def xenHypercallsInit (image : KernelImage) (xenBase : UInt32) : XenM UInt32 := do
  let r ← x86Cpuid (xenBase + 2)
  if r.eax ≠ 1 then
    return 0
  wrmsr r.ebx image.miniosHypercallPage
  return xenBase

def xenSharedInit (xen : XenHeaders) (image : KernelImage) : XenM UInt32 := do
  let result ← hypercall (.memoryOp xen.xenmemAddToPhysmap {
    domid := xen.domidSelf
    idx := 0
    space := xen.xenmapspaceSharedInfo
    gpfn := image.miniosSharedInfo >>> 12 })
  return result.toUInt32

/-! ## CPUID as a function -/

/-- What `xen_detect` looks for. -/
def XenDetected (f : UInt32 → CpuidRegs) : Prop :=
  1 ≤ (f 0).eax ∧ (f 1).ecx &&& ((1 : UInt32) <<< 31) ≠ 0 ∧ 0x40000000 ≤ (f 0x40000000).eax ∧
    (f 0x40000000).HasSignature

/-- What `xen_base_detect` looks for at a base. -/
def IsXenBase (f : UInt32 → CpuidRegs) (base : UInt32) : Prop :=
  (f base).eax - base ≥ hypervSignatureXen.minLeaves ∧ (f base).HasSignature

/-- The `k`-th base of the search. -/
def baseAt (k : Nat) : UInt32 := 0x40000000 + 0x100 * UInt32.ofNat k

/-- The base the search comes upon first. -/
def FirstBase (f : UInt32 → CpuidRegs) (base : UInt32) : Prop :=
  ∃ k < 256, base = baseAt k ∧ IsXenBase f base ∧ ∀ j < k, ¬ IsXenBase f (baseAt j)

theorem baseAt_succ (k : Nat) : baseAt k + 0x100 = baseAt (k + 1) := by
  simp only [baseAt, UInt32.ofNat_add]
  grind

/-- The candidates do not wrap around. -/
theorem toNat_baseAt {k : Nat} (h : k ≤ 256) : (baseAt k).toNat = 0x40000000 + 0x100 * k := by
  simp only [baseAt, UInt32.toNat_add, UInt32.toNat_mul, UInt32.toNat_ofNat', UInt32.reduceToNat]
  omega

theorem baseAt_lt_iff {k : Nat} (h : k ≤ 256) : baseAt k < 0x40010000 ↔ k < 256 := by
  rw [UInt32.lt_iff_toNat_lt, toNat_baseAt h]
  simp only [UInt32.reduceToNat]
  omega

/-- There is at most one first base. -/
theorem FirstBase.unique {f : UInt32 → CpuidRegs} {b b' : UInt32} (h : FirstBase f b)
    (h' : FirstBase f b') : b = b' := by
  obtain ⟨k, -, rfl, hk, hmin⟩ := h
  obtain ⟨k', -, rfl, hk', hmin'⟩ := h'
  rcases Nat.lt_trichotomy k k' with hlt | rfl | hgt
  · exact absurd hk (hmin' k hlt)
  · rfl
  · exact absurd hk' (hmin k' hgt)

/-! ## specifications -/

section Spec

variable {G : Type} {L : Calculus XenEvent XenEvent.Answer G} {f : UInt32 → CpuidRegs}
  {R : G → Prop}
  (hcpuid : ∀ level g, R g → L.holds (x86Cpuid level) (fun r g' => r = f level ∧ R g') g)

include hcpuid

/-- `xen_detect`, in every world that answers `cpuid` as `f` does. -/
theorem xenDetect_spec {g : G} (hg : R g) :
    L.holds xenDetect (fun r g' => (r = .xen ↔ XenDetected f) ∧ R g') g := by
  have hno : ∀ {g'}, R g' → ¬ XenDetected f →
      (Hypervisor.none = .xen ↔ XenDetected f) ∧ R g' :=
    fun hg' h => ⟨⟨fun heq => (nomatch heq), fun hd => absurd hd h⟩, hg'⟩
  unfold xenDetect
  refine L.seq (hcpuid 0 g hg) ?_
  rintro r g₁ ⟨rfl, hg₁⟩
  refine L.ite (fun h => L.pure (hno hg₁ fun hd => h hd.1)) fun hmax => ?_
  refine L.seq (hcpuid 1 g₁ hg₁) ?_
  rintro r g₂ ⟨rfl, hg₂⟩
  refine L.ite (fun h => L.pure (hno hg₂ fun hd => hd.2.1 h)) fun hbit => ?_
  refine L.seq (hcpuid 0x40000000 g₂ hg₂) ?_
  rintro r g₃ ⟨rfl, hg₃⟩
  refine L.ite (fun h => L.pure (hno hg₃ fun hd => h hd.2.2.1)) fun hleaf => ?_
  refine L.ite (fun hsig => ?_) fun hsig => L.pure (hno hg₃ fun hd => hsig hd.2.2.2)
  have hd : XenDetected f :=
    ⟨Decidable.not_not.mp hmax, hbit, Decidable.not_not.mp hleaf, hsig⟩
  exact L.pure ⟨⟨fun _ => hd, fun _ => rfl⟩, hg₃⟩

/-- The search finds the first base, or returns 0 if there is none. -/
theorem xenBaseDetect_spec {g : G} (hg : R g) :
    L.holds xenBaseDetect
      (fun b g' => (FirstBase f b ∨ b = 0 ∧ ∀ b', ¬ FirstBase f b') ∧ R g') g := by
  unfold xenBaseDetect
  refine L.loop (fun n base g => ∃ k ≤ 256, n = 256 - k ∧ base = baseAt k ∧
    (∀ j < k, ¬ IsXenBase f (baseAt j)) ∧ R g) ?_ ⟨0, by omega, rfl, rfl, by simp, hg⟩
  rintro n base g ⟨k, hk, rfl, rfl, hnone, hg⟩
  refine L.ite (fun hend => ?_) fun hin => ?_
  · refine L.pure ⟨.inr ⟨rfl, ?_⟩, hg⟩
    rintro b' ⟨k', hk', rfl, hbase, -⟩
    have hk256 : k = 256 := by
      rw [baseAt_lt_iff hk] at hend
      omega
    exact hnone k' (by omega) hbase
  · have hlt : k < 256 := (baseAt_lt_iff hk).mp (Decidable.not_not.mp hin)
    refine L.seq (hcpuid (baseAt k) g hg) ?_
    rintro r g₁ ⟨rfl, hg₁⟩
    refine L.ite (fun hbase => ?_) fun hbase => ?_
    · exact L.pure ⟨.inl ⟨k, hlt, rfl, hbase, hnone⟩, hg₁⟩
    · refine L.pure ⟨256 - (k + 1), by omega, k + 1, hlt, rfl, baseAt_succ k, ?_, hg₁⟩
      intro j hj
      rcases Nat.lt_succ_iff_lt_or_eq.mp hj with hjk | rfl
      · exact hnone j hjk
      · exact hbase

/-- `xen_hypercalls_init` writes the MSR, or does nothing. -/
theorem xenHypercallsInit_spec {image : KernelImage} {base : UInt32} {S : G → Prop}
    (hwrmsr : (f (base + 2)).eax = 1 → ∀ g, R g →
      L.holds (wrmsr (f (base + 2)).ebx image.miniosHypercallPage) (fun _ g' => S g') g)
    (hskip : (f (base + 2)).eax ≠ 1 → ∀ g, R g → S g) {g : G} (hg : R g) :
    L.holds (xenHypercallsInit image base) (fun _ g' => S g') g := by
  unfold xenHypercallsInit
  refine L.seq (hcpuid (base + 2) g hg) ?_
  rintro r g₁ ⟨rfl, hg₁⟩
  refine L.ite (fun heax => L.pure (hskip heax g₁ hg₁)) fun heax => ?_
  exact L.seq (hwrmsr (Decidable.not_not.mp heax) g₁ hg₁) fun _ _ hS => L.pure hS

end Spec

end UefiKernel.Xen
