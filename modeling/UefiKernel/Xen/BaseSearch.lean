import UefiKernel.Xen.Hypercalls

/-!
# UefiKernel.Xen.BaseSearch

What `xen_base_detect` finds, and whether it and `xen_detect` agree.

The search is for a base whose leaves reach two above it.  Its test subtracts
the base from the reported maximum leaf in 32 bits, so that a leaf which
reports a maximum below itself passes, too (`isXenBase_iff`).
`searchIsExact_iff` says when that does no harm.

`xen_detect` looks at the first candidate only and asks for less of it;
`detectionsAgree_iff` says when the two come to the same conclusion.
-/

namespace UefiKernel.Xen

open Interact Prog

/-! ## candidates -/

/-- The leaf carries the signature and reports a maximum leaf of at least two
above itself, as numbers. -/
def HasHypercallLeaf (f : UInt32 → CpuidRegs) (base : UInt32) : Prop :=
  (f base).HasSignature ∧ base.toNat + 2 ≤ (f base).eax.toNat

/-- The least base with a hypercall leaf. -/
def LeastBase (f : UInt32 → CpuidRegs) (base : UInt32) : Prop :=
  ∃ k < 256, base = baseAt k ∧ HasHypercallLeaf f base ∧ ∀ j < k, ¬ HasHypercallLeaf f (baseAt j)

section Candidates

variable {f : UInt32 → CpuidRegs}

/-- What the test of the search comes to: the difference wraps around for a
maximum below the base. -/
theorem isXenBase_iff {k : Nat} (hk : k < 256) :
    IsXenBase f (baseAt k) ↔ HasHypercallLeaf f (baseAt k) ∨
      (f (baseAt k)).HasSignature ∧ (f (baseAt k)).eax < baseAt k := by
  have hbase := toNat_baseAt (Nat.le_of_lt hk)
  have hlt := (f (baseAt k)).eax.toNat_lt
  have htest : (f (baseAt k)).eax - baseAt k ≥ hypervSignatureXen.minLeaves ↔
      (baseAt k).toNat + 2 ≤ (f (baseAt k)).eax.toNat ∨ (f (baseAt k)).eax < baseAt k := by
    rw [ge_iff_le, UInt32.le_iff_toNat_le, UInt32.lt_iff_toNat_lt, UInt32.toNat_sub, hbase]
    show 2 ≤ _ ↔ _
    omega
  rw [IsXenBase, HasHypercallLeaf, htest]
  constructor
  · rintro ⟨h | h, hsig⟩
    · exact .inl ⟨hsig, h⟩
    · exact .inr ⟨hsig, h⟩
  · rintro (⟨hsig, h⟩ | ⟨hsig, h⟩)
    · exact ⟨.inl h, hsig⟩
    · exact ⟨.inr h, hsig⟩

/-- Where there is a base, there is a first one. -/
theorem exists_firstBase {k : Nat} (hk : k < 256) (h : IsXenBase f (baseAt k)) :
    ∃ j ≤ k, IsXenBase f (baseAt j) ∧ FirstBase f (baseAt j) := by
  induction k using Nat.strongRecOn with
  | _ k ih =>
    by_cases hearlier : ∃ j < k, IsXenBase f (baseAt j)
    · obtain ⟨j, hj, hbase⟩ := hearlier
      obtain ⟨i, hi, hfirst⟩ := ih j hj (Nat.lt_trans hj hk) hbase
      exact ⟨i, Nat.le_trans hi (Nat.le_of_lt hj), hfirst⟩
    · exact ⟨k, Nat.le_refl k, h, k, hk, rfl, h, fun j hj hbase => hearlier ⟨j, hj, hbase⟩⟩

theorem baseAt_ne_zero {k : Nat} (hk : k < 256) : baseAt k ≠ 0 := by
  intro h
  have hbase := toNat_baseAt (Nat.le_of_lt hk)
  rw [h, UInt32.toNat_zero] at hbase
  omega

theorem LeastBase.ne_zero {base : UInt32} (h : LeastBase f base) : base ≠ 0 := by
  obtain ⟨k, hk, rfl, -⟩ := h
  exact baseAt_ne_zero hk

theorem FirstBase.ne_zero {base : UInt32} (h : FirstBase f base) : base ≠ 0 := by
  obtain ⟨k, hk, rfl, -⟩ := h
  exact baseAt_ne_zero hk

/-! ## the two searches as programs -/

theorem gives_x86Cpuid (level : UInt32) (g : Unit) (_ : True) :
    (givesCalculus (cpuidEnv f)).holds (x86Cpuid level) (fun r _ => r = f level ∧ True) g := by
  have he : cpuidEnv f g (.cpuid level) (f level) () := rfl
  have h : Gives (cpuidEnv f) (req (XenEvent.cpuid level)) (fun r _ => r = f level ∧ True) g :=
    gives_req ⟨f level, (), he⟩ fun r _ hr => ⟨hr, trivial⟩
  exact h

/-- What the search returns, under the test of the code. -/
theorem gives_xenBaseDetect : Gives (cpuidEnv f) xenBaseDetect
    (fun b _ => FirstBase f b ∨ b = 0 ∧ ∀ b', ¬ FirstBase f b') () := by
  have h := xenBaseDetect_spec (L := givesCalculus (cpuidEnv f)) (f := f) (R := fun _ => True)
    gives_x86Cpuid (g := ()) trivial
  exact Gives.mono (fun _ _ hb => hb.1) h

end Candidates

/-! ## the base -/

/-- `xen_base_detect` returns the least base with a hypercall leaf, or 0 if there
is none. -/
def SearchIsExact (f : UInt32 → CpuidRegs) : Prop :=
  Gives (cpuidEnv f) xenBaseDetect
    (fun b _ => LeastBase f b ∨ b = 0 ∧ ∀ b', ¬ LeastBase f b') ()

/-- A candidate that carries the signature and reports a maximum below itself
comes after one with a hypercall leaf. -/
def MisreportsComeLater (f : UInt32 → CpuidRegs) : Prop :=
  ∀ k < 256, (f (baseAt k)).HasSignature → (f (baseAt k)).eax < baseAt k →
    ∃ j < k, HasHypercallLeaf f (baseAt j)

section Search

variable {f : UInt32 → CpuidRegs}

theorem searchIsExact_of_later (h : MisreportsComeLater f) : SearchIsExact f := by
  refine Gives.mono ?_ gives_xenBaseDetect
  rintro b - (⟨k, hk, rfl, hbase, hmin⟩ | ⟨rfl, hnone⟩)
  · have hnot : ∀ j < k, ¬ HasHypercallLeaf f (baseAt j) := by
      intro j hj hleaf
      exact hmin j hj ((isXenBase_iff (Nat.lt_trans hj hk)).mpr (.inl hleaf))
    rcases (isXenBase_iff hk).mp hbase with hleaf | ⟨hsig, hbelow⟩
    · exact .inl ⟨k, hk, rfl, hleaf, hnot⟩
    · obtain ⟨j, hj, hleaf⟩ := h k hk hsig hbelow
      exact absurd hleaf (hnot j hj)
  · refine .inr ⟨rfl, ?_⟩
    rintro b' ⟨k, hk, rfl, hleaf, -⟩
    obtain ⟨j, -, -, hfirst⟩ := exists_firstBase hk ((isXenBase_iff hk).mpr (.inl hleaf))
    exact hnone _ hfirst

theorem later_of_searchIsExact (h : SearchIsExact f) : MisreportsComeLater f := by
  intro k hk hsig hbelow
  obtain ⟨j, hj, -, hfirst⟩ := exists_firstBase hk ((isXenBase_iff hk).mpr (.inr ⟨hsig, hbelow⟩))
  -- the code stops at this base, so it has a hypercall leaf
  obtain ⟨b, g, hrun, hexact⟩ := h.exists_run
  have hfound := gives_xenBaseDetect.2 b g hrun
  have hb : b = baseAt j := by
    rcases hfound with hb | ⟨-, hnone⟩
    · exact hb.unique hfirst
    · exact absurd hfirst (hnone _)
  subst hb
  rcases hexact with ⟨i, hi, heq, hleaf, -⟩ | ⟨hzero, -⟩
  · refine ⟨j, Nat.lt_of_le_of_ne hj ?_, hleaf⟩
    rintro rfl
    have := UInt32.lt_iff_toNat_lt.mp hbelow
    have := hleaf.2
    omega
  · exact absurd hzero (baseAt_ne_zero (Nat.lt_of_le_of_lt hj hk))

/-- **The base search is exact** exactly if no candidate that reports a maximum
below itself comes before the least base. -/
theorem searchIsExact_iff : SearchIsExact f ↔ MisreportsComeLater f :=
  ⟨later_of_searchIsExact, searchIsExact_of_later⟩

end Search

/-- A hypervisor with Xen's signature and nothing to report. -/
def cpuidNoLeaves : UInt32 → CpuidRegs := fun level =>
  if level = 0 then ⟨13, 0, 0, 0⟩
  else if level = 1 then ⟨0, 0, 0x80000000, 0⟩
  else if level = 0x40000000 then ⟨0, 0x566e6558, 0x65584d4d, 0x4d4d566e⟩
  else ⟨0, 0, 0, 0⟩

/-- The search takes its leaf for a base. -/
theorem search_takes_no_leaves : ¬ ∀ f, SearchIsExact f := by
  intro h
  obtain ⟨k, hk, hleaf⟩ := later_of_searchIsExact (h cpuidNoLeaves) 0 (by decide) (by decide)
    (by decide)
  exact absurd hk (Nat.not_lt_zero k)

/-! ## the two detections -/

/-- `xen_detect`, and right after it `xen_base_detect`. -/
def detections : XenM (Hypervisor × UInt32) := do
  let hyperv ← xenDetect
  let base ← xenBaseDetect
  return (hyperv, base)

/-- One finds Xen exactly if the other finds a base. -/
def DetectionsAgree (f : UInt32 → CpuidRegs) : Prop :=
  Gives (cpuidEnv f) detections (fun r _ => r.1 = .xen ↔ r.2 ≠ 0) ()

/-- A candidate after the first that passes the test of the search. -/
def LaterBase (f : UInt32 → CpuidRegs) : Prop :=
  ∃ k, 0 < k ∧ k < 256 ∧ IsXenBase f (baseAt k)

/-- With the signature at the first candidate: its maximum leaf is at least two
above it, or it is not below it and there is a later base.  Without: there is
no later base. -/
def FirstCandidateDecides (f : UInt32 → CpuidRegs) : Prop :=
  if (f 0x40000000).HasSignature then
    0x40000002 ≤ (f 0x40000000).eax ∨ 0x40000000 ≤ (f 0x40000000).eax ∧ LaterBase f
  else ¬ LaterBase f

section Detections

variable {f : UInt32 → CpuidRegs}

/-- Some candidate passes the test. -/
def AnyBase (f : UInt32 → CpuidRegs) : Prop := ∃ k < 256, IsXenBase f (baseAt k)

/-- What the two return. -/
theorem gives_detections : Gives (cpuidEnv f) detections
    (fun r _ => (r.1 = .xen ↔ XenDetected f) ∧ (r.2 ≠ 0 ↔ AnyBase f)) () := by
  have hdetect := xenDetect_spec (L := givesCalculus (cpuidEnv f)) (f := f) (R := fun _ => True)
    gives_x86Cpuid (g := ()) trivial
  refine Gives.seq hdetect ?_
  rintro hyperv ⟨⟩ ⟨hiff, -⟩
  refine Gives.seq gives_xenBaseDetect ?_
  rintro base ⟨⟩ hbase
  refine gives_ret ⟨hiff, fun hne => ?_, ?_⟩
  · rcases hbase with ⟨k, hk, rfl, hbase, -⟩ | ⟨hzero, -⟩
    · exact ⟨k, hk, hbase⟩
    · exact absurd hzero hne
  · rintro ⟨k, hk, hx⟩
    rcases hbase with hfirst | ⟨-, hnone⟩
    · exact hfirst.ne_zero
    · obtain ⟨j, -, -, hfirst⟩ := exists_firstBase hk hx
      exact absurd hfirst (hnone _)

/-- The agreement, as a property of CPUID. -/
theorem detectionsAgree_iff_anyBase : DetectionsAgree f ↔ (XenDetected f ↔ AnyBase f) := by
  constructor
  · intro h
    obtain ⟨r, g, hrun, hagree⟩ := h.exists_run
    obtain ⟨hdetect, hbase⟩ := gives_detections.2 r g hrun
    rw [← hdetect, ← hbase]
    exact hagree
  · intro h
    refine Gives.mono ?_ gives_detections
    rintro r g ⟨hdetect, hbase⟩
    rw [hdetect, hbase]
    exact h

/-- The first candidate is the one `xen_detect` looks at. -/
theorem anyBase_iff : AnyBase f ↔ IsXenBase f 0x40000000 ∨ LaterBase f := by
  constructor
  · rintro ⟨k, hk, hx⟩
    rcases Nat.eq_zero_or_pos k with rfl | hpos
    · exact .inl hx
    · exact .inr ⟨k, hpos, hk, hx⟩
  · rintro (hx | ⟨k, -, hk, hx⟩)
    · exact ⟨0, by decide, hx⟩
    · exact ⟨k, hk, hx⟩

/-- The search's test at the first candidate. -/
theorem isXenBase_first_iff : IsXenBase f 0x40000000 ↔ (f 0x40000000).HasSignature ∧
    (0x40000002 ≤ (f 0x40000000).eax ∨ (f 0x40000000).eax < 0x40000000) := by
  have hzero : baseAt 0 = 0x40000000 := rfl
  have h := isXenBase_iff (f := f) (k := 0) (by decide)
  rw [hzero, HasHypercallLeaf] at h
  have hle : (0x40000000 : UInt32).toNat + 2 ≤ (f 0x40000000).eax.toNat ↔
      0x40000002 ≤ (f 0x40000000).eax := by
    rw [UInt32.le_iff_toNat_le]
    rfl
  rw [h, hle, ← and_or_left]

/-- **The two detections agree**, given the hypervisor bit, exactly if the first
candidate decides. -/
theorem detectionsAgree_iff (hmax : 1 ≤ (f 0).eax)
    (hbit : (f 1).ecx &&& ((1 : UInt32) <<< 31) ≠ 0) :
    DetectionsAgree f ↔ FirstCandidateDecides f := by
  have hdetected : XenDetected f ↔
      0x40000000 ≤ (f 0x40000000).eax ∧ (f 0x40000000).HasSignature :=
    ⟨fun h => h.2.2, fun h => ⟨hmax, hbit, h⟩⟩
  rw [detectionsAgree_iff_anyBase, anyBase_iff, hdetected, isXenBase_first_iff,
    FirstCandidateDecides]
  by_cases hsig : (f 0x40000000).HasSignature
  · rw [if_pos hsig]
    simp only [hsig, true_and, and_true]
    constructor
    · intro h
      by_cases hlow : 0x40000000 ≤ (f 0x40000000).eax
      · rcases h.mp hlow with (hle | hlt) | hlater
        · exact .inl hle
        · exact absurd hlow (UInt32.not_le.mpr hlt)
        · exact .inr ⟨hlow, hlater⟩
      · exact absurd (h.mpr (.inl (.inr (UInt32.not_le.mp hlow)))) hlow
    · have hstep : (0x40000000 : UInt32) ≤ 0x40000002 := by decide
      rintro (hle | ⟨hlow, hlater⟩)
      · exact ⟨fun _ => .inl (.inl hle), fun _ => UInt32.le_trans hstep hle⟩
      · exact ⟨fun _ => .inr hlater, fun _ => hlow⟩
  · rw [if_neg hsig]
    simp only [hsig, false_and, and_false, false_or, false_iff]

end Detections

/-- Xen at the second candidate, behind another hypervisor's leaves. -/
def cpuidSecondBase : UInt32 → CpuidRegs := fun level =>
  if level = 0 then ⟨13, 0, 0, 0⟩
  else if level = 1 then ⟨0, 0, 0x80000000, 0⟩
  else if level = 0x40000000 then ⟨0x40000006, 0x7263694d, 0x666f736f, 0x76482074⟩
  else if level = 0x40000100 then ⟨0x40000102, 0x566e6558, 0x65584d4d, 0x4d4d566e⟩
  else ⟨0, 0, 0, 0⟩

theorem detectionsAgree_twoPages : DetectionsAgree cpuidTwoPages := by
  have hdecides : FirstCandidateDecides cpuidTwoPages := by
    rw [FirstCandidateDecides, if_pos (by decide)]
    exact .inl (by decide)
  exact (detectionsAgree_iff (by decide) (by decide)).mpr hdecides

/-- The search finds it, `xen_detect` does not. -/
theorem detections_disagree : ¬ ∀ f : UInt32 → CpuidRegs, 1 ≤ (f 0).eax →
    (f 1).ecx &&& ((1 : UInt32) <<< 31) ≠ 0 → DetectionsAgree f := by
  intro h
  have hagree := h cpuidSecondBase (by decide) (by decide)
  rw [detectionsAgree_iff_anyBase] at hagree
  have hbase : IsXenBase cpuidSecondBase (baseAt 1) := by
    refine ⟨?_, ?_, ?_, ?_⟩ <;> decide
  have hdetected := hagree.mpr ⟨1, by decide, hbase⟩
  exact absurd hdetected.2.2.2.1 (by decide)

end UefiKernel.Xen
