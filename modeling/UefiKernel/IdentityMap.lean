import UefiKernel.AddressSpace
import UefiKernel.Boot.Efi

/-!
# UefiKernel.IdentityMap

The identity map of the first kernel (`page_table_init` in
`Assignment_1/kernel.c`), and `page_table_init_kernel` of the last one beside
it.

The two builders were edited apart from each other.  Laid next to one another
(`run_pageTableInit`) they store the same entries in the same order, except
that the later one stops one entry short: nothing writes the last entry of its
PML4.  So the first leaves an exact identity map whatever memory held before,
and the second does so exactly when memory held a zero there.
-/

namespace UefiKernel

open Store Store.StoreM

/-! ## the builder -/

/-- `page_table_init` of `Assignment_1/kernel.c`: build the 4 GiB identity map
at `base` and return the address of its PML4. -/
def pageTableInit (base : UInt64) : TableM UInt64 := do
  let numPte : UInt32 := 1048576
  let numPde := numPte / 512
  let numPdpe := numPde / 512
  let numPml4 := numPdpe / 4
  let pte := base
  forRange 0 numPte.toNat fun i => setEntry pte i (0x1000 * UInt32.ofNat i + 0x3).toUInt64
  let pde := entryPtr pte numPte.toNat
  forRange 0 numPde.toNat fun j => setEntry pde j (entryPtr pte (512 * j) + 0x3)
  let pdpe := entryPtr pde numPde.toNat
  forRange 0 numPdpe.toNat fun k => setEntry pdpe k (entryPtr pde (512 * k) + 0x3)
  forRange numPdpe.toNat 512 fun k => setEntry pdpe k 0
  let pml4e := entryPtr pdpe 512
  forRange 0 numPml4.toNat fun m => setEntry pml4e m (entryPtr pdpe (512 * m) + 0x3)
  forRange numPml4.toNat 512 fun m => setEntry pml4e m 0
  return pml4e

/-- `page_table_pages` in `efi_main` of `Assignment_1/boot.c`. -/
def pageTablePages : UInt64 := Boot.efiSizeToPages (0x800000 + 0x4000 + 0x2000 + 0x1000)

/-- Entry `n` of an identity map at `base`, of all four levels. -/
def identityTable (base : UInt64) (n : Nat) : UInt64 :=
  kernelTable { (default : Information) with kernelPtBase := base } (fun _ => 0) n

theorem identityTable_kernelPtBase (info : Information) :
    identityTable info.kernelPtBase = kernelTable info fun _ => 0 := rfl

/-- `page_table_init` is `page_table_init_kernel` and one more store, which
clears the last entry of the PML4. -/
theorem run_pageTableInit (info : Information) (m : PhysMem)
    (h : info.kernelPtBase.toNat + 8 * kernelSlots ≤ 2 ^ 64) :
    pageTableInit info.kernelPtBase m = (entryPtr info.kernelPtBase 1051136,
      (kernelStores info ++ [(1051647, 0)]).map
        (Prod.map (slot info.kernelPtBase.toNat) id)) := by
  simp only [kernelSlots] at h
  have h0 : (1048576 : UInt32).toNat = 1048576 := rfl
  have h1 : (1048576 / 512 : UInt32).toNat = 2048 := rfl
  have h2 : (1048576 / 512 / 512 : UInt32).toNat = 4 := rfl
  have h3 : (1048576 / 512 / 512 / 4 : UInt32).toNat = 1 := rfl
  -- the last loop, split before its last store
  have hlast : fill (fun i => (entryPtr info.kernelPtBase (1051136 + i)).toNat)
      (fun _ => (0 : UInt64)) 1 512 =
      fill (fun i => (entryPtr info.kernelPtBase (1051136 + i)).toNat) (fun _ => 0) 1 511 ++
        [(slot info.kernelPtBase.toNat 1051647, 0)] := by
    rw [← toNat_entryPtr (by omega)]
    exact fill_succ_right (by decide)
  simp only [pageTableInit, setEntry, h0, h1, h2, h3, run_bind, run_forRange_store, run_pure,
    entryPtr_entryPtr, kernelStores, List.map_append, List.append_nil, List.append_assoc,
    List.map_cons, List.map_nil, Prod.map, id]
  rw [hlast, fill_entryPtr_zero _ (by omega), fill_entryPtr _ (by omega),
    fill_entryPtr _ (by omega), fill_entryPtr _ (by omega), fill_entryPtr _ (by omega),
    fill_entryPtr _ (by omega)]

/-! ## what memory holds -/

/-- The memory `m` holds an identity map at `base`, in every entry of all four
levels. -/
def IdentityMapIn (base : UInt64) (m : PhysMem) : Prop :=
  ∀ n < kernelSlots, m (slot base.toNat n) = identityTable base n

/-- `page_table_init` leaves an identity map, whatever memory held before. -/
theorem identityMapIn_pageTableInit {base : UInt64} (h : base.toNat + 8 * kernelSlots ≤ 2 ^ 64)
    (m : PhysMem) : IdentityMapIn base (exec (pageTableInit base) m) := by
  intro n hn
  obtain ⟨info, rfl⟩ : ∃ info : Information, info.kernelPtBase = base :=
    ⟨{ (default : Information) with kernelPtBase := base }, rfl⟩
  rw [exec, run_pageTableInit info m h, replay_map (slot_injective _), replay_append,
    replay_cons, replay_nil, Function.update_apply, replay_kernelStores, identityTable_kernelPtBase]
  simp only [kernelSlots] at hn
  split_ifs with hlast
  · simp [hlast, kernelTable]
  · have hn' : n < 1051647 := by omega
    simp only [kernelTable]
    split_ifs <;> rfl

/-- `page_table_init_kernel` leaves an identity map in all entries but the
last, which keeps what memory held. -/
theorem exec_pageTableInitKernel_identity {info : Information} {m : PhysMem}
    (h : info.kernelPtBase.toNat + 8 * kernelSlots ≤ 2 ^ 64) {n : Nat} (hn : n < kernelSlots) :
    exec (pageTableInitKernel info) m (slot info.kernelPtBase.toNat n) =
      if n = 1051647 then m (slot info.kernelPtBase.toNat 1051647)
      else identityTable info.kernelPtBase n := by
  rw [exec_pageTableInitKernel_slot info m h, identityTable_kernelPtBase]
  simp only [kernelSlots] at hn
  split_ifs with hlast
  · simp [hlast, kernelTable]
  · have hn' : n < 1051647 := by omega
    simp only [kernelTable]
    split_ifs <;> rfl

/-! ## the walk -/

section Walk

variable {info : Information} (hb : IsBlock info.kernelPtBase.toNat 2054) {m : PhysMem}
  (hm : IdentityMapIn info.kernelPtBase m)

include hb

theorem frame_kernelPml4 : Entry.frame info.kernelPml4 = slot info.kernelPtBase.toNat 1051136 := by
  obtain ⟨ha, hf⟩ := hb
  simp only [pageSize] at ha hf
  rw [Entry.frame, Information.kernelPml4, toNat_entryPtr (by omega)]
  simp only [slot]
  omega

include hm

theorem walk_kernelPml4_zero {v : UInt64} (hv : v.toNat < 2 ^ 39) :
    walk m info.kernelPml4 v =
      walkFrom m v 3 (slot info.kernelPtBase.toNat 1050624) true false := by
  have hidx : tableIndex 3 v = 0 := by simp only [tableIndex]; omega
  have he : (m (slot info.kernelPtBase.toNat 1051136 + 8 * tableIndex 3 v)).toNat =
      slot info.kernelPtBase.toNat 1050624 + 3 := by
    have hk : identityTable info.kernelPtBase 1051136 =
        entryPtr info.kernelPtBase 1050624 + 0x3 := by
      rw [identityTable_kernelPtBase]
      grind [kernelTable]
    rw [hidx, slot_add, hm _ (by decide), hk, toNat_kernelPtr hb (by decide)]
  rw [walk, frame_kernelPml4 hb,
    walkFrom_entry he (isPage_kernelTable hb (by decide) (by decide)) (.inl rfl)]
  rfl

/-- The low 4 GiB are mapped one to one. -/
theorem walk_identityMap {v : UInt64} (hv : v.toNat < 2 ^ 32) :
    walk m info.kernelPml4 v = some ⟨v.toNat, true, false⟩ := by
  rw [walk_kernelPml4_zero hb hm (by omega)]
  exact walkFrom_identity hb (fun n hn => hm n (by simp only [kernelSlots]; omega)) hv

/-- Nothing is mapped from 4 GiB up. -/
theorem walk_identityMap_above {v : UInt64} (hcan : Canonical v) (hv : 2 ^ 32 ≤ v.toNat) :
    walk m info.kernelPml4 v = none := by
  rcases Nat.lt_or_ge v.toNat (2 ^ 39) with h39 | h39
  · rw [walk_kernelPml4_zero hb hm h39]
    exact walkFrom_above_identity (fun n hn => hm n (by simp only [kernelSlots]; omega)) hv h39
  · rw [walk, frame_kernelPml4 hb]
    refine walkFrom_zero ?_
    -- the lower half of the address space, or the upper one
    have hi : 0 < tableIndex 3 v ∧ tableIndex 3 v < 512 := by
      have := v.toNat_lt
      simp only [tableIndex, Canonical] at *
      omega
    rw [slot_add, hm _ (by simp only [kernelSlots]; omega), identityTable_kernelPtBase]
    grind [kernelTable]

end Walk

/-! ## the first kernel's map -/

theorem toNat_pageTablePages : pageTablePages.toNat = 2055 := by decide

/-- **Exactness.** The tables that `page_table_init` builds map the low 4 GiB
one to one and nothing else, whatever memory held before, and every store is
inside the pages that `efi_main` allocated. -/
theorem pageTableInit_exact {base : UInt64} (hb : IsBlock base.toNat pageTablePages.toNat)
    (m : PhysMem) :
    (∀ v : UInt64, v.toNat < 2 ^ 32 →
      walk (exec (pageTableInit base) m) (pageTableInit base m).1 v =
        some ⟨v.toNat, true, false⟩) ∧
    (∀ v : UInt64, Canonical v → 2 ^ 32 ≤ v.toNat →
      walk (exec (pageTableInit base) m) (pageTableInit base m).1 v = none) ∧
    ∀ s ∈ (pageTableInit base m).2,
      base.toNat ≤ s.1 ∧ s.1 + 8 ≤ base.toNat + pageTablePages.toNat * pageSize := by
  obtain ⟨info, rfl⟩ : ∃ info : Information, info.kernelPtBase = base :=
    ⟨{ (default : Information) with kernelPtBase := base }, rfl⟩
  rw [toNat_pageTablePages] at hb ⊢
  obtain ⟨ha, hf⟩ := hb
  have h64 : info.kernelPtBase.toNat + 8 * kernelSlots ≤ 2 ^ 64 := by
    simp only [kernelSlots, pageSize] at *
    omega
  have hb : IsBlock info.kernelPtBase.toNat 2054 := ⟨ha, by simp only [pageSize] at *; omega⟩
  have hm := identityMapIn_pageTableInit h64 m
  have hret : (pageTableInit info.kernelPtBase m).1 = info.kernelPml4 := by
    rw [run_pageTableInit info m h64]
    rfl
  rw [hret]
  refine ⟨fun v hv => walk_identityMap hb hm hv,
    fun v hcan hv => walk_identityMap_above hb hm hcan hv, ?_⟩
  intro s hs
  rw [run_pageTableInit info m h64] at hs
  obtain ⟨t, ht, rfl⟩ := List.mem_map.mp hs
  have hlt : t.1 < kernelSlots := by
    rcases List.mem_append.mp ht with hk | hlast
    · exact lt_kernelSlots info t hk
    · rw [List.mem_singleton.mp hlast]
      decide
  simp only [Prod.map, slot, kernelSlots, pageSize] at *
  omega

/-- The map at 1 MiB. -/
theorem pageTableInit_exact_sample :
    walk (exec (pageTableInit 0x100000) fun _ => 0xFF) (pageTableInit 0x100000 fun _ => 0xFF).1
      0xFEE00000 = some ⟨0xFEE00000, true, false⟩ := by
  have hb : IsBlock (0x100000 : UInt64).toNat pageTablePages.toNat := ⟨by decide, by decide⟩
  exact (pageTableInit_exact hb fun _ => 0xFF).1 0xFEE00000 (by decide)

/-! ## the last kernel's map -/

/-- What `page_table_init_kernel` leaves to chance: nothing, if any two prior
memories end with the same entries, the ones that `page_table_init` leaves,
and neither map reaches 4 GiB. -/
structure LeavesNothingToChance (info : Information) (m m' : PhysMem) : Prop where
  same : ∀ n < kernelSlots,
    exec (pageTableInitKernel info) m (slot info.kernelPtBase.toNat n) =
      exec (pageTableInitKernel info) m' (slot info.kernelPtBase.toNat n)
  first : ∀ n < kernelSlots,
    exec (pageTableInitKernel info) m (slot info.kernelPtBase.toNat n) =
      exec (pageTableInit info.kernelPtBase) m (slot info.kernelPtBase.toNat n)
  above : ∀ v : UInt64, Canonical v → 2 ^ 32 ≤ v.toNat →
    walk (exec (pageTableInitKernel info) m) (pageTableInitKernel info m).1 v = none

/-- The entry no loop writes must be clear already: the prior memories hold
zero in the last entry of the PML4. -/
theorem leavesNothingToChance_iff {info : Information} (hb : IsBlock info.kernelPtBase.toNat 2054)
    (m m' : PhysMem) :
    LeavesNothingToChance info m m' ↔
      m (slot info.kernelPtBase.toNat 1051647) = 0 ∧
        m' (slot info.kernelPtBase.toNat 1051647) = 0 := by
  have h64 : info.kernelPtBase.toNat + 8 * kernelSlots ≤ 2 ^ 64 := by
    obtain ⟨-, hf⟩ := hb
    simp only [kernelSlots, pageSize] at *
    omega
  have hlt : 1051647 < kernelSlots := by decide
  have hfirst := identityMapIn_pageTableInit h64 m
  have hlast : identityTable info.kernelPtBase 1051647 = 0 := by
    rw [identityTable_kernelPtBase]
    grind [kernelTable]
  constructor
  · rintro ⟨hsame, heq, -⟩
    have h := heq _ hlt
    have h' := hsame _ hlt
    rw [exec_pageTableInitKernel_identity h64 hlt, if_pos rfl] at h h'
    rw [exec_pageTableInitKernel_identity h64 hlt, if_pos rfl] at h'
    rw [hfirst _ hlt, hlast] at h
    exact ⟨h, h' ▸ h⟩
  · rintro ⟨h, h'⟩
    have hm : ∀ {μ : PhysMem}, μ (slot info.kernelPtBase.toNat 1051647) = 0 →
        IdentityMapIn info.kernelPtBase (exec (pageTableInitKernel info) μ) := by
      intro μ hμ n hn
      rw [exec_pageTableInitKernel_identity h64 hn]
      split_ifs with hn'
      · rw [hμ, hn', hlast]
      · rfl
    have hret : (pageTableInitKernel info m).1 = info.kernelPml4 := by
      rw [run_pageTableInitKernel info m h64]
      rfl
    refine ⟨fun n hn => ?_, fun n hn => ?_, fun v hcan hv => ?_⟩
    · rw [hm h n hn, hm h' n hn]
    · rw [hm h n hn, hfirst n hn]
    · rw [hret]
      exact walk_identityMap_above hb (hm h) hcan hv

/-- Clear memory, at 1 MiB. -/
theorem leavesNothingToChance_clear :
    LeavesNothingToChance { (default : Information) with kernelPtBase := 0x100000 }
      (fun _ => 0) fun _ => 0 :=
  (leavesNothingToChance_iff ⟨by decide, by decide⟩ _ _).mpr ⟨rfl, rfl⟩

/-- Over a page that holds other data the last entry of the PML4 survives. -/
theorem pml4_last_left_over :
    ¬ LeavesNothingToChance { (default : Information) with kernelPtBase := 0x100000 }
      (fun _ => 0) fun _ => 0x7 := by
  intro h
  have hlast := h.same 1051647 (by decide)
  rw [exec_pageTableInitKernel_identity (by decide) (by decide), if_pos rfl,
    exec_pageTableInitKernel_identity (by decide) (by decide), if_pos rfl] at hlast
  exact absurd hlast (by decide)

end UefiKernel
