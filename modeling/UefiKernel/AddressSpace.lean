import UefiKernel.TableImage

/-!
# UefiKernel.AddressSpace

What the page tables are for, stated without page tables: an address space is
a function from virtual addresses to mappings.  `addressSpace` is the one the
kernel means to build — the low 4 GiB one to one for the supervisor, and a
window in the top gigabyte for the user.

`walk_eq_addressSpace` is the refinement: in every memory that holds the
tables of `UefiKernel.TableImage`, the processor's four-level walk of any
canonical address is the address space's answer.
-/

namespace UefiKernel

open Store Store.StoreM

/-! ## the address space -/

/-- The first address of the user window, the last gigabyte. -/
def windowBase : Nat := 0xFFFFFFFFC0000000

/-- The first physical page of the user stack. -/
def Information.stackBase (info : Information) : Nat :=
  info.userStackBuffer.toNat - info.numUserStackPages.toNat * pageSize

/-- The physical page at index `i` of the user window; `faulted` says whether
the page-fault handler has run. -/
def userPage (info : Information) (faulted : Bool) (i : Nat) : Option Nat :=
  if i = 511 then (if faulted then some info.extraPageForException.toNat else none)
  else if i = 510 then some info.tlsBuffer.toNat
  else if i < info.numUserStackPages.toNat then some (info.stackBase + i * pageSize)
  else if i < info.numUserPtes.toNat then
    some (info.userAppBuffer.toNat + (i - info.numUserStackPages.toNat) * pageSize)
  else none

/-- The address space of the kernel and its user program. -/
def addressSpace (info : Information) (faulted : Bool) (v : UInt64) : Option Mapping :=
  if v.toNat < 2 ^ 32 then some ⟨v.toNat, true, false⟩
  else if windowBase ≤ v.toNat then
    (userPage info faulted ((v.toNat - windowBase) / pageSize)).map fun p =>
      ⟨p + v.toNat % pageSize, true, true⟩
  else none

/-! ## the tables in memory -/

/-- The two blocks of tables are whole pages of physical memory, and apart. -/
structure Information.TablesPlaced (info : Information) : Prop where
  kernelPt : IsBlock info.kernelPtBase.toNat 2054
  userPt : IsBlock info.userPtBase.toNat 4
  apart : Apart info.kernelPtBase.toNat 2054 info.userPtBase.toNat 4

/-- Everything the record points at is whole pages of physical memory. -/
structure Information.Placed (info : Information) : Prop extends info.TablesPlaced where
  stackRoom : info.numUserStackPages.toNat * pageSize ≤ info.userStackBuffer.toNat
  stack : IsBlock info.stackBase info.numUserStackPages.toNat
  app : IsBlock info.userAppBuffer.toNat
    (info.numUserPtes.toNat - info.numUserStackPages.toNat)
  tls : IsPage info.tlsBuffer.toNat
  extra : IsPage info.extraPageForException.toNat

/-- PML4 entry 0, of the kernel's tables and copied into the user's. -/
def Information.lowerHalf (info : Information) : UInt64 := entryPtr info.kernelPtBase 1050624 + 0x3

/-- The memory `m` holds the kernel's tables, and the user's PML4 leads there.
This is all that the low 4 GiB depend on. -/
structure KernelTablesIn (info : Information) (m : PhysMem) : Prop where
  kernel : ∀ n < 1051647, m (slot info.kernelPtBase.toNat n) = kernelTable info (fun _ => 0) n
  lower : m (slot info.userPtBase.toNat 1536) = info.lowerHalf

/-- The memory `m` holds both blocks of tables. -/
structure TablesIn (info : Information) (redef : UInt8) (m : PhysMem) : Prop extends
    KernelTablesIn info m where
  user : ∀ n < userSlots, m (slot info.userPtBase.toNat n) =
    userTable info redef info.lowerHalf n

/-- The value of `CR3`: the PML4 of the user block. -/
def Information.userPml4 (info : Information) : UInt64 := entryPtr info.userPtBase 1536

/-- The PML4 of the kernel block. -/
def Information.kernelPml4 (info : Information) : UInt64 := entryPtr info.kernelPtBase 1051136

/-- An entry pointing at table `n` of a block. -/
theorem toNat_entryPtr_add {t : UInt64} {n : Nat} (f : UInt64) (hf : f.toNat ≤ 7)
    (h : t.toNat + 8 * n ≤ 2 ^ 52) : (entryPtr t n + f).toNat = slot t.toNat n + f.toNat := by
  have ht := toNat_entryPtr (t := t) (i := n) (by omega)
  simp only [slot] at *
  rw [UInt64.toNat_add, ht]
  omega

/-- `addr + flags` for a page-aligned address below the flags. -/
theorem toNat_add_flags {a f : UInt64} (ha : a.toNat % pageSize = 0) (hf : f.toNat ≤ 7) :
    (a + f).toNat = a.toNat + f.toNat := by
  have h := a.toNat_lt
  simp only [pageSize] at ha
  rw [UInt64.toNat_add]
  omega

theorem isPage_slot {base n pages : Nat} (hb : IsBlock base pages) (hn : n % 512 = 0)
    (h : n < 512 * pages) : IsPage (slot base n) := by
  obtain ⟨ha, hf⟩ := hb
  simp only [IsPage, slot, pageSize] at *
  omega

/-! ## the leaf entries -/

theorem IsBlock.isPage {base pages i : Nat} (hb : IsBlock base pages) (hi : i < pages) :
    IsPage (base + i * pageSize) := by
  obtain ⟨ha, hf⟩ := hb
  simp only [IsPage, pageSize] at *
  omega

/-- The 32-bit product `0x1000 * i` does not wrap for a page of the window. -/
theorem toNat_pageOffset {x : UInt32} (h : x.toNat < 512) :
    (0x1000 * x).toUInt64.toNat = 0x1000 * x.toNat := by
  simp only [UInt32.toNat_toUInt64, UInt32.toNat_mul, UInt32.reduceToNat]
  omega

theorem toNat_userStackEntry {info : Information} {i : Nat}
    (hs : info.numUserStackPages.toNat < 512)
    (hroom : info.numUserStackPages.toNat * pageSize ≤ info.userStackBuffer.toNat)
    (hb : IsBlock info.stackBase info.numUserStackPages.toNat)
    (hi : i < info.numUserStackPages.toNat) :
    (userStackEntry info i).toNat = info.stackBase + i * pageSize + 7 := by
  have hi32 : (UInt32.ofNat i).toNat = i := by simp; omega
  have hoff := toNat_pageOffset (x := UInt32.ofNat i) (by omega)
  have hsz := toNat_pageOffset (x := info.numUserStackPages) hs
  obtain ⟨-, hf⟩ := hb
  simp only [Information.stackBase, pageSize] at *
  rw [userStackEntry, UInt32.mul_comm info.numUserStackPages, UInt64.toNat_add, UInt64.toNat_add,
    UInt64.toNat_sub, hoff, hsz, hi32]
  simp only [UInt64.reduceToNat]
  omega

theorem toNat_userAppEntry {info : Information} {i n : Nat}
    (hs : info.numUserStackPages.toNat ≤ i) (hi512 : i < 512)
    (hb : IsBlock info.userAppBuffer.toNat n) (hi : i - info.numUserStackPages.toNat < n) :
    (userAppEntry info i).toNat =
      info.userAppBuffer.toNat + (i - info.numUserStackPages.toNat) * pageSize + 7 := by
  have hi32 : (UInt32.ofNat i).toNat = i := by simp; omega
  have htemp : (UInt32.ofNat i - info.numUserStackPages).toNat =
      i - info.numUserStackPages.toNat := by
    rw [UInt32.toNat_sub, hi32]
    have := info.numUserStackPages.toNat_lt
    omega
  have hoff := toNat_pageOffset (x := UInt32.ofNat i - info.numUserStackPages) (by omega)
  obtain ⟨-, hf⟩ := hb
  simp only [pageSize] at *
  rw [userAppEntry, UInt64.toNat_add, UInt64.toNat_add, hoff, htemp]
  simp only [UInt64.reduceToNat]
  omega

/-- The user page table holds the frames of `userPage`. -/
theorem userTable_leaf {info : Information} (hc : info.Counts) (hp : info.Placed) (redef : UInt8)
    (lower : UInt64) {i : Nat} (hi : i < 512) :
    (∃ p, userPage info (redef = 1) i = some p ∧ IsPage p ∧
      (userTable info redef lower i).toNat = p + 7) ∨
    (userPage info (redef = 1) i = none ∧ userTable info redef lower i = 0) := by
  obtain ⟨hle, hn, -, -, -⟩ := hc
  obtain ⟨-, hroom, hstack, happ, htls, hextra⟩ := hp
  by_cases h511 : i = 511
  · by_cases hr : redef = 1
    · left
      refine ⟨_, by simp [userPage, h511, hr], hextra, ?_⟩
      simp [userTable, h511, hr, toNat_add_flags hextra.1 (f := 7) (by decide)]
    · right
      simp [userPage, userTable, h511, hr]
  by_cases h510 : i = 510
  · left
    refine ⟨_, by simp [userPage, h510], htls, ?_⟩
    simp [userTable, h510, toNat_add_flags htls.1 (f := 7) (by decide)]
  by_cases hs : i < info.numUserStackPages.toNat
  · left
    refine ⟨info.stackBase + i * pageSize, by simp [userPage, h511, h510, hs],
      hstack.isPage hs, ?_⟩
    rw [userTable, if_neg h511, if_neg h510, if_pos hs]
    exact toNat_userStackEntry (by omega) hroom hstack hs
  by_cases hi' : i < info.numUserPtes.toNat
  · left
    refine ⟨info.userAppBuffer.toNat + (i - info.numUserStackPages.toNat) * pageSize,
      by simp [userPage, h511, h510, hs, hi'], happ.isPage (by omega), ?_⟩
    rw [userTable, if_neg h511, if_neg h510, if_neg hs, if_pos hi']
    exact toNat_userAppEntry (by omega) (by omega) happ (by omega)
  right
  grind [userPage, userTable]

theorem userPage_eq_none {info : Information} (hc : info.Counts) {faulted : Bool} {i : Nat}
    (hi : 512 ≤ i) : userPage info faulted i = none := by
  have := hc.ptes_lt
  have := hc.stack_le
  grind [userPage]

/-! ## the walk from the kernel's PDPT -/

section Identity

variable {info : Information} (hb : IsBlock info.kernelPtBase.toNat 2054)

include hb

theorem isPage_kernelTable {n : Nat} (hn : n % 512 = 0) (h : n < 512 * 2054) :
    IsPage (slot info.kernelPtBase.toNat n) :=
  isPage_slot hb hn h

theorem toNat_kernelPtr {n : Nat} (h : n < 512 * 2054) :
    (entryPtr info.kernelPtBase n + 0x3).toNat = slot info.kernelPtBase.toNat n + 3 := by
  obtain ⟨-, hf⟩ := hb
  simp only [pageSize] at hf
  exact toNat_entryPtr_add 3 (by decide) (by omega)

variable {m : PhysMem} {w u : Bool}
  (hk : ∀ n < 1051647, m (slot info.kernelPtBase.toNat n) = kernelTable info (fun _ => 0) n)

include hk

/-- From the kernel's PDPT the low 4 GiB are mapped one to one, for the
supervisor only. -/
theorem walkFrom_identity {v : UInt64} (hv : v.toNat < 2 ^ 32) :
    walkFrom m v 3 (slot info.kernelPtBase.toNat 1050624) w u = some ⟨v.toNat, w, false⟩ := by
  obtain ⟨i2, hi2⟩ : ∃ i, tableIndex 2 v = i := ⟨_, rfl⟩
  obtain ⟨i1, hi1⟩ : ∃ i, tableIndex 1 v = i := ⟨_, rfl⟩
  obtain ⟨i0, hi0⟩ : ∃ i, tableIndex 0 v = i := ⟨_, rfl⟩
  have hv2 : i2 = v.toNat / 2 ^ 30 := by simp only [tableIndex] at hi2; omega
  have hv1 : 512 * i2 + i1 = v.toNat / 2 ^ 21 := by simp only [tableIndex] at hi1; omega
  have hv0 : 512 * (512 * i2 + i1) + i0 = v.toNat / 2 ^ 12 := by
    simp only [tableIndex] at hi0; omega
  -- the PDPT entry
  have he2 : (m (slot info.kernelPtBase.toNat 1050624 + 8 * tableIndex 2 v)).toNat =
      slot info.kernelPtBase.toNat (1048576 + 512 * i2) + 3 := by
    have hk' : kernelTable info (fun _ => 0) (1050624 + i2) =
        entryPtr info.kernelPtBase (1048576 + 512 * i2) + 0x3 := by
      have : 1050624 + i2 - 1050624 = i2 := by omega
      grind [kernelTable]
    rw [hi2, slot_add, hk _ (by omega), hk', toNat_kernelPtr hb (by omega)]
  -- the page-directory entry
  have he1 : (m (slot info.kernelPtBase.toNat (1048576 + 512 * i2) + 8 * tableIndex 1 v)).toNat =
      slot info.kernelPtBase.toNat (512 * (512 * i2 + i1)) + 3 := by
    have hk' : kernelTable info (fun _ => 0) (1048576 + 512 * i2 + i1) =
        entryPtr info.kernelPtBase (512 * (512 * i2 + i1)) + 0x3 := by
      have : 1048576 + 512 * i2 + i1 - 1048576 = 512 * i2 + i1 := by omega
      grind [kernelTable]
    rw [hi1, slot_add, hk _ (by omega), hk', toNat_kernelPtr hb (by omega)]
  -- the page-table entry
  have he0 : (m (slot info.kernelPtBase.toNat (512 * (512 * i2 + i1)) + 8 * tableIndex 0 v)).toNat =
      v.toNat / 2 ^ 12 * 2 ^ 12 + 3 := by
    have hk' : kernelTable info (fun _ => 0) (512 * (512 * i2 + i1) + i0) =
        (0x1000 * UInt32.ofNat (v.toNat / 2 ^ 12) + 0x3).toUInt64 := by
      rw [← hv0]
      grind [kernelTable]
    rw [hi0, slot_add, hk _ (by omega), hk']
    simp only [UInt32.toNat_toUInt64, UInt32.toNat_add, UInt32.toNat_mul, UInt32.toNat_ofNat',
      UInt32.reduceToNat]
    omega
  rw [walkFrom_entry he2 (isPage_kernelTable hb (by omega) (by omega)) (.inl rfl),
    walkFrom_entry he1 (isPage_kernelTable hb (by omega) (by omega)) (.inl rfl),
    walkFrom_entry he0 ⟨by simp only [pageSize]; omega, by omega⟩ (.inl rfl)]
  simp only [walkFrom, show decide (3 = 7) = false from rfl, Bool.and_false]
  congr 2
  omega

omit hb in
/-- From the kernel's PDPT nothing is mapped between 4 GiB and 512 GiB. -/
theorem walkFrom_above_identity {v : UInt64} (hlo : 2 ^ 32 ≤ v.toNat) (hhi : v.toNat < 2 ^ 39) :
    walkFrom m v 3 (slot info.kernelPtBase.toNat 1050624) w u = none := by
  refine walkFrom_zero ?_
  have hi : 4 ≤ tableIndex 2 v := by simp only [tableIndex]; omega
  have := tableIndex_lt 2 v
  rw [slot_add, hk _ (by omega)]
  grind [kernelTable]

end Identity

/-! ## the walk -/

section Walk

variable {info : Information} (hc : info.Counts) (hp : info.TablesPlaced) {m : PhysMem}

include hp in
theorem isPage_userTable {n : Nat} (hn : n % 512 = 0) (h : n < 512 * 4) :
    IsPage (slot info.userPtBase.toNat n) :=
  isPage_slot hp.userPt hn h

include hp in
theorem toNat_userPtr {n : Nat} (h : n < 512 * 4) :
    (entryPtr info.userPtBase n + 0x7).toNat = slot info.userPtBase.toNat n + 7 := by
  obtain ⟨-, hf⟩ := hp.userPt
  simp only [pageSize] at hf
  exact toNat_entryPtr_add 7 (by decide) (by omega)

include hp in
/-- `CR3` points at the PML4 of the user block. -/
theorem frame_userPml4 : Entry.frame info.userPml4 = slot info.userPtBase.toNat 1536 := by
  obtain ⟨ha, hf⟩ := hp.userPt
  simp only [pageSize] at ha hf
  rw [Entry.frame, Information.userPml4, toNat_entryPtr (by omega)]
  simp only [slot]
  omega

section Lower

variable (hl : KernelTablesIn info m)

include hp hl

/-- The walk through PML4 entry 0 leads to the kernel's PDPT, with the user
bit clear. -/
theorem walk_pml4_zero {v : UInt64} (hv : v.toNat < 2 ^ 39) :
    walk m info.userPml4 v =
      walkFrom m v 3 (slot info.kernelPtBase.toNat 1050624) true false := by
  have hidx : tableIndex 3 v = 0 := by simp only [tableIndex]; omega
  have he : (m (slot info.userPtBase.toNat 1536 + 8 * tableIndex 3 v)).toNat =
      slot info.kernelPtBase.toNat 1050624 + 3 := by
    rw [hidx, slot_add, hl.lower, Information.lowerHalf, toNat_kernelPtr hp.kernelPt (by decide)]
  rw [walk, frame_userPml4 hp,
    walkFrom_entry he (isPage_kernelTable hp.kernelPt (by decide) (by decide)) (.inl rfl)]
  rfl

/-- The low 4 GiB are mapped one to one, for the supervisor only. -/
theorem walk_identity {v : UInt64} (hv : v.toNat < 2 ^ 32) :
    walk m info.userPml4 v = some ⟨v.toNat, true, false⟩ := by
  rw [walk_pml4_zero hp hl (by omega), walkFrom_identity hp.kernelPt hl.kernel hv]

/-- Between 4 GiB and the end of PML4 entry 0 nothing is mapped. -/
theorem walk_above_identity {v : UInt64} (hlo : 2 ^ 32 ≤ v.toNat) (hhi : v.toNat < 2 ^ 39) :
    walk m info.userPml4 v = none := by
  rw [walk_pml4_zero hp hl hhi, walkFrom_above_identity hl.kernel hlo hhi]

end Lower

section Upper

variable {redef : UInt8} {lower : UInt64}
  (hu : ∀ n < userSlots, m (slot info.userPtBase.toNat n) = userTable info redef lower n)

include hc hp hu

/-- Entries 1 to 510 of the PML4 are zero. -/
theorem walk_pml4_middle {v : UInt64} (hlo : 2 ^ 39 ≤ v.toNat) (hcan : Canonical v)
    (hhi : v.toNat < 2 ^ 64 - 2 ^ 39) : walk m info.userPml4 v = none := by
  rw [walk, frame_userPml4 hp]
  refine walkFrom_zero ?_
  have hi : 0 < tableIndex 3 v ∧ tableIndex 3 v < 511 := by
    simp only [tableIndex, Canonical] at *
    omega
  have := hc.ptes_lt
  have := hc.stack_le
  rw [slot_add, hu _ (by simp only [userSlots]; omega)]
  grind [userTable]

/-- PML4 entry 511 leads to the PDPT of the user block. -/
theorem walk_pml4_last {v : UInt64} (hv : 2 ^ 64 - 2 ^ 39 ≤ v.toNat) :
    walk m info.userPml4 v = walkFrom m v 3 (slot info.userPtBase.toNat 1024) true true := by
  have hidx : tableIndex 3 v = 511 := by
    have := v.toNat_lt
    simp only [tableIndex]
    omega
  have he : (m (slot info.userPtBase.toNat 1536 + 8 * tableIndex 3 v)).toNat =
      slot info.userPtBase.toNat 1024 + 7 := by
    have hentry : userTable info redef lower (1536 + 511) =
        entryPtr info.userPtBase 1024 + 0x7 := by
      have := hc.ptes_lt
      have := hc.stack_le
      grind [userTable]
    rw [hidx, slot_add, hu _ (by decide), hentry, toNat_userPtr hp (by decide)]
  rw [walk, frame_userPml4 hp,
    walkFrom_entry he (isPage_userTable hp (by decide) (by decide)) (.inr rfl)]
  rfl

/-- Below the window the user PDPT is zero. -/
theorem walk_below_window {v : UInt64} (hlo : 2 ^ 64 - 2 ^ 39 ≤ v.toNat)
    (hhi : v.toNat < windowBase) : walk m info.userPml4 v = none := by
  rw [walk_pml4_last hc hp hu hlo]
  refine walkFrom_zero ?_
  have hi : tableIndex 2 v < 511 := by
    simp only [tableIndex, windowBase] at *
    omega
  have := hc.ptes_lt
  have := hc.stack_le
  rw [slot_add, hu _ (by simp only [userSlots]; omega)]
  grind [userTable]

/-- PDPT entry 511 leads to the page directory of the user block. -/
theorem walk_window {v : UInt64} (hv : windowBase ≤ v.toNat) :
    walk m info.userPml4 v = walkFrom m v 2 (slot info.userPtBase.toNat 512) true true := by
  have hidx : tableIndex 2 v = 511 := by
    have := v.toNat_lt
    simp only [tableIndex, windowBase] at *
    omega
  have he : (m (slot info.userPtBase.toNat 1024 + 8 * tableIndex 2 v)).toNat =
      slot info.userPtBase.toNat 512 + 7 := by
    have hentry : userTable info redef lower (1024 + 511) =
        entryPtr info.userPtBase 512 + 0x7 := by
      have := hc.ptes_lt
      have := hc.stack_le
      grind [userTable]
    rw [hidx, slot_add, hu _ (by decide), hentry, toNat_userPtr hp (by decide)]
  rw [walk_pml4_last hc hp hu (by simp only [windowBase] at hv; omega),
    walkFrom_entry he (isPage_userTable hp (by decide) (by decide)) (.inr rfl)]
  rfl

/-- Above the first 2 MiB of the window the user page directory is zero. -/
theorem walk_above_window {v : UInt64} (hv : windowBase + 512 * pageSize ≤ v.toNat) :
    walk m info.userPml4 v = none := by
  rw [walk_window hc hp hu (by omega)]
  refine walkFrom_zero ?_
  have hi : 0 < tableIndex 1 v := by
    have := v.toNat_lt
    simp only [tableIndex, windowBase, pageSize] at *
    omega
  have := tableIndex_lt 1 v
  have := hc.ptes_lt
  have := hc.stack_le
  rw [slot_add, hu _ (by simp only [userSlots]; omega)]
  grind [userTable]

omit hp in
/-- The first 2 MiB of the window go through the user page table. -/
theorem walk_user_page (hpl : info.Placed) {v : UInt64} (hlo : windowBase ≤ v.toNat)
    (hhi : v.toNat < windowBase + 512 * pageSize) :
    walk m info.userPml4 v =
      (userPage info (redef = 1) ((v.toNat - windowBase) / pageSize)).map fun p =>
        ⟨p + v.toNat % pageSize, true, true⟩ := by
  have hp := hpl.toTablesPlaced
  obtain ⟨i, hi⟩ : ∃ i, (v.toNat - windowBase) / pageSize = i := ⟨_, rfl⟩
  have hidx1 : tableIndex 1 v = 0 := by
    simp only [tableIndex, windowBase, pageSize] at *
    omega
  have hidx0 : tableIndex 0 v = i := by
    simp only [tableIndex, windowBase, pageSize] at *
    omega
  have hi512 : i < 512 := hidx0 ▸ tableIndex_lt 0 v
  have he1 : (m (slot info.userPtBase.toNat 512 + 8 * tableIndex 1 v)).toNat =
      slot info.userPtBase.toNat 0 + 7 := by
    have hentry : userTable info redef lower 512 =
        entryPtr info.userPtBase 0 + 0x7 := by
      have := hc.ptes_lt
      have := hc.stack_le
      grind [userTable]
    rw [hidx1, slot_add, hu _ (by decide), hentry, toNat_userPtr hp (by decide)]
  rw [walk_window hc hp hu hlo,
    walkFrom_entry he1 (isPage_userTable hp (by decide) (by decide)) (.inr rfl), hi]
  have hleaf := hu i (by simp only [userSlots]; omega)
  have hslot :
      slot info.userPtBase.toNat 0 + 8 * tableIndex 0 v = slot info.userPtBase.toNat i := by
    rw [hidx0, slot_add, Nat.zero_add]
  rcases userTable_leaf hc hpl redef lower hi512 with
    ⟨p, hpage, hisPage, hentry⟩ | ⟨hpage, hentry⟩
  · have he0 : (m (slot info.userPtBase.toNat 0 + 8 * tableIndex 0 v)).toNat = p + 7 := by
      rw [hslot, hleaf, hentry]
    rw [walkFrom_entry he0 hisPage (.inr rfl), hpage]
    simp [walkFrom, pageSize]
  · rw [hpage, Option.map_none]
    refine walkFrom_zero ?_
    rw [hslot, hleaf, hentry]

end Upper

include hc in
/-- The page tables implement the address space: in every memory that holds
them, the walk of every canonical address is the address space's answer. -/
theorem walk_eq_addressSpace {redef : UInt8} (ht : TablesIn info redef m) (hpl : info.Placed)
    {v : UInt64} (hcan : Canonical v) :
    walk m info.userPml4 v = addressSpace info (redef = 1) v := by
  have hp := hpl.toTablesPlaced
  unfold addressSpace
  split_ifs with hlow hwin
  · exact walk_identity hp ht.toKernelTablesIn hlow
  · by_cases hpage : v.toNat < windowBase + 512 * pageSize
    · exact walk_user_page hc ht.user hpl hwin hpage
    · rw [walk_above_window hc hp ht.user (by omega)]
      have hi : 512 ≤ (v.toNat - windowBase) / pageSize := by
        simp only [pageSize] at *
        omega
      rw [userPage_eq_none hc hi, Option.map_none]
  · rcases Nat.lt_or_ge v.toNat (2 ^ 39) with h39 | h39
    · exact walk_above_identity hp ht.toKernelTablesIn (by omega) h39
    rcases Nat.lt_or_ge v.toNat (2 ^ 64 - 2 ^ 39) with h64 | h64
    · exact walk_pml4_middle hc hp ht.user h39 hcan h64
    · exact walk_below_window hc hp ht.user h64 (by omega)

end Walk

end UefiKernel
