import UefiKernel.AddressSpace
import UefiKernel.Boot.Loader

/-!
# UefiKernel.TableLimits

Two programs that must agree by arithmetic alone: the loader sizes the user
tables (`CalculateNumPagesUserPageTable`), the kernel lays them out.

* `storesInside_reserved` — for every file below 4 GiB the stores of both
  builders stay inside the pages the loader reserved;
* `pdesSound_iff` — one page table is laid out, but at the documented limit of
  2 MiB two are counted, and the second page-directory entry then points at
  the page directory itself;
* `keepsProgramPages_iff` — the TLS page takes index 510 of the page table,
  which a program of 511 pages needs for itself.
-/

namespace UefiKernel

open Store Store.StoreM
open Boot

/-- All stores are inside `pages` pages at `base`. -/
def StoresInside (base pages : Nat) (l : List (Nat × UInt64)) : Prop :=
  ∀ s ∈ l, base ≤ s.1 ∧ s.1 + 8 ≤ base + pages * pageSize

/-- Stores at slots below `512 * pages` are inside the pages. -/
theorem storesInside_of_lt {base pages : Nat} {l : List (Nat × UInt64)}
    (h : ∀ s ∈ l, s.1 < 512 * pages) :
    StoresInside base pages (l.map (Prod.map (slot base) id)) := by
  intro s hs
  obtain ⟨t, ht, rfl⟩ := List.mem_map.mp hs
  have := h t ht
  simp only [Prod.map, slot, pageSize] at *
  omega

/-! ## the counts -/

/-- The entries of the level above, as the loader counts them. -/
theorem toNat_levelAbove {n : UInt64} (h : n.toNat < 2 ^ 32) :
    (n / 512 + 1).toNat = n.toNat / 512 + 1 ∧ (n / 512 + 1).toNat < 2 ^ 32 := by
  have hcount : (n / 512 + 1).toNat = n.toNat / 512 + 1 := by
    rw [UInt64.toNat_add, UInt64.toNat_div]
    show (n.toNat / 512 + 1) % 2 ^ 64 = _
    omega
  exact ⟨hcount, by omega⟩

/-- The pages that a table of `n` entries takes. -/
theorem toNat_pagesOfEntries {n : UInt64} (h : n.toNat < 2 ^ 32) :
    (efiSizeToPages (8 * n)).toNat = (8 * n.toNat + 0xFFF) / pageSize := by
  have hsize : (8 * n).toNat = 8 * n.toNat := by
    rw [UInt64.toNat_mul]
    show 8 * n.toNat % 2 ^ 64 = _
    omega
  rw [toNat_efiSizeToPages, hsize]

section Counts

variable {pagesForUserBinary userStackPages userPageTablePages : UInt64} {info : Information}
  (hcount : calculateNumPagesUserPageTable pagesForUserBinary userStackPages info =
    (userPageTablePages, info))
  (hlt : pagesForUserBinary.toNat + userStackPages.toNat < 2 ^ 32)

include hcount hlt

/-- No count is cut off. -/
theorem counts_eq :
    (pagesForUserBinary + userStackPages).toNat = info.numUserPtes.toNat ∧
    ((pagesForUserBinary + userStackPages) / 512 + 1).toNat = info.numUserPdes.toNat ∧
    (((pagesForUserBinary + userStackPages) / 512 + 1) / 512 + 1).toNat =
      info.numUserPdpes.toNat ∧
    ((((pagesForUserBinary + userStackPages) / 512 + 1) / 512 + 1) / 512 + 1).toNat =
      info.numUserPml4es.toNat := by
  have hn : (pagesForUserBinary + userStackPages).toNat < 2 ^ 32 := by
    rw [UInt64.toNat_add]
    omega
  have hd := (toNat_levelAbove hn).2
  have hp := (toNat_levelAbove hd).2
  have h4 := (toNat_levelAbove hp).2
  have hptes := congrArg (·.2.numUserPtes.toNat) hcount
  have hpdes := congrArg (·.2.numUserPdes.toNat) hcount
  have hpdpes := congrArg (·.2.numUserPdpes.toNat) hcount
  have hpml4es := congrArg (·.2.numUserPml4es.toNat) hcount
  simp only [calculateNumPagesUserPageTable, UInt64.toNat_toUInt32, Nat.mod_eq_of_lt hn,
    Nat.mod_eq_of_lt hd, Nat.mod_eq_of_lt hp, Nat.mod_eq_of_lt h4] at hptes hpdes hpdpes hpml4es
  exact ⟨hptes, hpdes, hpdpes, hpml4es⟩

/-- What the loader counts, as numbers. -/
theorem counts_toNat :
    info.numUserPtes.toNat = pagesForUserBinary.toNat + userStackPages.toNat ∧
    info.numUserPdes.toNat = info.numUserPtes.toNat / 512 + 1 ∧
    info.numUserPdpes.toNat = info.numUserPdes.toNat / 512 + 1 ∧
    info.numUserPml4es.toNat = info.numUserPdpes.toNat / 512 + 1 := by
  obtain ⟨hptes, hpdes, hpdpes, hpml4es⟩ := counts_eq hcount hlt
  rw [← hptes, ← hpdes, ← hpdpes, ← hpml4es]
  have hsum : (pagesForUserBinary + userStackPages).toNat =
      pagesForUserBinary.toNat + userStackPages.toNat := by
    rw [UInt64.toNat_add]
    omega
  obtain ⟨hd, hdlt⟩ := toNat_levelAbove (n := pagesForUserBinary + userStackPages) (by omega)
  obtain ⟨hp, hplt⟩ := toNat_levelAbove hdlt
  exact ⟨hsum, hd, hp, (toNat_levelAbove hplt).1⟩

/-- The pages the loader reserves, as a number. -/
theorem userPageTablePages_toNat :
    userPageTablePages.toNat = (8 * info.numUserPtes.toNat + 0xFFF) / pageSize +
      (8 * info.numUserPdes.toNat + 0xFFF) / pageSize +
      (8 * info.numUserPdpes.toNat + 0xFFF) / pageSize +
      (8 * info.numUserPml4es.toNat + 0xFFF) / pageSize := by
  obtain ⟨hptes, hpdes, hpdpes, hpml4es⟩ := counts_eq hcount hlt
  have hpages : _ = userPageTablePages.toNat := congrArg (·.1.toNat) hcount
  simp only [calculateNumPagesUserPageTable] at hpages
  have hn := info.numUserPtes.toNat_lt
  have hd := info.numUserPdes.toNat_lt
  have hp := info.numUserPdpes.toNat_lt
  have h4 := info.numUserPml4es.toNat_lt
  rw [← hpages, UInt64.toNat_add, UInt64.toNat_add, UInt64.toNat_add,
    toNat_pagesOfEntries (by rwa [hptes]), toNat_pagesOfEntries (by rwa [hpdes]),
    toNat_pagesOfEntries (by rwa [hpdpes]), toNat_pagesOfEntries (by rwa [hpml4es]),
    hptes, hpdes, hpdpes, hpml4es, pageSize]
  -- nothing wraps
  omega

end Counts

/-- The record for a one-page stack and a binary, `ptes` pages together, with
the counts the loader fills in; up to 512 pages the buffers are apart. -/
def sizedInfo (ptes : UInt32) : Information :=
  (calculateNumPagesUserPageTable (ptes - 1).toUInt64 1
    { (default : Information) with
      kernelPtBase := 0x400000
      userPtBase := 0x100000
      tlsBuffer := 0x104000
      extraPageForException := 0x105000
      userStackBuffer := 0x107000
      userAppBuffer := 0x107000
      numUserStackPages := 1 }).2

/-! ## the reserved pages -/

/-- **Room.** For every user file below 4 GiB, with one user stack page, what
both builders store is inside the pages that the loader reserved for it. -/
theorem storesInside_reserved {userFileSize userPageTablePages : UInt64} {info : Information}
    (hsize : userFileSize.toNat < 2 ^ 32)
    (hcount : calculateNumPagesUserPageTable (efiSizeToPages userFileSize) 1 info =
      (userPageTablePages, info))
    (hstack : info.numUserStackPages = 1)
    (huser : info.userPtBase.toNat + userPageTablePages.toNat * pageSize ≤ 2 ^ 64)
    (hkernel : info.kernelPtBase.toNat +
      (efiSizeToPages (0x800000 + 0x4000 + 0x2000)).toNat * pageSize ≤ 2 ^ 64)
    (kPml4e : UInt64) (redef : UInt8) (m : PhysMem) :
    StoresInside info.userPtBase.toNat userPageTablePages.toNat
      (pageTableInitUser info kPml4e redef m).2 ∧
    StoresInside info.kernelPtBase.toNat (efiSizeToPages (0x800000 + 0x4000 + 0x2000)).toNat
      (pageTableInitKernel info m).2 := by
  have h2054 : (efiSizeToPages (0x800000 + 0x4000 + 0x2000)).toNat = 2054 := by decide
  rw [h2054] at hkernel ⊢
  have hfile : (efiSizeToPages userFileSize).toNat ≤ 2 ^ 20 := by
    rw [toNat_efiSizeToPages]
    simp only [pageSize]
    omega
  have hone : (1 : UInt64).toNat = 1 := rfl
  have hlt : (efiSizeToPages userFileSize).toNat + (1 : UInt64).toNat < 2 ^ 32 := by omega
  obtain ⟨hptes, hpdes, hpdpes, hpml4es⟩ := counts_toNat hcount hlt
  have hpages := userPageTablePages_toNat hcount hlt
  have hstack1 : info.numUserStackPages.toNat = 1 := by rw [hstack]; rfl
  simp only [pageSize] at hpages huser hkernel
  constructor
  · have hn : info.TablesBelow (512 * userPageTablePages.toNat) := by
      -- at most five PDPTs and one PML4 are counted
      have h512 : ∀ {x : UInt32}, x.toNat ≤ 512 → (512 - x).toNat ≤ 512 := by
        intro x hx
        rw [UInt32.toNat_sub_of_le _ _ (UInt32.le_iff_toNat_le.mpr hx)]
        exact Nat.sub_le 512 x.toNat
      have h5 := h512 (x := info.numUserPdpes) (by omega)
      have h1 := h512 (x := info.numUserPml4es) (by omega)
      -- each level has a page of its own
      have hlevel : ∀ {x : Nat}, 1 ≤ x → 1 ≤ (8 * x + 0xFFF) / 0x1000 := by omega
      have hl0 := hlevel (x := info.numUserPtes.toNat) (by omega)
      have hl1 := hlevel (x := info.numUserPdes.toNat) (by omega)
      have hl2 := hlevel (x := info.numUserPdpes.toNat) (by omega)
      have hl3 := hlevel (x := info.numUserPml4es.toNat) (by omega)
      have hblock : userSlots = 2048 := rfl
      constructor <;> omega
    have hfit : info.userPtBase.toNat + 8 * (512 * userPageTablePages.toNat) ≤ 2 ^ 64 := by omega
    rw [run_pageTableInitUser hn hfit]
    simp only [← List.map_append]
    exact storesInside_of_lt (lt_userStores hn redef _)
  · rw [run_pageTableInitKernel info m (by simp only [kernelSlots]; omega)]
    exact storesInside_of_lt (lt_kernelSlots info)

/-- A file of 4 GiB less one byte. -/
theorem storesInside_reserved_sample :
    StoresInside 0x100000 2056 (pageTableInitUser (sizedInfo 1048577) 0 1 fun _ => 0).2 ∧
    StoresInside 0x400000 2054 (pageTableInitKernel (sizedInfo 1048577) fun _ => 0).2 := by
  have hcount : calculateNumPagesUserPageTable (efiSizeToPages 0xFFFFFFFF) 1 (sizedInfo 1048577) =
    (2056, sizedInfo 1048577) := by decide
  exact storesInside_reserved (by decide) hcount rfl (by decide) (by decide) 0 1 _

/-! ## the user page directory -/

/-- The stores of the loops over `u_pte`. -/
def uPteStores (info : Information) : List (Nat × UInt64) :=
  fill (fun i => i) (userStackEntry info) 0 info.numUserStackPages.toNat ++
  fill (fun i => i) (userAppEntry info) info.numUserStackPages.toNat info.numUserPtes.toNat ++
  fill (fun i => i) (fun _ => 0) info.numUserPtes.toNat 512

/-- Every entry of the page at `a` is written by a loop over `u_pte`. -/
def FilledByPteLoops (info : Information) (a : Nat) : Prop :=
  ∀ i < 512, ∃ s ∈ uPteStores info, slot info.userPtBase.toNat s.1 = a + 8 * i

/-- Every present entry of `u_pde` references a page of `u_pte`, and not the
page directory, the PDPT or the PML4. -/
def PdesSound (info : Information) (m : PhysMem) : Prop :=
  ∀ j < 512, Entry.present (m (slot info.userPtBase.toNat (512 + j))) = true →
    FilledByPteLoops info (Entry.frame (m (slot info.userPtBase.toNat (512 + j)))) ∧
    ∀ t ∈ [512, 1024, 1536],
      Entry.frame (m (slot info.userPtBase.toNat (512 + j))) ≠ slot info.userPtBase.toNat t

/-- The first page of the block is filled by the loops. -/
theorem filledByPteLoops_first (info : Information) :
    FilledByPteLoops info (slot info.userPtBase.toNat 0) := by
  intro i hi
  simp only [uPteStores, List.mem_append, mem_fill, slot_add, Nat.zero_add]
  rcases Nat.lt_or_ge i info.numUserStackPages.toNat with hstack | hstack
  · exact ⟨_, .inl (.inl ⟨i, Nat.zero_le i, hstack, rfl⟩), rfl⟩
  rcases Nat.lt_or_ge i info.numUserPtes.toNat with happ | happ
  · exact ⟨_, .inl (.inr ⟨i, hstack, happ, rfl⟩), rfl⟩
  · exact ⟨_, .inr ⟨i, happ, hi, rfl⟩, rfl⟩

/-- The page directory, at any counts: its loops write it last. -/
theorem replay_userStores_pde (info : Information) (redef : UInt8) (lower : UInt64)
    (old : Nat → UInt64) {j : Nat} (hj : j < 512) :
    replay old (userStoresBelow info redef ++ userStoresPml4 info lower) (512 + j) =
      if j < info.numUserPdes.toNat then entryPtr info.userPtBase (512 * j) + 0x7 else 0 := by
  by_cases hr : redef = 1 <;>
    simp only [userStoresBelow, userStoresPml4, replay_append, replay_cons, replay_nil,
      replay_fill, replay_fill_add, hr, if_true, if_false, Function.update_apply] <;> grind

/-- An entry of `u_pde` that is counted references table `j` of the block. -/
theorem frame_pde {info : Information} (hb : IsBlock info.userPtBase.toNat 4) {j : Nat}
    (hj : j < 2) :
    Entry.present (entryPtr info.userPtBase (512 * j) + 0x7) = true ∧
      Entry.frame (entryPtr info.userPtBase (512 * j) + 0x7) =
        slot info.userPtBase.toNat (512 * j) := by
  have hpage : IsPage (slot info.userPtBase.toNat (512 * j)) :=
    isPage_slot hb (by omega) (by omega)
  obtain ⟨ha, hf⟩ := hb
  simp only [pageSize] at ha hf
  have he : (entryPtr info.userPtBase (512 * j) + 0x7).toNat =
      slot info.userPtBase.toNat (512 * j) + 7 := toNat_entryPtr_add 7 (by decide) (by omega)
  refine ⟨?_, Entry.frame_eq he hpage (.inr rfl)⟩
  simp only [Entry.present, he, slot, decide_eq_true_eq]
  omega

/-- The user page directory is sound if one entry is counted; a second one
references the page directory. -/
theorem pdesSound_iff_one {info : Information} (hn : info.TablesBelow userSlots)
    (hb : IsBlock info.userPtBase.toNat 4) (hpdes : 0 < info.numUserPdes.toNat)
    (kPml4e : UInt64) (redef : UInt8) (m : PhysMem) :
    PdesSound info (exec (pageTableInitUser info kPml4e redef) m) ↔
      info.numUserPdes.toNat = 1 := by
  have hfit : info.userPtBase.toNat + 8 * userSlots ≤ 2 ^ 64 := by
    obtain ⟨-, hf⟩ := hb
    simp only [userSlots, pageSize] at *
    omega
  obtain ⟨lower, hreplay⟩ := exec_pageTableInitUser_replay hn hfit kPml4e redef m
  have hentry : ∀ j < 512, exec (pageTableInitUser info kPml4e redef) m
      (slot info.userPtBase.toNat (512 + j)) =
        if j < info.numUserPdes.toNat then entryPtr info.userPtBase (512 * j) + 0x7 else 0 := by
    intro j hj
    rw [hreplay, replay_userStores_pde info redef lower _ hj]
  constructor
  · intro h
    refine Classical.byContradiction fun hne => ?_
    have h1 : exec (pageTableInitUser info kPml4e redef) m
        (slot info.userPtBase.toNat (512 + 1)) = entryPtr info.userPtBase (512 * 1) + 0x7 := by
      rw [hentry 1 (by decide), if_pos (by omega)]
    obtain ⟨hpresent, hframe⟩ := frame_pde hb (j := 1) (by decide)
    have hsound := h 1 (by decide)
    rw [h1] at hsound
    exact (hsound hpresent).2 512 (by decide) hframe
  · intro h1 j hj hpresent
    rw [hentry j hj] at hpresent ⊢
    obtain rfl : j = 0 := by
      refine Classical.byContradiction fun hne => ?_
      rw [if_neg (by omega)] at hpresent
      exact absurd hpresent (by decide)
    obtain ⟨-, hframe⟩ := frame_pde hb (j := 0) (by decide)
    rw [if_pos (by omega), hframe]
    refine ⟨filledByPteLoops_first info, ?_⟩
    intro t ht heq
    have h0 := slot_injective _ heq
    rw [← h0] at ht
    exact absurd ht (by decide)

/-- The loader counts as many page directories as there are page tables in
front of `u_pde` below the documented limit, and one more at the limit. -/
theorem pdesSound_iff {pagesForUserBinary userStackPages userPageTablePages : UInt64}
    {info : Information}
    (hcount : calculateNumPagesUserPageTable pagesForUserBinary userStackPages info =
      (userPageTablePages, info))
    (hstack : info.numUserStackPages = userStackPages.toUInt32)
    (hpos : 1 ≤ pagesForUserBinary.toNat + userStackPages.toNat)
    (hlimit : pagesForUserBinary.toNat + userStackPages.toNat ≤ 512)
    (hb : IsBlock info.userPtBase.toNat userPageTablePages.toNat)
    (kPml4e : UInt64) (redef : UInt8) (m : PhysMem) :
    (PdesSound info (exec (pageTableInitUser info kPml4e redef) m) ↔
      pagesForUserBinary.toNat + userStackPages.toNat < 512) ∧
    (PdesSound info (exec (pageTableInitUser info kPml4e redef) m) ↔
      info.numUserPdes.toNat = 1) := by
  have hlt : pagesForUserBinary.toNat + userStackPages.toNat < 2 ^ 32 := by omega
  obtain ⟨hptes, hpdes, hpdpes, hpml4es⟩ := counts_toNat hcount hlt
  have hp1 : info.numUserPdpes.toNat = 1 := by omega
  have h41 : info.numUserPml4es.toNat = 1 := by omega
  have hpages : userPageTablePages.toNat = 4 := by
    rw [userPageTablePages_toNat hcount hlt, hp1, h41]
    simp only [pageSize]
    omega
  rw [hpages] at hb
  have hn : info.TablesBelow userSlots := by
    have hp1' : info.numUserPdpes = 1 := UInt32.toNat_inj.mp hp1
    have h41' : info.numUserPml4es = 1 := UInt32.toNat_inj.mp h41
    have h511 : (512 - 1 : UInt32).toNat = 511 := rfl
    have hst : info.numUserStackPages.toNat = userStackPages.toNat := by
      rw [hstack, UInt64.toNat_toUInt32]
      omega
    constructor <;> simp only [userSlots, hp1', h41', h511] <;> omega
  have hiff := pdesSound_iff_one hn hb (by omega) kPml4e redef m
  refine ⟨hiff.trans ?_, hiff⟩
  omega

/-- One page below the limit. -/
theorem pdesSound_below_limit :
    PdesSound (sizedInfo 511) (exec (pageTableInitUser (sizedInfo 511) 0 0) fun _ => 0) := by
  have hcount : calculateNumPagesUserPageTable 510 1 (sizedInfo 511) = (4, sizedInfo 511) := by
    decide
  exact (pdesSound_iff hcount rfl (by decide) (by decide) ⟨by decide, by decide⟩ 0 0 _).1.mpr
    (by decide)

/-- At the limit an entry of the page directory references the page directory. -/
theorem pde_references_itself :
    ¬ PdesSound (sizedInfo 512) (exec (pageTableInitUser (sizedInfo 512) 0 0) fun _ => 0) := by
  have hn : (sizedInfo 512).TablesBelow userSlots := by constructor <;> decide
  have hb : IsBlock (sizedInfo 512).userPtBase.toNat 4 := ⟨by decide, by decide⟩
  rw [pdesSound_iff_one hn hb (by decide)]
  decide

/-! ## the program's pages -/

/-- The physical page of the user program at index `i` of the window: stack
pages, then pages of the binary. -/
def programPage (info : Information) (i : Nat) : Nat :=
  if i < info.numUserStackPages.toNat then info.stackBase + i * pageSize
  else info.userAppBuffer.toNat + (i - info.numUserStackPages.toNat) * pageSize

/-- Every page of the program is mapped to its own frame, for the user. -/
def KeepsProgramPages (info : Information) (cr3 : UInt64) (m : PhysMem) : Prop :=
  ∀ i < info.numUserPtes.toNat, ∀ v : UInt64, windowBase + i * pageSize ≤ v.toNat →
    v.toNat < windowBase + (i + 1) * pageSize →
    walk m cr3 v = some ⟨programPage info i + v.toNat % pageSize, true, true⟩

/-- What the tables map at an index of the window, whatever entry was copied
from the kernel's. -/
theorem walk_userPage {info : Information} (hc : info.Counts) (hp : info.Placed)
    (kPml4e : UInt64) (redef : UInt8) (m : PhysMem) {i : Nat} (hi : i < 512) {v : UInt64}
    (hlo : windowBase + i * pageSize ≤ v.toNat) (hhi : v.toNat < windowBase + (i + 1) * pageSize) :
    walk (exec (pageTableInitUser info kPml4e redef) m)
        (pageTableInitUser info kPml4e redef m).1 v =
      (userPage info (redef = 1) i).map fun p => ⟨p + v.toNat % pageSize, true, true⟩ := by
  have hsize : pageSize = 4096 := rfl
  have hidx : (v.toNat - windowBase) / pageSize = i := by
    rw [hsize] at hlo hhi ⊢
    omega
  have hend : v.toNat < windowBase + 512 * pageSize :=
    Nat.lt_of_lt_of_le hhi (Nat.add_le_add_left (Nat.mul_le_mul_right _ hi) _)
  have hfit : info.userPtBase.toNat + 8 * userSlots ≤ 2 ^ 64 := by
    obtain ⟨-, hf⟩ := hp.userPt
    simp only [userSlots, pageSize] at *
    omega
  obtain ⟨lower, hreplay⟩ := exec_pageTableInitUser_replay hc.tablesBelow hfit kPml4e redef m
  have hu : ∀ n < userSlots, exec (pageTableInitUser info kPml4e redef) m
      (slot info.userPtBase.toNat n) = userTable info redef lower n := by
    intro n hn
    rw [hreplay, replay_userStores hc redef lower _ hn]
  have hret : (pageTableInitUser info kPml4e redef m).1 = info.userPml4 := by
    rw [run_pageTableInitUser hc.tablesBelow hfit]
    rfl
  rw [hret, walk_user_page hc hu hp (Nat.le_trans (Nat.le_add_right _ _) hlo) hend, hidx]

/-- The program keeps its pages exactly when none of them is at index 510,
where the TLS page goes; the exception page at index 511 displaces none. -/
theorem keepsProgramPages_iff {info : Information} (hc : info.Counts) (hp : info.Placed)
    (htls : ∀ i < info.numUserPtes.toNat, programPage info i ≠ info.tlsBuffer.toNat)
    (kPml4e : UInt64) (redef : UInt8) (m : PhysMem) :
    KeepsProgramPages info (pageTableInitUser info kPml4e redef m).1
      (exec (pageTableInitUser info kPml4e redef) m) ↔ info.numUserPtes.toNat ≤ 510 := by
  have hlt := hc.ptes_lt
  constructor
  · intro h
    refine Classical.byContradiction fun hne => ?_
    have h510 : 510 < info.numUserPtes.toNat := by omega
    have hv := h 510 h510 0xFFFFFFFFC01FE000 (by decide) (by decide)
    rw [walk_userPage hc hp kPml4e redef m (i := 510) (by decide) (by decide) (by decide)] at hv
    have htlsPage : userPage info (redef = 1) 510 = some info.tlsBuffer.toNat := rfl
    rw [htlsPage, Option.map_some, Option.some.injEq, Mapping.mk.injEq] at hv
    exact htls 510 h510 (Nat.add_right_cancel hv.1).symm
  · intro hle i hi v hlo hhi
    rw [walk_userPage hc hp kPml4e redef m (by omega) hlo hhi]
    have h511 : i ≠ 511 := by omega
    have h510 : i ≠ 510 := by omega
    simp only [userPage, programPage, if_neg h511, if_neg h510, if_pos hi]
    split_ifs <;> rfl

theorem counts_sizedInfo {ptes : UInt32} (h : ptes = 4 ∨ ptes = 511) :
    (sizedInfo ptes).Counts ∧ (sizedInfo ptes).Placed := by
  rcases h with rfl | rfl <;>
    exact ⟨⟨by decide, by decide, rfl, rfl, rfl⟩,
      ⟨⟨⟨rfl, by decide⟩, ⟨rfl, by decide⟩, .inr (by decide)⟩, by decide, ⟨rfl, by decide⟩,
        ⟨rfl, by decide⟩, ⟨rfl, by decide⟩, ⟨rfl, by decide⟩⟩⟩

/-- A small program keeps its pages. -/
theorem keepsProgramPages_small :
    KeepsProgramPages (sizedInfo 4) (pageTableInitUser (sizedInfo 4) 0x405000 1 fun _ => 0).1
      (exec (pageTableInitUser (sizedInfo 4) 0x405000 1) fun _ => 0) :=
  (keepsProgramPages_iff (counts_sizedInfo (.inl rfl)).1 (counts_sizedInfo (.inl rfl)).2
    (by decide) _ _ _).mpr (by decide)

/-- A program of 511 pages has the TLS page for its last one. -/
theorem last_page_displaced :
    ¬ KeepsProgramPages (sizedInfo 511) (pageTableInitUser (sizedInfo 511) 0x405000 0 fun _ => 0).1
      (exec (pageTableInitUser (sizedInfo 511) 0x405000 0) fun _ => 0) := by
  intro h
  obtain ⟨hc, hp⟩ := counts_sizedInfo (.inr (rfl : (511 : UInt32) = 511))
  have hv := h 510 (by decide) 0xFFFFFFFFC01FE000 (by decide) (by decide)
  rw [walk_userPage hc hp 0x405000 0 _ (i := 510) (by decide) (by decide) (by decide)] at hv
  exact absurd hv (by decide)

end UefiKernel
