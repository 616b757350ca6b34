import UefiKernel.PageTable
import Mathlib.Tactic.SplitIfs

/-!
# UefiKernel.TableImage

What the two builders of `UefiKernel.PageTable` leave in memory, read as one
array of entries per block: `slot base n` is the address of entry `n` counted
from the block's base, whatever table of the block it belongs to.

* `kernelTable` / `userTable` — the entry at each index once the builder is
  done, independent of what memory held before;
* `run_pageTableInitKernel`, `run_pageTableInitUser` — the stores, one by one;
* `exec_…_slot`, `exec_…_of_outside` — the final memory inside the block is
  that image, and outside it nothing changes.
-/

namespace UefiKernel

open Store Store.StoreM

/-! ## addresses of entries -/

/-- The address of entry `n` of a block of tables. -/
def slot (base n : Nat) : Nat := base + 8 * n

theorem slot_add (base n i : Nat) : slot base n + 8 * i = slot base (n + i) := by
  simp only [slot]
  omega

theorem slot_injective (base : Nat) : Function.Injective (slot base) := by
  intro a b h
  simp only [slot] at h
  omega

theorem entryPtr_entryPtr (t : UInt64) (i j : Nat) :
    entryPtr (entryPtr t i) j = entryPtr t (i + j) := by
  simp only [entryPtr, UInt64.ofNat_add, UInt64.mul_add, UInt64.add_assoc]

theorem toNat_entryPtr {t : UInt64} {i : Nat} (h : t.toNat + 8 * i < 2 ^ 64) :
    (entryPtr t i).toNat = slot t.toNat i := by
  simp only [entryPtr, slot, UInt64.toNat_add, UInt64.toNat_mul, UInt64.toNat_ofNat']
  simp
  omega

/-- A fill loop over a table at offset `off` of a block, as stores at slots. -/
theorem fill_entryPtr {t : UInt64} {off lo hi : Nat} (val : Nat → UInt64)
    (h : t.toNat + 8 * (off + hi) ≤ 2 ^ 64) :
    fill (fun i => (entryPtr t (off + i)).toNat) val lo hi =
      (fill (off + ·) val lo hi).map (Prod.map (slot t.toNat) id) := by
  rw [map_fill]
  refine fill_congr ?_
  intro i _ hi
  exact ⟨toNat_entryPtr (by omega), rfl⟩

/-- `fill_entryPtr` for the first table of a block. -/
theorem fill_entryPtr_zero {t : UInt64} {lo hi : Nat} (val : Nat → UInt64)
    (h : t.toNat + 8 * hi ≤ 2 ^ 64) :
    fill (fun i => (entryPtr t i).toNat) val lo hi =
      (fill (fun i => i) val lo hi).map (Prod.map (slot t.toNat) id) := by
  have h0 : t.toNat + 8 * (0 + hi) ≤ 2 ^ 64 := by simpa using h
  simpa using fill_entryPtr val h0

/-! ## the kernel tables -/

/-- Entries in the block at `kernel_pt_base`: 2048 page tables, 4 page
directories, one PDPT and one PML4. -/
def kernelSlots : Nat := 1048576 + 2048 + 512 + 512

/-- The stores of `page_table_init_kernel`, by index. -/
def kernelStores (info : Information) : List (Nat × UInt64) :=
  let kPte := info.kernelPtBase
  fill (fun i => i) (fun i => (0x1000 * UInt32.ofNat i + 0x3).toUInt64) 0 1048576 ++
  fill (1048576 + ·) (fun j => entryPtr kPte (512 * j) + 0x3) 0 2048 ++
  fill (1050624 + ·) (fun k => entryPtr kPte (1048576 + 512 * k) + 0x3) 0 4 ++
  fill (1050624 + ·) (fun _ => 0) 4 512 ++
  fill (1051136 + ·) (fun m => entryPtr kPte (1050624 + 512 * m) + 0x3) 0 1 ++
  fill (1051136 + ·) (fun _ => 0) 1 511

/-- `page_table_init_kernel` performs exactly `kernelStores`. -/
theorem run_pageTableInitKernel (info : Information) (m : PhysMem)
    (h : info.kernelPtBase.toNat + 8 * kernelSlots ≤ 2 ^ 64) :
    pageTableInitKernel info m = (entryPtr info.kernelPtBase 1051136,
      (kernelStores info).map (Prod.map (slot info.kernelPtBase.toNat) id)) := by
  simp only [kernelSlots] at h
  have h0 : (1048576 : UInt32).toNat = 1048576 := rfl
  have h1 : (1048576 / 512 : UInt32).toNat = 2048 := rfl
  have h2 : (1048576 / 512 / 512 : UInt32).toNat = 4 := rfl
  have h3 : (1048576 / 512 / 512 / 4 : UInt32).toNat = 1 := rfl
  simp only [pageTableInitKernel, setEntry, h0, h1, h2, h3, run_bind, run_forRange_store, run_pure,
    entryPtr_entryPtr, kernelStores, List.map_append, List.append_nil, List.append_assoc]
  rw [fill_entryPtr_zero _ (by omega), fill_entryPtr _ (by omega), fill_entryPtr _ (by omega),
    fill_entryPtr _ (by omega), fill_entryPtr _ (by omega), fill_entryPtr _ (by omega)]

/-- Entry `n` of the kernel block.  The last entry of the PML4, which no loop
of the source writes, keeps what memory held (`old`). -/
def kernelTable (info : Information) (old : Nat → UInt64) (n : Nat) : UInt64 :=
  let kPte := info.kernelPtBase
  if n < 1048576 then (0x1000 * UInt32.ofNat n + 0x3).toUInt64
  else if n < 1050624 then entryPtr kPte (512 * (n - 1048576)) + 0x3
  else if n < 1050628 then entryPtr kPte (1048576 + 512 * (n - 1050624)) + 0x3
  else if n < 1051136 then 0
  else if n = 1051136 then entryPtr kPte 1050624 + 0x3
  else if n < 1051647 then 0
  else old n

theorem replay_kernelStores (info : Information) (old : Nat → UInt64) (n : Nat) :
    replay old (kernelStores info) n = kernelTable info old n := by
  simp only [kernelStores, replay_append, replay_fill, replay_fill_add, kernelTable]
  grind

/-! ## the user tables -/

/-- The counts the kernel expects of the loader: `num_user_ptes` below 512 and
one table of each higher level. -/
structure Information.Counts (info : Information) : Prop where
  stack_le : info.numUserStackPages.toNat ≤ info.numUserPtes.toNat
  ptes_lt : info.numUserPtes.toNat < 512
  pdes : info.numUserPdes = 1
  pdpes : info.numUserPdpes = 1
  pml4es : info.numUserPml4es = 1

/-- Entries in the block at `user_pt_base`: a page table, a page directory, a
PDPT and a PML4. -/
def userSlots : Nat := 512 + 512 + 512 + 512

/-- The stores of `page_table_init_user` before it reads the kernel's PML4. -/
def userStoresBelow (info : Information) (redef : UInt8) : List (Nat × UInt64) :=
  let uPte := info.userPtBase
  fill (fun i => i) (userStackEntry info) 0 info.numUserStackPages.toNat ++
  fill (fun i => i) (userAppEntry info) info.numUserStackPages.toNat info.numUserPtes.toNat ++
  fill (fun i => i) (fun _ => 0) info.numUserPtes.toNat 512 ++
  [(510, info.tlsBuffer + 0x7)] ++
  (if redef = 1 then [(511, info.extraPageForException + 0x7)] else []) ++
  fill (512 + ·) (fun j => entryPtr uPte (512 * j) + 0x7) 0 info.numUserPdes.toNat ++
  fill (512 + ·) (fun _ => 0) info.numUserPdes.toNat 512 ++
  fill (1024 + ·) (fun _ => 0) 0 (512 - info.numUserPdpes).toNat ++
  [(1535, entryPtr uPte 512 + 0x7)]

/-- The stores of `page_table_init_user` to the PML4; `lower` is the entry
copied from the kernel's. -/
def userStoresPml4 (info : Information) (lower : UInt64) : List (Nat × UInt64) :=
  [(1536, lower)] ++
  fill (1536 + ·) (fun _ => 0) 1 (512 - info.numUserPml4es).toNat ++
  [(2047, entryPtr info.userPtBase 1024 + 0x7)]

/-- At these counts every table of the user block lies below entry `n`. -/
structure Information.TablesBelow (info : Information) (n : Nat) : Prop where
  block : userSlots ≤ n
  stack : info.numUserStackPages.toNat ≤ n
  ptes : info.numUserPtes.toNat ≤ n
  pdes : 512 + info.numUserPdes.toNat ≤ n
  pdpes : 1024 + (512 - info.numUserPdpes).toNat ≤ n
  pml4es : 1536 + (512 - info.numUserPml4es).toNat ≤ n

theorem Information.Counts.tablesBelow {info : Information} (hc : info.Counts) :
    info.TablesBelow userSlots := by
  obtain ⟨hs, hn, hd, hp, h4⟩ := hc
  have h511 : (512 - 1 : UInt32).toNat = 511 := rfl
  have h1 : (1 : UInt32).toNat = 1 := rfl
  constructor <;> simp only [userSlots, hd, hp, h4, h511, h1] <;> omega

/-- `page_table_init_user` performs exactly `userStoresBelow`, reads the
kernel's PML4 entry, and performs `userStoresPml4`. -/
theorem run_pageTableInitUser {info : Information} {n : Nat} (hn : info.TablesBelow n)
    (h : info.userPtBase.toNat + 8 * n ≤ 2 ^ 64) (kPml4e : UInt64) (redef : UInt8)
    (m : PhysMem) :
    pageTableInitUser info kPml4e redef m =
      let place := List.map (Prod.map (slot info.userPtBase.toNat) (id : UInt64 → UInt64))
      let lower := replay m (place (userStoresBelow info redef)) kPml4e.toNat
      (entryPtr info.userPtBase 1536,
        place (userStoresBelow info redef) ++ place (userStoresPml4 info lower)) := by
  obtain ⟨hblock, hstack, hptes, hpdes, hpdpes, hpml4es⟩ := hn
  simp only [userSlots] at hblock
  have slot510 := toNat_entryPtr (t := info.userPtBase) (i := 510) (by omega)
  have slot511 := toNat_entryPtr (t := info.userPtBase) (i := 511) (by omega)
  have slot1535 := toNat_entryPtr (t := info.userPtBase) (i := 1535) (by omega)
  have slot1536 := toNat_entryPtr (t := info.userPtBase) (i := 1536) (by omega)
  have slot2047 := toNat_entryPtr (t := info.userPtBase) (i := 2047) (by omega)
  have hfill : ∀ off lo hi val, off + hi ≤ n →
      (fill (off + ·) val lo hi).map (Prod.map (slot info.userPtBase.toNat) id) =
        fill (fun i => (entryPtr info.userPtBase (off + i)).toNat) val lo hi :=
    fun off lo hi val hle => (fill_entryPtr val (by omega)).symm
  have hpte : ∀ lo hi val, hi ≤ n →
      (fill (fun i => i) val lo hi).map (Prod.map (slot info.userPtBase.toNat) id) =
        fill (fun i => (entryPtr info.userPtBase i).toNat) val lo hi :=
    fun lo hi val hle => (fill_entryPtr_zero val (by omega)).symm
  have hstack := hpte 0 _ (userStackEntry info) hstack
  have happ := hpte info.numUserStackPages.toNat _ (userAppEntry info) hptes
  have hzero := hpte info.numUserPtes.toNat 512 (fun _ => 0) (by omega)
  have hpde := hfill 512 0 _ (fun j => entryPtr info.userPtBase (512 * j) + 0x7) hpdes
  have hpdeZero := hfill 512 info.numUserPdes.toNat 512 (fun _ => 0) (by omega)
  have hpdpe := hfill 1024 0 _ (fun _ => 0) hpdpes
  have hpml4e := hfill 1536 1 _ (fun _ => 0) hpml4es
  by_cases hr : redef = 1 <;>
    simp [pageTableInitUser, setEntry, hr, entryPtr_entryPtr, replay_append,
      userStoresBelow, userStoresPml4, hstack, happ, hzero, hpde, hpdeZero, hpdpe, hpml4e,
      slot510, slot511, slot1535, slot1536, slot2047]

/-- Entry `n` of the user block, with `lower` the copied PML4 entry. -/
def userTable (info : Information) (redef : UInt8) (lower : UInt64) (n : Nat) : UInt64 :=
  let uPte := info.userPtBase
  if n = 511 then (if redef = 1 then info.extraPageForException + 0x7 else 0)
  else if n = 510 then info.tlsBuffer + 0x7
  else if n < info.numUserStackPages.toNat then userStackEntry info n
  else if n < info.numUserPtes.toNat then userAppEntry info n
  else if n = 512 then entryPtr uPte 0 + 0x7
  else if n = 1535 then entryPtr uPte 512 + 0x7
  else if n = 1536 then lower
  else if n = 2047 then entryPtr uPte 1024 + 0x7
  else 0

theorem replay_userStores {info : Information} (hc : info.Counts) (redef : UInt8) (lower : UInt64)
    (old : Nat → UInt64) {n : Nat} (h : n < userSlots) :
    replay old (userStoresBelow info redef ++ userStoresPml4 info lower) n =
      userTable info redef lower n := by
  obtain ⟨hs, hn, hd, hp, h4⟩ := hc
  simp only [userSlots] at h
  have h511 : (512 - 1 : UInt32).toNat = 511 := rfl
  have h1 : (1 : UInt32).toNat = 1 := rfl
  -- one case for each table of the block
  have hpage : n < 512 ∨ 512 ≤ n ∧ n < 1024 ∨ 1024 ≤ n ∧ n < 1536 ∨ 1536 ≤ n ∧ n < 2048 := by omega
  by_cases hr : redef = 1 <;>
    simp only [userStoresBelow, userStoresPml4, replay_append, replay_cons, replay_nil,
      replay_fill, replay_fill_add, userTable, hd, hp, h4, h511, h1, hr, if_true, if_false,
      Function.update_apply] <;>
    rcases hpage with hpte | hpde | hpdpe | hpml4 <;> grind

/-! ## final memory -/

theorem lt_kernelSlots (info : Information) : ∀ s ∈ kernelStores info, s.1 < kernelSlots := by
  simp only [kernelStores, List.forall_mem_append, forall_mem_fill, kernelSlots]
  grind

theorem lt_userStores {info : Information} {n : Nat} (hn : info.TablesBelow n) (redef : UInt8)
    (lower : UInt64) : ∀ s ∈ userStoresBelow info redef ++ userStoresPml4 info lower, s.1 < n := by
  obtain ⟨hblock, hstack, hptes, hpdes, hpdpes, hpml4es⟩ := hn
  simp only [userSlots] at hblock
  by_cases hr : redef = 1 <;>
    simp only [userStoresBelow, userStoresPml4, List.forall_mem_append, forall_mem_fill,
      List.forall_mem_singleton, hr, if_true, if_false,
      List.not_mem_nil, false_imp_iff, implies_true] <;> grind

/-- PML4 entry 0 is written with the copied entry only. -/
theorem value_userStores_pml4 {info : Information} (hc : info.Counts) (redef : UInt8)
    (lower : UInt64) : ∀ s ∈ userStoresBelow info redef ++ userStoresPml4 info lower,
      s.1 = 1536 → s.2 = lower := by
  obtain ⟨hle, hn, hd, hp, h4⟩ := hc
  have h511 : (512 - 1 : UInt32).toNat = 511 := rfl
  have h1 : (1 : UInt32).toNat = 1 := rfl
  by_cases hr : redef = 1 <;>
    simp only [userStoresBelow, userStoresPml4, List.forall_mem_append, forall_mem_fill,
      List.forall_mem_singleton, hd, hp, h4, h511, h1, hr, if_true, if_false,
      List.not_mem_nil, false_imp_iff, implies_true] <;> grind

/-- The kernel block holds `kernelTable` after `page_table_init_kernel`. -/
theorem exec_pageTableInitKernel_slot (info : Information) (m : PhysMem)
    (h : info.kernelPtBase.toNat + 8 * kernelSlots ≤ 2 ^ 64) (n : Nat) :
    exec (pageTableInitKernel info) m (slot info.kernelPtBase.toNat n) =
      kernelTable info (m ∘ slot info.kernelPtBase.toNat) n := by
  rw [exec, run_pageTableInitKernel info m h, replay_map (slot_injective _), replay_kernelStores]

/-- `page_table_init_kernel` writes inside the kernel block only. -/
theorem exec_pageTableInitKernel_of_outside (info : Information) (m : PhysMem)
    (h : info.kernelPtBase.toNat + 8 * kernelSlots ≤ 2 ^ 64) {a : Nat}
    (ha : ∀ n < kernelSlots, slot info.kernelPtBase.toNat n ≠ a) :
    exec (pageTableInitKernel info) m a = m a := by
  rw [exec, run_pageTableInitKernel info m h]
  exact replay_map_of_ne fun s hs => ha s.1 (lt_kernelSlots info s hs)

/-- What `page_table_init_user` leaves in its block, at any counts: the replay
of its stores, with some entry of the kernel's copied. -/
theorem exec_pageTableInitUser_replay {info : Information} {n : Nat} (hn : info.TablesBelow n)
    (h : info.userPtBase.toNat + 8 * n ≤ 2 ^ 64) (kPml4e : UInt64) (redef : UInt8) (m : PhysMem) :
    ∃ lower, ∀ i, exec (pageTableInitUser info kPml4e redef) m (slot info.userPtBase.toNat i) =
      replay (m ∘ slot info.userPtBase.toNat)
        (userStoresBelow info redef ++ userStoresPml4 info lower) i := by
  refine ⟨replay m ((userStoresBelow info redef).map (Prod.map (slot info.userPtBase.toNat) id))
    kPml4e.toNat, ?_⟩
  intro i
  rw [exec, run_pageTableInitUser hn h]
  simp only [← List.map_append, replay_map (slot_injective _)]

section User

variable {info : Information} (hc : info.Counts)
  (h : info.userPtBase.toNat + 8 * userSlots ≤ 2 ^ 64) (kPml4e : UInt64) (redef : UInt8)
  (m : PhysMem)

include hc

/-- The entry that `page_table_init_user` copies is the one the kernel's PML4
held before the call, if that lies outside the user block. -/
theorem lower_eq (hk : ∀ n < userSlots, slot info.userPtBase.toNat n ≠ kPml4e.toNat) :
    replay m ((userStoresBelow info redef).map (Prod.map (slot info.userPtBase.toNat) id))
      kPml4e.toNat = m kPml4e.toNat :=
  replay_map_of_ne fun s hs =>
    hk s.1 (lt_userStores hc.tablesBelow redef 0 s (List.mem_append_left _ hs))

include h

/-- The stores of `page_table_init_user`, all inside the user block. -/
theorem run_pageTableInitUser_stores
    (hk : ∀ n < userSlots, slot info.userPtBase.toNat n ≠ kPml4e.toNat) :
    (pageTableInitUser info kPml4e redef m).2 =
      (userStoresBelow info redef ++ userStoresPml4 info (m kPml4e.toNat)).map
        (Prod.map (slot info.userPtBase.toNat) id) := by
  rw [run_pageTableInitUser hc.tablesBelow h]
  simp only [lower_eq hc kPml4e redef m hk, List.map_append]

/-- The user block holds `userTable` after `page_table_init_user`. -/
theorem exec_pageTableInitUser_slot
    (hk : ∀ n < userSlots, slot info.userPtBase.toNat n ≠ kPml4e.toNat) {n : Nat}
    (hn : n < userSlots) :
    exec (pageTableInitUser info kPml4e redef) m (slot info.userPtBase.toNat n) =
      userTable info redef (m kPml4e.toNat) n := by
  rw [exec, run_pageTableInitUser_stores hc h kPml4e redef m hk, replay_map (slot_injective _),
    replay_userStores hc redef _ _ hn]

/-- `page_table_init_user` writes inside the user block only. -/
theorem exec_pageTableInitUser_of_outside
    (hk : ∀ n < userSlots, slot info.userPtBase.toNat n ≠ kPml4e.toNat) {a : Nat}
    (ha : ∀ n < userSlots, slot info.userPtBase.toNat n ≠ a) :
    exec (pageTableInitUser info kPml4e redef) m a = m a := by
  rw [exec, run_pageTableInitUser_stores hc h kPml4e redef m hk]
  exact replay_map_of_ne fun s hs => ha s.1 (lt_userStores hc.tablesBelow _ _ s hs)

end User

end UefiKernel
