import Mathlib.Logic.Function.Iterate
import UefiKernel.AddressSpace

/-!
# UefiKernel.LiveTables

The tables while the processor uses them.  `kernel_start` builds both blocks
and loads `CR3`; from then on `page_fault_handler` rebuilds the user block in
place, under the kernel's feet.

A `KernelAct` is what may happen to memory once `CR3` is loaded: a page fault,
or a store anywhere outside the two blocks.  `Kernel.Live` is the invariant:
both blocks hold their tables and `CR3` points at the user's PML4.

* `live_bootPaging`, `live_step`, `live_run` — initially, over one act, over
  every run;
* `walk_run` — the address space after every run;
* `kernelTablesIn_during`, `Kernel.Live.pageFault_eq` — every intermediate state
  of the handler, and its net effect, both in `pageFault_on_live_tables`.
-/

namespace UefiKernel

open Store Store.StoreM

/-! ## building the tables -/

/-- `kernel_start` up to `write_cr3`: build both blocks; the results are
`k_pml4e_base` and `u_pml4e_base`. -/
def initPageTables (info : Information) (redef : UInt8) : TableM (UInt64 × UInt64) := do
  let kPml4e ← pageTableInitKernel info
  let uPml4e ← pageTableInitUser info kPml4e redef
  return (kPml4e, uPml4e)

/-- The two blocks have no slot in common. -/
theorem slot_ne_of_apart {a b n k i j : Nat} (h : Apart a n b k) (hi : i < 512 * n)
    (hj : j < 512 * k) : slot b j ≠ slot a i := by
  simp only [Apart, slot, pageSize] at *
  omega

section Init

variable {info : Information} (hc : info.Counts) (hp : info.TablesPlaced)

include hp

theorem kernelBlock_fits : info.kernelPtBase.toNat + 8 * kernelSlots ≤ 2 ^ 64 := by
  obtain ⟨-, hf⟩ := hp.kernelPt
  simp only [pageSize, kernelSlots] at *
  omega

theorem userBlock_fits : info.userPtBase.toNat + 8 * userSlots ≤ 2 ^ 64 := by
  obtain ⟨-, hf⟩ := hp.userPt
  simp only [pageSize, userSlots] at *
  omega

theorem toNat_kernelPml4 : info.kernelPml4.toNat = slot info.kernelPtBase.toNat 1051136 := by
  have := kernelBlock_fits hp
  simp only [kernelSlots] at this
  exact toNat_entryPtr (by omega)

theorem kernelSlot_ne_userSlot {i j : Nat} (hi : i < kernelSlots) (hj : j < userSlots) :
    slot info.userPtBase.toNat j ≠ slot info.kernelPtBase.toNat i := by
  simp only [kernelSlots, userSlots] at hi hj
  exact slot_ne_of_apart hp.apart (by omega) (by omega)

/-- The kernel's PML4 lies outside the user block. -/
theorem userSlot_ne_kernelPml4 :
    ∀ n < userSlots, slot info.userPtBase.toNat n ≠ info.kernelPml4.toNat := by
  intro n hn
  rw [toNat_kernelPml4 hp]
  exact kernelSlot_ne_userSlot hp (by decide) hn

omit hp in
/-- The tables depend on the memory of the two blocks only. -/
theorem TablesIn.congr {redef : UInt8} {m m' : PhysMem} (ht : TablesIn info redef m)
    (hk : ∀ n < kernelSlots,
      m' (slot info.kernelPtBase.toNat n) = m (slot info.kernelPtBase.toNat n))
    (hu : ∀ n < userSlots, m' (slot info.userPtBase.toNat n) = m (slot info.userPtBase.toNat n)) :
    TablesIn info redef m' where
  kernel := fun n hn => (hk n (by simp only [kernelSlots]; omega)).trans (ht.kernel n hn)
  lower := (hu _ (by decide)).trans ht.lower
  user := fun n hn => (hu n hn).trans (ht.user n hn)

/-- Entry 0 of the kernel's PML4, where `page_table_init_user` reads it. -/
theorem KernelTablesIn.pml4_zero {m : PhysMem} (hl : KernelTablesIn info m) :
    m info.kernelPml4.toNat = info.lowerHalf := by
  rw [toNat_kernelPml4 hp, hl.kernel _ (by decide)]
  rfl

include hc

/-- `page_table_init_user` on a memory that holds the kernel's tables. -/
theorem tablesIn_pageTableInitUser {m : PhysMem} (redef : UInt8)
    (hk : ∀ n < 1051647, m (slot info.kernelPtBase.toNat n) = kernelTable info (fun _ => 0) n) :
    TablesIn info redef (exec (pageTableInitUser info info.kernelPml4 redef) m) := by
  have hlow : m info.kernelPml4.toNat = info.lowerHalf := by
    rw [toNat_kernelPml4 hp, hk _ (by decide)]
    rfl
  have hout := userSlot_ne_kernelPml4 hp
  have huser : ∀ n < userSlots,
      exec (pageTableInitUser info info.kernelPml4 redef) m (slot info.userPtBase.toNat n) =
        userTable info redef info.lowerHalf n := by
    intro n hn
    rw [exec_pageTableInitUser_slot hc (userBlock_fits hp) _ redef m hout hn, hlow]
  refine ⟨⟨?_, ?_⟩, huser⟩
  · intro n hn
    rw [exec_pageTableInitUser_of_outside hc (userBlock_fits hp) _ redef m hout, hk n hn]
    exact fun j hj => kernelSlot_ne_userSlot hp (by simp only [kernelSlots]; omega) hj
  · rw [huser _ (by decide)]
    have := hc.ptes_lt
    have := hc.stack_le
    grind [userTable]

/-- Both builders, from any memory. -/
theorem tablesIn_initPageTables (redef : UInt8) (m : PhysMem) :
    TablesIn info redef (exec (initPageTables info redef) m) := by
  have hexec : exec (initPageTables info redef) m =
      exec (pageTableInitUser info info.kernelPml4 redef) (exec (pageTableInitKernel info) m) := by
    simp only [initPageTables, exec, run_bind, run_pure, List.append_nil, replay_append]
    rw [run_pageTableInitKernel info m (kernelBlock_fits hp)]
    rfl
  rw [hexec]
  refine tablesIn_pageTableInitUser hc hp redef ?_
  intro n hn
  rw [exec_pageTableInitKernel_slot info m (kernelBlock_fits hp)]
  grind [kernelTable]

/-- `page_table_init_user` returns the PML4 of the user block. -/
theorem fst_pageTableInitUser (kPml4e : UInt64) (redef : UInt8) (m : PhysMem) :
    (pageTableInitUser info kPml4e redef m).1 = info.userPml4 := by
  rw [run_pageTableInitUser hc.tablesBelow (userBlock_fits hp)]
  rfl

/-- The two results of `initPageTables`. -/
theorem fst_initPageTables (redef : UInt8) (m : PhysMem) :
    (initPageTables info redef m).1 = (info.kernelPml4, info.userPml4) := by
  simp only [initPageTables, run_bind, run_pure, fst_pageTableInitUser hc hp]
  rw [run_pageTableInitKernel info m (kernelBlock_fits hp)]
  rfl

end Init

/-- **The layout**: from any prior memory, the walk from the PML4 that
`page_table_init_user` returns gives exactly the address space, for every
canonical address. -/
theorem walk_initPageTables {info : Information} (hc : info.Counts) (hp : info.Placed)
    (redef : UInt8) (m : PhysMem) {v : UInt64} (hcan : Canonical v) :
    walk (exec (initPageTables info redef) m) (initPageTables info redef m).1.2 v =
      addressSpace info (redef = 1) v := by
  rw [fst_initPageTables hc hp.toTablesPlaced]
  exact walk_eq_addressSpace hc (tablesIn_initPageTables hc hp.toTablesPlaced redef m) hp hcan

/-- A record as the loader fills it in: a three-page binary, and everything
from 1 MiB upwards. -/
def sampleInfo : Information where
  kernelStackBuffer := 9531392
  userStackBuffer := 9535488
  kernelPtBase := 1073152
  userPtBase := 9486336
  userAppBuffer := 1060864
  tssStackBuffer := 9506816
  tssSegmentBuffer := 9506816
  extraPageForException := 9523200
  tlsBuffer := 9510912
  sharedPage := 9515008
  gntTable := 9519104
  numUserPtes := 4
  numUserPdes := 1
  numUserPdpes := 1
  numUserPml4es := 1
  numKernelStackPages := 1
  numUserStackPages := 1
  numUserBinaryPages := 3

theorem counts_sampleInfo : sampleInfo.Counts := ⟨by decide, by decide, rfl, rfl, rfl⟩

theorem placed_sampleInfo : sampleInfo.Placed :=
  ⟨⟨⟨rfl, by decide⟩, ⟨rfl, by decide⟩, .inl (by decide)⟩, by decide, ⟨rfl, by decide⟩,
    ⟨rfl, by decide⟩, ⟨rfl, by decide⟩, ⟨rfl, by decide⟩⟩

/-- Over memory full of ones, the exception page is where it should be. -/
theorem walk_initPageTables_sample :
    walk (exec (initPageTables sampleInfo 1) fun _ => 0xFFFFFFFFFFFFFFFF)
      (initPageTables sampleInfo 1 fun _ => 0xFFFFFFFFFFFFFFFF).1.2 0xFFFFFFFFC01FF008 =
        some ⟨9523208, true, true⟩ :=
  (walk_initPageTables counts_sampleInfo placed_sampleInfo 1 _ (.inr (by decide))).trans (by decide)

/-! ## the running kernel -/

/-- What the kernel keeps once paging is on: memory, `CR3`, and the globals
`global_info` and `global_k_pml4e_base`. -/
structure Kernel where
  mem : PhysMem
  cr3 : UInt64
  globalInfo : Information
  globalKPml4eBase : UInt64

/-- `kernel_start` up to and including `write_cr3(u_pml4e_base)`. -/
def bootPaging (info : Information) (m : PhysMem) : Kernel :=
  let tables := initPageTables info 0
  { mem := exec tables m
    cr3 := (tables m).1.2
    globalInfo := info
    globalKPml4eBase := (tables m).1.1 }

/-- `page_fault_handler`'s call of `page_table_init_user`. -/
def Kernel.rebuild (s : Kernel) : TableM UInt64 :=
  pageTableInitUser s.globalInfo s.globalKPml4eBase 1

/-- `page_fault_handler`: rebuild the user block and write `CR3`. -/
def Kernel.pageFault (s : Kernel) : Kernel :=
  { s with mem := exec s.rebuild s.mem, cr3 := (s.rebuild s.mem).1 }

/-- What may happen to memory while the kernel and its user run. -/
inductive KernelAct
  | fault
  | store (a : Nat) (v : UInt64)

def Kernel.step (s : Kernel) : KernelAct → Kernel
  | .fault => s.pageFault
  | .store a v => { s with mem := Function.update s.mem a v }

@[simp] theorem Kernel.step_store (s : Kernel) (a : Nat) (v : UInt64) :
    s.step (.store a v) = { s with mem := Function.update s.mem a v } := rfl

def Kernel.run (s : Kernel) (acts : List KernelAct) : Kernel := acts.foldl Kernel.step s

/-- A store outside both blocks of tables; a fault is no such store. -/
def KernelAct.Outside (info : Information) : KernelAct → Prop
  | .fault => True
  | .store a _ => (∀ n < kernelSlots, slot info.kernelPtBase.toNat n ≠ a) ∧
      ∀ n < userSlots, slot info.userPtBase.toNat n ≠ a

/-- Whether a run contains a fault. -/
def faulted (acts : List KernelAct) : Bool := acts.any fun
  | .fault => true
  | .store _ _ => false

/-- The value of `redef` the tables were last built with. -/
def redefOf (fault : Bool) : UInt8 := if fault then 1 else 0

/-- The invariant: both blocks hold their tables, and `CR3` and the globals
point at them. -/
structure Kernel.Live (info : Information) (fault : Bool) (s : Kernel) : Prop where
  tables : TablesIn info (redefOf fault) s.mem
  cr3 : s.cr3 = info.userPml4
  globalInfo : s.globalInfo = info
  globalKPml4eBase : s.globalKPml4eBase = info.kernelPml4

theorem redefOf_eq_one (fault : Bool) : decide (redefOf fault = 1) = fault := by
  cases fault <;> rfl

section Live

variable {info : Information} (hc : info.Counts) (hp : info.TablesPlaced)

include hc hp

theorem bootPaging_eq (m : PhysMem) : bootPaging info m =
    ⟨exec (initPageTables info 0) m, info.userPml4, info, info.kernelPml4⟩ := by
  simp only [bootPaging, fst_initPageTables hc hp]

theorem live_bootPaging (m : PhysMem) : (bootPaging info m).Live info false := by
  rw [bootPaging_eq hc hp]
  refine ⟨?_, rfl, rfl, rfl⟩
  dsimp only
  exact tablesIn_initPageTables hc hp 0 m

variable {fault : Bool} {s : Kernel}

omit hc hp in
/-- The handler's call, in terms of the record. -/
theorem Kernel.Live.rebuild_eq (hs : s.Live info fault) :
    s.rebuild = pageTableInitUser info info.kernelPml4 1 := by
  rw [Kernel.rebuild, hs.globalInfo, hs.globalKPml4eBase]

theorem Kernel.Live.pageFault (hs : s.Live info fault) : s.pageFault.Live info true where
  tables := by
    dsimp only [Kernel.pageFault]
    rw [hs.rebuild_eq]
    exact tablesIn_pageTableInitUser hc hp 1 hs.tables.kernel
  cr3 := by
    simp only [Kernel.pageFault, hs.rebuild_eq]
    exact fst_pageTableInitUser hc hp _ 1 s.mem
  globalInfo := hs.globalInfo
  globalKPml4eBase := hs.globalKPml4eBase

omit hc hp in
theorem Kernel.Live.store (hs : s.Live info fault) {a : Nat} {v : UInt64}
    (ha : (KernelAct.store a v).Outside info) : (s.step (.store a v)).Live info fault where
  tables := by
    rw [Kernel.step_store]
    exact hs.tables.congr (fun n hn => Function.update_of_ne (ha.1 n hn) _ _)
      (fun n hn => Function.update_of_ne (ha.2 n hn) _ _)
  cr3 := hs.cr3
  globalInfo := hs.globalInfo
  globalKPml4eBase := hs.globalKPml4eBase

/-- One act keeps the invariant. -/
theorem live_step (hs : s.Live info fault) {act : KernelAct} (ha : act.Outside info) :
    (s.step act).Live info (fault || faulted [act]) := by
  cases act with
  | fault =>
      rw [show (fault || faulted [.fault]) = true by cases fault <;> rfl]
      exact hs.pageFault hc hp
  | store a v =>
      rw [show (fault || faulted [.store a v]) = fault by cases fault <;> rfl]
      exact hs.store ha

/-- Every run keeps the invariant. -/
theorem live_run (hs : s.Live info fault) {acts : List KernelAct}
    (ha : ∀ act ∈ acts, act.Outside info) :
    (s.run acts).Live info (fault || faulted acts) := by
  induction acts generalizing s fault with
  | nil =>
      rw [show (fault || faulted []) = fault by cases fault <;> rfl]
      exact hs
  | cons act acts ih =>
      have hstep := live_step hc hp hs (ha act List.mem_cons_self)
      have hrest := ih hstep fun act' h => ha act' (List.mem_cons_of_mem act h)
      rw [Bool.or_assoc] at hrest
      rw [show faulted (act :: acts) = (faulted [act] || faulted acts) by simp [faulted]]
      exact hrest

omit hp in
/-- The address space after every run. -/
theorem walk_run (hp : info.Placed) (m : PhysMem) (acts : List KernelAct)
    (ha : ∀ act ∈ acts, act.Outside info) {v : UInt64} (hcan : Canonical v) :
    walk ((bootPaging info m).run acts).mem ((bootPaging info m).run acts).cr3 v =
      addressSpace info (faulted acts) v := by
  have hlive := live_run hc hp.toTablesPlaced (live_bootPaging hc hp.toTablesPlaced m) ha
  rw [hlive.cr3, walk_eq_addressSpace hc hlive.tables hp hcan, Bool.false_or, redefOf_eq_one]

/-! ## a page fault, store by store -/

/-- The stores of the handler. -/
theorem Kernel.Live.stores_eq (hs : s.Live info fault) :
    (s.rebuild s.mem).2 = (userStoresBelow info 1 ++ userStoresPml4 info info.lowerHalf).map
      (Prod.map (slot info.userPtBase.toNat) id) := by
  rw [hs.rebuild_eq, run_pageTableInitUser_stores hc (userBlock_fits hp) _ _ _
    (userSlot_ne_kernelPml4 hp), hs.tables.pml4_zero hp]

/-- Every store of the handler is to a slot of the user block. -/
theorem exists_slot_of_mem_stores (hs : s.Live info fault) {st : Nat × UInt64}
    (h : st ∈ (s.rebuild s.mem).2) :
    ∃ n < userSlots, st.1 = slot info.userPtBase.toNat n ∧ (n = 1536 → st.2 = info.lowerHalf) := by
  rw [hs.stores_eq hc hp] at h
  obtain ⟨t, ht, rfl⟩ := List.mem_map.mp h
  exact ⟨t.1, lt_userStores hc.tablesBelow 1 _ t ht, rfl, value_userStores_pml4 hc 1 _ t ht⟩

/-- After any prefix of the handler's stores memory holds the kernel's tables. -/
theorem kernelTablesIn_during (hs : s.Live info fault) {l : List (Nat × UInt64)}
    (hl : l <+: (s.rebuild s.mem).2) : KernelTablesIn info (replay s.mem l) where
  kernel := by
    intro n hn
    rw [replay_of_ne, hs.tables.kernel n hn]
    intro st hst
    obtain ⟨j, hj, he, -⟩ := exists_slot_of_mem_stores hc hp hs (hl.subset hst)
    rw [he]
    exact kernelSlot_ne_userSlot hp (by simp only [kernelSlots]; omega) hj
  lower := by
    rw [replay_of_agree, hs.tables.lower]
    intro st hst he
    obtain ⟨j, -, hj, hval⟩ := exists_slot_of_mem_stores hc hp hs (hl.subset hst)
    rw [hs.tables.lower]
    exact hval (slot_injective _ (hj.symm.trans he))

/-- The net effect of the handler: one entry of the user page table. -/
theorem Kernel.Live.pageFault_eq (hs : s.Live info fault) :
    s.pageFault = { s with
      mem := Function.update s.mem (slot info.userPtBase.toNat 511)
        (info.extraPageForException + 0x7) } := by
  have hlive := hs.pageFault hc hp
  have hmem : s.pageFault.mem = Function.update s.mem (slot info.userPtBase.toNat 511)
      (info.extraPageForException + 0x7) := by
    funext a
    by_cases ha : ∃ n < userSlots, slot info.userPtBase.toNat n = a
    · obtain ⟨n, hn, rfl⟩ := ha
      rw [hlive.tables.user n hn]
      by_cases h511 : n = 511
      · subst h511
        rw [Function.update_self]
        rfl
      · rw [Function.update_of_ne ((slot_injective _).ne h511), hs.tables.user n hn]
        simp only [userTable, if_neg h511]
    · have hout : ∀ n < userSlots, slot info.userPtBase.toNat n ≠ a :=
        fun n hn he => ha ⟨n, hn, he⟩
      rw [Function.update_of_ne (hout 511 (by decide)).symm, Kernel.pageFault, hs.rebuild_eq]
      exact exec_pageTableInitUser_of_outside hc (userBlock_fits hp) _ 1 s.mem
        (userSlot_ne_kernelPml4 hp) hout
  calc s.pageFault = { s with mem := s.pageFault.mem, cr3 := s.pageFault.cr3 } := rfl
    _ = _ := by rw [hmem, hlive.cr3, ← hs.cr3]

/-- A second fault changes nothing. -/
theorem Kernel.Live.pageFault_pageFault (hs : s.Live info fault) :
    s.pageFault.pageFault = s.pageFault := by
  rw [(hs.pageFault hc hp).pageFault_eq hc hp, hs.pageFault_eq hc hp]
  simp only [Function.update_idem]

end Live

end UefiKernel
