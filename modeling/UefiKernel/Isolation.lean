import UefiKernel.Boot.Handover
import UefiKernel.LiveTables

/-!
# UefiKernel.Isolation

User and kernel apart, from the first `AllocatePages` to any later page fault.

The loader's half: if the firmware gives out page-aligned blocks below 4 GiB
with no page in common (`GoodBlocks`), the record that reaches the kernel
places everything soundly (`counts_of_loaded`, `placed_of_loaded`).  The
kernel's half is `walk_run`: after any run the walk is the address space of
that record.  Together (`user_isolation`): what the user bit lets through lies
in the user's own blocks, which share no page with the kernel's.
-/

namespace UefiKernel

open Interact Prog
open Boot

/-! ## sizes -/

/-- A small binary needs one table of each level, in four pages. -/
theorem calculateNumPagesUserPageTable_small {pages : UInt64} (h : pages.toNat + 1 < 512)
    (info : Information) :
    calculateNumPagesUserPageTable pages 1 info = (4, { info with
      numUserPtes := (pages + 1).toUInt32
      numUserPdes := 1
      numUserPdpes := 1
      numUserPml4es := 1 }) := by
  have hptes : (pages + 1).toNat = pages.toNat + 1 := by
    rw [UInt64.toNat_add, UInt64.toNat_one]
    omega
  have hpdes : (pages + 1) / 512 + 1 = 1 := by
    refine UInt64.toNat_inj.mp ?_
    rw [UInt64.toNat_add, UInt64.toNat_div, hptes]
    simp only [UInt64.reduceToNat]
    omega
  have hone : efiSizeToPages (8 * (pages + 1)) = 1 := by
    refine UInt64.toNat_inj.mp ?_
    rw [toNat_efiSizeToPages, UInt64.toNat_mul, hptes]
    simp only [UInt64.reduceToNat, pageSize]
    omega
  simp only [calculateNumPagesUserPageTable, hpdes, hone]
  rfl

/-! ## blocks -/

/-- `p` is in a page of the block. -/
def Boot.Block.Contains (b : Block) (p : Nat) : Prop := InBlock b.base.toNat b.pages.toNat p

/-- What is assumed of the blocks that `AllocatePages` gave out. -/
structure GoodBlocks (l : List Block) : Prop where
  aligned : ∀ b ∈ l, b.base.toNat % pageSize = 0
  below : ∀ b ∈ l, b.base.toNat + b.pages.toNat * pageSize ≤ 2 ^ 32
  apart : l.Pairwise fun a b => Apart a.base.toNat a.pages.toNat b.base.toNat b.pages.toNat

namespace Boot.Regions

/-- The user's own frames; the exception page is one after a fault. -/
def UserFrame (r : Regions) (fault : Bool) (p : Nat) : Prop :=
  r.userBinary.Contains p ∨ InBlock (r.stack.base.toNat + pageSize) 1 p ∨ r.tls.Contains p ∨
    fault = true ∧ r.exception.Contains p

/-- The frames the user must not reach. -/
def KernelFrame (r : Regions) (p : Nat) : Prop :=
  r.kernelImage.Contains p ∨ InBlock r.stack.base.toNat 1 p ∨ r.tss.Contains p ∨
    r.shared.Contains p ∨ r.grant.Contains p ∨ r.kernelPt.Contains p ∨ r.userPt.Contains p

theorem blocks_injective : Function.Injective blocks := by
  rintro ⟨⟩ ⟨⟩ h
  simpa [blocks] using h

/-- No frame is in two blocks. -/
theorem pairwise_not_contains {l : List Block} (hg : GoodBlocks l) (p : Nat) :
    l.Pairwise fun a b => ¬ (a.Contains p ∧ b.Contains p) := by
  refine hg.apart.imp ?_
  intro a b hab
  simp only [Apart, Block.Contains, InBlock] at *
  omega

/-- The user's frames are none of the kernel's. -/
theorem not_kernelFrame {r : Regions} (hg : GoodBlocks r.blocks) (hstack : r.stack.pages = 2)
    {fault : Bool} {p : Nat} (h : r.UserFrame fault p) : ¬ r.KernelFrame p := by
  have hone := pairwise_not_contains hg p
  simp only [blocks, List.pairwise_cons, List.mem_cons, List.not_mem_nil, or_false,
    forall_eq_or_imp, forall_eq] at hone
  have h2 : r.stack.pages.toNat = 2 := by rw [hstack]; rfl
  have hlow : InBlock r.stack.base.toNat 1 p → r.stack.Contains p := by
    simp only [Block.Contains, InBlock, h2, pageSize]
    omega
  have hhigh : InBlock (r.stack.base.toNat + pageSize) 1 p → r.stack.Contains p := by
    simp only [Block.Contains, InBlock, h2, pageSize]
    omega
  have hsplit :
      ¬ (InBlock r.stack.base.toNat 1 p ∧ InBlock (r.stack.base.toNat + pageSize) 1 p) := by
    simp only [InBlock, pageSize]
    omega
  simp only [UserFrame, KernelFrame] at *
  rcases h with h | h | h | ⟨-, h⟩ <;> grind

end Boot.Regions

/-! ## what the record promises the kernel -/

section Loaded

variable {r : Regions} {entry stack : UInt64} {info : Information}
  (hl : r.Loaded entry stack info)
  (hpages : r.userBinary.pages.toNat + 1 = info.numUserPtes.toNat)
  (hlt : info.numUserPtes.toNat < 512)

include hl hpages hlt

theorem counts_of_loaded : info.Counts ∧ r.userPt.pages = 4 := by
  have hcalc := hl.counts
  rw [calculateNumPagesUserPageTable_small (by omega)] at hcalc
  obtain ⟨hfour, hinfo⟩ := Prod.mk.inj hcalc
  have hone : info.numUserStackPages.toNat = 1 := by rw [hl.numUserStackPages]; rfl
  refine ⟨⟨by omega, hlt, ?_, ?_, ?_⟩, hfour.symm⟩
  · rw [← hinfo]
  · rw [← hinfo]
  · rw [← hinfo]

omit hpages hlt in
/-- The user's stack is the second page of the stack block. -/
theorem stackBase_of_loaded (hg : GoodBlocks r.blocks) :
    info.stackBase = r.stack.base.toNat + pageSize ∧
      info.numUserStackPages.toNat * pageSize ≤ info.userStackBuffer.toNat := by
  have hbelow := hg.below r.stack (by simp [Regions.blocks])
  have h2 : r.stack.pages.toNat = 2 := by rw [hl.stackPages]; rfl
  have hone : info.numUserStackPages.toNat = 1 := by rw [hl.numUserStackPages]; rfl
  have huser : info.userStackBuffer.toNat = r.stack.base.toNat + 8192 := by
    rw [hl.userStackBuffer, UInt64.toNat_add, UInt64.toNat_add]
    simp only [h2, pageSize, UInt64.reduceToNat] at *
    omega
  rw [Information.stackBase, huser, hone]
  simp only [pageSize]
  omega

theorem placed_of_loaded (hg : GoodBlocks r.blocks) : info.Placed := by
  obtain ⟨-, hfour⟩ := counts_of_loaded hl hpages hlt
  obtain ⟨hbase, hroom⟩ := stackBase_of_loaded hl hg
  have hone : info.numUserStackPages.toNat = 1 := by rw [hl.numUserStackPages]; rfl
  have block : ∀ b ∈ r.blocks, ∀ n, b.pages.toNat = n → IsBlock b.base.toNat n := by
    rintro b hb _ rfl
    exact ⟨hg.aligned b hb, Nat.le_trans (hg.below b hb) (by decide)⟩
  have page : ∀ b ∈ r.blocks, b.pages = 1 → IsPage b.base.toNat := by
    intro b hb h1
    have hb1 := block b hb 1 (by rw [h1]; rfl)
    exact ⟨hb1.aligned, by have := hb1.fits; simp only [pageSize] at this; omega⟩
  have hstack := block r.stack (by simp [Regions.blocks]) 2 (by rw [hl.stackPages]; rfl)
  have hapart := hg.apart
  simp only [Regions.blocks, List.pairwise_cons, List.mem_cons, List.not_mem_nil, or_false,
    forall_eq_or_imp, forall_eq] at hapart
  refine ⟨⟨?_, ?_, ?_⟩, hroom, ?_, ?_, ?_, ?_⟩
  · rw [hl.kernelPtBase]
    exact block _ (by simp [Regions.blocks]) _ (by rw [hl.kernelPtPages]; rfl)
  · rw [hl.userPtBase]
    exact block _ (by simp [Regions.blocks]) _ (by rw [hfour]; rfl)
  · have h : Apart r.kernelPt.base.toNat r.kernelPt.pages.toNat r.userPt.base.toNat
        r.userPt.pages.toNat := hapart.2.2.1.1
    rw [hl.kernelPtPages, hfour] at h
    rw [hl.kernelPtBase, hl.userPtBase]
    exact h
  · rw [hbase, hone]
    have ha := hstack.aligned
    have hf := hstack.fits
    simp only [pageSize] at *
    exact ⟨by simp only [pageSize]; omega, by simp only [pageSize]; omega⟩
  · rw [hl.userAppBuffer]
    exact block _ (by simp [Regions.blocks]) _ (by omega)
  · rw [hl.tlsBuffer]
    exact page _ (by simp [Regions.blocks]) hl.tlsPages
  · rw [hl.extraPageForException]
    exact page _ (by simp [Regions.blocks]) hl.exceptionPages

omit hlt in
/-- The physical pages of the user window are the user's own. -/
theorem userFrame_of_userPage (hg : GoodBlocks r.blocks) {fault : Bool} {i p off : Nat}
    (hp : userPage info fault i = some p) (hoff : off < pageSize) :
    r.UserFrame fault (p + off) := by
  obtain ⟨hbase, -⟩ := stackBase_of_loaded hl hg
  have hone : info.numUserStackPages.toNat = 1 := by rw [hl.numUserStackPages]; rfl
  have htls : r.tls.pages.toNat = 1 := by rw [hl.tlsPages]; rfl
  have hexc : r.exception.pages.toNat = 1 := by rw [hl.exceptionPages]; rfl
  simp only [Regions.UserFrame, Boot.Block.Contains, InBlock, htls, hexc, ← hl.userAppBuffer,
    ← hl.tlsBuffer, ← hl.extraPageForException, ← hbase]
  simp only [pageSize] at *
  unfold userPage at hp
  split_ifs at hp with h511 hfault h510 hstack happ
  · obtain rfl := Option.some.inj hp
    exact .inr (.inr (.inr ⟨hfault, by omega⟩))
  · obtain rfl := Option.some.inj hp
    exact .inr (.inr (.inl (by omega)))
  · obtain rfl := Option.some.inj hp
    simp only [pageSize] at *
    exact .inr (.inl (by omega))
  · obtain rfl := Option.some.inj hp
    simp only [pageSize] at *
    exact .inl (by omega)

end Loaded

/-! ## isolation -/

/-- What the user can reach in an address space lies in its own frames. -/
theorem userFrame_of_addressSpace {r : Regions} {entry stack : UInt64} {info : Information}
    (hl : r.Loaded entry stack info)
    (hpages : r.userBinary.pages.toNat + 1 = info.numUserPtes.toNat) (hg : GoodBlocks r.blocks)
    {fault : Bool} {v : UInt64} {x : Mapping} (hx : addressSpace info fault v = some x)
    (hu : x.user = true) : r.UserFrame fault x.phys := by
  unfold addressSpace at hx
  split_ifs at hx with hlow hwin
  · -- the low 4 GiB are the supervisor's
    obtain rfl := Option.some.inj hx
    cases hu
  · obtain ⟨p, hp, rfl⟩ := Option.map_eq_some_iff.mp hx
    exact userFrame_of_userPage hl hpages hg hp (Nat.mod_lt _ (by decide))

/-- **Isolation**: call the kernel after any run of the loader in which the
firmware gave out good blocks `r`, build the tables over any memory, and let
any number of faults and of stores outside the tables happen.  Then every
canonical address that the user can access leads into the user's binary, stack
page, TLS page or, once a fault was handled, exception page, and into none of
the kernel's frames. -/
theorem user_isolation {imageHandle : UInt64} {uninit : Information} {start : Screen} {w : World}
    {entry stack fb : UInt64} {width height : UInt32} {infoPtr : UInt64} {info : Information}
    {k : Unit → EfiM EfiStatus}
    (hrun : Run bootEnv (⟨[], start⟩, efiMain imageHandle uninit)
      (w, .call (.callKernel entry stack fb width height infoPtr info) k))
    {r : Regions} (hr : w.blocks = r.blocks) (hg : GoodBlocks r.blocks)
    (hpages : r.userBinary.pages.toNat + 1 = info.numUserPtes.toNat)
    (hlt : info.numUserPtes.toNat < 512)
    (m : PhysMem) (acts : List KernelAct) (hacts : ∀ act ∈ acts, act.Outside info)
    {v : UInt64} (hcan : Canonical v) {x : Mapping}
    (hx : walk ((bootPaging info m).run acts).mem ((bootPaging info m).run acts).cr3 v = some x)
    (hu : x.user = true) :
    r.UserFrame (faulted acts) x.phys ∧ ¬ r.KernelFrame x.phys := by
  obtain ⟨r', hr', hl⟩ := exists_regions_of_run hrun
  obtain rfl := Regions.blocks_injective (hr.symm.trans hr')
  obtain ⟨hcounts, -⟩ := counts_of_loaded hl hpages hlt
  have hplaced := placed_of_loaded hl hpages hlt hg
  rw [walk_run hcounts hplaced m acts hacts hcan] at hx
  have huser := userFrame_of_addressSpace hl hpages hg hx hu
  exact ⟨huser, Regions.not_kernelFrame hg hl.stackPages huser⟩

/-- The blocks of `sampleInfo`. -/
def sampleRegions : Regions where
  kernelImage := ⟨1048576, 3⟩
  userBinary := ⟨1060864, 3⟩
  kernelPt := ⟨1073152, 2054⟩
  userPt := ⟨9486336, 4⟩
  tss := ⟨9502720, 2⟩
  tls := ⟨9510912, 1⟩
  shared := ⟨9515008, 1⟩
  grant := ⟨9519104, 1⟩
  exception := ⟨9523200, 1⟩
  stack := ⟨9527296, 2⟩

theorem goodBlocks_sampleRegions : GoodBlocks sampleRegions.blocks where
  aligned := by decide
  below := by decide
  apart := by
    simp only [sampleRegions, Regions.blocks, Apart, pageSize]
    decide

/-- The first page of a user binary, after a fault. -/
theorem user_isolation_sample :
    sampleRegions.UserFrame true 1060864 ∧ ¬ sampleRegions.KernelFrame 1060864 := by
  have hrun : Run bootEnv (⟨[], noScreen⟩, efiMain 0 default)
      (_, .call (.callKernel 1048576 9531392 0 800 600 0x1000 sampleInfo) _) :=
    run_play bootEnv_plainFirmware 48 _
  have hwalk := walk_run counts_sampleInfo placed_sampleInfo (fun _ => 0) [.fault]
    (by simp [KernelAct.Outside]) (v := 0xFFFFFFFFC0001000) (.inr (by decide))
  exact user_isolation hrun (r := sampleRegions) rfl goodBlocks_sampleRegions rfl (by decide)
    (fun _ => 0) [.fault] (by simp [KernelAct.Outside]) (.inr (by decide))
    (x := ⟨1060864, true, true⟩) (hwalk.trans (by decide)) rfl

end UefiKernel
