import UefiKernel.Boot.Files
import UefiKernel.FaultRetry

/-!
# UefiKernel.ProgramImage

The program that runs is the file.

The loader copies `KERNEL` and `USER` into blocks of pages
(`loadAndStart_loads`), and the kernel maps the second of them behind the user's
stack.  So the bytes that the processor finds at the kernel's entry point, and
at the addresses of the user program once paging is on, are those of the files:
through any number of page faults, and for as long as nothing is stored there
(`program_is_file`).
-/

namespace UefiKernel

open Interact Prog Store Store.StoreM

namespace Boot

/-! ## one pass through the loader -/

def kernelPath : String := "\\EFI\\BOOT\\KERNEL"

def userPath : String := "\\EFI\\BOOT\\USER"

/-- When the kernel is called, both files have been loaded. -/
def HandsOverFiles (vol : Volume) (d : Disk) : Efi → Prop
  | .callKernel _ _ _ _ _ infoPtr _ => Loads vol infoPtr [kernelPath, userPath] d
  | _ => True

/-- The condition is on the call of the kernel only. -/
theorem handsOverFiles_of_ne_kernel (vol : Volume) (d : Disk) (e : Efi) (h : e.service ≠ .kernel) :
    HandsOverFiles vol d e := by
  cases e with
  | callKernel _ _ _ _ _ _ _ => exact (h rfl).elim
  | _ => trivial

/-- A block that passes its check, after the files. -/
theorem wp_allocate_loads {vol : Volume} {info : UInt64} {paths : List String} {d : Disk}
    {ok : Disk → Efi → Prop} (hok : ∀ d e, e.service ≠ .kernel → ok d e)
    (h : Loads vol info paths d) {type : MemoryType} {pages : UInt64}
    {Q : EfiStatus × UInt64 → Unit → Disk → Prop}
    (hQ : ∀ status base d', Loads vol info paths d' → Q (status, base) () d') :
    wp (diskEnv vol) ok (allocatePages type pages)
      (fun a d' => wpOk (diskEnv vol) ok (checkStatus a.1) (Q a) d') d :=
  wp_allocate_disk hok info fun status base d' hext _ _ => hQ status base d' (h.extends hext)

/-- Each file is read into a block of its own, and later steps store elsewhere. -/
theorem loadAndStart_loads (vol : Volume) (imageHandle : UInt64) (uninit : Information) {d : Disk}
    (hd : d.world.blocks = []) :
    wpOk (diskEnv vol) (HandsOverFiles vol) (loadAndStart imageHandle uninit) (fun _ _ => True)
      d := by
  have hok := handsOverFiles_of_ne_kernel vol
  simp only [loadAndStart, wpOk_bind, wpOk_lift, wpOk_pure]
  refine wp_keeps hok (keeps_allocatePool 0 _ _) fun infoPtr d₁ _ hb₁ => ?_
  rw [hd] at hb₁
  refine wp_keeps hok (keeps_writeInfo infoPtr) fun _ d₂ _ hb₂ => ?_
  rw [hb₁] at hb₂
  -- the kernel image
  refine wp_openFile hok infoPtr _ _ fun kernelFile d₃ _ hb₃ hopen₃ => ?_
  rw [hb₂] at hb₃
  refine wpOk_check hok fun hsucc => ?_
  refine wp_readFileSize_opened hok infoPtr (hopen₃ hsucc)
    fun kernelSize d₄ _ hb₄ hopen₄ hsize => ?_
  rw [hb₃] at hb₄
  refine wpOk_check hok fun hsucc' => ?_
  refine wp_allocate_disk hok infoPtr fun _ kernelBase d₅ _ hb₅ hopen₅ => ?_
  rw [hb₄] at hb₅
  have hl₅ : Loads vol infoPtr [] d₅ := loads_nil
  have hfile₅ : d₅.opened kernelFile.2.2 = some (kernelPath, 0) := by
    rw [hopen₅, hopen₄]
    exact hopen₃ hsucc
  have hlast₅ : d₅.world.blocks = [] ++ [⟨kernelBase, efiSizeToPages kernelSize.2⟩] := hb₅
  refine wp_loadBinaryFileInBuffer hok hl₅ hfile₅ (hsize hsucc') hlast₅ rfl fun _ d₆ hl₆ hb₆ => ?_
  rw [hb₅] at hb₆
  refine wp_keeps_loads hok (keeps_closeFile infoPtr _ _) hl₆ fun _ d₇ hl₇ hb₇ => ?_
  rw [hb₆] at hb₇
  -- the user binary
  refine wp_openFile hok infoPtr _ _ fun userFile d₈ hext₈ hb₈ hopen₈ => ?_
  rw [hb₇] at hb₈
  have hl₈ := hl₇.extends hext₈
  refine wpOk_check hok fun husucc => ?_
  refine wp_readFileSize_opened hok infoPtr (hopen₈ husucc)
    fun userSize d₉ hext₉ hb₉ hopen₉ husize => ?_
  rw [hb₈] at hb₉
  have hl₉ := hl₈.extends hext₉
  refine wpOk_check hok fun husucc' => ?_
  refine wp_writeInfo hok fun d₁₀ hext₁₀ hb₁₀ hopen₁₀ => ?_
  rw [hb₉] at hb₁₀
  have hl₁₀ := hl₉.extends hext₁₀
  refine wp_allocate_disk hok infoPtr fun _ userBase d₁₁ hext₁₁ hb₁₁ hopen₁₁ => ?_
  rw [hb₁₀] at hb₁₁
  have hl₁₁ := hl₁₀.extends hext₁₁
  have hfile₁₁ : d₁₁.opened userFile.2.2 = some (userPath, 0) := by
    rw [hopen₁₁, hopen₁₀, hopen₉]
    exact hopen₈ husucc
  refine wp_loadBinaryFileInBuffer hok hl₁₁ hfile₁₁ (husize husucc') hb₁₁ rfl fun _ d₁₂ hl _ => ?_
  refine wp_keeps_loads hok (keeps_closeFile infoPtr _ _) hl fun _ _ hl _ => ?_
  -- the tables, the TSS, the single pages and the stacks
  refine wp_allocate_loads hok hl fun _ _ _ hl => ?_
  refine wp_keeps_loads hok (keeps_writeInfo infoPtr) hl fun _ _ hl _ => ?_
  refine wp_allocate_loads hok hl fun _ _ _ hl => ?_
  refine wp_allocate_loads hok hl fun _ _ _ hl => ?_
  refine wp_allocate_loads hok hl fun _ _ _ hl => ?_
  refine wp_allocate_loads hok hl fun _ _ _ hl => ?_
  refine wp_allocate_loads hok hl fun _ _ _ hl => ?_
  refine wp_allocate_loads hok hl fun _ _ _ hl => ?_
  refine wp_allocate_loads hok hl fun _ _ _ hl => ?_
  -- the screen, and the end of boot services
  refine wp_keeps_loads hok (keeps_setGraphicsMode infoPtr _ _) hl fun _ _ hl _ => ?_
  refine wp_keeps_loads hok (keeps_exitBootServicesHook infoPtr _) hl fun _ _ hl _ => ?_
  refine wpOk_check hok fun _ => ?_
  refine wp_keeps_loads hok (keeps_writeInfo infoPtr) hl fun _ _ hl _ => ?_
  exact ⟨hl, fun _ _ _ => trivial⟩

theorem efiMain_loads (vol : Volume) (imageHandle : UInt64) (uninit : Information) {d : Disk}
    (hd : d.world.blocks = []) :
    wp (diskEnv vol) (HandsOverFiles vol) (efiMain imageHandle uninit) (fun _ _ => True) d := by
  simp only [efiMain, wp_bind']
  refine wp_mono ?_ (loadAndStart_loads vol imageHandle uninit hd)
  intro r d' _
  cases r <;> trivial

end Boot

open Boot

/-! ## bytes of quadwords -/

/-- The number in `n` bytes, the low one first. -/
def numberAt (m : Nat → UInt8) (a : Nat) : Nat → Nat
  | 0 => 0
  | n + 1 => (m a).toNat + 256 * numberAt m (a + 1) n

/-- A memory of bytes, by its quadwords. -/
def quads (m : Nat → UInt8) : PhysMem := fun a => UInt64.ofNat (numberAt m a 8)

/-- A byte of a memory of quadwords. -/
def byteAt (m : PhysMem) (p : Nat) : UInt8 :=
  UInt8.ofNat ((m (p / 8 * 8)).toNat / 256 ^ (p % 8))

theorem numberAt_lt (m : Nat → UInt8) (a n : Nat) : numberAt m a n < 256 ^ n := by
  induction n generalizing a with
  | zero => exact Nat.one_pos
  | succ n ih =>
      have hbyte := (m a).toNat_lt
      have hrest := ih (a + 1)
      rw [numberAt, Nat.pow_succ]
      omega

/-- Byte `j` of the number is byte `j` in memory. -/
theorem numberAt_div (m : Nat → UInt8) {a n j : Nat} (hj : j < n) :
    numberAt m a n / 256 ^ j % 256 = (m (a + j)).toNat := by
  induction j generalizing a n with
  | zero =>
      obtain ⟨n, rfl⟩ : ∃ k, n = k + 1 := ⟨n - 1, by omega⟩
      have hbyte := (m a).toNat_lt
      rw [numberAt, Nat.pow_zero, Nat.div_one, show a + 0 = a from rfl]
      omega
  | succ j ih =>
      obtain ⟨n, rfl⟩ : ∃ k, n = k + 1 := ⟨n - 1, by omega⟩
      have hbyte := (m a).toNat_lt
      have hshift : ((m a).toNat + 256 * numberAt m (a + 1) n) / 256 = numberAt m (a + 1) n := by
        omega
      rw [numberAt, Nat.pow_succ', ← Nat.div_div_eq_div_mul, hshift, ih (by omega), Nat.add_assoc,
        Nat.add_comm 1 j]

/-- Memory seen by quadwords has the bytes it was made of. -/
theorem byteAt_quads (m : Nat → UInt8) (p : Nat) : byteAt (quads m) p = m p := by
  have hlt := numberAt_lt m (p / 8 * 8) 8
  have hdiv := numberAt_div m (a := p / 8 * 8) (Nat.mod_lt p (by decide : 8 > 0))
  have hp : p / 8 * 8 + p % 8 = p := by omega
  rw [hp] at hdiv
  refine UInt8.toNat_inj.mp ?_
  rw [byteAt, quads, UInt64.toNat_ofNat', Nat.mod_eq_of_lt (by omega), UInt8.toNat_ofNat']
  exact hdiv

/-! ## memory outside the tables -/

/-- The act stores to the quadword in which `p` is. -/
def KernelAct.StoresTo (p : Nat) : KernelAct → Prop
  | .fault => False
  | .store a _ => a = p / 8 * 8

/-- No table is in a block apart from theirs. -/
theorem slot_ne_of_inBlock {base pages base' pages' a n : Nat} (h : Apart base pages base' pages')
    (ha : InBlock base' pages' a) (hn : n < 512 * pages) : slot base n ≠ a := by
  simp only [Apart, InBlock, slot, pageSize] at *
  omega

/-- A quadword is in the block in which its bytes are. -/
theorem inBlock_quad {base pages p : Nat} (hbase : base % pageSize = 0) (h : InBlock base pages p) :
    InBlock base pages (p / 8 * 8) := by
  simp only [InBlock, pageSize] at *
  omega

section Outside

variable {info : Information} (hc : info.Counts) (hp : info.TablesPlaced) {a : Nat}
  (hk : ∀ n < kernelSlots, slot info.kernelPtBase.toNat n ≠ a)
  (hu : ∀ n < userSlots, slot info.userPtBase.toNat n ≠ a)

include hc hp hk hu

theorem mem_bootPaging (m : PhysMem) : (bootPaging info m).mem a = m a := by
  have hexec : exec (initPageTables info 0) m =
      exec (pageTableInitUser info info.kernelPml4 0) (exec (pageTableInitKernel info) m) := by
    simp only [initPageTables, exec, run_bind, run_pure, List.append_nil, replay_append]
    rw [run_pageTableInitKernel info m (kernelBlock_fits hp)]
    rfl
  rw [bootPaging_eq hc hp, hexec]
  show exec _ _ a = m a
  rw [exec_pageTableInitUser_of_outside hc (userBlock_fits hp) _ 0 _ (userSlot_ne_kernelPml4 hp) hu,
    exec_pageTableInitKernel_of_outside info m (kernelBlock_fits hp) hk]

omit hk in
/-- A run changes what it stores to, and tables. -/
theorem mem_run {fault : Bool} {s : Kernel} (hs : s.Live info fault) {acts : List KernelAct}
    (ha : ∀ act ∈ acts, act.Outside info) (hstores : ∀ v, KernelAct.store a v ∉ acts) :
    (s.run acts).mem a = s.mem a := by
  induction acts generalizing s fault with
  | nil => rfl
  | cons act acts ih =>
      have hstep := live_step hc hp hs (ha act List.mem_cons_self)
      have hrest := ih hstep (fun act' h => ha act' (List.mem_cons_of_mem act h))
        fun v h => hstores v (List.mem_cons_of_mem act h)
      refine hrest.trans ?_
      cases act with
      | fault =>
          show s.pageFault.mem a = s.mem a
          rw [hs.pageFault_eq hc hp]
          exact Function.update_of_ne (hu 511 (by decide)).symm _ _
      | store b v =>
          refine Function.update_of_ne ?_ _ _
          rintro rfl
          exact hstores v List.mem_cons_self

/-- Bytes that no act stores to are as they were before paging. -/
theorem byteAt_run {p : Nat} (hap : a = p / 8 * 8) (m : PhysMem) {acts : List KernelAct}
    (ha : ∀ act ∈ acts, act.Outside info) (hstores : ∀ act ∈ acts, ¬ act.StoresTo p) :
    byteAt ((bootPaging info m).run acts).mem p = byteAt m p := by
  subst hap
  rw [byteAt, mem_run hc hp hu (live_bootPaging hc hp m) ha fun v h => hstores _ h rfl,
    mem_bootPaging hc hp hk hu]
  rfl

end Outside

/-! ## the program -/

/-- `user_app_virt_addr` of `kernel_start`. -/
def userAppVirtAddr : UInt64 := 0xFFFFFFFFC0001000

/-- The program begins in the second page of the window. -/
theorem toNat_userAppVirtAddr_add {i : Nat} (hi : i < 509 * pageSize) :
    (userAppVirtAddr + UInt64.ofNat i).toNat = windowBase + pageSize + i := by
  have h : userAppVirtAddr.toNat = windowBase + pageSize := rfl
  simp only [windowBase, pageSize] at *
  rw [UInt64.toNat_add, h, UInt64.toNat_ofNat']
  omega

section Program

variable {r : Regions} {entry stack : UInt64} {info : Information}
  (hl : r.Loaded entry stack info)

include hl

/-- What the record says of the size, for a file that is not too big. -/
theorem numUserPtes_of_loaded (hlt : r.userBinary.pages.toNat + 1 < 512) :
    info.numUserPtes.toNat = r.userBinary.pages.toNat + 1 := by
  have hcalc := hl.counts
  rw [calculateNumPagesUserPageTable_small hlt] at hcalc
  have hptes := congrArg (fun x => x.2.numUserPtes.toNat) hcalc
  simp only [UInt64.toNat_toUInt32, UInt64.toNat_add, UInt64.toNat_one] at hptes
  omega

/-- Byte `i` of the user's binary, in the address space. -/
theorem addressSpace_userApp (hlt : r.userBinary.pages.toNat + 1 < 512) (fault : Bool) {i : Nat}
    (hi : i < r.userBinary.pages.toNat * pageSize) (hi' : i < 509 * pageSize) :
    addressSpace info fault (userAppVirtAddr + UInt64.ofNat i) =
      some ⟨r.userBinary.base.toNat + i, true, true⟩ := by
  have hv := toNat_userAppVirtAddr_add hi'
  have hone : info.numUserStackPages.toNat = 1 := by rw [hl.numUserStackPages]; rfl
  have hptes := numUserPtes_of_loaded hl hlt
  simp only [windowBase, pageSize] at hv hi hi'
  have hwin : InUserWindow (userAppVirtAddr + UInt64.ofNat i) := by
    simp only [InUserWindow, hv, windowBase, pageSize]
    omega
  have hpage : userPage info fault (1 + i / 4096) =
      some (r.userBinary.base.toNat + i / 4096 * 4096) := by
    rw [userPage, if_neg (by omega), if_neg (by omega), if_neg (by omega), if_pos (by omega), hone,
      hl.userAppBuffer, Nat.add_sub_cancel_left]
    rfl
  have hindex : ((userAppVirtAddr + UInt64.ofNat i).toNat - windowBase) / pageSize =
      1 + i / 4096 := by
    simp only [hv, windowBase, pageSize]
    omega
  rw [addressSpace_window info fault hwin, hindex, hpage, Option.map_some, hv]
  simp only [pageSize]
  congr 2
  omega

end Program

/-- **The program that runs is the file.** Take any run of the loader that calls
the kernel, and any later run of the kernel, with page faults and stores outside
the tables.  At the call the whole of `KERNEL` is at the entry point, where it
stays mapped one to one; and at the addresses from `user_app_virt_addr` on there
are, for the user, the bytes of `USER`, those apart that are stored to. -/
theorem program_is_file {vol : Volume} {imageHandle : UInt64} {uninit : Information} {d₀ d : Disk}
    {start : Screen}
    (hd₀ : d₀.world = ⟨[], start⟩) {entry stack fb : UInt64} {width height : UInt32}
    {infoPtr : UInt64} {info : Information} {k : Unit → EfiM EfiStatus}
    (hrun : Run (diskEnv vol) (d₀, efiMain imageHandle uninit)
      (d, .call (.callKernel entry stack fb width height infoPtr info) k))
    (hs : Sound infoPtr d.world.blocks)
    (hsize : (vol.contents userPath).length ≤ 510 * pageSize) :
    HasBytes d.mem entry.toNat (vol.contents kernelPath) ∧
    ∀ m : PhysMem, (∀ p, InBlock info.userAppBuffer.toNat info.numUserBinaryPages.toNat p →
        byteAt m p = d.mem p) →
      ∀ acts : List KernelAct, (∀ act ∈ acts, act.Outside info) →
        let s := (bootPaging info m).run acts
        (∀ i < (vol.contents kernelPath).length, walk s.mem s.cr3 (entry + UInt64.ofNat i) =
          some ⟨entry.toNat + i, true, false⟩) ∧
        ∀ i b, (vol.contents userPath)[i]? = some b → i < 509 * pageSize →
          ∃ p, walk s.mem s.cr3 (userAppVirtAddr + UInt64.ofNat i) = some ⟨p, true, true⟩ ∧
            ((∀ act ∈ acts, ¬ act.StoresTo p) → byteAt s.mem p = b) := by
  have hrun' := exists_run_world hrun
  rw [hd₀] at hrun'
  obtain ⟨r, hr, hl⟩ := exists_regions_of_run hrun'
  have hloads := ok_of_run (efiMain_loads vol imageHandle uninit (by rw [hd₀])) hrun
  -- the two blocks that the files are in
  obtain ⟨kernelBlock, hkernel, hkpages, hkbytes⟩ := hloads 0 kernelPath rfl
  obtain ⟨userBlock, huser, hupages, hubytes⟩ := hloads 1 userPath rfl
  rw [hr] at hkernel huser hs hkbytes hubytes
  obtain rfl : r.kernelImage = kernelBlock := Option.some.inj hkernel
  obtain rfl : r.userBinary = userBlock := Option.some.inj huser
  have hpages : r.userBinary.pages.toNat = ((vol.contents userPath).length + 0xFFF) / pageSize := by
    rw [hupages, toNat_efiSizeToPages, vol.toNat_size]
  have hlt : r.userBinary.pages.toNat + 1 < 512 := by
    simp only [pageSize] at hpages hsize
    omega
  have hptes := numUserPtes_of_loaded hl hlt
  obtain ⟨hcounts, hfour⟩ := counts_of_loaded hl hptes.symm (by omega)
  have hplaced := placed_of_loaded hl hptes.symm (by omega) hs.good
  have hbinary : info.numUserBinaryPages.toNat = r.userBinary.pages.toNat := by
    rw [hl.numUserBinaryPages, UInt64.toNat_toUInt32]
    omega
  have hbelow := hs.good.below
  simp only [Regions.blocks, List.forall_mem_cons] at hbelow
  have hapart := hs.good.apart
  simp only [Regions.blocks, List.pairwise_cons, List.forall_mem_cons] at hapart
  refine ⟨hl.entry ▸ hkbytes hs, fun m hm acts ha => ⟨fun i hi => ?_, fun i b hb hi => ?_⟩⟩
  · -- the kernel, in the low 4 GiB
    have hin := contains_of_size hkpages (Nat.le_add_right _ i) (Nat.add_lt_add_left hi _)
    have hend := hbelow.1
    have hv : (entry + UInt64.ofNat i).toNat = entry.toNat + i := by
      rw [hl.entry, UInt64.toNat_add, UInt64.toNat_ofNat']
      simp only [Block.Contains, InBlock] at hin
      omega
    have hlow : (entry + UInt64.ofNat i).toNat < 2 ^ 32 := by
      rw [hv, hl.entry]
      simp only [Block.Contains, InBlock] at hin
      omega
    rw [walk_run hcounts hplaced m acts ha (.inl (by omega)), addressSpace, if_pos hlow, hv]
  · -- the user's pages
    obtain ⟨hlen, -⟩ := List.getElem?_eq_some_iff.mp hb
    have hi' : i < r.userBinary.pages.toNat * pageSize := by
      simp only [pageSize] at hpages ⊢
      omega
    have hv := toNat_userAppVirtAddr_add hi
    have hwalk := walk_run hcounts hplaced m acts ha
      (v := userAppVirtAddr + UInt64.ofNat i) (.inr (by rw [hv]; simp only [windowBase]; omega))
    rw [addressSpace_userApp hl hlt _ hi' hi] at hwalk
    refine ⟨_, hwalk, fun hstores => ?_⟩
    have hin : InBlock r.userBinary.base.toNat r.userBinary.pages.toNat
        (r.userBinary.base.toNat + i) := ⟨Nat.le_add_right _ i, Nat.add_lt_add_left hi' _⟩
    have hquad := inBlock_quad (hs.good.aligned _ (by simp [Regions.blocks])) hin
    have hkernelPt : ∀ n < kernelSlots, slot info.kernelPtBase.toNat n ≠
        (r.userBinary.base.toNat + i) / 8 * 8 := by
      intro n hn
      have hap := (hapart.2.1.1).symm
      rw [hl.kernelPtPages] at hap
      rw [hl.kernelPtBase]
      exact slot_ne_of_inBlock hap hquad hn
    have huserPt : ∀ n < userSlots, slot info.userPtBase.toNat n ≠
        (r.userBinary.base.toNat + i) / 8 * 8 := by
      intro n hn
      have hap := (hapart.2.1.2.1).symm
      rw [hfour] at hap
      rw [hl.userPtBase]
      exact slot_ne_of_inBlock hap hquad hn
    rw [byteAt_run hcounts hplaced.toTablesPlaced hkernelPt huserPt rfl m ha hstores]
    refine (hm _ ?_).trans (hubytes hs i b hb)
    rw [hl.userAppBuffer, hbinary]
    exact hin

/-! ## a machine to run on -/

/-- `plainFirmware`, with a volume. -/
def Boot.Volume.firmware (vol : Volume) (d : Disk) : (e : Efi) → e.Answer × Disk
  | .fileOpen _ path =>
      ((EfiStatus.success, 1), { d with opened := Function.update d.opened 1 (some (path, 0)) })
  | .fileClose fh => ((), { d with opened := Function.update d.opened fh none })
  | .getInfo fh size buf =>
      if size = 0 then ((EfiStatus.bufferTooSmall, 80), d)
      else match d.opened fh with
        | some (path, _) => ((EfiStatus.success, 80),
            { d with sizeAt := Function.update d.sizeAt buf (vol.size path) })
        | none => ((EfiStatus.success, 80), d)
  | .fileSize info => (d.sizeAt info, d)
  | .fileRead fh size buf =>
      match d.opened fh with
      | some (path, position) =>
          let part := vol.part path position size
          ((EfiStatus.success, UInt64.ofNat part.length), { d with
            mem := fun p => if buf.toNat ≤ p then part.getD (p - buf.toNat) (d.mem p) else d.mem p
            opened := Function.update d.opened fh (some (path, position + part.length)) })
      | none => ((EfiStatus.success, 0), d)
  | e => ((plainFirmware d.world e).1, { d with world := (plainFirmware d.world e).2 })

/-- The sample firmware behaves. -/
theorem Boot.Volume.diskEnv_firmware (vol : Volume) (d : Disk) (e : Efi) :
    diskEnv vol d e (vol.firmware d e).1 (vol.firmware d e).2 := by
  have hother := bootEnv_plainFirmware d.world e
  cases e with
  | fileOpen vh path => exact ⟨rfl, fun _ _ _ => rfl, (if_neg not_efiError_success).symm⟩
  | fileClose fh => exact ⟨rfl, fun _ _ _ => rfl, rfl⟩
  | getInfo fh size buf =>
      by_cases hsize : size = 0
      · simp only [Volume.firmware, if_pos hsize]
        exact ⟨rfl, fun _ _ _ => rfl, rfl, fun h => (h (by decide)).elim⟩
      · simp only [Volume.firmware, if_neg hsize]
        cases hopen : d.opened fh with
        | none => exact ⟨rfl, fun _ _ _ => rfl, rfl, fun _ => ⟨hsize, fun path position h =>
            nomatch hopen.symm.trans h⟩⟩
        | some file =>
            refine ⟨rfl, fun _ _ _ => rfl, rfl, fun _ => ⟨hsize, fun path position h => ?_⟩⟩
            obtain rfl := Option.some.inj (hopen.symm.trans h)
            exact Function.update_self ..
  | fileSize info => exact ⟨rfl, fun _ _ _ => rfl, rfl, rfl⟩
  | fileRead fh size buf =>
      simp only [Volume.firmware]
      cases hopen : d.opened fh with
      | none => exact ⟨rfl, fun _ _ _ => rfl, fun _ path position h =>
          nomatch hopen.symm.trans h⟩
      | some file =>
          obtain ⟨path, position⟩ := file
          refine ⟨rfl, fun p _ hw => ?_, fun _ path' position' h => ?_⟩
          · -- nothing is stored behind what is read
            dsimp only
            split
            · have hlen : (vol.part path position size).length ≤ size.toNat :=
                List.length_take_le ..
              simp only [Efi.Writes] at hw
              rw [List.getD_eq_getElem?_getD, List.getElem?_eq_none (by omega), Option.getD_none]
            · rfl
          · obtain ⟨rfl, rfl⟩ := Prod.mk.inj (Option.some.inj (hopen.symm.trans h))
            refine ⟨rfl, fun i b hb => ?_, rfl⟩
            dsimp only
            rw [if_pos (Nat.le_add_right _ i), Nat.add_sub_cancel_left,
              List.getD_eq_getElem?_getD, hb, Option.getD_some]
  | _ => exact ⟨hother, fun _ _ _ => rfl, rfl⟩

/-- Both files are `jmp .`, in two bytes. -/
def sampleVolume : Volume where
  contents _ := [0xEB, 0xFE]
  length_lt _ := by decide

def sampleDisk : Disk where
  world := ⟨[], noScreen⟩
  mem _ := 0
  opened _ := none
  sizeAt _ := 0

/-- The regions of such files. -/
def sampleFileRegions : Regions where
  kernelImage := ⟨1048576, 1⟩
  userBinary := ⟨1052672, 1⟩
  kernelPt := ⟨1056768, 2054⟩
  userPt := ⟨9469952, 4⟩
  tss := ⟨9486336, 2⟩
  tls := ⟨9494528, 1⟩
  shared := ⟨9498624, 1⟩
  grant := ⟨9502720, 1⟩
  exception := ⟨9506816, 1⟩
  stack := ⟨9510912, 2⟩

theorem sound_sampleFileRegions : Sound 0x1000 sampleFileRegions.blocks where
  good := {
    aligned := by decide
    below := by decide
    apart := by
      simp only [sampleFileRegions, Regions.blocks, Apart, pageSize]
      decide }
  record := by
    have hbase : ∀ b ∈ sampleFileRegions.blocks, 1048576 ≤ b.base.toNat := by decide
    rintro b hb p ⟨hp, -⟩ ⟨-, hrecord⟩
    have := hbase b hb
    rw [show (0x1000 : UInt64).toNat = 4096 from rfl] at hrecord
    omega

/-- The second byte of the user's file, after a page fault. -/
theorem program_is_file_sample : ∃ d entry stack fb info k m p,
    Run (diskEnv sampleVolume) (sampleDisk, efiMain 0 default)
      (d, .call (.callKernel entry stack fb 800 600 0x1000 info) k) ∧
    walk ((bootPaging info m).run [.fault]).mem ((bootPaging info m).run [.fault]).cr3
      0xFFFFFFFFC0001001 = some ⟨p, true, true⟩ ∧
    byteAt ((bootPaging info m).run [.fault]).mem p = 0xFE := by
  have hrun : Run (diskEnv sampleVolume) (sampleDisk, efiMain 0 default)
      (_, .call (.callKernel _ _ _ 800 600 0x1000 _) _) :=
    run_play sampleVolume.diskEnv_firmware 48 _
  obtain ⟨-, h⟩ := program_is_file rfl hrun sound_sampleFileRegions (by decide)
  obtain ⟨-, huser⟩ := h (quads _) (fun p _ => byteAt_quads _ p) [.fault]
    (by simp [KernelAct.Outside])
  obtain ⟨p, hwalk, hbyte⟩ := huser 1 0xFE rfl (by decide)
  exact ⟨_, _, _, _, _, _, _, p, hrun, hwalk, hbyte (by simp [KernelAct.StoresTo])⟩

end UefiKernel
