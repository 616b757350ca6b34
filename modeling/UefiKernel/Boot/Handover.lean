import UefiKernel.Boot.Graphics

/-!
# UefiKernel.Boot.Handover

What `efi_main` hands to the kernel, over every run that gets that far.

`Regions` names the ten blocks of pages in the order in which they are
allocated, and `Regions.Loaded` relates them to the arguments of the call: two
stacks in one block, the two uses of the TSS block, the counts and the size of
the user's tables.  `efiMain_spec` is one pass through the loader; what the
firmware gave out and what is on the screen at the call are read off it.
-/

namespace UefiKernel.Boot

open Interact Prog

/-! ## regions -/

/-- The blocks of pages, in the order of allocation. -/
structure Regions where
  kernelImage : Block
  userBinary : Block
  kernelPt : Block
  userPt : Block
  tss : Block
  tls : Block
  shared : Block
  grant : Block
  exception : Block
  stack : Block
  deriving DecidableEq, Repr

def Regions.blocks (r : Regions) : List Block :=
  [r.kernelImage, r.userBinary, r.kernelPt, r.userPt, r.tss, r.tls, r.shared, r.grant,
    r.exception, r.stack]

/-- The record says where the regions are; `entry` and `stack` are the other
pointers the kernel gets. -/
structure Regions.Loaded (r : Regions) (entry stack : UInt64) (info : Information) : Prop where
  entry : entry = r.kernelImage.base
  stack : stack = info.kernelStackBuffer
  kernelStackBuffer : info.kernelStackBuffer = r.stack.base + 4096
  userStackBuffer : info.userStackBuffer = r.stack.base + 4096 + 4096
  kernelPtBase : info.kernelPtBase = r.kernelPt.base
  userPtBase : info.userPtBase = r.userPt.base
  userAppBuffer : info.userAppBuffer = r.userBinary.base
  tssStackBuffer : info.tssStackBuffer = r.tss.base + 4096
  tssSegmentBuffer : info.tssSegmentBuffer = r.tss.base + 4096
  extraPageForException : info.extraPageForException = r.exception.base
  tlsBuffer : info.tlsBuffer = r.tls.base
  sharedPage : info.sharedPage = r.shared.base
  gntTable : info.gntTable = r.grant.base
  numKernelStackPages : info.numKernelStackPages = 1
  numUserStackPages : info.numUserStackPages = 1
  numUserBinaryPages : info.numUserBinaryPages = r.userBinary.pages.toUInt32
  counts : calculateNumPagesUserPageTable r.userBinary.pages 1 info = (r.userPt.pages, info)
  kernelPtPages : r.kernelPt.pages = 2054
  tssPages : r.tss.pages = 2
  tlsPages : r.tls.pages = 1
  sharedPages : r.shared.pages = 1
  grantPages : r.grant.pages = 1
  exceptionPages : r.exception.pages = 1
  stackPages : r.stack.pages = 2

/-- The kernel is called with what was allocated, and with a screen that agrees
iff the screen at the start fits. -/
def HandsOver (start : Screen) (w : World) : Efi → Prop
  | .callKernel entry stack fb width height _ info =>
      (∃ r : Regions, w.blocks = r.blocks ∧ r.Loaded entry stack info) ∧
      width = 800 ∧ height = 600 ∧
      (Agrees w.screen fb width height ↔ start.FitsKernel width height)
  | _ => True

theorem handsOver_of_ne_kernel (start : Screen) (w : World) (e : Efi) (h : e.service ≠ .kernel) :
    HandsOver start w e := by
  cases e with
  | callKernel _ _ _ _ _ _ _ => exact (h rfl).elim
  | _ => trivial

/-! ## one pass through the loader -/

theorem loadAndStart_spec (imageHandle : UInt64) (uninit : Information) (start : Screen) :
    wpOk bootEnv (HandsOver start) (loadAndStart imageHandle uninit) (fun _ _ => True)
      ⟨[], start⟩ := by
  have hok := handsOver_of_ne_kernel start
  simp only [loadAndStart, wpOk_bind, wpOk_lift, wpOk_pure]
  refine wp_quiet hok (uses_allocatePool _ _) (by decide) fun infoPtr => ?_
  refine wp_quiet hok (uses_writeInfo _) (by decide) fun _ => ?_
  -- the kernel image
  refine wp_quiet hok (uses_openFile _ _) (by decide) fun kernelFile => ?_
  refine wpOk_checkStatus hok fun _ => ?_
  refine wp_quiet hok (uses_readFileSize _) (by decide) fun kernelSize => ?_
  refine wpOk_checkStatus hok fun _ => ?_
  refine wp_allocateChecked hok fun _ kernelBase => ?_
  refine wp_quiet hok (uses_loadBinaryFileInBuffer _ _ _) (by decide) fun _ => ?_
  refine wpOk_checkStatus hok fun _ => ?_
  refine wp_quiet hok (uses_closeFile _ _) (by decide) fun _ => ?_
  -- the user binary
  refine wp_quiet hok (uses_openFile _ _) (by decide) fun userFile => ?_
  refine wpOk_checkStatus hok fun _ => ?_
  refine wp_quiet hok (uses_readFileSize _) (by decide) fun userSize => ?_
  refine wpOk_checkStatus hok fun _ => ?_
  refine wp_quiet hok (uses_writeInfo _) (by decide) fun _ => ?_
  refine wp_allocateChecked hok fun _ userBase => ?_
  refine wp_quiet hok (uses_loadBinaryFileInBuffer _ _ _) (by decide) fun _ => ?_
  refine wpOk_checkStatus hok fun _ => ?_
  refine wp_quiet hok (uses_closeFile _ _) (by decide) fun _ => ?_
  -- the tables, the TSS, the single pages and the stacks
  refine wp_allocateChecked hok fun _ kernelPtBase => ?_
  refine wp_quiet hok (uses_writeInfo _) (by decide) fun _ => ?_
  refine wp_allocateChecked hok fun _ userPtBase => ?_
  refine wp_allocateChecked hok fun _ tssBase => ?_
  refine wp_allocateChecked hok fun _ tlsBase => ?_
  refine wp_allocateChecked hok fun _ sharedBase => ?_
  refine wp_allocateChecked hok fun _ grantBase => ?_
  refine wp_allocateChecked hok fun _ exceptionBase => ?_
  refine wp_allocateChecked hok fun _ stackBase => ?_
  -- the screen, and the end of boot services
  refine wp_mono ?_ (setGraphicsMode_spec hok 800 600 _)
  rintro fb ⟨blocks, screen⟩ ⟨hblocks, hscreen⟩
  refine wp_quiet hok (uses_exitBootServicesHook _) (by decide) fun _ => ?_
  refine wpOk_checkStatus hok fun _ => ?_
  refine wp_quiet hok (uses_writeInfo _) (by decide) fun _ => ?_
  simp only [callKernel, wp_req]
  refine ⟨?_, fun _ _ _ => trivial⟩
  refine ⟨⟨⟨⟨kernelBase, _⟩, ⟨userBase, _⟩, ⟨kernelPtBase, _⟩, ⟨userPtBase, _⟩, ⟨tssBase, _⟩,
    ⟨tlsBase, _⟩, ⟨sharedBase, _⟩, ⟨grantBase, _⟩, ⟨exceptionBase, _⟩, ⟨stackBase, _⟩⟩,
    hblocks, ?_⟩, rfl, rfl, hscreen⟩
  constructor <;> rfl

/-- Every run of `efi_main` that calls the kernel hands over what
`HandsOver` says. -/
theorem efiMain_spec (imageHandle : UInt64) (uninit : Information) (start : Screen) :
    wp bootEnv (HandsOver start) (efiMain imageHandle uninit) (fun _ _ => True) ⟨[], start⟩ := by
  simp only [efiMain, wp_bind']
  refine wp_mono ?_ (loadAndStart_spec imageHandle uninit start)
  intro r w _
  cases r <;> trivial

/-! ## a machine to run on -/

/-- A firmware with 12 KiB files on it, which gives out pages upwards from
1 MiB and whose graphics device is the world's. -/
def plainFirmware (w : World) : (e : Efi) → e.Answer × World
  | .handleProtocol _ _ | .openVolume _ | .fileOpen _ _ => ((EfiStatus.success, 1), w)
  | .getInfo _ _ buf =>
      if buf = 0 then ((EfiStatus.bufferTooSmall, 80), w) else ((EfiStatus.success, 80), w)
  | .fileSize _ => (0x3000, w)
  | .fileRead _ size _ => ((EfiStatus.success, size), w)
  | .allocatePool _ _ => ((EfiStatus.success, 0x1000), w)
  | .allocatePages _ pages =>
      let base := match w.blocks.getLast? with
        | none => 0x100000
        | some b => b.base + b.pages * 0x1000
      ((EfiStatus.success, base), { w with blocks := w.blocks ++ [⟨base, pages⟩] })
  | .getMemoryMap _ buf =>
      if buf = 0 then ((EfiStatus.bufferTooSmall, 48, 0), w) else ((EfiStatus.success, 48, 0), w)
  | .exitBootServices _ _ => (EfiStatus.success, w)
  | .locateProtocol _ => ((w.screen.gop.locateStatus, 1), w)
  | .gopMode _ => (w.screen.gop.modePtr, w)
  | .maxMode _ => (w.screen.gop.maxMode, w)
  | .frameBufferBase _ => (w.screen.frameBufferBase, w)
  | .queryMode _ mode => ((w.screen.gop.queryStatus mode, w.screen.gop.mode mode), w)
  | .setMode _ mode =>
      let status := w.screen.gop.setStatus mode
      (status, { w with
        screen := if efiError status
          then { w.screen with active := w.screen.gop.afterFailedSet mode }
          else { w.screen with
            active := w.screen.gop.mode mode
            frameBufferBase := w.screen.gop.frameBuffer mode } })
  | .deviceHandle _ => (1, w)
  | .fileClose _ | .stall _ | .outputString _ | .writeInfo _ | .freePool _
  | .callKernel _ _ _ _ _ _ _ => ((), w)

/-- It answers as the world allows. -/
theorem bootEnv_plainFirmware (w : World) (e : Efi) :
    bootEnv w e (plainFirmware w e).1 (plainFirmware w e).2 := by
  cases e with
  | allocatePages type pages => rfl
  | getInfo fh size buf => simp only [plainFirmware, bootEnv]; split <;> rfl
  | getMemoryMap size buf => simp only [plainFirmware, bootEnv]; split <;> rfl
  | locateProtocol _ | gopMode _ | maxMode _ | frameBufferBase _ => exact ⟨rfl, rfl⟩
  | queryMode _ mode => exact ⟨rfl, fun _ => rfl, rfl⟩
  | setMode _ mode =>
      simp only [plainFirmware, bootEnv]
      split <;> simp
  | _ => rfl

/-- A screen of one mode, which fits. -/
def plainScreen : Screen where
  gop := {
    locateStatus := EfiStatus.success
    modePtr := 0x2000
    maxMode := 1
    queryStatus := fun _ => EfiStatus.success
    mode := fun _ => ⟨800, 600, .blueGreenRedReserved8BitPerColor, 800⟩
    setStatus := fun _ => EfiStatus.success
    frameBuffer := fun _ => 0xE0000000
    afterFailedSet := fun _ => ⟨640, 480, .bltOnly, 640⟩ }
  active := ⟨640, 480, .bltOnly, 640⟩
  frameBufferBase := 0xE0000000

/-- A machine without a graphics device. -/
def noScreen : Screen where
  gop := { plainScreen.gop with locateStatus := EfiStatus.notFound }
  active := plainScreen.active
  frameBufferBase := plainScreen.frameBufferBase

/-! ## every run that calls the kernel -/

section Runs

variable {imageHandle : UInt64} {uninit : Information} {start : Screen} {w : World}
  {entry stack fb : UInt64} {width height : UInt32} {infoPtr : UInt64} {info : Information}
  {k : Unit → EfiM EfiStatus}
  (h : Run bootEnv (⟨[], start⟩, efiMain imageHandle uninit)
    (w, .call (.callKernel entry stack fb width height infoPtr info) k))

include h

/-- The blocks given out are the regions the record names. -/
theorem exists_regions_of_run : ∃ r : Regions, w.blocks = r.blocks ∧ r.Loaded entry stack info :=
  (ok_of_run (efiMain_spec imageHandle uninit start) h).1

/-- **Geometry**: the kernel is told 800 by 600, and the frame buffer and the
mode on the screen are what it assumes exactly if the screen fits at the
start. -/
theorem geometry_agrees_iff : width = 800 ∧ height = 600 ∧
    (Agrees w.screen fb width height ↔ start.FitsKernel 800 600) := by
  obtain ⟨-, rfl, rfl, hiff⟩ := ok_of_run (efiMain_spec imageHandle uninit start) h
  exact ⟨rfl, rfl, hiff⟩

end Runs

/-- With one fitting mode, the kernel gets a screen that agrees. -/
theorem geometry_agrees_plain : ∃ w entry stack infoPtr info k,
    Run bootEnv (⟨[], plainScreen⟩, efiMain 0 default)
      (w, .call (.callKernel entry stack 0xE0000000 800 600 infoPtr info) k) ∧
    Agrees w.screen 0xE0000000 800 600 := by
  have hrun : Run bootEnv (⟨[], plainScreen⟩, efiMain 0 default)
      (_, .call (.callKernel _ _ 0xE0000000 800 600 _ _) _) := run_play bootEnv_plainFirmware 55 _
  refine ⟨_, _, _, _, _, _, hrun, (geometry_agrees_iff hrun).2.2.mpr ?_⟩
  have hmatch : plainScreen.gop.FirstMatch 800 600 0 :=
    ⟨by decide, ⟨rfl, rfl, rfl⟩, fun _ _ => not_efiError_success,
      fun j hj => (UInt32.not_lt_zero hj).elim⟩
  exact ⟨by decide, by decide, by decide,
    .inl ⟨0, hmatch, by decide, by decide, ⟨rfl, rfl, rfl, rfl⟩⟩⟩

/-- Without a graphics device the kernel is called all the same, with `NULL`
for the frame buffer. -/
theorem geometry_disagrees : ∃ w entry stack infoPtr info k,
    Run bootEnv (⟨[], noScreen⟩, efiMain 0 default)
      (w, .call (.callKernel entry stack 0 800 600 infoPtr info) k) ∧
    ¬ Agrees w.screen 0 800 600 :=
  ⟨_, _, _, _, _, _, run_play bootEnv_plainFirmware 48 _, fun h => h.1 rfl⟩

end UefiKernel.Boot
