import UefiKernel.Boot.Loader

/-!
# UefiKernel.Boot.World

The world in which `efi_main` runs, as far as the kernel depends on it: the
blocks of pages the firmware has given out, and the screen.

The firmware answers as it likes, with three exceptions: a block that
`AllocatePages` gives out is recorded, the graphics services answer for one
`Gop` device, and nothing else changes either.  Which blocks are given out is
left open here.

Each function of the loader uses some of the `Service`s only (`uses_…`), so
the others' part of the world is the same after it (`wp_quiet`).
-/

namespace UefiKernel.Boot

open Interact Prog

/-! ## services -/

/-- The groups of events. -/
inductive Service
  | file
  | console
  | pool
  | pages
  | graphics
  | exit
  | kernel
  deriving DecidableEq, Repr

@[simp] def Efi.service : Efi → Service
  | handleProtocol _ _ | deviceHandle _ | openVolume _ | fileOpen _ _ | fileClose _
  | getInfo _ _ _ | fileSize _ | fileRead _ _ _ => .file
  | stall _ | outputString _ => .console
  | allocatePool _ _ | freePool _ | writeInfo _ => .pool
  | allocatePages _ _ => .pages
  | locateProtocol _ | gopMode _ | maxMode _ | frameBufferBase _ | queryMode _ _
  | setMode _ _ => .graphics
  | getMemoryMap _ _ | exitBootServices _ _ => .exit
  | callKernel _ _ _ _ _ _ _ => .kernel

/-- `p` uses the services in `S` only. -/
def Uses (S : List Service) {α : Type} (p : EfiM α) : Prop := p.Issues fun e => e.service ∈ S

section Uses

/-- The services that each of the loader's functions calls; a service it does not call
leaves its part of the world alone. -/
theorem uses_stall (n : UInt64) : Uses [.console] (stall n) := by
  simp [Uses, Issues, stall]

theorem uses_writeInfo (info : UInt64) : Uses [.pool] (writeInfo info) := by
  simp [Uses, Issues, writeInfo]

theorem uses_allocatePool (size : UInt64) (type : MemoryType) :
    Uses [.pool] (allocatePool size type) := by
  simp [Uses, Issues, allocatePool]

theorem uses_openFile (imageHandle : UInt64) (path : String) :
    Uses [.file, .console] (openFile imageHandle path) := by
  simp [Uses, Issues, openFile]

theorem uses_closeFile (vh fh : UInt64) : Uses [.file] (closeFile vh fh) := by
  simp [Uses, Issues, closeFile]

theorem uses_readFileSize (fh : UInt64) : Uses [.file, .console, .pool] (readFileSize fh) := by
  simp [Uses, Issues, readFileSize, allocatePool, freePool]

theorem uses_loadBinaryFileInBuffer (fh fileSize buffer : UInt64) :
    Uses [.file, .console] (loadBinaryFileInBuffer fh fileSize buffer) := by
  simp [Uses, Issues, loadBinaryFileInBuffer]

theorem uses_exitBootServicesHook (imageHandle : UInt64) :
    Uses [.exit, .pool, .console] (exitBootServicesHook imageHandle) := by
  refine Issues.loop ?_ _
  intro buf
  simp [Issues, exitBootServicesStep, exitWithMap, allocatePool, freePool]

end Uses

/-! ## the world -/

/-- A block of pages, as `AllocatePages` gives it out. -/
structure Block where
  base : UInt64
  pages : UInt64
  deriving DecidableEq, Repr

/-- A Graphics Output device: how it answers `LocateProtocol`, where its mode
object is, how many modes there are and what they are, which queries and
switches fail, and what is shown after a switch. -/
structure Gop where
  locateStatus : EfiStatus
  modePtr : UInt64
  maxMode : UInt32
  queryStatus : UInt32 → EfiStatus
  mode : UInt32 → ModeInformation
  setStatus : UInt32 → EfiStatus
  frameBuffer : UInt32 → UInt64
  afterFailedSet : UInt32 → ModeInformation

/-- The device together with the active mode and the address of its frame
buffer. -/
structure Screen where
  gop : Gop
  active : ModeInformation
  frameBufferBase : UInt64

/-- The blocks given out so far, in order, and the screen. -/
structure World where
  blocks : List Block
  screen : Screen

/-- What the firmware may answer, and the world after it. -/
def bootEnv (w : World) : (e : Efi) → e.Answer → World → Prop
  | .allocatePages _ pages, (status, base), w' =>
      w' = if efiError status then w else { w with blocks := w.blocks ++ [⟨base, pages⟩] }
  | .locateProtocol _, (status, _), w' => status = w.screen.gop.locateStatus ∧ w' = w
  | .gopMode _, modePtr, w' => modePtr = w.screen.gop.modePtr ∧ w' = w
  | .maxMode _, n, w' => n = w.screen.gop.maxMode ∧ w' = w
  | .frameBufferBase _, fb, w' => fb = w.screen.frameBufferBase ∧ w' = w
  | .queryMode _ mode, (status, info), w' =>
      status = w.screen.gop.queryStatus mode ∧ (¬ efiError status → info = w.screen.gop.mode mode) ∧
      w' = w
  | .setMode _ mode, status, w' =>
      status = w.screen.gop.setStatus mode ∧
      w'.blocks = w.blocks ∧ w'.screen.gop = w.screen.gop ∧
      if efiError status then w'.screen.active = w.screen.gop.afterFailedSet mode
      else w'.screen.active = w.screen.gop.mode mode ∧
        w'.screen.frameBufferBase = w.screen.gop.frameBuffer mode
  | _, _, w' => w' = w

/-! ## what stays the same -/

/-- The services that leave the world as it is. -/
def Service.quiet : List Service := [.file, .console, .pool, .exit]

/-- These services change nothing that the kernel is handed. -/
theorem bootEnv_quiet {w w' : World} {e : Efi} {r : e.Answer} (he : e.service ∈ Service.quiet)
    (h : bootEnv w e r w') : w' = w := by
  cases e <;> first | exact h | simp [Service.quiet] at he

section Quiet

variable {ok : World → Efi → Prop} (hok : ∀ w e, e.service ≠ .kernel → ok w e) {α : Type}

include hok

/-- A program that uses quiet services only leaves the world as it is. -/
theorem wp_quiet {S : List Service} {p : EfiM α} (hp : Uses S p) (hS : S ⊆ Service.quiet)
    {Q : α → World → Prop} {w : World} (h : ∀ a, Q a w) : wp bootEnv ok p Q w := by
  have hframe : wp bootEnv ok p (fun _ w' => w' = w) w := by
    refine wp_of_issues (R := (· = w)) ?_ ?_ hp rfl
    · intro w' e he _
      refine hok w' e ?_
      intro hker
      have hmem := hS he
      rw [hker] at hmem
      exact absurd hmem (by decide)
    · rintro w' e r w'' he rfl hr
      exact bootEnv_quiet (hS he) hr
  refine wp_mono ?_ hframe
  rintro a w' rfl
  exact h a

/-- Past a check the status is no error. -/
theorem wpOk_checkStatus {status : EfiStatus} {Q : Unit → World → Prop} {w : World}
    (h : ¬ efiError status → Q () w) : wpOk bootEnv ok (checkStatus status) Q w := by
  simp only [checkStatus, wpOk_ite, wpOk_bind, wpOk_lift, wpOk_throw, wpOk_pure]
  exact ⟨fun _ => wp_quiet hok (uses_stall _) (by decide) fun _ => trivial, h⟩

/-- An allocation records its block, if it succeeds. -/
theorem wp_allocatePages {type : MemoryType} {pages : UInt64}
    {Q : EfiStatus × UInt64 → World → Prop} {w : World}
    (herr : ∀ status base, efiError status → Q (status, base) w)
    (h : ∀ status base, ¬ efiError status →
      Q (status, base) { w with blocks := w.blocks ++ [⟨base, pages⟩] }) :
    wp bootEnv ok (allocatePages type pages) Q w := by
  simp only [allocatePages, wp_bind', wp_ite, wp_req, wp_pure]
  refine ⟨hok w _ (by simp), ?_⟩
  rintro ⟨status, base⟩ w' hw'
  have hQ : Q (status, base) w' := by
    simp only [bootEnv] at hw'
    subst hw'
    split
    · exact herr status base ‹_›
    · exact h status base ‹_›
  -- the messages change nothing
  have hmsg : ∀ text, ok w' (.outputString text) ∧ ∀ r w'', bootEnv w' (.outputString text) r w'' →
      Q (status, base) w'' := by
    intro text
    refine ⟨hok w' _ (by simp), ?_⟩
    intro r w'' hw''
    obtain rfl : w'' = w' := hw''
    exact hQ
  exact ⟨fun _ => hmsg _, fun _ => ⟨fun _ => hmsg _, fun _ => ⟨fun _ => hmsg _, fun _ => hQ⟩⟩⟩

/-- An allocation that passes its check has added one block. -/
theorem wp_allocateChecked {type : MemoryType} {pages : UInt64}
    {Q : EfiStatus × UInt64 → Unit → World → Prop} {w : World}
    (h : ∀ status base, Q (status, base) () { w with blocks := w.blocks ++ [⟨base, pages⟩] }) :
    wp bootEnv ok (allocatePages type pages)
      (fun a w' => wpOk bootEnv ok (checkStatus a.1) (Q a) w') w := by
  refine wp_allocatePages hok ?_ ?_
  · exact fun status base herr => wpOk_checkStatus hok fun hsucc => (hsucc herr).elim
  · exact fun status base _ => wpOk_checkStatus hok fun _ => h status base

end Quiet

end UefiKernel.Boot
