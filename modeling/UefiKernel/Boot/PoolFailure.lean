import UefiKernel.Boot.World

/-!
# UefiKernel.Boot.PoolFailure

What the loader does when there is no pool memory left.

The wrapper `AllocatePool` answers `NULL` for a failure, and none of its three
callers looks.  `PoolWatch` follows a run: has an allocation failed, and has
`NULL` been used since?  The firmware answers as it likes.

`wp_efiMain` is one pass through the loader with the invariant that the two
go together: a failure is followed at once by a use of `NULL`.
`failure_noticed_iff` is what that says of every run.
-/

namespace UefiKernel.Boot

open Interact Prog

/-! ## watching the pool -/

/-- The wrapper answers `NULL`. -/
def Efi.answersNull : (e : Efi) → e.Answer → Bool
  | .allocatePool _ _, (status, ptr) => decide (efiError status) || ptr = 0
  | _, _ => false

/-- What must not be done after a failure: to read or write through `NULL`, to
pass it as a buffer, or to enter the kernel. -/
def Efi.careless : Efi → Bool
  | writeInfo info => info = 0
  | fileSize info => info = 0
  | getInfo _ _ buf => buf = 0
  | getMemoryMap _ buf => buf = 0
  | freePool buf => buf = 0
  | callKernel _ _ _ _ _ _ _ => true
  | _ => false

/-- Whether an allocation has failed, and whether something careless was done
after that. -/
structure PoolWatch where
  failed : Bool := false
  misused : Bool := false
  deriving DecidableEq, Repr

def PoolWatch.after (g : PoolWatch) (e : Efi) (r : e.Answer) : PoolWatch where
  failed := g.failed || e.answersNull r
  misused := g.misused || (g.failed && e.careless)

/-- The firmware answers anything. -/
def watchEnv (g : PoolWatch) (e : Efi) (r : e.Answer) (g' : PoolWatch) : Prop := g' = g.after e r

/-- Either nothing has failed, or it has shown already. -/
def PoolWatch.Even (g : PoolWatch) : Prop := g.failed = g.misused

/-- Where a failure has not shown yet, it does now. -/
def ShowsFailure (g : PoolWatch) (e : Efi) : Prop :=
  g.Even ∨ g.failed = true ∧ e.careless = true

/-- `ptr` was allocated just now. -/
def PoolWatch.Fresh (ptr : UInt64) (g : PoolWatch) : Prop :=
  g.Even ∨ ptr = 0 ∧ g.failed = true

/-- Any event but an allocation keeps the two together. -/
theorem PoolWatch.Even.step {g g' : PoolWatch} {e : Efi} {r : e.Answer} (hg : g.Even)
    (he : e.answersNull r = false) (h : watchEnv g e r g') : g'.Even := by
  obtain rfl : g' = g.after e r := h
  rw [Even] at hg ⊢
  simp only [after, he, Bool.or_false, hg]
  cases g.misused <;> simp

/-- A careless event after a failure brings the two together. -/
theorem PoolWatch.Fresh.step {g g' : PoolWatch} {ptr : UInt64} {e : Efi} {r : e.Answer}
    (hg : g.Fresh ptr) (he : e.answersNull r = false) (hcareless : ptr = 0 → e.careless = true)
    (h : watchEnv g e r g') : g'.Even := by
  rcases hg with heven | ⟨hptr, hfailed⟩
  · exact heven.step he h
  · obtain rfl : g' = g.after e r := h
    simp only [Even, after, hfailed, hcareless hptr, Bool.true_or, Bool.and_self, Bool.or_true]

/-- A use of the buffer that was just asked for shows the failure if there was one. -/
theorem PoolWatch.Fresh.shows {g : PoolWatch} {ptr : UInt64} {e : Efi} (hg : g.Fresh ptr)
    (hcareless : ptr = 0 → e.careless = true) : ShowsFailure g e :=
  hg.imp_right fun h => ⟨h.2, hcareless h.1⟩

/-- Only pool calls can fail in this sense. -/
theorem answersNull_of_service {e : Efi} (he : e.service ≠ .pool) (r : e.Answer) :
    e.answersNull r = false := by
  cases e with
  | allocatePool _ _ => exact (he rfl).elim
  | _ => rfl

/-! ## the loader's functions -/

section Watch

variable {α : Type} {g : PoolWatch}

/-- A program without pool services. -/
theorem wp_apart {S : List Service} {p : EfiM α} (hp : Uses S p) (hS : .pool ∉ S)
    (hg : g.Even) {Q : α → PoolWatch → Prop} (h : ∀ a g', g'.Even → Q a g') :
    wp watchEnv ShowsFailure p Q g := by
  refine wp_mono (fun a g' => h a g') (wp_of_issues (R := PoolWatch.Even) ?_ ?_ hp hg)
  · exact fun g e _ hg => .inl hg
  · intro g e r g' he hg hr
    exact hg.step (answersNull_of_service (fun hpool => hS (hpool ▸ he)) r) hr

/-- One event, when nothing is to be shown. -/
theorem wp_event {e : Efi} (he : ∀ r, e.answersNull r = false) (hg : g.Even)
    {Q : e.Answer → PoolWatch → Prop} (h : ∀ r g', g'.Even → Q r g') :
    wp watchEnv ShowsFailure (req e) Q g :=
  ⟨.inl hg, fun r _ hr => h r _ (hg.step (he r) hr)⟩

/-- The first use of what was allocated. -/
theorem wp_use {e : Efi} {ptr : UInt64} (he : ∀ r, e.answersNull r = false)
    (huse : e.careless = decide (ptr = 0)) (hg : g.Fresh ptr)
    {Q : e.Answer → PoolWatch → Prop} (h : ∀ r g', g'.Even → Q r g') :
    wp watchEnv ShowsFailure (req e) Q g := by
  have hcareless : ptr = 0 → e.careless = true := fun hptr => huse.trans (decide_eq_true hptr)
  exact ⟨hg.shows hcareless, fun r _ hr => h r _ (hg.step (he r) hcareless hr)⟩

/-- If the allocation failed, the failure has not shown: the buffer is fresh. -/
theorem wp_allocate {size : UInt64} {type : MemoryType} (hg : g.Even)
    {Q : UInt64 → PoolWatch → Prop} (h : ∀ ptr g', g'.Fresh ptr → Q ptr g') :
    wp watchEnv ShowsFailure (allocatePool size type) Q g := by
  simp only [allocatePool, wp_bind', wp_ite, wp_req, wp_pure]
  refine ⟨.inl hg, ?_⟩
  rintro ⟨status, ptr⟩ g' rfl
  refine ⟨fun herr => h 0 _ (.inr ⟨rfl, ?_⟩), fun herr => h ptr _ ?_⟩
  · have hnull : Efi.answersNull (.allocatePool type size) (status, ptr) = true := by
      simp only [Efi.answersNull, decide_eq_true herr, Bool.true_or]
    rw [PoolWatch.after, hnull, Bool.or_true]
  · by_cases hptr : ptr = 0
    · have hnull : Efi.answersNull (.allocatePool type size) (status, ptr) = true := by
        simp only [Efi.answersNull, decide_eq_true hptr, Bool.or_true]
      exact .inr ⟨hptr, by rw [PoolWatch.after, hnull, Bool.or_true]⟩
    · have hnull : Efi.answersNull (.allocatePool type size) (status, ptr) = false := by
        simp only [Efi.answersNull, decide_eq_false herr, decide_eq_false hptr, Bool.or_false]
      exact .inl (hg.step hnull rfl)

/-- `ReadFileSize` uses its buffer at once, and evens the account. -/
theorem wp_readFileSize (fh : UInt64) (hg : g.Even) :
    wp watchEnv ShowsFailure (readFileSize fh) (fun _ => PoolWatch.Even) g := by
  simp only [readFileSize, wp_bind', wp_ite, wp_pure]
  refine wp_event (fun _ => rfl) hg ?_
  rintro ⟨status, size⟩ g₁ hg₁
  refine ⟨fun _ => wp_event (fun _ => rfl) hg₁ fun _ _ hg₂ => hg₂, fun _ => ?_⟩
  refine wp_allocate hg₁ fun ptr g₂ hg₂ => ?_
  refine wp_use (fun _ => rfl) rfl hg₂ ?_
  rintro ⟨status, _⟩ g₃ hg₃
  refine ⟨fun _ => ?_, fun _ => ?_⟩
  · refine wp_event (fun _ => rfl) hg₃ fun _ g₄ hg₄ => ?_
    exact wp_event (fun _ => rfl) hg₄ fun _ _ hg₅ => hg₅
  · refine wp_event (fun _ => rfl) hg₃ fun _ g₄ hg₄ => ?_
    exact wp_event (fun _ => rfl) hg₄ fun _ _ hg₅ => hg₅

/-- So does a turn of the hook, which passes its buffer to `GetMemoryMap`. -/
theorem wp_exitWithMap_fresh (imageHandle : UInt64) {buf : MapBuffer}
    (hg : g.Fresh buf.memoryMap) :
    wp watchEnv ShowsFailure (exitWithMap imageHandle buf) (fun _ => PoolWatch.Even) g := by
  simp only [exitWithMap, wp_bind', wp_ite, wp_pure]
  refine wp_use (fun _ => rfl) rfl hg ?_
  rintro ⟨status, size, key⟩ g₁ hg₁
  have hfree : ∀ {g}, PoolWatch.Even g → ∀ {Q : Unit → PoolWatch → Prop},
      (∀ r g', g'.Even → Q r g') → wp watchEnv ShowsFailure (freePool buf.memoryMap) Q g :=
    fun hg _ h => wp_event (fun _ => rfl) hg h
  refine ⟨fun _ => ?_, fun _ => ?_⟩
  · refine hfree hg₁ fun _ g₂ hg₂ => ?_
    exact wp_event (fun _ => rfl) hg₂ fun _ _ hg₃ => hg₃
  · refine wp_event (fun _ => rfl) hg₁ fun status g₂ hg₂ => ?_
    refine ⟨fun _ => hfree hg₂ fun _ _ hg₃ => hg₃, fun _ => ⟨fun _ => ?_, fun _ => hg₂⟩⟩
    refine wp_event (fun _ => rfl) hg₂ fun _ g₃ hg₃ => ?_
    exact hfree hg₃ fun _ _ hg₄ => hg₄

theorem wp_exitBootServicesHook (imageHandle : UInt64) (hg : g.Even) :
    wp watchEnv ShowsFailure (exitBootServicesHook imageHandle) (fun _ => PoolWatch.Even) g := by
  refine wp_loop (fun _ => PoolWatch.Even) hg ?_
  intro buf g hg
  have hsum : ∀ {g} (r : MapBuffer ⊕ EfiStatus), PoolWatch.Even g →
      Sum.elim (fun _ => PoolWatch.Even) (fun _ => PoolWatch.Even) r g := by
    rintro g (_ | _) hg <;> exact hg
  simp only [exitBootServicesStep, wp_bind', wp_ite, wp_pure]
  refine wp_event (fun _ => rfl) hg ?_
  rintro ⟨status, size, key⟩ g₁ hg₁
  refine ⟨fun _ => ?_, fun _ => ⟨fun _ => ?_, fun _ => ?_⟩⟩
  · refine wp_allocate hg₁ fun ptr g₂ hg₂ => ?_
    exact wp_mono (fun r _ => hsum r) (wp_exitWithMap_fresh imageHandle hg₂)
  · exact wp_event (fun _ => rfl) hg₁ fun _ _ hg₂ => hg₂
  · exact wp_mono (fun r _ => hsum r) (wp_exitWithMap_fresh imageHandle (.inl hg₁))

theorem wpExcept_checkStatus {status : EfiStatus} (hg : g.Even) {Q : Unit → PoolWatch → Prop}
    (h : Q () g) :
    wpExcept watchEnv ShowsFailure (checkStatus status) Q (fun _ => PoolWatch.Even) g := by
  simp only [checkStatus, wpExcept_ite, wpExcept_bind, wpExcept_lift, wpExcept_throw,
    wpExcept_pure]
  exact ⟨fun _ => wp_apart (uses_stall _) (by decide) hg fun _ _ hg' => hg', fun _ => h⟩

/-- A block of pages, or the end of `efi_main`. -/
theorem wp_allocatePagesChecked {type : MemoryType} {pages : UInt64} (hg : g.Even)
    {Q : EfiStatus × UInt64 → Unit → PoolWatch → Prop} (h : ∀ a g', g'.Even → Q a () g') :
    wp watchEnv ShowsFailure (allocatePages type pages)
      (fun a g' => wpExcept watchEnv ShowsFailure (checkStatus a.1) (Q a) (fun _ => PoolWatch.Even)
        g') g := by
  have huses : Uses [.pages, .console] (allocatePages type pages) := by
    simp [Uses, Issues, allocatePages]
  exact wp_apart huses (by decide) hg fun a g' hg' => wpExcept_checkStatus hg' (h a g' hg')

end Watch

theorem uses_setGraphicsMode (width height : UInt32) :
    Uses [.graphics, .console] (setGraphicsMode width height) := by
  have hgraphics : ∀ e : Efi, e.service = .graphics → Uses [.graphics, .console] (req e) := by
    intro e he
    exact .req (by rw [he]; decide)
  have htext : ∀ text, Uses [.graphics, .console] (req (Efi.outputString text)) :=
    fun _ => .req (.tail _ List.mem_cons_self)
  unfold setGraphicsMode
  refine .seq (hgraphics _ rfl) fun ⟨_, graphics⟩ => .ite (fun _ => ?_) fun _ => ?_
  · exact .seq (htext _) fun _ => .pure _
  refine .seq (hgraphics _ rfl) fun modePtr => .ite (fun _ => ?_) fun _ => ?_
  · exact .seq (htext _) fun _ => .pure _
  refine .seq (hgraphics _ rfl) fun maxMode => .ite (fun _ => ?_) fun _ => ?_
  · exact .seq (htext _) fun _ => .pure _
  refine .seq (hgraphics _ rfl) fun _ => .seq (.loop (fun mode => ?_) _) fun found => ?_
  · simp [Issues, searchMode]
  · cases found with
    | some fb => exact .pure _
    | none => exact .seq (htext _) fun _ => .seq (.req (by decide)) fun _ => .pure _

/-! ## every run of `efi_main` -/

/-- Every pool buffer of the loader is used before the next is asked for. -/
theorem wpExcept_loadAndStart (imageHandle : UInt64) (uninit : Information) {g : PoolWatch}
    (hg : g.Even) :
    wpExcept watchEnv ShowsFailure (loadAndStart imageHandle uninit) (fun _ => PoolWatch.Even)
      (fun _ => PoolWatch.Even) g := by
  simp only [loadAndStart, wpExcept_bind, wpExcept_lift, wpExcept_pure]
  refine wp_allocate hg fun infoPtr g hg => ?_
  refine wp_use (fun _ => rfl) rfl hg fun _ g hg => ?_
  -- the kernel image
  refine wp_apart (uses_openFile _ _) (by decide) hg fun _ g hg => ?_
  refine wpExcept_checkStatus hg ?_
  refine wp_mono (fun kernelSize g hg => ?_) (wp_readFileSize _ hg)
  refine wpExcept_checkStatus hg ?_
  refine wp_allocatePagesChecked hg fun _ g hg => ?_
  refine wp_apart (uses_loadBinaryFileInBuffer _ _ _) (by decide) hg fun _ g hg => ?_
  refine wpExcept_checkStatus hg ?_
  refine wp_apart (uses_closeFile _ _) (by decide) hg fun _ g hg => ?_
  -- the user binary
  refine wp_apart (uses_openFile _ _) (by decide) hg fun _ g hg => ?_
  refine wpExcept_checkStatus hg ?_
  refine wp_mono (fun userSize g hg => ?_) (wp_readFileSize _ hg)
  refine wpExcept_checkStatus hg ?_
  refine wp_event (fun _ => rfl) hg fun _ g hg => ?_
  refine wp_allocatePagesChecked hg fun _ g hg => ?_
  refine wp_apart (uses_loadBinaryFileInBuffer _ _ _) (by decide) hg fun _ g hg => ?_
  refine wpExcept_checkStatus hg ?_
  refine wp_apart (uses_closeFile _ _) (by decide) hg fun _ g hg => ?_
  -- the tables, the TSS, the single pages and the stacks
  refine wp_allocatePagesChecked hg fun _ g hg => ?_
  refine wp_event (fun _ => rfl) hg fun _ g hg => ?_
  refine wp_allocatePagesChecked hg fun _ g hg => ?_
  refine wp_allocatePagesChecked hg fun _ g hg => ?_
  refine wp_allocatePagesChecked hg fun _ g hg => ?_
  refine wp_allocatePagesChecked hg fun _ g hg => ?_
  refine wp_allocatePagesChecked hg fun _ g hg => ?_
  refine wp_allocatePagesChecked hg fun _ g hg => ?_
  refine wp_allocatePagesChecked hg fun _ g hg => ?_
  -- the screen, the end of boot services, and the kernel
  refine wp_apart (uses_setGraphicsMode _ _) (by decide) hg fun fb g hg => ?_
  refine wp_mono (fun status g hg => ?_) (wp_exitBootServicesHook _ hg)
  refine wpExcept_checkStatus hg ?_
  refine wp_event (fun _ => rfl) hg fun _ g hg => ?_
  exact wp_event (fun _ => rfl) hg fun _ _ hg => hg

theorem wp_efiMain (imageHandle : UInt64) (uninit : Information) :
    wp watchEnv ShowsFailure (efiMain imageHandle uninit) (fun _ => PoolWatch.Even) {} := by
  simp only [efiMain, wp_bind']
  refine wp_mono ?_ (wpExcept_loadAndStart imageHandle uninit rfl)
  intro r g hg
  cases r <;> exact hg

/-- At an event, or at the end of the loader, any failure has been dealt with:
nothing careless was done and none is being done, and an error is returned. -/
def Noticed : PoolWatch → EfiM EfiStatus → Prop
  | g, .ret status => g.misused = false ∧ (g.failed = true → efiError status)
  | g, .call e _ => g.misused = false ∧ (g.failed = true → e.careless = false)
  | g, .iter _ _ _ => g.misused = false

/-- **A failed allocation is never noticed**: wherever a run of `efi_main` comes
to issue an event, and where it returns, it has dealt with failed allocations
exactly if there were none. -/
theorem failure_noticed_iff (imageHandle : UInt64) (uninit : Information) {g : PoolWatch} :
    (∀ e k, Run watchEnv ({}, efiMain imageHandle uninit) (g, .call e k) →
      (Noticed g (.call e k) ↔ g.failed = false)) ∧
    (∀ status, Run watchEnv ({}, efiMain imageHandle uninit) (g, .ret status) →
      (Noticed g (.ret status) ↔ g.failed = false)) := by
  refine ⟨fun e k h => ?_, fun status h => ?_⟩
  · have hshows : ShowsFailure g e := ok_of_run (wp_efiMain imageHandle uninit) h
    refine ⟨fun hn => ?_, fun hf => ?_⟩
    · rcases hshows with heven | ⟨hfailed, hcareless⟩
      · exact heven.trans hn.1
      · exact nomatch hcareless.symm.trans (hn.2 hfailed)
    · rcases hshows with heven | ⟨hfailed, -⟩
      · exact ⟨heven.symm.trans hf, fun hfailed => nomatch hfailed.symm.trans hf⟩
      · exact nomatch hfailed.symm.trans hf
  · have hpost := post_of_run (wp_efiMain imageHandle uninit) h
    have heven : g.Even := hpost
    refine ⟨fun hn => heven.trans hn.1, fun hf => ?_⟩
    exact ⟨heven.symm.trans hf, fun hfailed => nomatch hfailed.symm.trans hf⟩

/-- When its first allocation has succeeded, the loader writes to the record. -/
theorem failure_noticed_sample : ∃ k,
    Run watchEnv ({}, efiMain 0 default) ({}, .call (.writeInfo 0x1000) k) ∧
    (Noticed {} (.call (.writeInfo 0x1000) k) ↔ ({} : PoolWatch).failed = false) := by
  have halloc : watchEnv {} (.allocatePool .bootServicesData 120) (EfiStatus.success, 0x1000) {} :=
    rfl
  have hrun : Run watchEnv ({}, efiMain 0 default) ({}, .call (.writeInfo 0x1000) _) :=
    .head (.call halloc) .refl
  exact ⟨_, hrun, (failure_noticed_iff 0 default).1 _ _ hrun⟩

/-- A firmware whose first pool allocation fails, for want of memory, and which
answers everything else. -/
def PoolWatch.answer (g : PoolWatch) : (e : Efi) → e.Answer
  | .allocatePool _ _ =>
      if g.failed then (EfiStatus.success, 0x1000) else (EfiStatus.outOfResources, 0)
  | .handleProtocol _ _ | .openVolume _ | .fileOpen _ _ => (EfiStatus.success, 1)
  | .getInfo _ _ buf =>
      if buf = 0 then (EfiStatus.bufferTooSmall, 80) else (EfiStatus.success, 80)
  | .fileSize _ => 0x3000
  | .fileRead _ size _ => (EfiStatus.success, size)
  | .allocatePages _ _ => (EfiStatus.success, 0x100000)
  | .getMemoryMap _ buf =>
      if buf = 0 then (EfiStatus.bufferTooSmall, 48, 0) else (EfiStatus.success, 48, 0)
  | .exitBootServices _ _ => EfiStatus.success
  | .locateProtocol _ => (EfiStatus.notFound, 0)
  | .deviceHandle _ | .gopMode _ | .frameBufferBase _ => 1
  | .maxMode _ => 0
  | .queryMode _ _ => (EfiStatus.invalidParameter, ⟨0, 0, .bltOnly, 0⟩)
  | .setMode _ _ => EfiStatus.invalidParameter
  | .fileClose _ | .stall _ | .outputString _ | .writeInfo _ | .freePool _
  | .callKernel _ _ _ _ _ _ _ => ()

def shortOfPool (g : PoolWatch) (e : Efi) : e.Answer × PoolWatch :=
  (g.answer e, g.after e (g.answer e))

/-- After its first allocation has failed, the loader goes all the way: it has
written through `NULL` and calls the kernel with it. -/
theorem failure_goes_unnoticed : ∃ g entry stack fb info k,
    Run watchEnv ({}, efiMain 0 default)
      (g, .call (.callKernel entry stack fb 800 600 0 info) k) ∧
    g.failed = true ∧ g.misused = true ∧
    ¬ Noticed g (.call (.callKernel entry stack fb 800 600 0 info) k) := by
  have hfirmware : ∀ g e, watchEnv g e (shortOfPool g e).1 (shortOfPool g e).2 := fun _ _ => rfl
  have hrun : Run watchEnv ({}, efiMain 0 default)
      (⟨true, true⟩, .call (.callKernel _ _ _ 800 600 0 _) _) := run_play hfirmware 48 _
  exact ⟨_, _, _, _, _, _, hrun, rfl, rfl, fun h => nomatch h.1⟩

end UefiKernel.Boot
