import UefiKernel.Boot.Loader

/-!
# UefiKernel.Boot.MapGrowth

A memory map that grows while `ExitBootServicesHook` asks for it.

Each iteration of the hook asks twice: how large the map is, and then for the
map itself, into a buffer of just that size, which it may have allocated in
between.  The allocation may make the map larger.  `MapWorld` is the firmware
as far as it decides how this goes: the size of the map at the moment, and
which of the two questions is next.

`hook_status_iff`: when services answer as the UEFI headers say and nothing
else goes wrong, the hook returns an error exactly if the map has outgrown its
buffer before the second question of some iteration.
-/

namespace UefiKernel.Boot

open Interact Prog

/-! ## the firmware's map -/

/-- The bytes the map takes at the moment; what it took when it was asked for
its size, from the first question of an iteration to the second; and whether it
was larger at some second question than at the first. -/
structure MapWorld where
  mapSize : UInt64
  reported : Option UInt64
  outgrown : Bool
  deriving DecidableEq, Repr

/-- The map may change at any time. -/
def MapWorld.resized (g : MapWorld) (mapSize : UInt64) : MapWorld := { g with mapSize }

/-- The next question of the two is put. -/
def MapWorld.asked (g : MapWorld) : MapWorld :=
  match g.reported with
  | none => { g with reported := some g.mapSize }
  | some size => { g with reported := none, outgrown := g.outgrown || decide (size < g.mapSize) }

/-- `GetMemoryMap` compares the size it is given with that of the map; pool
allocations succeed, and `ExitBootServices` succeeds or asks for a new map. -/
def mapEnv (g : MapWorld) : (e : Efi) → e.Answer → MapWorld → Prop
  | .getMemoryMap size _, (status, size', _), g' =>
      status = (if size < g.mapSize then EfiStatus.bufferTooSmall else EfiStatus.success) ∧
      size' = g.mapSize ∧ ∃ n, g' = g.asked.resized n
  | .allocatePool _ _, (status, _), g' => ¬ efiError status ∧ ∃ n, g' = g.resized n
  | .exitBootServices _ _, status, g' =>
      (status = EfiStatus.success ∨ status = EfiStatus.invalidParameter) ∧ ∃ n, g' = g.resized n
  | _, _, g' => ∃ n, g' = g.resized n

/-! ## one iteration -/

/-- Between two iterations. -/
def MapWorld.AtRest (g : MapWorld) : Prop := g.reported = none ∧ g.outgrown = false

/-- What the hook returns with. -/
def MapWorld.Leaves (status : EfiStatus) (g : MapWorld) : Prop :=
  status = if g.outgrown then EfiStatus.bufferTooSmall else EfiStatus.success

theorem MapWorld.AtRest.leaves {g : MapWorld} (h : g.AtRest) : g.Leaves EfiStatus.success := by
  rw [MapWorld.Leaves, h.2]
  rfl

theorem efiError_bufferTooSmall : efiError EfiStatus.bufferTooSmall := by decide

/-- The second question, with the size that answered the first, and what
follows from it. -/
theorem wp_exitWithMap (imageHandle : UInt64) {buf : MapBuffer} {g : MapWorld}
    (hreported : g.reported = some buf.memoryMapSize) (hfits : g.outgrown = false) :
    wp mapEnv (fun _ _ => True) (exitWithMap imageHandle buf)
      (Sum.elim (fun _ => MapWorld.AtRest) MapWorld.Leaves) g := by
  simp only [exitWithMap, freePool, wp_bind', wp_ite, wp_req, wp_pure]
  refine ⟨trivial, ?_⟩
  rintro ⟨status, size, key⟩ g₁ ⟨hstatus, -, n, rfl⟩
  by_cases hgrown : buf.memoryMapSize < g.mapSize
  · -- the map no longer fits
    obtain rfl : status = EfiStatus.bufferTooSmall := hstatus.trans (if_pos hgrown)
    have hleaves : g.asked.Leaves EfiStatus.bufferTooSmall := by
      rw [MapWorld.Leaves, MapWorld.asked, hreported]
      simp only [hfits, hgrown, decide_true, Bool.or_true, if_true]
    refine ⟨fun _ => ⟨trivial, ?_⟩, fun hsucc => absurd efiError_bufferTooSmall hsucc⟩
    rintro - g₂ ⟨n₂, rfl⟩
    refine ⟨trivial, ?_⟩
    rintro - g₃ ⟨n₃, rfl⟩
    exact hleaves
  · obtain rfl : status = EfiStatus.success := hstatus.trans (if_neg hgrown)
    have hrest : g.asked.AtRest := by
      rw [MapWorld.AtRest, MapWorld.asked, hreported]
      exact ⟨rfl, by simp only [hfits, hgrown, decide_false, Bool.or_false]⟩
    refine ⟨fun herr => absurd herr not_efiError_success, fun _ => ⟨trivial, ?_⟩⟩
    rintro status g₂ ⟨hstatus, n₂, rfl⟩
    refine ⟨fun _ => ⟨trivial, ?_⟩, fun hretry => ?_⟩
    · rintro - g₃ ⟨n₃, rfl⟩
      exact hrest
    · obtain rfl := hstatus.resolve_right hretry
      exact ⟨fun herr => absurd herr not_efiError_success, fun _ => hrest.leaves⟩

theorem wp_exitBootServicesStep (imageHandle : UInt64) (buf : MapBuffer) {g : MapWorld}
    (hg : g.AtRest) :
    wp mapEnv (fun _ _ => True) (exitBootServicesStep imageHandle buf)
      (Sum.elim (fun _ => MapWorld.AtRest) MapWorld.Leaves) g := by
  obtain ⟨hreported, hfits⟩ := hg
  have hasked : g.asked = { g with reported := some g.mapSize } := by
    simp only [MapWorld.asked, hreported]
  simp only [exitBootServicesStep, allocatePool, wp_bind', wp_ite, wp_req, wp_pure]
  refine ⟨trivial, ?_⟩
  rintro ⟨status, size, key⟩ g₁ ⟨hstatus, rfl, n, rfl⟩
  rw [hasked]
  refine ⟨fun _ => ⟨trivial, ?_⟩, fun hsmall => ⟨fun herr => ?_, fun _ => ?_⟩⟩
  · rintro ⟨status, ptr⟩ g₂ ⟨hsucc, n₂, rfl⟩
    exact ⟨fun herr => absurd herr hsucc, fun _ => wp_exitWithMap imageHandle rfl hfits⟩
  · -- nothing but the two answers
    have hsucc : status = EfiStatus.success := by
      refine hstatus.trans (if_neg fun hlt => hsmall ?_)
      exact hstatus.trans (if_pos hlt)
    exact absurd (hsucc ▸ herr) not_efiError_success
  · exact wp_exitWithMap imageHandle rfl hfits

/-! ## every run -/

/-- **A growing map**: a run of the hook ends with success exactly if at no
second question the map had outgrown the size reported at the first; otherwise
it ends with an error. -/
theorem hook_status_iff (imageHandle : UInt64) {mapSize : UInt64} {g : MapWorld}
    {status : EfiStatus}
    (h : Run mapEnv (⟨mapSize, none, false⟩, exitBootServicesHook imageHandle) (g, .ret status)) :
    (¬ efiError status ↔ g.outgrown = false) ∧
      (g.outgrown = false → status = EfiStatus.success) := by
  have hwp : wp mapEnv (fun _ _ => True) (exitBootServicesHook imageHandle) MapWorld.Leaves
      ⟨mapSize, none, false⟩ :=
    wp_loop (fun _ => MapWorld.AtRest) ⟨rfl, rfl⟩ fun buf _ hg =>
      wp_exitBootServicesStep imageHandle buf hg
  have hleaves := post_of_run hwp h
  rw [MapWorld.Leaves] at hleaves
  cases hgrown : g.outgrown with
  | false =>
      rw [hgrown] at hleaves
      obtain rfl : status = EfiStatus.success := hleaves
      exact ⟨⟨fun _ => rfl, fun _ => not_efiError_success⟩, fun _ => rfl⟩
  | true =>
      rw [hgrown] at hleaves
      obtain rfl : status = EfiStatus.bufferTooSmall := hleaves
      exact ⟨⟨fun hsucc => absurd efiError_bufferTooSmall hsucc, fun h => nomatch h⟩,
        fun h => nomatch h⟩

/-- A firmware whose map takes `growth` bytes more after each pool allocation. -/
def growingFirmware (growth : UInt64) (g : MapWorld) : (e : Efi) → e.Answer × MapWorld
  | .getMemoryMap size _ =>
      ((if size < g.mapSize then EfiStatus.bufferTooSmall else EfiStatus.success, g.mapSize, 0),
        g.asked)
  | .allocatePool _ _ => ((EfiStatus.success, 0x1000), g.resized (g.mapSize + growth))
  | .exitBootServices _ _ => (EfiStatus.success, g)
  | .handleProtocol _ _ | .openVolume _ | .fileOpen _ _ | .locateProtocol _ | .getInfo _ _ _
  | .fileRead _ _ _ | .allocatePages _ _ => ((EfiStatus.notFound, 0), g)
  | .deviceHandle _ | .fileSize _ | .gopMode _ | .frameBufferBase _ => (0, g)
  | .maxMode _ => (0, g)
  | .queryMode _ _ => ((EfiStatus.invalidParameter, ⟨0, 0, .bltOnly, 0⟩), g)
  | .setMode _ _ => (EfiStatus.invalidParameter, g)
  | .freePool _ | .fileClose _ | .stall _ | .outputString _ | .writeInfo _
  | .callKernel _ _ _ _ _ _ _ => ((), g)

/-- It keeps the rules. -/
theorem mapEnv_growingFirmware (growth : UInt64) (g : MapWorld) (e : Efi) :
    mapEnv g e (growingFirmware growth g e).1 (growingFirmware growth g e).2 := by
  cases e with
  | getMemoryMap size buf => exact ⟨rfl, rfl, g.asked.mapSize, rfl⟩
  | allocatePool type size => exact ⟨not_efiError_success, _, rfl⟩
  | exitBootServices handle key => exact ⟨.inl rfl, g.mapSize, rfl⟩
  | _ => exact ⟨g.mapSize, rfl⟩

/-- With a map that stays as it is, the hook succeeds. -/
theorem hook_status_steady : ∃ g,
    Run mapEnv (⟨48, none, false⟩, exitBootServicesHook 0) (g, .ret EfiStatus.success) ∧
    (¬ efiError EfiStatus.success ↔ g.outgrown = false) := by
  have hrun : Run mapEnv (⟨48, none, false⟩, exitBootServicesHook 0)
      (_, .ret EfiStatus.success) := run_play (mapEnv_growingFirmware 0) 6 _
  exact ⟨_, hrun, (hook_status_iff 0 hrun).1⟩

/-- The hook's own allocation splits a descriptor; the map of 48 bytes now
takes 96, and the hook gives up. -/
theorem hook_gives_up : ∃ g status,
    Run mapEnv (⟨48, none, false⟩, exitBootServicesHook 0) (g, .ret status) ∧ efiError status :=
  ⟨_, EfiStatus.bufferTooSmall, run_play (mapEnv_growingFirmware 48) 7 _, efiError_bufferTooSmall⟩

end UefiKernel.Boot
