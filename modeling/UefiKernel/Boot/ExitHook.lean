import Mathlib.Logic.Function.Basic
import Mathlib.Tactic.SplitIfs
import UefiKernel.Boot.Loader

/-!
# UefiKernel.Boot.ExitHook

The life of the memory-map buffer in `ExitBootServicesHook`.

The world is the firmware's pool, a partial map from the address of each live
buffer to its size, under the rules of the UEFI headers (`poolEnv`).
`PoolSafe` says which calls are sound: a buffer handed to `GetMemoryMap` is
live and large enough (or `NULL` of size 0), and a buffer handed to `FreePool`
is live.

The hook keeps pointer and size over a retry, although it has freed the
buffer, and never looks at the result of `AllocatePool`.  `hook_use_after_free`
is a run that shows the first; `hook_pool_safe` says that without a retry and
without a failing allocation every call of every run is sound.
-/

namespace UefiKernel.Boot

open Interact Prog

/-! ## the pool -/

/-- The live buffers and their sizes. -/
abbrev Pool := UInt64 → Option UInt64

/-- The rules of the pool and of `GetMemoryMap`. -/
def poolEnv (g : Pool) : (e : Efi) → e.Answer → Pool → Prop
  | .allocatePool _ size, (status, ptr), g' =>
      (efiError status ∧ g' = g) ∨
      (¬ efiError status ∧ ptr ≠ 0 ∧ g ptr = none ∧ g' = Function.update g ptr (some size))
  | .freePool buf, _, g' => g' = Function.update g buf none
  | .getMemoryMap size buf, (status, size', _), g' =>
      g' = g ∧ (¬ efiError status → buf ≠ 0 ∧ size' ≤ size) ∧
      (status = EfiStatus.bufferTooSmall → size < size')
  | _, _, g' => g' = g

/-- The calls that are sound in a given pool. -/
def PoolSafe (g : Pool) : Efi → Prop
  | .getMemoryMap size buf => (buf = 0 ∧ size = 0) ∨ ∃ n, g buf = some n ∧ size ≤ n
  | .freePool buf => ∃ n, g buf = some n
  | _ => True

/-- An answer after which the hook goes on as usual: no allocation fails, and
`ExitBootServices` does not ask for a retry. -/
def Untroubled : (e : Efi) → e.Answer → Prop
  | .allocatePool _ _, (status, _) => ¬ efiError status
  | .exitBootServices _ _, status => status ≠ EfiStatus.invalidParameter
  | _, _ => True

/-- The rules of the pool, in runs without trouble. -/
def calmEnv (g : Pool) (e : Efi) (r : e.Answer) (g' : Pool) : Prop :=
  poolEnv g e r g' ∧ Untroubled e r

/-! ## one iteration -/

/-- An untroubled allocation answers a fresh buffer of the requested size. -/
theorem wp_allocatePool {size : UInt64} {type : MemoryType} {Q : UInt64 → Pool → Prop} {g : Pool}
    (h : ∀ ptr, ptr ≠ 0 → g ptr = none → Q ptr (Function.update g ptr (some size))) :
    wp calmEnv PoolSafe (allocatePool size type) Q g := by
  simp only [allocatePool, wp_bind', wp_ite, wp_req, wp_pure]
  refine ⟨trivial, ?_⟩
  rintro ⟨status, ptr⟩ g' ⟨hpool, hcalm⟩
  refine ⟨fun herr => (hcalm herr).elim, fun _ => ?_⟩
  obtain ⟨herr, -⟩ | ⟨-, hne, hfresh, rfl⟩ := hpool
  · exact (hcalm herr).elim
  · exact h ptr hne hfresh

/-- With a live buffer of sufficient size, the second half of an iteration
makes sound calls and leaves the loop. -/
theorem exitWithMap_safe (imageHandle : UInt64) {buf : MapBuffer} {g : Pool} {n : UInt64}
    (hlive : g buf.memoryMap = some n) (hsize : buf.memoryMapSize ≤ n) :
    wp calmEnv PoolSafe (exitWithMap imageHandle buf)
      (Sum.elim (fun _ _ => False) fun _ _ => True) g := by
  simp only [exitWithMap, freePool, wp_bind', wp_ite, wp_req, wp_pure]
  refine ⟨.inr ⟨n, hlive, hsize⟩, ?_⟩
  rintro ⟨status, size', key⟩ g₁ ⟨⟨rfl, -⟩, -⟩
  refine ⟨fun _ => ⟨⟨n, hlive⟩, fun _ _ _ => ⟨trivial, fun _ _ _ => trivial⟩⟩, fun _ => ?_⟩
  refine ⟨trivial, ?_⟩
  rintro status g₂ ⟨hg₂, hcalm⟩
  obtain rfl : g₂ = g₁ := hg₂
  refine ⟨fun hretry => (hcalm hretry).elim, fun _ => ⟨fun _ => ⟨trivial, ?_⟩, fun _ => trivial⟩⟩
  rintro _ g₃ ⟨hg₃, _⟩
  obtain rfl : g₃ = g₂ := hg₃
  exact ⟨⟨n, hlive⟩, fun _ _ _ => trivial⟩

/-- From `NULL` of size 0, one iteration makes sound calls and leaves the
loop. -/
theorem exitBootServicesStep_safe (imageHandle : UInt64) (g : Pool) :
    wp calmEnv PoolSafe (exitBootServicesStep imageHandle ⟨0, 0⟩)
      (Sum.elim (fun _ _ => False) fun _ _ => True) g := by
  simp only [exitBootServicesStep, wp_bind', wp_ite, wp_req, wp_pure]
  refine ⟨.inl ⟨rfl, rfl⟩, ?_⟩
  rintro ⟨status, size', key⟩ g₁ ⟨⟨rfl, hok, -⟩, -⟩
  refine ⟨fun _ => wp_allocatePool ?_, fun _ => ⟨fun _ => ⟨trivial, fun _ _ _ => trivial⟩, ?_⟩⟩
  · intro ptr _ _
    exact exitWithMap_safe imageHandle (Function.update_self ptr _ g₁) (UInt64.le_refl size')
  · -- success with no buffer is against the rules
    exact fun hsucc => ((hok hsucc).1 rfl).elim

/-! ## every run -/

/-- **The buffer's life**: in every run in which no allocation fails and
`ExitBootServices` never asks for a retry, every `GetMemoryMap` gets `NULL` of
size 0 or a live buffer that is large enough, and every `FreePool` a live
buffer. -/
theorem hook_pool_safe (imageHandle : UInt64) {g g' : Pool} {e : Efi}
    {k : e.Answer → EfiM EfiStatus}
    (h : Run calmEnv (g, exitBootServicesHook imageHandle) (g', .call e k)) : PoolSafe g' e := by
  refine ok_of_run (Q := fun _ _ => True) ?_ h
  refine wp_loop (fun buf _ => buf = ⟨0, 0⟩) rfl ?_
  rintro buf g rfl
  refine wp_mono ?_ (exitBootServicesStep_safe imageHandle g)
  intro r g' hr
  cases r with
  | inl buf => exact hr.elim
  | inr status => trivial

/-- The second `GetMemoryMap`, for a map of 48 bytes. -/
theorem hook_pool_safe_sample :
    PoolSafe (Function.update (fun _ => none) 0x1000 (some 48)) (.getMemoryMap 48 0x1000) := by
  have first : calmEnv (fun _ => none) (.getMemoryMap 0 0) (EfiStatus.bufferTooSmall, 48, 0)
      (fun _ => none) :=
    ⟨⟨rfl, fun h => (h (by decide)).elim, fun _ => by decide⟩, trivial⟩
  have alloc : calmEnv (fun _ => none) (.allocatePool .bootServicesData 48)
      (EfiStatus.success, 0x1000) (Function.update (fun _ => none) 0x1000 (some 48)) :=
    ⟨.inr ⟨by decide, by decide, rfl, rfl⟩, not_efiError_success⟩
  exact hook_pool_safe 0 (.head .iter (.head (.call first) (.head (.call alloc) .refl)))

/-! ## a retry -/

/-- A firmware whose memory map takes 48 bytes and which answers every
`ExitBootServices` with `EFI_INVALID_PARAMETER`. -/
def staleFirmware (g : Pool) : (e : Efi) → e.Answer × Pool
  | .allocatePool _ size =>
      if g 0x1000 = none then ((EfiStatus.success, 0x1000), Function.update g 0x1000 (some size))
      else ((EfiStatus.outOfResources, 0), g)
  | .freePool buf => ((), Function.update g buf none)
  | .getMemoryMap size buf =>
      if size < 48 then ((EfiStatus.bufferTooSmall, 48, 0), g)
      else if buf = 0 then ((EfiStatus.invalidParameter, size, 0), g)
      else ((EfiStatus.success, 48, 0), g)
  | .exitBootServices _ _ => (EfiStatus.invalidParameter, g)
  | .handleProtocol _ _ | .openVolume _ | .fileOpen _ _ | .locateProtocol _ | .getInfo _ _ _
  | .fileRead _ _ _ | .allocatePages _ _ => ((EfiStatus.notFound, 0), g)
  | .deviceHandle _ | .fileSize _ | .gopMode _ | .frameBufferBase _ => (0, g)
  | .maxMode _ => (0, g)
  | .queryMode _ _ => ((EfiStatus.invalidParameter, ⟨0, 0, .bltOnly, 0⟩), g)
  | .setMode _ _ => (EfiStatus.invalidParameter, g)
  | .fileClose _ | .stall _ | .outputString _ | .writeInfo _ | .callKernel _ _ _ _ _ _ _ => ((), g)

/-- It keeps the rules. -/
theorem poolEnv_staleFirmware (g : Pool) (e : Efi) :
    poolEnv g e (staleFirmware g e).1 (staleFirmware g e).2 := by
  cases e with
  | allocatePool type size =>
      simp only [staleFirmware]
      split_ifs with hfree
      · exact .inr ⟨by decide, by decide, hfree, rfl⟩
      · exact .inl ⟨by decide, rfl⟩
  | getMemoryMap size buf =>
      simp only [staleFirmware]
      split_ifs with hsmall hnull
      · exact ⟨rfl, fun h => (h (by decide)).elim, fun _ => hsmall⟩
      · exact ⟨rfl, fun h => (h (by decide)).elim, fun h => absurd h (by decide)⟩
      · exact ⟨rfl, fun _ => ⟨hnull, UInt64.not_lt.mp hsmall⟩, fun h => absurd h (by decide)⟩
  | _ => rfl

/-- After one retry the hook hands the buffer it has freed to `GetMemoryMap`,
with the old size. -/
theorem hook_use_after_free : ∃ g k,
    Run poolEnv ((fun _ => none : Pool), exitBootServicesHook 0)
      (g, .call (.getMemoryMap 48 0x1000) k) ∧
    ¬ PoolSafe g (.getMemoryMap 48 0x1000) := by
  refine ⟨_, _, run_play poolEnv_staleFirmware 7 _, ?_⟩
  rintro (⟨h, -⟩ | ⟨n, h, -⟩)
  · exact absurd h (by decide)
  · cases h

end UefiKernel.Boot
