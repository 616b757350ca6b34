import Mathlib.Tactic.ByContra
import UefiKernel.Boot.World

/-!
# UefiKernel.Boot.Graphics

What `SetGraphicsMode` leaves on the screen, for every device.

The search stops at the first mode of the wanted format and size
(`Gop.FirstMatch`), if no query up to it fails; the switch to that mode may
fail too.  In every other case the loader keeps whatever mode is active, and
the frame buffer it saw before the search.  `Screen.FitsKernel` is the exact
condition under which the frame buffer and the mode are what the kernel draws
on: it takes the given width for the length of a scan line, and never looks at
the mode.
-/

namespace UefiKernel.Boot

open Interact Prog

/-! ## what the kernel needs -/

/-- A mode the kernel can draw on, with `width` pixels in a scan line. -/
structure ModeInformation.Fits (mode : ModeInformation) (width height : UInt32) : Prop where
  format : mode.pixelFormat = .blueGreenRedReserved8BitPerColor
  horizontal : mode.horizontalResolution = width
  vertical : mode.verticalResolution = height
  scanLine : mode.pixelsPerScanLine = width

/-- The frame buffer and the active mode are what the kernel assumes. -/
def Agrees (s : Screen) (fb : UInt64) (width height : UInt32) : Prop :=
  fb ≠ 0 ∧ s.active.Fits width height

/-! ## the search -/

section Search

variable (gop : Gop) (width height : UInt32)

/-- The mode the search looks for: the length of a scan line is not compared. -/
def Gop.Matches (mode : UInt32) : Prop :=
  (gop.mode mode).pixelFormat = .blueGreenRedReserved8BitPerColor ∧
  (gop.mode mode).verticalResolution = height ∧ (gop.mode mode).horizontalResolution = width

/-- The search tries to switch to `mode`. -/
structure Gop.FirstMatch (mode : UInt32) : Prop where
  lt : mode < gop.maxMode
  found : gop.Matches width height mode
  queries : ∀ j ≤ mode, ¬ efiError (gop.queryStatus j)
  first : ∀ j < mode, ¬ gop.Matches width height j

variable {gop width height}

theorem Gop.FirstMatch.unique {m n : UInt32} (hm : gop.FirstMatch width height m)
    (hn : gop.FirstMatch width height n) : m = n := by
  by_contra hne
  rcases UInt32.lt_or_lt_of_ne hne with h | h
  · exact hn.first m h hm.found
  · exact hm.first n h hn.found

end Search

/-- The exact condition on a device and its initial screen: the search finds a
mode and switches to it, with the right scan line and a frame buffer; or it
does not, and the mode that is then active is the wanted one already. -/
def Screen.FitsKernel (s : Screen) (width height : UInt32) : Prop :=
  ¬ efiError s.gop.locateStatus ∧ s.gop.modePtr ≠ 0 ∧ s.gop.maxMode ≠ 0 ∧
  ((∃ m, s.gop.FirstMatch width height m ∧ ¬ efiError (s.gop.setStatus m) ∧
      s.gop.frameBuffer m ≠ 0 ∧ (s.gop.mode m).Fits width height) ∨
    (∃ m, s.gop.FirstMatch width height m ∧ efiError (s.gop.setStatus m) ∧
      s.frameBufferBase ≠ 0 ∧ (s.gop.afterFailedSet m).Fits width height) ∨
    ((¬ ∃ m, s.gop.FirstMatch width height m) ∧
      s.frameBufferBase ≠ 0 ∧ s.active.Fits width height))

/-- The modes below `mode` have been looked at, in vain. -/
def Gop.Passed (gop : Gop) (width height mode : UInt32) : Prop :=
  ∀ j < mode, ¬ efiError (gop.queryStatus j) ∧ ¬ gop.Matches width height j

/-- What the search leaves: the frame buffer of the mode it switched to, or
nothing, with the active mode as a failed switch or no switch left it. -/
def SearchResult (width height : UInt32) (w : World) (found : Option UInt64) (w' : World) : Prop :=
  w'.blocks = w.blocks ∧
  match found with
  | some fb => ∃ m, w.screen.gop.FirstMatch width height m ∧
      ¬ efiError (w.screen.gop.setStatus m) ∧ fb = w.screen.gop.frameBuffer m ∧
      w'.screen.active = w.screen.gop.mode m
  | none =>
      (∃ m, w.screen.gop.FirstMatch width height m ∧ efiError (w.screen.gop.setStatus m) ∧
        w'.screen.active = w.screen.gop.afterFailedSet m) ∨
      ((¬ ∃ m, w.screen.gop.FirstMatch width height m) ∧ w'.screen.active = w.screen.active)

section Passed

variable {gop : Gop} {width height mode : UInt32} (hp : gop.Passed width height mode)

include hp

/-- No mode matches if all have been passed. -/
theorem not_firstMatch_of_end (hend : ¬ mode < gop.maxMode) :
    ¬ ∃ m, gop.FirstMatch width height m := by
  rintro ⟨m, hm⟩
  have hlt : m < mode := UInt32.lt_of_lt_of_le hm.lt (UInt32.not_lt.mp hend)
  exact (hp m hlt).2 hm.found

/-- No mode is tried if a query fails before a match. -/
theorem not_firstMatch_of_queryFails (hfail : efiError (gop.queryStatus mode)) :
    ¬ ∃ m, gop.FirstMatch width height m := by
  rintro ⟨m, hm⟩
  by_cases hlt : m < mode
  · exact (hp m hlt).2 hm.found
  · exact hm.queries mode (UInt32.not_lt.mp hlt) hfail

theorem firstMatch_of_matches (hlt : mode < gop.maxMode)
    (hquery : ¬ efiError (gop.queryStatus mode)) (hm : gop.Matches width height mode) :
    gop.FirstMatch width height mode where
  lt := hlt
  found := hm
  queries := by
    intro j hj
    by_cases hjm : j = mode
    · exact hjm ▸ hquery
    · exact (hp j (UInt32.lt_of_le_of_ne hj hjm)).1
  first := fun j hj => (hp j hj).2

theorem Gop.Passed.succ (hlt : mode < gop.maxMode) (hquery : ¬ efiError (gop.queryStatus mode))
    (hm : ¬ gop.Matches width height mode) : gop.Passed width height (mode + 1) := by
  intro j hj
  by_cases hjm : j = mode
  · exact hjm ▸ ⟨hquery, hm⟩
  · refine hp j ?_
    have hne : j.toNat ≠ mode.toNat := fun h => hjm (UInt32.toNat_inj.mp h)
    have hmax := gop.maxMode.toNat_lt
    simp only [UInt32.lt_iff_toNat_lt, UInt32.toNat_add, UInt32.toNat_one] at *
    omega

end Passed

section Spec

variable {ok : World → Efi → Prop} (hok : ∀ w e, e.service ≠ .kernel → ok w e)

include hok

/-- One pass of the search. -/
theorem searchMode_spec (graphics modePtr : UInt64) {width height mode : UInt32} {w : World}
    (hp : w.screen.gop.Passed width height mode) :
    wp bootEnv ok (searchMode graphics modePtr width height mode)
      (Sum.elim (fun mode' w' => w' = w ∧ w.screen.gop.Passed width height mode')
        (SearchResult width height w)) w := by
  have quiet : ∀ w' text, ok w' (.outputString text) := fun w' text =>
    hok w' _ (by simp)
  simp only [searchMode, wp_bind', wp_ite, wp_req, wp_pure, bootEnv]
  refine ⟨hok w _ (by simp), ?_⟩
  rintro _ _ ⟨rfl, rfl⟩
  refine ⟨fun hend => ⟨rfl, .inr ⟨not_firstMatch_of_end hp hend, rfl⟩⟩, fun hlt => ?_⟩
  rw [not_not] at hlt
  refine ⟨hok _ _ (by simp), ?_⟩
  rintro ⟨status, info⟩ w₁ ⟨hstatus, hinfo, rfl⟩
  dsimp only at hstatus hinfo
  refine ⟨fun herr => ⟨quiet _ _, ?_⟩, fun hquery => ?_⟩
  · rintro _ w₂ rfl
    exact ⟨rfl, .inr ⟨not_firstMatch_of_queryFails hp (hstatus ▸ herr), rfl⟩⟩
  obtain rfl := hinfo hquery
  rw [hstatus] at hquery
  refine ⟨fun hformat => ⟨rfl, hp.succ hlt hquery fun hm => hformat hm.1⟩, fun hformat => ?_⟩
  refine ⟨fun hsize => ⟨rfl, hp.succ hlt hquery fun hm => ?_⟩, fun hsize => ?_⟩
  · rcases hsize with h | h
    · exact h hm.2.1
    · exact h hm.2.2
  have hfirst : w₁.screen.gop.FirstMatch width height mode :=
    firstMatch_of_matches hp hlt hquery (by grind [Gop.Matches])
  refine ⟨hok _ _ (by simp), ?_⟩
  rintro status₂ w₂ ⟨rfl, hblocks, hgop, hset⟩
  refine ⟨fun herr => ⟨quiet _ _, ?_⟩, fun hsucc => ⟨hok _ _ (by simp), ?_⟩⟩
  · rintro _ w₃ rfl
    rw [if_pos herr] at hset
    exact ⟨hblocks, .inl ⟨mode, hfirst, herr, hset⟩⟩
  · rintro _ w₃ ⟨rfl, rfl⟩
    rw [if_neg hsucc] at hset
    exact ⟨hblocks, mode, hfirst, hsucc, hset.2, hset.1⟩

/-- The whole search, from mode 0. -/
theorem search_spec (graphics modePtr : UInt64) (width height : UInt32) (w : World) :
    wp bootEnv ok (loop (searchMode graphics modePtr width height) 0)
      (SearchResult width height w) w := by
  refine wp_loop (fun mode w' => w' = w ∧ w.screen.gop.Passed width height mode) ?_ ?_
  · exact ⟨rfl, fun j hj => (UInt32.not_lt_zero hj).elim⟩
  · rintro mode w' ⟨rfl, hp⟩
    exact searchMode_spec hok graphics modePtr hp

omit hok in
/-- What a search result means for the kernel: with the frame buffer it
returns, or the one saved before, the screen agrees iff it fits. -/
theorem agrees_iff_fitsKernel {width height : UInt32} {w w' : World} {found : Option UInt64}
    (h : SearchResult width height w found w')
    (hlocate : ¬ efiError w.screen.gop.locateStatus) (hptr : w.screen.gop.modePtr ≠ 0)
    (hmax : w.screen.gop.maxMode ≠ 0) :
    Agrees w'.screen (found.getD w.screen.frameBufferBase) width height ↔
      w.screen.FitsKernel width height := by
  simp only [Screen.FitsKernel, hlocate, hptr, hmax, Agrees, not_false_eq_true, ne_eq, true_and]
  cases found with
  | some fb =>
      obtain ⟨-, m, hm, hset, rfl, hactive⟩ := h
      rw [Option.getD_some, hactive]
      constructor
      · exact fun h => .inl ⟨m, hm, hset, h⟩
      · rintro (⟨n, hn, -, h⟩ | ⟨n, hn, hfail, -⟩ | ⟨hno, -⟩)
        · exact hm.unique hn ▸ h
        · exact (hset (hm.unique hn ▸ hfail)).elim
        · exact (hno ⟨m, hm⟩).elim
  | none =>
      rw [Option.getD_none]
      obtain ⟨-, ⟨m, hm, hset, hactive⟩ | ⟨hno, hactive⟩⟩ := h
      · rw [hactive]
        constructor
        · exact fun h => .inr (.inl ⟨m, hm, hset, h⟩)
        · rintro (⟨n, hn, hsucc, -⟩ | ⟨n, hn, -, h⟩ | ⟨hno, -⟩)
          · exact (hsucc (hm.unique hn ▸ hset)).elim
          · exact hm.unique hn ▸ h
          · exact (hno ⟨m, hm⟩).elim
      · rw [hactive]
        constructor
        · exact fun h => .inr (.inr ⟨hno, h⟩)
        · rintro (⟨n, hn, -⟩ | ⟨n, hn, -⟩ | ⟨-, h⟩)
          · exact (hno ⟨n, hn⟩).elim
          · exact (hno ⟨n, hn⟩).elim
          · exact h

/-- **`SetGraphicsMode`**: it allocates nothing, and its result and the mode it
leaves are what the kernel assumes exactly if the screen fits. -/
theorem setGraphicsMode_spec (width height : UInt32) (w : World) :
    wp bootEnv ok (setGraphicsMode width height) (fun fb w' => w'.blocks = w.blocks ∧
      (Agrees w'.screen fb width height ↔ w.screen.FitsKernel width height)) w := by
  have hnull : ∀ {P : Prop}, (w.screen.FitsKernel width height → P) → ¬ P →
      (Agrees w.screen 0 width height ↔ w.screen.FitsKernel width height) := by
    intro P hP hno
    exact ⟨fun h => (h.1 rfl).elim, fun h => (hno (hP h)).elim⟩
  simp only [setGraphicsMode, wp_bind', wp_ite, wp_req, wp_pure, bootEnv]
  refine ⟨hok _ _ (by simp), ?_⟩
  rintro ⟨status, graphics⟩ _ ⟨hstatus, rfl⟩
  dsimp only at hstatus
  refine ⟨fun herr => ⟨hok _ _ (by simp), ?_⟩, fun hlocate => ?_⟩
  · rintro _ _ rfl
    exact ⟨rfl, hnull (fun h => h.1) (not_not_intro (hstatus ▸ herr))⟩
  rw [hstatus] at hlocate
  refine ⟨hok _ _ (by simp), ?_⟩
  rintro _ _ ⟨rfl, rfl⟩
  refine ⟨fun hptr => ⟨hok _ _ (by simp), ?_⟩, fun hptr => ?_⟩
  · rintro _ _ rfl
    exact ⟨rfl, hnull (fun h => h.2.1) (not_not_intro hptr)⟩
  refine ⟨hok _ _ (by simp), ?_⟩
  rintro _ _ ⟨rfl, rfl⟩
  refine ⟨fun hmax => ⟨hok _ _ (by simp), ?_⟩, fun hmax => ?_⟩
  · rintro _ _ rfl
    exact ⟨rfl, hnull (fun h => h.2.2.1) (not_not_intro hmax)⟩
  refine ⟨hok _ _ (by simp), ?_⟩
  rintro _ w₀ ⟨rfl, rfl⟩
  refine wp_mono ?_ (search_spec hok graphics w₀.screen.gop.modePtr width height w₀)
  intro found w₁ hres
  have hiff := agrees_iff_fitsKernel hres hlocate hptr hmax
  cases found with
  | some fb => exact ⟨hres.1, hiff⟩
  | none =>
      simp only [wp_bind', wp_req, wp_pure]
      refine ⟨hok _ _ (by simp), ?_⟩
      rintro _ w₂ hw₂
      obtain rfl : w₂ = w₁ := hw₂
      exact wp_quiet hok (uses_stall _) (by decide) fun _ => ⟨hres.1, hiff⟩

end Spec

end UefiKernel.Boot
