import UefiKernel.Framebuffer.Screen
import UefiKernel.Lib.Rows

/-!
# UefiKernel.Framebuffer.Tail

The console shows the tail of the text.

The text is what was sent to `fb_output`, with NULs dropped and question marks
for the bytes outside ASCII, in rows of `MaxX` characters.  After each byte the
cursor is behind the last character of the last row, and the pixels are those
of the last `MaxY` rows (`Shown`).  One byte keeps this (`holds_fbOutput`), so
any number of them does (`console_shows_tail`).
-/

namespace UefiKernel.Framebuffer

open Interact Prog Rows

/-! ## what is to be shown -/

/-- The character shown for a byte. -/
def shownChar (ch : UInt8) : Option UInt8 :=
  if ch = 0 then none else if 0x80 ≤ ch then some '?'.toUInt8 else some ch

/-- The rows of a text on a console `maxX` characters wide. -/
def textRows (maxX : Nat) (text : List UInt8) : List (List UInt8) :=
  rows '\n'.toUInt8 maxX (text.filterMap shownChar)

/-- All pixels are those of the last rows of the text that fit on the screen. -/
def ShowsTail (font : Nat → UInt8) (width height : Nat) (text : List UInt8) (m : Pixels) : Prop :=
  ∀ x y, x < width → y < height → m (y * width + x) =
    if x / 8 < width / 8 ∧ y / 16 < height / 16 then
      shownPixel font (lastRows (height / 16) (textRows (width / 8) text)) x y
    else 0

/-! ## the invariant -/

/-- The geometries the driver is for. -/
structure Geometry (width height : UInt32) : Prop where
  width_ge : 8 ≤ width.toNat
  height_ge : 32 ≤ height.toNat
  size_lt : width.toNat * height.toNat < 2 ^ 32

/-- The screen shows the rows `above` and the row `last`, where the cursor is. -/
structure Shows (font : Nat → UInt8) (width height : UInt32) (above : List (List UInt8))
    (last : List UInt8) (s : Statics) (m : Pixels) : Prop where
  width_eq : s.width = width
  maxX_eq : s.maxX = width / fontWidth
  maxY_eq : s.maxY = height / fontHeight
  posX_eq : s.posX.toNat = last.length
  posY_eq : s.posY.toNat = above.length
  length_le : ∀ row ∈ above ++ [last], row.length ≤ width.toNat / 8
  above_lt : above.length < height.toNat / 16
  pixels : ∀ x y, x < width.toNat → y < height.toNat →
    m (y * width.toNat + x) = shownPixel font (above ++ [last]) x y

/-- The screen shows the tail of a text without NULs. -/
def Shown (font : Nat → UInt8) (width height : UInt32) (text : List UInt8) (s : Statics)
    (m : Pixels) : Prop :=
  ∃ rs last, rows '\n'.toUInt8 (width.toNat / 8) text = rs ++ [last] ∧
    Shows font width height (lastRows (height.toNat / 16 - 1) rs) last s m

/-- The screen after `fb_init` has cleaned it up and the bytes of a text were sent
to `fb_output`. -/
def printed (width height : UInt32) (text : List UInt8) : FbM Statics := do
  forCount (fun i _ => store i.toUInt64 0) 0 (width.toUInt64 * height.toUInt64).toNat ()
  text.foldlM fbOutput
    { width := width, posX := 0, posY := 0, maxX := width / fontWidth, maxY := height / fontHeight }

theorem fbInit_eq_printed (width height : UInt32) :
    fbInit width height = printed width height helloStatement := rfl

theorem toNat_div_fontWidth (width : UInt32) : (width / fontWidth).toNat = width.toNat / 8 :=
  UInt32.toNat_div ..

theorem toNat_div_fontHeight (height : UInt32) : (height / fontHeight).toNat = height.toNat / 16 :=
  UInt32.toNat_div ..

theorem toInt8_le_zero_below : ∀ n < 256,
    (UInt8.ofNat n).toInt8 ≤ 0 ↔ UInt8.ofNat n = 0 ∨ 0x80 ≤ UInt8.ofNat n := by
  decide +kernel

/-- The bytes that are not in the ASCII subset. -/
theorem toInt8_le_zero_iff (ch : UInt8) : ch.toInt8 ≤ 0 ↔ ch = 0 ∨ 0x80 ≤ ch := by
  simpa using toInt8_le_zero_below ch.toNat ch.toNat_lt

section Output

variable {L : Calculus FbEvent FbEvent.Answer Pixels} {font : Nat → UInt8} {width height : UInt32}
  (hL : Display L font (width.toNat * height.toNat)) (hgeo : Geometry width height)
  {above : List (List UInt8)} {last text : List UInt8} {s : Statics} {m : Pixels} {ch : UInt8}

include hL hgeo

/-- On a full screen the text moves up. -/
theorem holds_scroll (h : Shows font width height above last s m)
    (hfull : above.length + 1 = height.toNat / 16) :
    L.holds (fbScrollup { s with posX := 0, posY := s.posY + 1 - 1 })
      (fun _ m' => Shows font width height (above.tail ++ [last]) []
        { s with posX := 0, posY := s.posY + 1 - 1 } m') m := by
  have hW := hgeo.width_ge
  have hH := hgeo.height_ge
  have hsize := hgeo.size_lt
  have hmaxY : s.maxY.toNat = above.length + 1 := by
    rw [h.maxY_eq, toNat_div_fontHeight, hfull]
  have hfits : s.width.toNat * (s.maxY.toNat * 16) ≤ width.toNat * height.toNat := by
    rw [h.width_eq, hmaxY, hfull]
    exact Nat.mul_le_mul_left _ (by omega)
  refine L.mono ?_ (holds_fbScrollup hL hsize (s := { s with posX := 0, posY := s.posY + 1 - 1 })
    (by rw [h.width_eq]; omega) (by rw [hmaxY]; omega) hfits m)
  intro _ m' hm'
  simp only [h.width_eq, hmaxY, Nat.add_sub_cancel] at hm'
  have htail : above.tail ++ [last] = (above ++ [last]).tail := by
    cases above with
    | nil => simp at hfull; omega
    | cons row above => rfl
  have hlen : (above ++ [last]).length = above.length + 1 := by simp
  rw [htail]
  refine ⟨h.width_eq, h.maxX_eq, h.maxY_eq, rfl, ?_, ?_, ?_, ?_⟩
  · simp only [UInt32.add_sub_cancel, h.posY_eq, List.length_tail, hlen, Nat.add_sub_cancel]
  · refine List.forall_mem_append.mpr ⟨?_, List.forall_mem_singleton.mpr (Nat.zero_le _)⟩
    exact fun row hrow => h.length_le row (List.mem_of_mem_tail hrow)
  · rw [List.length_tail, hlen]
    omega
  · intro x y hx hy
    have hmoved := mul_add_lt_iff (x := x) (y := y) (k := above.length * 16) hx
    have hcleaned := mul_add_lt_iff (x := x) (y := y) (k := (above.length + 1) * 16) hx
    have hindex : y * width.toNat + x + width.toNat * 16 = (y + 16) * width.toNat + x := by
      rw [Nat.add_mul]
      omega
    simp only [hm', hmoved, hcleaned, hindex, shownPixel_append_nil, shownPixel_tail]
    split
    · rw [h.pixels x (y + 16) hx (by omega)]
    · rw [shownPixel_of_le font (by omega) x]
      split
      · rfl
      · rw [h.pixels x y hx hy, shownPixel_of_le font (by omega) x]

/-- The cursor goes to a new row. -/
theorem holds_newRow (h : Shows font width height above last s m) :
    L.holds (makeRoom { s with posX := 0, posY := s.posY + 1 })
      (Shows font width height (lastRows (height.toNat / 16 - 1) (above ++ [last])) []) m := by
  have hH := hgeo.height_ge
  have habove := h.above_lt
  have hposY : (s.posY + 1).toNat = above.length + 1 := by
    have hlt := height.toNat_lt
    have hy := h.posY_eq
    rw [UInt32.toNat_add, UInt32.toNat_one]
    omega
  have hmaxY : s.maxY.toNat = height.toNat / 16 := by rw [h.maxY_eq, toNat_div_fontHeight]
  refine L.ite (fun hfull => ?_) fun hroom => ?_
  · have hlast : above.length + 1 = height.toNat / 16 := by
      rw [← hposY, ← hmaxY]
      exact congrArg UInt32.toNat hfull
    rw [lastRows_full (by omega) (by omega)]
    have hscroll := holds_scroll hL hgeo h hlast
    exact L.seq hscroll fun _ _ hm' => L.pure hm'
  · have hne : above.length + 1 ≠ height.toNat / 16 := by
      rw [← hposY, ← hmaxY]
      exact fun heq => hroom (UInt32.toNat_inj.mp heq)
    rw [lastRows_of_le (by simp only [List.length_append, List.length_singleton]; omega)]
    refine L.pure ⟨h.width_eq, h.maxX_eq, h.maxY_eq, rfl, by simpa using hposY, ?_, ?_, ?_⟩
    · exact List.forall_mem_append.mpr ⟨h.length_le, List.forall_mem_singleton.mpr (Nat.zero_le _)⟩
    · simp only [List.length_append, List.length_singleton]
      omega
    · intro x y hx hy
      rw [h.pixels x y hx hy, shownPixel_append_nil]

/-- A character is put at the cursor. -/
theorem holds_putChar (h : Shows font width height above last s m) (hch : ch.toNat < 128)
    (hroom : last.length < width.toNat / 8) :
    L.holds (drawGlyph s ch) (fun _ m' => Shows font width height above (last ++ [ch])
      { s with posX := s.posX + 1 } m') m := by
  have hW := hgeo.width_ge
  have hsize := hgeo.size_lt
  have hfits : (s.posY.toNat + 1) * 16 * s.width.toNat ≤ width.toNat * height.toNat := by
    rw [h.posY_eq, h.width_eq, Nat.mul_comm width.toNat]
    refine Nat.mul_le_mul_right _ ?_
    have habove := h.above_lt
    omega
  have hx : (s.posX.toNat + 1) * 8 ≤ s.width.toNat := by
    rw [h.posX_eq, h.width_eq]
    omega
  refine L.mono ?_ (holds_drawGlyph hL hsize hch hx hfits m)
  intro _ m' hm'
  rw [h.width_eq, h.posX_eq, h.posY_eq] at hm'
  refine ⟨h.width_eq, h.maxX_eq, h.maxY_eq, ?_, h.posY_eq, ?_, h.above_lt, ?_⟩
  · simp only [List.length_append, List.length_singleton, ← h.posX_eq]
    have hlt := width.toNat_lt
    rw [UInt32.toNat_add, UInt32.toNat_one, h.posX_eq]
    omega
  · refine List.forall_mem_append.mpr ⟨?_, List.forall_mem_singleton.mpr ?_⟩
    · exact fun row hrow => h.length_le row (List.mem_append_left _ hrow)
    · simp only [List.length_append, List.length_singleton]
      omega
  · intro x y hx hy
    rw [hm' x y hx, h.pixels x y hx hy, shownPixel, shownPixel, cell_put]
    split <;> rfl

/-- One character more. -/
theorem holds_outputChar (h : Shown font width height text s m) (hch : ch.toNat < 128) :
    L.holds (outputChar s ch) (Shown font width height (text ++ [ch])) m := by
  obtain ⟨rs, last, hrows, hshows⟩ := h
  have hW := hgeo.width_ge
  have hH := hgeo.height_ge
  have hstep := breakFrom_append hrows [ch]
  have habove : height.toNat / 16 - 1 = height.toNat / 16 - 2 + 1 := by omega
  have hgone := lastRows_append (height.toNat / 16 - 1) rs last
  have hfull : s.posX = s.maxX ↔ last.length = width.toNat / 8 := by
    rw [← UInt32.toNat_inj, hshows.posX_eq, hshows.maxX_eq, toNat_div_fontWidth]
  unfold outputChar Statics.breakRow
  by_cases hnl : ch = '\n'.toUInt8
  · rw [if_pos (.inl hnl)]
    refine L.seq (holds_newRow hL hgeo hshows) ?_
    intro s₁ m₁ h₁
    rw [if_pos hnl]
    refine L.pure ⟨rs ++ [last], [], ?_, ?_⟩
    · rw [rows, hstep]
      simp [breakFrom, hnl]
    · rw [hgone]
      exact h₁
  · by_cases hlast : last.length = width.toNat / 8
    · rw [if_pos (.inr (hfull.mpr hlast))]
      refine L.seq (holds_newRow hL hgeo hshows) ?_
      intro s₁ m₁ h₁
      rw [if_neg hnl]
      refine L.seq (holds_putChar hL hgeo h₁ hch (by simp only [List.length_nil]; omega)) ?_
      intro _ m₂ h₂
      refine L.pure ⟨rs ++ [last], [ch], ?_, ?_⟩
      · rw [rows, hstep]
        simp [breakFrom, hnl, hlast]
      · rw [hgone]
        exact h₂
    · have hle := hshows.length_le last (by simp)
      have hposY : s.posY ≠ s.maxY := by
        rw [Ne, ← UInt32.toNat_inj, hshows.posY_eq, hshows.maxY_eq, toNat_div_fontHeight]
        exact Nat.ne_of_lt hshows.above_lt
      have hstay : makeRoom s = pure s := if_neg hposY
      rw [if_neg (by rw [hfull]; exact fun h => h.elim hnl hlast), hstay]
      refine L.seq (L.pure (Q := fun s₁ m₁ => s₁ = s ∧ m₁ = m) ⟨rfl, rfl⟩) ?_
      rintro _ _ ⟨rfl, rfl⟩
      rw [if_neg hnl]
      refine L.seq (holds_putChar hL hgeo hshows hch (by omega)) ?_
      intro _ m₂ h₂
      refine L.pure ⟨rs, last ++ [ch], ?_, h₂⟩
      rw [rows, hstep]
      simp [breakFrom, hnl, hlast]

/-- One byte more. -/
theorem holds_fbOutput (h : Shown font width height (text.filterMap shownChar) s m) :
    L.holds (fbOutput s ch) (Shown font width height ((text ++ [ch]).filterMap shownChar)) m := by
  rw [List.filterMap_append]
  refine L.ite (fun hneg => L.ite (fun hzero => ?_) fun hne => ?_) fun hpos => ?_
  · simp only [List.filterMap_cons, List.filterMap_nil, shownChar, if_pos hzero, List.append_nil]
    exact L.pure h
  · have hhigh := (toInt8_le_zero_iff ch).mp hneg |>.resolve_left hne
    simp only [List.filterMap_cons, List.filterMap_nil, shownChar, if_neg hne, if_pos hhigh]
    exact holds_outputChar hL hgeo h (by decide)
  · rw [toInt8_le_zero_iff, not_or] at hpos
    obtain ⟨hne, hlow⟩ := hpos
    simp only [List.filterMap_cons, List.filterMap_nil, shownChar, if_neg hne, if_neg hlow]
    exact holds_outputChar hL hgeo h (by simpa [UInt8.le_iff_toNat_le] using hlow)

/-- Any number of bytes more. -/
theorem holds_output (h : Shown font width height (text.filterMap shownChar) s m)
    (more : List UInt8) : L.holds (more.foldlM fbOutput s)
      (Shown font width height ((text ++ more).filterMap shownChar)) m := by
  induction more generalizing text s m with
  | nil =>
      rw [List.append_nil]
      exact L.pure h
  | cons ch more ih =>
      rw [List.foldlM_cons]
      refine L.seq (holds_fbOutput hL hgeo h) ?_
      intro s₁ m₁ h₁
      simpa using ih h₁

omit hgeo in
/-- All pixels are cleaned up. -/
theorem holds_clear (hsize : width.toNat * height.toNat < 2 ^ 32) (m : Pixels) :
    L.holds (forCount (fun i (_ : Unit) => store i.toUInt64 0) 0
      (width.toUInt64 * height.toUInt64).toNat ())
      (fun _ m' => ∀ n, n < width.toNat * height.toNat → m' n = 0) m := by
  have hnum : (width.toUInt64 * height.toUInt64).toNat = width.toNat * height.toNat := by
    rw [UInt64.toNat_mul, UInt32.toNat_toUInt64, UInt32.toNat_toUInt64]
    exact Nat.mod_eq_of_lt (by omega)
  rw [hnum]
  refine L.mono ?_ (L.forCount 0 _ (fun i _ m' => ∀ n < i, m' n = 0) ?_ fun n hn => by omega)
  · intro _ m' hm' n hn
    exact hm' n (by omega)
  · intro i _ m' _ hi hm'
    have hindex : i.toUInt64.toNat = i := by
      rw [Nat.toUInt64_eq, UInt64.toNat_ofNat']
      exact Nat.mod_eq_of_lt (by omega)
    refine hL.store (by omega) fun n hn => ?_
    rw [hindex, Function.update_apply]
    split
    · rfl
    · exact hm' n (by omega)

omit hL in
/-- The cleaned up screen shows the empty text. -/
theorem shown_nil (font : Nat → UInt8) (hm : ∀ n, n < width.toNat * height.toNat → m n = 0) :
    Shown font width height ([].filterMap shownChar)
      { width := width, posX := 0, posY := 0, maxX := width / fontWidth,
        maxY := height / fontHeight } m := by
  have hH := hgeo.height_ge
  refine ⟨[], [], rfl, ?_⟩
  refine ⟨rfl, rfl, rfl, rfl, by simp [lastRows], by simp [lastRows], ?_, ?_⟩
  · simp only [lastRows, List.drop_nil, List.length_nil]
    omega
  · intro x y hx hy
    have hindex : y * width.toNat + x < width.toNat * height.toNat := (mul_add_lt_iff hx).mpr hy
    have hcell : cell [[]] (x / 8) (y / 16) = none := by
      rw [← List.nil_append [([] : List UInt8)], cell_append_nil]
      exact cell_of_le (Nat.zero_le _) _
    rw [hm _ hindex]
    simp [lastRows, shownPixel, hcell]

theorem holds_printed (text : List UInt8) (m : Pixels) : L.holds (printed width height text)
    (Shown font width height (text.filterMap shownChar)) m := by
  refine L.seq (holds_clear hL hgeo.size_lt m) ?_
  intro _ m₁ hm₁
  exact holds_output hL hgeo (shown_nil hgeo font hm₁) text

omit hL in
/-- What the invariant says of the pixels. -/
theorem Shown.showsTail (h : Shown font width height (text.filterMap shownChar) s m) :
    ShowsTail font width.toNat height.toNat text m := by
  obtain ⟨rs, last, hrows, hshows⟩ := h
  have hH := hgeo.height_ge
  have hsucc : height.toNat / 16 = height.toNat / 16 - 1 + 1 := by omega
  have hlast : lastRows (height.toNat / 16) (textRows (width.toNat / 8) text) =
      lastRows (height.toNat / 16 - 1) rs ++ [last] := by
    rw [textRows, hrows, hsucc, lastRows_succ, Nat.add_sub_cancel]
  intro x y hx hy
  rw [hshows.pixels x y hx hy, hlast]
  split
  · rfl
  · rename_i hout
    have hnone : cell (lastRows (height.toNat / 16 - 1) rs ++ [last]) (x / 8) (y / 16) = none := by
      rcases Nat.lt_or_ge (y / 16) (height.toNat / 16) with hy' | hy'
      · exact cell_of_short hshows.length_le (by omega) _
      · refine cell_of_le ?_ _
        have habove := hshows.above_lt
        simp only [List.length_append, List.length_singleton]
        omega
    rw [shownPixel, hnone]

theorem holds_console (text : List UInt8) (m : Pixels) : L.holds (console width height text)
    (fun _ m' => ShowsTail font width.toNat height.toNat (helloStatement ++ text) m') m := by
  refine L.seq (holds_printed hL hgeo helloStatement m) ?_
  intro s₁ m₁ h₁
  refine L.mono ?_ (holds_output hL hgeo h₁ text)
  intro s₂ m₂ h₂
  exact h₂.showsTail hgeo

end Output

/-! ## every text -/

/-- **The console shows the tail of the text.** On every screen of at least 8 by
32 pixels, and after every sequence of bytes, all accesses have been inside the
framebuffer and the font, and the pixels are those of the last rows. -/
theorem console_shows_tail (font : Nat → UInt8) {width height : UInt32}
    (hgeo : Geometry width height) (text : List UInt8) (m : Pixels) :
    (∀ m' e k, Run (fbEnv font) (m, console width height text) (m', call e k) →
      e.Inside (width.toNat * height.toNat)) ∧
    (∃ s m', Run (fbEnv font) (m, console width height text) (m', ret s)) ∧
    ∀ s m', Run (fbEnv font) (m, console width height text) (m', ret s) →
      ShowsTail font width.toNat height.toNat (helloStatement ++ text) m' := by
  have hall : wp (fbEnv font) (fun _ e => e.Inside (width.toNat * height.toNat))
      (console width height text)
      (fun _ m' => ShowsTail font width.toNat height.toNat (helloStatement ++ text) m') m :=
    holds_console (display_wp font _) hgeo text m
  refine ⟨?_, ?_, ?_⟩
  · intro m' e k hr
    have hok := ok_of_run hall hr
    exact hok
  · rcases holds_console (display_reach font _ fun _ _ => False) hgeo text m with
      ⟨_, _, _, _, h⟩ | ⟨s, m', hr, -⟩
    · exact h.elim
    · exact ⟨s, m', hr⟩
  · intro s m' hr
    have hpost := post_of_run hall hr
    exact hpost

/-- The smallest screen, one column by two rows. -/
theorem console_shows_tail_sample :
    ∃ s m', Run (fbEnv fun _ => 0) (fun _ => 7, console 8 32 [65]) (m', ret s) ∧
      ShowsTail (fun _ => 0) 8 32 (helloStatement ++ [65]) m' := by
  have hgeo : Geometry 8 32 := ⟨by decide, by decide, by decide⟩
  obtain ⟨-, ⟨s, m', hr⟩, hshows⟩ := console_shows_tail (fun _ => 0) hgeo [65] fun _ => 7
  exact ⟨s, m', hr, hshows s m' hr⟩

end UefiKernel.Framebuffer
