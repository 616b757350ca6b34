import UefiKernel.Framebuffer.Tail

/-!
# UefiKernel.Framebuffer.Scrolling

How far `fb_scrollup` goes.

Its two loops test their counters after the first pass only, so a counter that
starts at zero makes 2^64 passes (`passes`).  The second counter never does;
the first one does on a screen with room for a single row of characters, where
there is nothing to move.  The hello statement has newlines, so on such a
screen `fb_init` already leaves the framebuffer (`reaches_scroll`).
`consoleSafe_iff` says that this is all: the console is safe on the screens of
at least two rows.
-/

namespace UefiKernel.Framebuffer

open Interact Prog

/-! ## counting stores -/

/-- An access to the framebuffer is to one of its `size` pixels. -/
def FbEvent.OnScreen (size : Nat) : FbEvent → Prop
  | load i | store i _ => i.toNat < size
  | loadFont _ => True

theorem FbEvent.Inside.onScreen {size : Nat} {e : FbEvent} (h : e.Inside size) :
    e.OnScreen size := by
  cases e with
  | loadFont _ => trivial
  | _ => exact h

def FbEvent.isStore : FbEvent → Bool
  | store _ _ => true
  | _ => false

/-- How many stores a log has. -/
def storeCount (log : List FbEvent) : Nat := log.countP FbEvent.isStore

@[simp] theorem storeCount_load (log : List FbEvent) (i : UInt64) :
    storeCount (log ++ [.load i]) = storeCount log := by
  simp [storeCount, FbEvent.isStore]

@[simp] theorem storeCount_store (log : List FbEvent) (i : UInt64) (pixel : UInt32) :
    storeCount (log ++ [.store i pixel]) = storeCount log + 1 := by
  simp [storeCount, FbEvent.isStore]

/-- How often a do-while loop is passed through that counts down from `n`. -/
def passes (n : UInt64) : Nat := if n = 0 then 2 ^ 64 else n.toNat

theorem passes_of_pos {n : UInt64} (h : 0 < n.toNat) : passes n = n.toNat :=
  if_neg fun hn => by simp [hn] at h

/-- A pass that is not the last. -/
theorem passes_pred {n : UInt64} (h : n - 1 ≠ 0) : passes n = passes (n - 1) + 1 := by
  rw [passes, passes, if_neg h]
  split
  · rename_i hn
    rw [hn]
    rfl
  · rename_i hn
    have hpos : 0 < n.toNat := by
      rw [← UInt64.toNat_inj, UInt64.toNat_zero] at hn
      exact Nat.pos_of_ne_zero hn
    rw [toNat_pred hpos]
    omega

theorem passes_last {n : UInt64} (h : n - 1 = 0) : passes n = 1 := by
  obtain rfl : n = 1 := by rw [← UInt64.sub_add_cancel n 1, h, UInt64.zero_add]
  rfl

section Count

variable {font : Nat → UInt8} {g : Pixels × List FbEvent}

theorem gives_load {i : UInt64} {Q : UInt32 → Pixels × List FbEvent → Prop}
    (hQ : ∀ pixel g', storeCount g'.2 = storeCount g.2 → Q pixel g') :
    Gives (logged (fbEnv font)) (load i) Q g := by
  refine gives_req ⟨g.1 i.toNat, (g.1, g.2 ++ [.load i]), ⟨rfl, rfl⟩, rfl⟩ ?_
  rintro pixel g' ⟨-, hlog⟩
  exact hQ pixel g' (by rw [hlog, storeCount_load])

theorem gives_store {i : UInt64} {pixel : UInt32} {Q : Unit → Pixels × List FbEvent → Prop}
    (hQ : ∀ g', storeCount g'.2 = storeCount g.2 + 1 → Q () g') :
    Gives (logged (fbEnv font)) (store i pixel) Q g := by
  refine gives_req ⟨(), (Function.update g.1 i.toNat pixel, g.2 ++ [.store i pixel]), rfl, rfl⟩ ?_
  rintro _ g' ⟨-, hlog⟩
  exact hQ g' (by rw [hlog, storeCount_store])

/-- One pass of a do-while loop: a store, and the test of the counter. -/
def OnePass {β : Type} (n : UInt64) (g : Pixels × List FbEvent) (r : UInt64 × UInt64 ⊕ β)
    (g' : Pixels × List FbEvent) : Prop :=
  storeCount g'.2 = storeCount g.2 + 1 ∧
    Sum.elim (fun s => n - 1 ≠ 0 ∧ s.2 = n - 1) (fun _ => n - 1 = 0) r

/-- A loop of such passes. -/
theorem gives_countdown {β : Type} {body : UInt64 × UInt64 → FbM (UInt64 × UInt64 ⊕ β)}
    (hbody : ∀ s g, Gives (logged (fbEnv font)) (body s) (OnePass s.2 g) g) (s : UInt64 × UInt64) :
    Gives (logged (fbEnv font)) (loop body s)
      (fun _ g' => storeCount g'.2 = storeCount g.2 + passes s.2) g := by
  refine (givesCalculus (logged (fbEnv font))).loop
    (fun k s' g' => k = passes s'.2 ∧
      storeCount g'.2 + passes s'.2 = storeCount g.2 + passes s.2) ?_ ⟨rfl, rfl⟩
  rintro k s₁ g₁ ⟨rfl, hcount⟩
  refine (hbody s₁ g₁).mono ?_
  rintro r g₂ ⟨hstore, hr⟩
  cases r with
  | inl s₂ =>
      obtain ⟨hgo, hs₂⟩ := hr
      have hpasses := passes_pred hgo
      rw [← hs₂] at hpasses
      exact ⟨passes s₂.2, by omega, rfl, by omega⟩
  | inr b =>
      have hpasses := passes_last hr
      show storeCount g₂.2 = _
      omega

theorem gives_moveStep (row : UInt64) (s : UInt64 × UInt64) (g : Pixels × List FbEvent) :
    Gives (logged (fbEnv font)) (moveStep row s) (OnePass s.2 g) g := by
  refine Gives.bind (gives_load fun pixel g₁ h₁ => Gives.bind (gives_store fun g₂ h₂ => ?_))
  rw [h₁] at h₂
  exact Gives.ite (fun hgo => gives_ret ⟨h₂, hgo, rfl⟩)
    fun hstop => gives_ret ⟨h₂, not_not.mp hstop⟩

theorem gives_cleanStep (s : UInt64 × UInt64) (g : Pixels × List FbEvent) :
    Gives (logged (fbEnv font)) (cleanStep s) (OnePass s.2 g) g := by
  refine Gives.bind (gives_store fun g₁ h₁ => ?_)
  exact Gives.ite (fun hgo => gives_ret ⟨h₁, hgo, rfl⟩)
    fun hstop => gives_ret ⟨h₁, not_not.mp hstop⟩

/-- How many pixels `fb_scrollup` stores. -/
def Statics.scrollStores (s : Statics) : Nat :=
  passes (s.width * ((s.maxY - 1) * fontHeight)).toUInt64 + passes (s.width * fontHeight).toUInt64

/-- `fb_scrollup` comes to an end in any state. -/
theorem gives_fbScrollup (s : Statics) :
    Gives (logged (fbEnv font)) (fbScrollup s)
      (fun _ g' => storeCount g'.2 = storeCount g.2 + s.scrollStores) g := by
  refine Gives.seq (gives_countdown (gives_moveStep _) _) fun cur g₁ h₁ => ?_
  refine (gives_countdown gives_cleanStep _).mono fun _ g₂ h₂ => ?_
  rw [h₂, h₁, Statics.scrollStores, Nat.add_assoc]

end Count

/-! ## a screen of one row -/

section OneRow

variable {font : Nat → UInt8} {size : Nat}

/-- Some run leaves the framebuffer, or has a result with the postcondition. -/
abbrev overrun (font : Nat → UInt8) (size : Nat) : Calculus FbEvent FbEvent.Answer Pixels :=
  reachCalculus (fbEnv font) fun _ e => ¬ e.OnScreen size

/-- Started with nothing to move, the loop that moves the text up goes on to the
end of the framebuffer. -/
theorem overrun_move {row : UInt64} (hsize : size < 2 ^ 32) (hrow : row.toNat < 2 ^ 32)
    (m : Pixels) : (overrun font size).holds (loop (moveStep row) (0, 0)) (fun _ _ => False) m := by
  have hL := display_reach font size fun _ e => ¬ e.OnScreen size
  refine (overrun font size).loop
    (fun k s _ => k = size - s.1.toNat ∧ s.1.toNat ≤ size ∧ s.2 = 0 - s.1) ?_
    ⟨rfl, Nat.zero_le _, rfl⟩
  rintro k ⟨cur, left⟩ m ⟨rfl, hcur, hleft⟩
  simp only at hcur hleft
  have hload : (cur + row).toNat = cur.toNat + row.toNat := by
    rw [UInt64.toNat_add]
    omega
  rcases Nat.lt_or_ge (cur.toNat + row.toNat) size with hin | hout
  · have hnext := toNat_succ (i := cur) (by omega)
    have hleft' : left - 1 = 0 - (cur + 1) := by
      rw [hleft]
      grind
    have hgo : left - 1 ≠ 0 := by
      rw [hleft', Ne, ← UInt64.toNat_inj, UInt64.toNat_sub, hnext]
      simp only [UInt64.toNat_zero]
      omega
    refine (overrun font size).bind (hL.load (i := cur + row) (by omega) ?_)
    refine (overrun font size).bind (hL.store (i := cur) (by omega) ?_)
    refine (overrun font size).ite (fun _ => ?_) fun hstop => absurd hgo hstop
    exact (overrun font size).pure ⟨size - (cur + 1).toNat, by simp only; omega, rfl,
      by simp only; omega, hleft'⟩
  · refine reaches_target (e := FbEvent.load (cur + row)) ?_
    show ¬ (cur + row).toNat < size
    omega

/-- The cursor is in the only row of a screen, and all of that is in the framebuffer. -/
structure OneRow (size : Nat) (s : Statics) : Prop where
  maxX_eq : s.maxX.toNat = s.width.toNat / 8
  maxY_eq : s.maxY = 1
  posX_le : s.posX.toNat ≤ s.maxX.toNat
  posY_eq : s.posY = 0
  fits : 16 * s.width.toNat ≤ size

/-- There is nothing to move. -/
theorem overrun_fbScrollup {s : Statics} (hsize : size < 2 ^ 32) (hmaxY : s.maxY = 1) (m : Pixels) :
    (overrun font size).holds (fbScrollup s) (fun _ _ => False) m := by
  have hcount : (s.width * ((s.maxY - 1) * fontHeight)).toUInt64 = 0 := by
    rw [hmaxY, UInt32.sub_self, UInt32.zero_mul, UInt32.mul_zero]
    rfl
  have hrow : (s.width * fontHeight).toUInt64.toNat < 2 ^ 32 := by
    rw [UInt32.toNat_toUInt64]
    exact UInt32.toNat_lt _
  unfold fbScrollup
  rw [hcount]
  exact (overrun font size).seq (overrun_move hsize hrow m) fun _ _ h => h.elim

variable {s : Statics} {ch : UInt8}

/-- A character either stays in the row or leads out of the framebuffer. -/
theorem overrun_outputChar (hsize : size < 2 ^ 32) (h : OneRow size s) (hch : ch.toNat < 128)
    (m : Pixels) : (overrun font size).holds (outputChar s ch)
      (fun s' _ => ch ≠ '\n'.toUInt8 ∧ OneRow size s') m := by
  have hL := display_reach font size fun _ e => ¬ e.OnScreen size
  unfold outputChar Statics.breakRow
  by_cases hbreak : ch = '\n'.toUInt8 ∨ s.posX = s.maxX
  · rw [if_pos hbreak]
    have hfull : s.posY + 1 = s.maxY := by rw [h.posY_eq, h.maxY_eq, UInt32.zero_add]
    unfold makeRoom
    rw [if_pos hfull]
    refine (overrun font size).seq (P := fun _ _ => False) ?_ fun _ _ h => h.elim
    exact (overrun font size).seq (overrun_fbScrollup hsize h.maxY_eq m) fun _ _ h => h.elim
  · rw [if_neg hbreak]
    rw [not_or] at hbreak
    obtain ⟨hnl, hroom⟩ := hbreak
    have hposX := h.posX_le
    have hmaxX := h.maxX_eq
    rw [← UInt32.toNat_inj] at hroom
    have hstay : makeRoom s = pure s := by
      refine if_neg ?_
      rw [h.posY_eq, h.maxY_eq]
      decide
    have hfits : (s.posY.toNat + 1) * 16 * s.width.toNat ≤ size := by
      rw [h.posY_eq]
      exact h.fits
    have hnext : (s.posX + 1).toNat = s.posX.toNat + 1 := by
      have hlt := s.maxX.toNat_lt
      rw [UInt32.toNat_add, UInt32.toNat_one]
      omega
    rw [hstay]
    refine (overrun font size).seq ((overrun font size).pure (Q := fun s₁ m₁ => s = s₁ ∧ m = m₁)
      ⟨rfl, rfl⟩) ?_
    rintro _ _ ⟨rfl, rfl⟩
    rw [if_neg hnl]
    refine (overrun font size).seq (holds_drawGlyph hL hsize hch (by omega) hfits _) ?_
    intro _ m' _
    refine (overrun font size).pure ⟨hnl, hmaxX, h.maxY_eq, ?_, h.posY_eq, h.fits⟩
    show (s.posX + 1).toNat ≤ s.maxX.toNat
    omega

theorem overrun_fbOutput (hsize : size < 2 ^ 32) (h : OneRow size s) (m : Pixels) :
    (overrun font size).holds (fbOutput s ch)
      (fun s' _ => ch ≠ '\n'.toUInt8 ∧ OneRow size s') m := by
  unfold fbOutput
  refine (overrun font size).ite (fun hneg => ?_) fun hpos => ?_
  · have hnl : ch ≠ '\n'.toUInt8 := by
      rintro rfl
      revert hneg
      decide
    refine (overrun font size).ite (fun _ => (overrun font size).pure ⟨hnl, h⟩) fun _ => ?_
    refine (overrun font size).mono ?_ (overrun_outputChar hsize h (by decide) m)
    exact fun _ _ hs' => ⟨hnl, hs'.2⟩
  · rw [toInt8_le_zero_iff, not_or] at hpos
    exact overrun_outputChar hsize h (by simpa [UInt8.le_iff_toNat_le] using hpos.2) m

/-- A text with a newline leads out of the framebuffer. -/
theorem overrun_output (hsize : size < 2 ^ 32) (h : OneRow size s) {text : List UInt8}
    (hnl : '\n'.toUInt8 ∈ text) (m : Pixels) :
    (overrun font size).holds (text.foldlM fbOutput s) (fun _ _ => False) m := by
  induction text generalizing s m with
  | nil => cases hnl
  | cons ch text ih =>
      rw [List.foldlM_cons]
      refine (overrun font size).seq (overrun_fbOutput hsize h m) ?_
      rintro s₁ m₁ ⟨hch, h₁⟩
      exact ih h₁ ((List.mem_cons.mp hnl).resolve_left (Ne.symm hch)) m₁

end OneRow

/-! ## the console -/

/-- The console's text is the hello statement and what is sent to it. -/
theorem console_eq_printed (width height : UInt32) (text : List UInt8) :
    console width height text = printed width height (helloStatement ++ text) := by
  have := lawfulMonad (E := FbEvent) (A := FbEvent.Answer)
  unfold console printed
  rw [fbInit_eq_printed, printed]
  simp only [bind_eq, bind_assoc, List.foldlM_append]

/-- `fb_output`, sent `ch` in state `s`, calls `fb_scrollup` in state `s'`. -/
def CallsScrollup (s : Statics) (ch : UInt8) (s' : Statics) : Prop :=
  ∃ k, fbOutput s ch = fbScrollup s' >>= k

/-- The loop tells what it was entered with. -/
theorem moveLoop_inj {α : Type} {row row' count count' : UInt64} {k k' : UInt64 → FbM α}
    (h : iter (moveStep row) (0, count) k = iter (moveStep row') (0, count') k') :
    row = row' ∧ count = count' := by
  injection h with _ _ _ hbody hs _
  have hpass : call (FbEvent.load (0 + row)) _ = call (FbEvent.load (0 + row')) _ :=
    congrFun hbody (0, 0)
  injection hpass with _ hload _
  injection hload with hload
  rw [UInt64.zero_add, UInt64.zero_add] at hload
  exact ⟨hload, congrArg Prod.snd hs⟩

@[simp] theorem Statics.breakRow_width (s : Statics) (ch : UInt8) :
    (s.breakRow ch).width = s.width := by
  unfold breakRow
  split <;> rfl

@[simp] theorem Statics.breakRow_maxY (s : Statics) (ch : UInt8) :
    (s.breakRow ch).maxY = s.maxY := by
  unfold breakRow
  split <;> rfl

/-- A call of `fb_scrollup` stores what the geometry says, wherever the cursor is. -/
theorem scrollStores_of_outputChar {s s' : Statics} {ch : UInt8} {k : Unit → FbM Statics}
    (h : outputChar s ch = fbScrollup s' >>= k) : s'.scrollStores = s.scrollStores := by
  unfold outputChar makeRoom at h
  split at h
  · have hloop : iter (moveStep _) (0, _) _ = iter (moveStep _) (0, _) _ := h
    obtain ⟨hrow, hcount⟩ := moveLoop_inj hloop
    rw [Statics.scrollStores, Statics.scrollStores, ← hrow, ← hcount, Statics.breakRow_width,
      Statics.breakRow_maxY]
  · -- without the call, the first event is that of the glyph, if there is one
    by_cases hnl : ch = '\n'.toUInt8
    · have hret : (if ch = '\n'.toUInt8 then ret (s.breakRow ch) else _) =
        iter (moveStep _) (0, _) _ := h
      rw [if_pos hnl] at hret
      cases hret
    · have hglyph : (if ch = '\n'.toUInt8 then _ else call (FbEvent.loadFont _) _) =
        iter (moveStep _) (0, _) _ := h
      rw [if_neg hnl] at hglyph
      cases hglyph

theorem CallsScrollup.scrollStores_eq {s s' : Statics} {ch : UInt8} (h : CallsScrollup s ch s') :
    s'.scrollStores = s.scrollStores := by
  obtain ⟨k, hk⟩ := h
  unfold fbOutput at hk
  split at hk
  · split at hk
    · have hret : ret s = iter (moveStep _) (0, _) _ := hk
      cases hret
    · exact scrollStores_of_outputChar hk
  · exact scrollStores_of_outputChar hk

/-- On a screen of `width` by `height` pixels, with `text` sent to `fb_output`
after `fb_init`: every framebuffer access is to a pixel of the screen, and each
call of `fb_scrollup`, when the bytes before `ch` are on the screen, comes to an
end after as many stores as there are pixels in the rows of characters. -/
structure ConsoleSafe (font : Nat → UInt8) (width height : UInt32) (text : List UInt8)
    (m : Pixels) : Prop where
  onScreen : ∀ m' e k, Run (fbEnv font) (m, console width height text) (m', call e k) →
    e.OnScreen (width.toNat * height.toNat)
  scrollup : ∀ before ch, before ++ [ch] <+: helloStatement ++ text →
    ∀ s m', Run (fbEnv font) (m, printed width height before) (m', ret s) →
      ∀ s', CallsScrollup s ch s' →
        Gives (logged (fbEnv font)) (fbScrollup s')
          (fun _ g => storeCount g.2 = width.toNat * (height.toNat / 16) * 16) (m', [])

section Geometry

variable {font : Nat → UInt8} {width height : UInt32} {text : List UInt8} {m : Pixels}

/-- In every state of the console a call stores the rows of characters. -/
theorem Shown.scrollStores_eq (hgeo : Geometry width height) {s : Statics}
    (h : Shown font width height text s m) :
    s.scrollStores = width.toNat * (height.toNat / 16) * 16 := by
  obtain ⟨rs, last, -, hshows⟩ := h
  have hW := hgeo.width_ge
  have hH := hgeo.height_ge
  have hsize := hgeo.size_lt
  have hwidth : s.width.toNat = width.toNat := by rw [hshows.width_eq]
  have hmaxY : s.maxY.toNat = height.toNat / 16 := by rw [hshows.maxY_eq, toNat_div_fontHeight]
  have hlines : width.toNat * (height.toNat / 16 * 16) ≤ width.toNat * height.toNat :=
    Nat.mul_le_mul_left _ (Nat.div_mul_le_self _ _)
  have hfits : s.width.toNat * (s.maxY.toNat * 16) < 2 ^ 32 := by
    rw [hwidth, hmaxY]
    omega
  have hcount := toNat_scrollCount (by omega) hfits
  have hrow := toNat_scrollRow (by omega) hfits
  have hmoves : 0 < s.width.toNat * ((s.maxY.toNat - 1) * 16) :=
    Nat.mul_pos (by omega) (by omega)
  rw [Statics.scrollStores, passes_of_pos (by omega), passes_of_pos (by omega), hcount, hrow,
    scrollCount_add_row _ (by omega), hwidth, hmaxY, Nat.mul_assoc]

/-- With room for two rows all is well. -/
theorem consoleSafe_of_geometry (hgeo : Geometry width height) :
    ConsoleSafe font width height text m where
  onScreen m' e k hr := by
    have hall := holds_console (display_wp font _) hgeo text m
    have hok := ok_of_run hall hr
    exact FbEvent.Inside.onScreen hok
  scrollup before ch _ s m' hr s' hcall := by
    have hall := holds_printed (display_wp font _) hgeo before m
    have hshown := post_of_run hall hr
    refine (gives_fbScrollup s').mono fun _ g hg => ?_
    rw [hg, hcall.scrollStores_eq, Shown.scrollStores_eq hgeo hshown, storeCount, List.countP_nil,
      Nat.zero_add]

/-- With room for one row, the console leaves the framebuffer. -/
theorem exists_run_off_screen (font : Nat → UInt8) {width height : UInt32} (text : List UInt8)
    (m : Pixels) (hheight : 16 ≤ height.toNat) (hlow : height.toNat < 32)
    (hsize : width.toNat * height.toNat < 2 ^ 32) :
    ∃ m' e k, Run (fbEnv font) (m, console width height text) (m', call e k) ∧
      ¬ e.OnScreen (width.toNat * height.toNat) := by
  have hL := display_reach font (width.toNat * height.toNat)
    fun _ e => ¬ e.OnScreen (width.toNat * height.toNat)
  have hstart : OneRow (width.toNat * height.toNat)
      { width := width, posX := 0, posY := 0, maxX := width / fontWidth,
        maxY := height / fontHeight } := by
    refine ⟨toNat_div_fontWidth width, ?_, Nat.zero_le _, rfl, ?_⟩
    · rw [← UInt32.toNat_inj, toNat_div_fontHeight, UInt32.toNat_one]
      omega
    · rw [Nat.mul_comm]
      exact Nat.mul_le_mul_left _ hheight
  have hnl : '\n'.toUInt8 ∈ helloStatement ++ text := List.mem_append_left _ (by decide)
  have hall : (overrun font (width.toNat * height.toNat)).holds
      (printed width height (helloStatement ++ text)) (fun _ _ => False) m :=
    (overrun font _).seq (holds_clear hL hsize m) fun _ m' _ => overrun_output hsize hstart hnl m'
  rw [console_eq_printed]
  rcases hall with ⟨m', e, k, hr, hout⟩ | ⟨_, _, _, hfalse⟩
  · exact ⟨m', e, k, hr, hout⟩
  · exact hfalse.elim

/-- **The console is safe where it has room for two rows**, and on no other screen
that holds a character, whatever text is sent to it. -/
theorem consoleSafe_iff (hwidth : 8 ≤ width.toNat) (hheight : 16 ≤ height.toNat)
    (hsize : width.toNat * height.toNat < 2 ^ 32) :
    ConsoleSafe font width height text m ↔ 32 ≤ height.toNat := by
  refine ⟨fun h => ?_, fun hrows => consoleSafe_of_geometry ⟨hwidth, hrows, hsize⟩⟩
  rcases Nat.lt_or_ge height.toNat 32 with hlow | hrows
  · obtain ⟨m', e, k, hr, hout⟩ := exists_run_off_screen font text m hheight hlow hsize
    exact absurd (h.onScreen m' e k hr) hout
  · exact hrows

theorem consoleSafe_sample :
    ConsoleSafe (fun _ => 0) 800 600 [65] (fun _ => 7) ↔ 32 ≤ (600 : UInt32).toNat :=
  consoleSafe_iff (by decide) (by decide) (by decide)

/-- A screen of 8 by 16 pixels holds one character. -/
theorem console_unsafe : ¬ ConsoleSafe (fun _ => 0) 8 16 [] (fun _ => 0) := by
  intro h
  have hheight : 16 ≤ (16 : UInt32).toNat := by decide
  have hlow : (16 : UInt32).toNat < 32 := by decide
  have hsize : (8 : UInt32).toNat * (16 : UInt32).toNat < 2 ^ 32 := by decide
  obtain ⟨m', e, k, hr, hout⟩ :=
    exists_run_off_screen (fun _ => 0) [] (fun _ => 0) hheight hlow hsize
  exact hout (h.onScreen m' e k hr)

end Geometry

end UefiKernel.Framebuffer
