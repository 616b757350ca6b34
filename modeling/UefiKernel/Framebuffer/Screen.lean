import Mathlib.Logic.Function.Iterate
import UefiKernel.Framebuffer.Driver
import UefiKernel.Lib.Calculus

/-!
# UefiKernel.Framebuffer.Screen

What a screen shows, and what the loops of `fb.c` do to its pixels.

Pixels are a function of the index in the framebuffer.  Rows of characters are
shown from the top, each character in a cell of 8 by 16 pixels.  The loops are
specified in any calculus that can do the accesses inside the framebuffer, so
each specification says that all accesses are inside, and that the loop ends.
-/

namespace UefiKernel.Framebuffer

open Interact Prog

/-! ## the framebuffer -/

/-- The pixels, by their index. -/
abbrev Pixels := Nat → UInt32

/-- The memory, with a font in it. -/
def fbEnv (font : Nat → UInt8) : Pixels → (e : FbEvent) → e.Answer → Pixels → Prop
  | m, .load i, pixel, m' => pixel = m i.toNat ∧ m' = m
  | m, .store i pixel, _, m' => m' = Function.update m i.toNat pixel
  | m, .loadFont i, b, m' => b = font i.toNat ∧ m' = m

/-- An access inside a framebuffer of `size` pixels, or inside the font. -/
def FbEvent.Inside (size : Nat) : FbEvent → Prop
  | load i | store i _ => i.toNat < size
  | loadFont i => i.toNat < 2048

/-- The accesses that a calculus can do. -/
structure Display (L : Calculus FbEvent FbEvent.Answer Pixels) (font : Nat → UInt8)
    (size : Nat) : Prop where
  load : ∀ {i : UInt64} {Q : UInt32 → Pixels → Prop} {m : Pixels}, i.toNat < size →
    Q (m i.toNat) m → L.holds (load i) Q m
  store : ∀ {i : UInt64} {pixel : UInt32} {Q : Unit → Pixels → Prop} {m : Pixels},
    i.toNat < size → Q () (Function.update m i.toNat pixel) → L.holds (store i pixel) Q m
  loadFont : ∀ {i : UInt64} {Q : UInt8 → Pixels → Prop} {m : Pixels}, i.toNat < 2048 →
    Q (font i.toNat) m → L.holds (loadFont i) Q m

/-- Safety: all accesses are inside the framebuffer and the font. -/
theorem display_wp (font : Nat → UInt8) (size : Nat) :
    Display (wpCalculus (fbEnv font) fun _ e => e.Inside size) font size where
  load hi hQ := ⟨hi, fun _ _ h => by
    obtain ⟨rfl, rfl⟩ := h
    exact hQ⟩
  store hi hQ := ⟨hi, fun _ _ h => by
    obtain rfl := h
    exact hQ⟩
  loadFont hi hQ := ⟨hi, fun _ _ h => by
    obtain ⟨rfl, rfl⟩ := h
    exact hQ⟩

/-- Termination: the same rules, where runs are to reach something. -/
theorem display_reach (font : Nat → UInt8) (size : Nat) (target : Pixels → FbEvent → Prop) :
    Display (reachCalculus (fbEnv font) target) font size where
  load {i _ _} _ hQ := reaches_req (e := FbEvent.load i) ⟨rfl, rfl⟩ hQ
  store {i pixel _ _} _ hQ := reaches_req (e := FbEvent.store i pixel) (r := ()) rfl hQ
  loadFont {i _ _} _ hQ := reaches_req (e := FbEvent.loadFont i) ⟨rfl, rfl⟩ hQ

/-! ## what a screen shows -/

/-- Pixel `x` of a row of a glyph. -/
def rowPixel (b : UInt8) (x : Nat) : UInt32 := if b.toNat.testBit (7 - x) then 0xFFFFFFFF else 0

/-- Pixel `(x, y)` of a character's glyph. -/
def glyphPixel (font : Nat → UInt8) (ch : UInt8) (x y : Nat) : UInt32 :=
  rowPixel (font (ch.toNat * 16 + y)) x

/-- The character in column `col` of row `row`. -/
def cell (rs : List (List UInt8)) (col row : Nat) : Option UInt8 := (rs[row]?.getD [])[col]?

/-- Pixel `(x, y)` of a screen that shows `rs`. -/
def shownPixel (font : Nat → UInt8) (rs : List (List UInt8)) (x y : Nat) : UInt32 :=
  match cell rs (x / 8) (y / 16) with
  | some ch => glyphPixel font ch (x % 8) (y % 16)
  | none => 0

/-- The rows move up. -/
theorem cell_tail (rs : List (List UInt8)) (col row : Nat) :
    cell rs.tail col row = cell rs col (row + 1) := by
  simp [cell]

/-- Below the last row there is nothing. -/
theorem cell_of_le {rs : List (List UInt8)} {row : Nat} (h : rs.length ≤ row) (col : Nat) :
    cell rs col row = none := by
  simp [cell, List.getElem?_eq_none h]

theorem cell_append_left {rs : List (List UInt8)} {row : Nat} (h : row < rs.length)
    (more : List (List UInt8)) (col : Nat) : cell (rs ++ more) col row = cell rs col row := by
  rw [cell, cell, List.getElem?_append_left h]

theorem cell_last (rs : List (List UInt8)) (last : List UInt8) (col : Nat) :
    cell (rs ++ [last]) col rs.length = last[col]? := by
  simp [cell]

/-- An empty row looks like no row. -/
theorem cell_append_nil (rs : List (List UInt8)) (col row : Nat) :
    cell (rs ++ [[]]) col row = cell rs col row := by
  rcases Nat.lt_trichotomy row rs.length with h | rfl | h
  · exact cell_append_left h _ _
  · rw [cell_last, cell_of_le (Nat.le_refl _), List.getElem?_nil]
  · rw [cell_of_le (by simpa using Nat.succ_le_of_lt h), cell_of_le (by omega)]

/-- Nor is there right of a row's end. -/
theorem cell_of_short {rs : List (List UInt8)} {n col : Nat} (h : ∀ row ∈ rs, row.length ≤ n)
    (hcol : n ≤ col) (row : Nat) : cell rs col row = none := by
  unfold cell
  cases hrow : rs[row]? with
  | none => rfl
  | some r =>
      have hr := h r (List.mem_of_getElem? hrow)
      exact List.getElem?_eq_none (Nat.le_trans hr hcol)

/-- One more character at the end. -/
theorem cell_put (rs : List (List UInt8)) (last : List UInt8) (ch : UInt8) (col row : Nat) :
    cell (rs ++ [last ++ [ch]]) col row =
      if col = last.length ∧ row = rs.length then some ch else cell (rs ++ [last]) col row := by
  rcases Nat.lt_trichotomy row rs.length with h | rfl | h
  · rw [cell_append_left h, cell_append_left h, if_neg (by omega)]
  · rw [cell_last, cell_last]
    rcases Nat.lt_trichotomy col last.length with hc | rfl | hc
    · rw [List.getElem?_append_left hc, if_neg (by omega)]
    · simp
    · have hlen : (last ++ [ch]).length ≤ col := by
        rw [List.length_append, List.length_singleton]
        exact hc
      rw [List.getElem?_eq_none hlen, List.getElem?_eq_none (Nat.le_of_lt hc), if_neg (by omega)]
  · rw [cell_of_le (by simpa using Nat.succ_le_of_lt h),
      cell_of_le (by simpa using Nat.succ_le_of_lt h), if_neg (by omega)]

/-- Below its rows a screen is black. -/
theorem shownPixel_of_le (font : Nat → UInt8) {rs : List (List UInt8)} {y : Nat}
    (h : rs.length ≤ y / 16) (x : Nat) : shownPixel font rs x y = 0 := by
  rw [shownPixel, cell_of_le h]

/-- A new row that is still empty shows nothing. -/
theorem shownPixel_append_nil (font : Nat → UInt8) (rs : List (List UInt8)) (x y : Nat) :
    shownPixel font (rs ++ [[]]) x y = shownPixel font rs x y := by
  rw [shownPixel, shownPixel, cell_append_nil]

/-- A screen without its first row is the screen one glyph further down. -/
theorem shownPixel_tail (font : Nat → UInt8) (rs : List (List UInt8)) (x y : Nat) :
    shownPixel font rs.tail x y = shownPixel font rs x (y + 16) := by
  rw [shownPixel, shownPixel, cell_tail, Nat.add_div_right _ (by decide), Nat.add_mod_right]

/-! ## the loops -/

theorem toNat_succ {i : UInt64} (h : i.toNat < 2 ^ 32) : (i + 1).toNat = i.toNat + 1 := by
  rw [UInt64.toNat_add, UInt64.toNat_one]
  omega

theorem toNat_pred {i : UInt64} (h : 0 < i.toNat) : (i - 1).toNat = i.toNat - 1 :=
  UInt64.toNat_sub_of_le _ _ (UInt64.le_iff_toNat_le.mpr h)

theorem pred_ne_zero_iff {i : UInt64} (h : 0 < i.toNat) : i - 1 ≠ 0 ↔ 1 < i.toNat := by
  rw [Ne, ← UInt64.toNat_inj, toNat_pred h, UInt64.toNat_zero]
  omega

/-- The sign of the shifted byte is the bit of the font's row, for all 256 rows. -/
theorem color_eq_rowPixel : ∀ n < 256, ∀ i < 8,
    (((fun b : Int8 => b <<< 1)^[i] (UInt8.ofNat n).toInt8) >>> 7).toInt32.toUInt32 =
      rowPixel (UInt8.ofNat n) i := by
  decide +kernel

/-- The colour of pixel `i` of a row is its bit. -/
theorem color_eq (b : UInt8) {i : Nat} (hi : i < 8) :
    (((fun b : Int8 => b <<< 1)^[i] b.toInt8) >>> 7).toInt32.toUInt32 = rowPixel b i := by
  simpa using color_eq_rowPixel b.toNat b.toNat_lt i hi

/-- The pixels of the first `k` lines. -/
theorem mul_add_lt_iff {W x y k : Nat} (hx : x < W) : y * W + x < W * k ↔ y < k := by
  rw [Nat.mul_comm W]
  constructor
  · intro h
    exact Nat.lt_of_mul_lt_mul_right (Nat.lt_of_le_of_lt (Nat.le_add_right _ _) h)
  · intro h
    have hle : (y + 1) * W ≤ k * W := Nat.mul_le_mul_right _ h
    rw [Nat.succ_mul] at hle
    omega

/-- Eight pixels of a line, by their coordinates. -/
theorem mem_cellRow {W px x y Y : Nat} (hx : x < W) (hpx : (px + 1) * 8 ≤ W) :
    px * 8 + Y * W ≤ y * W + x ∧ y * W + x < px * 8 + Y * W + 8 ↔ x / 8 = px ∧ y = Y := by
  rcases Nat.lt_trichotomy y Y with h | rfl | h
  · have hle : (y + 1) * W ≤ Y * W := Nat.mul_le_mul_right _ h
    rw [Nat.succ_mul] at hle
    omega
  · omega
  · have hle : (Y + 1) * W ≤ y * W := Nat.mul_le_mul_right _ h
    rw [Nat.succ_mul] at hle
    omega

theorem toNat_add_toUInt64 {a : UInt64} {i : Nat} (h : a.toNat + i < 2 ^ 64) :
    (a + i.toUInt64).toNat = a.toNat + i := by
  rw [UInt64.toNat_add, Nat.toUInt64_eq, UInt64.toNat_ofNat', Nat.mod_eq_of_lt (a := i) (by omega),
    Nat.mod_eq_of_lt h]

/-- Where the glyph's cell begins. -/
theorem toNat_cellStart {s : Statics} (hx : (s.posX.toNat + 1) * 8 ≤ s.width.toNat)
    (hy : s.posY.toNat * 16 * s.width.toNat + s.width.toNat < 2 ^ 32) :
    (s.posX.toUInt64 * fontWidth.toUInt64 + (s.posY * fontHeight * s.width).toUInt64).toNat =
      s.posX.toNat * 8 + s.posY.toNat * 16 * s.width.toNat := by
  have h8 : fontWidth.toNat = 8 := rfl
  have h16 : fontHeight.toNat = 16 := rfl
  have hpos : s.posY.toNat * 16 ≤ s.posY.toNat * 16 * s.width.toNat :=
    Nat.le_mul_of_pos_right _ (by omega)
  have hposX := s.posX.toNat_lt
  rw [UInt64.toNat_add, UInt64.toNat_mul, UInt32.toNat_toUInt64, UInt32.toNat_toUInt64,
    UInt32.toNat_toUInt64, UInt32.toNat_mul, UInt32.toNat_mul, h8, h16,
    Nat.mod_eq_of_lt (a := s.posY.toNat * 16) (by omega),
    Nat.mod_eq_of_lt (a := s.posY.toNat * 16 * s.width.toNat) (by omega)]
  omega

/-- What is moved up and what is cleaned up are the rows of characters. -/
theorem scrollCount_add_row (width : Nat) {maxY : Nat} (hrows : 1 ≤ maxY) :
    width * ((maxY - 1) * 16) + width * 16 = width * (maxY * 16) := by
  rw [← Nat.mul_add]
  congr 1
  omega

/-- The 32-bit products of `fb_scrollup` do not wrap for a legal geometry. -/
theorem toNat_scrollRow {s : Statics} (hrows : 1 ≤ s.maxY.toNat)
    (hfits : s.width.toNat * (s.maxY.toNat * 16) < 2 ^ 32) :
    (s.width * fontHeight).toUInt64.toNat = s.width.toNat * 16 := by
  have h16 : fontHeight.toNat = 16 := rfl
  have hsplit := scrollCount_add_row s.width.toNat hrows
  rw [UInt32.toNat_toUInt64, UInt32.toNat_mul, h16, Nat.mod_eq_of_lt (by omega)]

theorem toNat_scrollCount {s : Statics} (hrows : 1 ≤ s.maxY.toNat)
    (hfits : s.width.toNat * (s.maxY.toNat * 16) < 2 ^ 32) :
    (s.width * ((s.maxY - 1) * fontHeight)).toUInt64.toNat =
      s.width.toNat * ((s.maxY.toNat - 1) * 16) := by
  have h16 : fontHeight.toNat = 16 := rfl
  have hpred : (s.maxY - 1).toNat = s.maxY.toNat - 1 :=
    UInt32.toNat_sub_of_le _ _ (UInt32.le_iff_toNat_le.mpr hrows)
  have hsplit := scrollCount_add_row s.width.toNat hrows
  rw [UInt32.toNat_toUInt64, UInt32.toNat_mul, UInt32.toNat_mul, hpred, h16]
  rcases Nat.eq_zero_or_pos s.width.toNat with hzero | hpos
  · rw [hzero, Nat.zero_mul, Nat.zero_mul, Nat.zero_mod]
  · have hlines : (s.maxY.toNat - 1) * 16 ≤ s.width.toNat * ((s.maxY.toNat - 1) * 16) :=
      Nat.le_mul_of_pos_left _ hpos
    rw [Nat.mod_eq_of_lt (a := (s.maxY.toNat - 1) * 16) (by omega), Nat.mod_eq_of_lt (by omega)]

section Loops

variable {L : Calculus FbEvent FbEvent.Answer Pixels} {font : Nat → UInt8} {size : Nat}
  (hL : Display L font size) (hsize : size < 2 ^ 32)

include hL hsize

/-- The loop that moves the text up, on `count` pixels. -/
theorem holds_move {row count : UInt64} (hcount : 0 < count.toNat)
    (hfits : count.toNat + row.toNat ≤ size) (m : Pixels) :
    L.holds (loop (moveStep row) (0, count)) (fun cur m' => cur.toNat = count.toNat ∧
      ∀ n, m' n = if n < count.toNat then m (n + row.toNat) else m n) m := by
  refine L.loop (fun k s m' => k = s.2.toNat ∧ 0 < k ∧ s.1.toNat + k = count.toNat ∧
    ∀ n, m' n = if n < s.1.toNat then m (n + row.toNat) else m n) ?_
    ⟨rfl, hcount, Nat.zero_add _, fun n => by simp⟩
  rintro k ⟨cur, left⟩ m' ⟨rfl, hleft, hcur, hm'⟩
  simp only at hleft hcur hm'
  have hload : (cur + row).toNat = cur.toNat + row.toNat := by
    rw [UInt64.toNat_add]
    omega
  have hnext := toNat_succ (i := cur) (by omega)
  have hpred := toNat_pred hleft
  have hmoved : ∀ n, Function.update m' cur.toNat (m' (cur + row).toNat) n =
      if n < (cur + 1).toNat then m (n + row.toNat) else m n := by
    intro n
    rw [hload, hnext, Function.update_apply]
    grind
  refine L.bind (hL.load (i := cur + row) (by omega) ?_)
  refine L.bind (hL.store (i := cur) (by omega) ?_)
  refine L.ite (fun hgo => ?_) fun hstop => ?_
  · rw [pred_ne_zero_iff hleft] at hgo
    exact L.pure ⟨(left - 1).toNat, by simp only; omega, rfl, by omega, by simp only; omega, hmoved⟩
  · rw [pred_ne_zero_iff hleft] at hstop
    have hend : (cur + 1).toNat = count.toNat := by omega
    exact L.pure ⟨hend, fun n => by rw [hmoved, hend]⟩

/-- The loop that cleans up `row` pixels. -/
theorem holds_clean {cur row : UInt64} (hrow : 0 < row.toNat)
    (hfits : cur.toNat + row.toNat ≤ size) (m : Pixels) :
    L.holds (loop cleanStep (cur, row)) (fun _ m' =>
      ∀ n, m' n = if cur.toNat ≤ n ∧ n < cur.toNat + row.toNat then 0 else m n) m := by
  refine L.loop (fun k s m' => k = s.2.toNat ∧ 0 < k ∧ cur.toNat ≤ s.1.toNat ∧
    s.1.toNat + k = cur.toNat + row.toNat ∧
    ∀ n, m' n = if cur.toNat ≤ n ∧ n < s.1.toNat then 0 else m n) ?_
    ⟨rfl, hrow, Nat.le_refl _, rfl, fun n => by rw [if_neg (by simp only; omega)]⟩
  rintro k ⟨pos, left⟩ m' ⟨rfl, hleft, hle, hat, hm'⟩
  simp only at hleft hle hat hm'
  have hnext := toNat_succ (i := pos) (by omega)
  have hpred := toNat_pred hleft
  have hcleaned : ∀ n, Function.update m' pos.toNat 0 n =
      if cur.toNat ≤ n ∧ n < (pos + 1).toNat then 0 else m n := by
    intro n
    rw [hnext, Function.update_apply]
    grind
  refine L.bind (hL.store (i := pos) (by omega) ?_)
  refine L.ite (fun hgo => ?_) fun hstop => ?_
  · rw [pred_ne_zero_iff hleft] at hgo
    exact L.pure ⟨(left - 1).toNat, by simp only; omega, rfl, by omega, by simp only; omega,
      by simp only; omega, hcleaned⟩
  · rw [pred_ne_zero_iff hleft] at hstop
    have hend : (pos + 1).toNat = cur.toNat + row.toNat := by omega
    exact L.pure fun n => by rw [hcleaned, hend]

/-- The text area is moved up by a row, and its last row is cleaned up. -/
theorem holds_fbScrollup {s : Statics} (hwidth : 0 < s.width.toNat) (hrows : 2 ≤ s.maxY.toNat)
    (hfits : s.width.toNat * (s.maxY.toNat * 16) ≤ size) (m : Pixels) :
    L.holds (fbScrollup s) (fun _ m' => ∀ n, m' n =
      if n < s.width.toNat * ((s.maxY.toNat - 1) * 16) then m (n + s.width.toNat * 16)
      else if n < s.width.toNat * (s.maxY.toNat * 16) then 0 else m n) m := by
  have hsplit := scrollCount_add_row s.width.toNat (Nat.le_of_succ_le hrows)
  have hlines : (s.maxY.toNat - 1) * 16 ≤ s.width.toNat * ((s.maxY.toNat - 1) * 16) :=
    Nat.le_mul_of_pos_left _ hwidth
  have hcount := toNat_scrollCount (s := s) (by omega) (by omega)
  have hrow := toNat_scrollRow (s := s) (by omega) (by omega)
  refine L.seq (holds_move hL hsize (by omega) (by omega) m) ?_
  rintro cur m₁ ⟨hcur, hm₁⟩
  refine L.mono ?_ (holds_clean hL hsize (by omega) (by omega) m₁)
  intro _ m₂ hm₂ n
  rw [hm₂, hm₁, hcur, hcount, hrow, hsplit]
  grind

/-- A row of a glyph. -/
theorem holds_drawRow {s : Statics} {ptr cur : UInt64} {j : Nat} (hptr : ptr.toNat + j < 2048)
    (hfits : cur.toNat + 8 ≤ size) (m : Pixels) :
    L.holds (drawRow s ptr j cur) (fun cur' m' => cur' = cur + s.width.toUInt64 ∧
      ∀ n, m' n = if cur.toNat ≤ n ∧ n < cur.toNat + 8 then
        rowPixel (font (ptr.toNat + j)) (n - cur.toNat) else m n) m := by
  have hfont : (ptr + j.toUInt64).toNat = ptr.toNat + j := toNat_add_toUInt64 (by omega)
  refine L.bind (hL.loadFont (i := ptr + j.toUInt64) (by omega) ?_)
  rw [hfont]
  generalize font (ptr.toNat + j) = b
  refine L.seq (L.forCount 0 8 (fun i bitmap m' =>
    bitmap = (fun b : Int8 => b <<< 1)^[i] b.toInt8 ∧ ∀ n, m' n =
      if cur.toNat ≤ n ∧ n < cur.toNat + i then rowPixel b (n - cur.toNat) else m n) ?_
        ⟨rfl, ?_⟩) ?_
  · rintro i _ m' - hi ⟨rfl, hm'⟩
    have hcur : (cur + i.toUInt64).toNat = cur.toNat + i := toNat_add_toUInt64 (by omega)
    refine L.bind (hL.store (i := cur + i.toUInt64) (by omega) ?_)
    have hshift : ((fun b : Int8 => b <<< 1)^[i] b.toInt8) <<< 1 =
        (fun b : Int8 => b <<< 1)^[i + 1] b.toInt8 := by
      rw [Function.iterate_succ_apply']
    refine L.pure ⟨hshift, fun n => ?_⟩
    rw [hcur, Function.update_apply, color_eq b (by omega), hm']
    grind
  · grind
  · rintro _ m' ⟨-, hm'⟩
    exact L.pure ⟨rfl, hm'⟩

/-- The glyph fills its cell. -/
theorem holds_drawGlyph {s : Statics} {ch : UInt8} (hch : ch.toNat < 128)
    (hx : (s.posX.toNat + 1) * 8 ≤ s.width.toNat)
    (hy : (s.posY.toNat + 1) * 16 * s.width.toNat ≤ size) (m : Pixels) :
    L.holds (drawGlyph s ch) (fun _ m' => ∀ x y, x < s.width.toNat → m' (y * s.width.toNat + x) =
      if x / 8 = s.posX.toNat ∧ y / 16 = s.posY.toNat then glyphPixel font ch (x % 8) (y % 16)
      else m (y * s.width.toNat + x)) m := by
  have hptr : (ch.toUInt64 * (fontWidth * fontHeight / 8).toUInt64).toNat = ch.toNat * 16 := by
    have h16 : (fontWidth * fontHeight / 8).toUInt64.toNat = 16 := rfl
    rw [UInt64.toNat_mul, UInt8.toNat_toUInt64, h16, Nat.mod_eq_of_lt (by omega)]
  have hlines : ∀ j < 16, (s.posY.toNat * 16 + j) * s.width.toNat + s.width.toNat ≤ size := by
    intro j hj
    rw [← Nat.succ_mul]
    exact Nat.le_trans (Nat.mul_le_mul_right _ (by omega)) hy
  have hfirst := hlines 0 (by omega)
  rw [Nat.add_zero] at hfirst
  have hcur := toNat_cellStart hx (by omega)
  rw [← Nat.add_zero (s.posY.toNat * 16)] at hcur
  unfold drawGlyph
  refine L.seq (L.forCount 0 16 (fun j cur m' =>
    cur.toNat = s.posX.toNat * 8 + (s.posY.toNat * 16 + j) * s.width.toNat ∧
    ∀ x y, x < s.width.toNat → m' (y * s.width.toNat + x) =
      if x / 8 = s.posX.toNat ∧ s.posY.toNat * 16 ≤ y ∧ y < s.posY.toNat * 16 + j then
        glyphPixel font ch (x % 8) (y % 16) else m (y * s.width.toNat + x)) ?_ ⟨hcur, ?_⟩) ?_
  · rintro j cur m₁ - hj ⟨hcur, hm₁⟩
    have hline := hlines j (by omega)
    refine L.mono ?_ (holds_drawRow hL hsize (j := j) (by omega) (by omega) m₁)
    rintro _ m₂ ⟨rfl, hm₂⟩
    refine ⟨?_, ?_⟩
    · rw [UInt64.toNat_add, UInt32.toNat_toUInt64, hcur, ← Nat.add_assoc (s.posY.toNat * 16) j 1,
        Nat.succ_mul]
      omega
    · intro x y hxw
      have hcell := mem_cellRow (Y := s.posY.toNat * 16 + j) (y := y) hxw hx
      rw [hm₂, hcur, hm₁ x y hxw, hptr]
      by_cases hin : x / 8 = s.posX.toNat ∧ y = s.posY.toNat * 16 + j
      · obtain ⟨hcol, rfl⟩ := hin
        have hmod : (s.posY.toNat * 16 + j) % 16 = j := by omega
        have hpixel : (s.posY.toNat * 16 + j) * s.width.toNat + x -
            (s.posX.toNat * 8 + (s.posY.toNat * 16 + j) * s.width.toNat) = x % 8 := by omega
        rw [if_pos (hcell.mpr ⟨hcol, rfl⟩), if_pos ⟨hcol, by omega, by omega⟩, hpixel, glyphPixel,
          hmod]
      · rw [if_neg (mt hcell.mp hin)]
        refine if_congr ?_ rfl rfl
        omega
  · intro x y _
    rw [if_neg (by omega)]
  · rintro _ m' ⟨-, hm'⟩
    refine L.pure fun x y hxw => ?_
    rw [hm' x y hxw]
    refine if_congr ?_ rfl rfl
    omega

end Loops

end UefiKernel.Framebuffer
