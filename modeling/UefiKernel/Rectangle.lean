import Mathlib.Data.Finset.Prod
import UefiKernel.Lib.Store

/-!
# UefiKernel.Rectangle

The rectangle that the first kernel draws (`draw_rect` in
`Assignment_1/kernel.c`).

The loops run over the coordinates `i` and `j`, and a pixel's index is
`i + width * j`.  What is coloured is the image of a rectangle of coordinates
under that index (`coloured_drawRect`).  A coordinate of -1 is a pixel as well,
but one of another row, or none of the framebuffer; since the centre is one less
than half of the screen, this is what happens where the rectangle fits tightly
(`coloursRectangle_iff`).
-/

namespace UefiKernel

open Store Store.StoreM

/-- A program over the pixels of a framebuffer, by their signed index. -/
abbrev FramebufferM := StoreM Int UInt32

/-- `draw_rect`. -/
def drawRect (colour rectWidth rectHeight width height : Int32) : FramebufferM Unit := do
  let centerHeight := height / 2 - 1
  let centerWidth := width / 2 - 1
  forInt (centerWidth - rectWidth / 2) (centerWidth + rectWidth / 2) fun i =>
    forInt (centerHeight - rectHeight / 2) (centerHeight + rectHeight / 2) fun j =>
      store (i + width * j).toInt colour.toUInt32

/-! ## rectangles of pixels -/

/-- The pixels of `rectWidth` columns from `x` and `rectHeight` rows from `y`, on a
screen of the given width. -/
def rectangle (width x y rectWidth rectHeight : Int) : Finset Int :=
  (Finset.range rectWidth.toNat ×ˢ Finset.range rectHeight.toNat).image fun p =>
    x + p.1 + width * (y + p.2)

theorem mem_rectangle {width x y rectWidth rectHeight n : Int} :
    n ∈ rectangle width x y rectWidth rectHeight ↔ ∃ i j, (x ≤ i ∧ i < x + rectWidth) ∧
      (y ≤ j ∧ j < y + rectHeight) ∧ i + width * j = n := by
  simp only [rectangle, Finset.mem_image, Finset.mem_product, Finset.mem_range, Prod.exists,
    and_assoc]
  constructor
  · rintro ⟨a, b, ha, hb, rfl⟩
    exact ⟨x + a, y + b, by omega, by omega, by omega, by omega, rfl⟩
  · rintro ⟨i, j, hi, hi', hj, hj', rfl⟩
    refine ⟨(i - x).toNat, (j - y).toNat, by omega, by omega, ?_⟩
    have hcolumn : x + ((i - x).toNat : Int) = i := by omega
    have hrow : y + ((j - y).toNat : Int) = j := by omega
    rw [hcolumn, hrow]

/-- The coordinates of a pixel are determined. -/
theorem index_inj {width i j i' j' : Int} (hi : 0 ≤ i) (hlt : i < width) (hi' : 0 ≤ i')
    (hlt' : i' < width) (h : i + width * j = i' + width * j') : i = i' ∧ j = j' := by
  have hmod := congrArg (· % width) h
  simp only [Int.add_mul_emod_self_left, Int.emod_eq_of_lt hi hlt,
    Int.emod_eq_of_lt hi' hlt'] at hmod
  rw [hmod] at h
  exact ⟨hmod, Int.eq_of_mul_eq_mul_left (by omega) (Int.add_left_cancel h)⟩

/-- Inside a row no two coordinates are one pixel. -/
theorem card_rectangle {width x y rectWidth rectHeight : Int} (hx : 0 ≤ x)
    (hfits : x + rectWidth ≤ width) :
    (rectangle width x y rectWidth rectHeight).card = rectWidth.toNat * rectHeight.toNat := by
  rw [rectangle, Finset.card_image_of_injOn, Finset.card_product, Finset.card_range,
    Finset.card_range]
  rintro ⟨a, b⟩ hp ⟨a', b'⟩ hp' h
  simp only [Finset.mem_coe, Finset.mem_product, Finset.mem_range] at hp hp' h
  obtain ⟨hcolumn, hrow⟩ := index_inj (by omega) (by omega) (by omega) (by omega) h
  rw [show a = a' by omega, show b = b' by omega]

theorem mem_rectangle_bounds {width height x y rectWidth rectHeight n : Int} (hx : 0 ≤ x)
    (hfits : x + rectWidth ≤ width) (hy : 0 ≤ y) (hfits' : y + rectHeight ≤ height)
    (hn : n ∈ rectangle width x y rectWidth rectHeight) : 0 ≤ n ∧ n < width * height := by
  obtain ⟨i, j, ⟨hi, hi'⟩, ⟨hj, hj'⟩, rfl⟩ := mem_rectangle.mp hn
  have hlow : 0 ≤ width * j := Int.mul_nonneg (by omega) (by omega)
  have hhigh : width * (j + 1) ≤ width * height :=
    Int.mul_le_mul_of_nonneg_left (by omega) (by omega)
  rw [Int.mul_add] at hhigh
  omega

/-- The first pixel of a rectangle is its least. -/
theorem le_of_mem_rectangle {width x y rectWidth rectHeight n : Int} (hwidth : 0 ≤ width)
    (hn : n ∈ rectangle width x y rectWidth rectHeight) : x + width * y ≤ n := by
  obtain ⟨i, j, ⟨hi, -⟩, ⟨hj, -⟩, rfl⟩ := mem_rectangle.mp hn
  have hrow : width * y ≤ width * j := Int.mul_le_mul_of_nonneg_left hj hwidth
  omega

theorem first_mem_rectangle (width x y : Int) {rectWidth rectHeight : Int} (hwidth : 0 < rectWidth)
    (hheight : 0 < rectHeight) : x + width * y ∈ rectangle width x y rectWidth rectHeight :=
  mem_rectangle.mpr ⟨x, y, ⟨Int.le_refl x, by omega⟩, ⟨Int.le_refl y, by omega⟩, rfl⟩

/-- So rectangles with the same pixels begin at the same one. -/
theorem first_eq_of_rectangle_eq {width x y x' y' rectWidth rectHeight : Int} (hscreen : 0 ≤ width)
    (hwidth : 0 < rectWidth) (hheight : 0 < rectHeight)
    (h : rectangle width x y rectWidth rectHeight = rectangle width x' y' rectWidth rectHeight) :
    x + width * y = x' + width * y' := by
  have hfirst := first_mem_rectangle width x y hwidth hheight
  have hfirst' := first_mem_rectangle width x' y' hwidth hheight
  rw [h] at hfirst
  rw [← h] at hfirst'
  exact Int.le_antisymm (le_of_mem_rectangle hscreen hfirst') (le_of_mem_rectangle hscreen hfirst)

/-- The pixels a program has stored to. -/
def coloured (stores : List (Int × UInt32)) : Finset Int := (stores.map Prod.fst).toFinset

/-- The stores give `colour` to `rectWidth * rectHeight` pixels of a screen of `width`
by `height` pixels, which form one rectangle of it. -/
structure ColoursRectangle (colour : UInt32) (rectWidth rectHeight width height : Int)
    (stores : List (Int × UInt32)) : Prop where
  onScreen : ∀ s ∈ stores, 0 ≤ s.1 ∧ s.1 < width * height
  colour_eq : ∀ s ∈ stores, s.2 = colour
  isRectangle : ∃ x y, (0 ≤ x ∧ x + rectWidth ≤ width) ∧ (0 ≤ y ∧ y + rectHeight ≤ height) ∧
    coloured stores = rectangle width x y rectWidth rectHeight
  card_eq : ((coloured stores).card : Int) = rectWidth * rectHeight

/-! ## what is drawn -/

theorem toInt_half {n : Int32} (hn : 0 ≤ n.toInt) : (n / 2).toInt = n.toInt / 2 := by
  have hlt := n.toInt_lt
  have htwo : (2 : Int32).toInt = 2 := rfl
  rw [Int32.toInt_div, htwo, Int.tdiv_eq_ediv_of_nonneg hn]
  exact Int.bmod_eq_of_le (by omega) (by omega)

theorem toInt_add_of_bounds {a b : Int32} (hlow : -2 ^ 31 ≤ a.toInt + b.toInt)
    (hhigh : a.toInt + b.toInt < 2 ^ 31) : (a + b).toInt = a.toInt + b.toInt := by
  rw [Int32.toInt_add]
  exact Int.bmod_eq_of_le (by omega) (by omega)

theorem toInt_sub_of_bounds {a b : Int32} (hlow : -2 ^ 31 ≤ a.toInt - b.toInt)
    (hhigh : a.toInt - b.toInt < 2 ^ 31) : (a - b).toInt = a.toInt - b.toInt := by
  rw [Int32.toInt_sub]
  exact Int.bmod_eq_of_le (by omega) (by omega)

theorem toInt_mul_of_bounds {a b : Int32} (hlow : -2 ^ 31 ≤ a.toInt * b.toInt)
    (hhigh : a.toInt * b.toInt < 2 ^ 31) : (a * b).toInt = a.toInt * b.toInt := by
  rw [Int32.toInt_mul]
  exact Int.bmod_eq_of_le (by omega) (by omega)

/-- Where one of the loops starts and ends. -/
theorem toInt_bounds {size extent : Int32} (hextent : 0 ≤ extent.toInt)
    (hfits : extent.toInt ≤ size.toInt) :
    (size / 2 - 1 - extent / 2).toInt = size.toInt / 2 - 1 - extent.toInt / 2 ∧
    (size / 2 - 1 + extent / 2).toInt = size.toInt / 2 - 1 + extent.toInt / 2 := by
  have hlt := size.toInt_lt
  have hhalf := toInt_half (n := size) (by omega)
  have hhalf' := toInt_half hextent
  have hone : (1 : Int32).toInt = 1 := rfl
  have hcenter : (size / 2 - 1).toInt = size.toInt / 2 - 1 := by
    rw [toInt_sub_of_bounds (by omega) (by omega), hhalf, hone]
  constructor
  · rw [toInt_sub_of_bounds (by omega) (by omega), hcenter, hhalf']
  · rw [toInt_add_of_bounds (by omega) (by omega), hcenter, hhalf']

/-- The index of the pixel at `(i, j)`, with the coordinates that occur. -/
theorem toInt_index {width height : Int32} {i j : Int} (hi : -1 ≤ i) (hi' : i < width.toInt)
    (hj : -1 ≤ j) (hj' : j < height.toInt) (hsize : width.toInt * height.toInt < 2 ^ 31) :
    (Int32.ofInt i + width * Int32.ofInt j).toInt = i + width.toInt * j := by
  have hlt := width.toInt_lt
  have hlt' := height.toInt_lt
  have hI : (Int32.ofInt i).toInt = i := Int32.toInt_ofInt_of_le (by omega) (by omega)
  have hJ : (Int32.ofInt j).toInt = j := Int32.toInt_ofInt_of_le (by omega) (by omega)
  have hlow : width.toInt * (-1) ≤ width.toInt * j := Int.mul_le_mul_of_nonneg_left hj (by omega)
  have hhigh : width.toInt * (j + 1) ≤ width.toInt * height.toInt :=
    Int.mul_le_mul_of_nonneg_left (by omega) (by omega)
  rw [Int.mul_add] at hhigh
  have hrow : (width * Int32.ofInt j).toInt = width.toInt * j := by
    rw [toInt_mul_of_bounds (by rw [hJ]; omega) (by rw [hJ]; omega), hJ]
  rw [toInt_add_of_bounds (by omega) (by omega), hI, hrow]

/-- Even extents that are not larger than a screen whose pixels an `int` can count. -/
structure Extents (rectWidth rectHeight width height : Int32) : Prop where
  rectWidth_nonneg : 0 ≤ rectWidth.toInt
  rectWidth_even : rectWidth.toInt % 2 = 0
  rectWidth_le : rectWidth.toInt ≤ width.toInt
  rectHeight_nonneg : 0 ≤ rectHeight.toInt
  rectHeight_even : rectHeight.toInt % 2 = 0
  rectHeight_le : rectHeight.toInt ≤ height.toInt
  size_lt : width.toInt * height.toInt < 2 ^ 31

section Drawn

variable {colour rectWidth rectHeight width height : Int32}

theorem run_drawRect (m : Int → UInt32) : drawRect colour rectWidth rectHeight width height m =
    ((), storesOf (width / 2 - 1 - rectWidth / 2) (width / 2 - 1 + rectWidth / 2) fun i =>
      storesOf (height / 2 - 1 - rectHeight / 2) (height / 2 - 1 + rectHeight / 2) fun j =>
        [((i + width * j).toInt, colour.toUInt32)]) := by
  unfold drawRect
  refine run_forInt (fun i m => ?_) m
  exact run_forInt (fun j m => run_store (i + width * j).toInt colour.toUInt32 m) m

variable (h : Extents rectWidth rectHeight width height)

include h

/-- The stores, by the coordinates they are for. -/
theorem mem_drawRect {m : Int → UInt32} {s : Int × UInt32} :
    s ∈ (drawRect colour rectWidth rectHeight width height m).2 ↔
      s.1 ∈ rectangle width.toInt (width.toInt / 2 - 1 - rectWidth.toInt / 2)
        (height.toInt / 2 - 1 - rectHeight.toInt / 2) rectWidth.toInt rectHeight.toInt ∧
      s.2 = colour.toUInt32 := by
  obtain ⟨hw, hwe, hwle, hh, hhe, hhle, hsize⟩ := h
  obtain ⟨hleft, hright⟩ := toInt_bounds hw hwle
  obtain ⟨htop, hbottom⟩ := toInt_bounds hh hhle
  simp only [run_drawRect, mem_storesOf, hleft, hright, htop, hbottom, mem_rectangle,
    List.mem_singleton]
  constructor
  · rintro ⟨i, hi, hi', j, hj, hj', rfl⟩
    have hindex := toInt_index (i := i) (j := j) (by omega) (by omega) (by omega) (by omega) hsize
    exact ⟨⟨i, j, ⟨hi, by omega⟩, ⟨hj, by omega⟩, hindex.symm⟩, rfl⟩
  · rintro ⟨⟨i, j, ⟨hi, hi'⟩, ⟨hj, hj'⟩, hs⟩, hcolour⟩
    have hindex := toInt_index (i := i) (j := j) (by omega) (by omega) (by omega) (by omega) hsize
    refine ⟨i, hi, by omega, j, hj, by omega, ?_⟩
    rw [hindex, hs, ← hcolour]

/-- What is coloured is a rectangle of coordinates. -/
theorem coloured_drawRect (m : Int → UInt32) :
    coloured (drawRect colour rectWidth rectHeight width height m).2 =
      rectangle width.toInt (width.toInt / 2 - 1 - rectWidth.toInt / 2)
        (height.toInt / 2 - 1 - rectHeight.toInt / 2) rectWidth.toInt rectHeight.toInt := by
  ext n
  simp only [coloured, List.mem_toFinset, List.mem_map, mem_drawRect h]
  constructor
  · rintro ⟨s, ⟨hs, -⟩, rfl⟩
    exact hs
  · intro hn
    exact ⟨(n, colour.toUInt32), ⟨hn, rfl⟩, rfl⟩

/-- An empty rectangle. -/
theorem coloursRectangle_of_empty (hempty : rectWidth.toInt = 0 ∨ rectHeight.toInt = 0)
    (m : Int → UInt32) : ColoursRectangle colour.toUInt32 rectWidth.toInt rectHeight.toInt
      width.toInt height.toInt (drawRect colour rectWidth rectHeight width height m).2 := by
  have hnone : ∀ x y, rectangle width.toInt x y rectWidth.toInt rectHeight.toInt = ∅ := by
    intro x y
    rw [Finset.eq_empty_iff_forall_notMem]
    intro n hn
    obtain ⟨i, j, hi, hj, -⟩ := mem_rectangle.mp hn
    omega
  have hw := h.rectWidth_le
  have hh := h.rectHeight_le
  refine ⟨?_, fun s hs => ((mem_drawRect h).mp hs).2, ⟨0, 0, ⟨by omega, by omega⟩,
    ⟨by omega, by omega⟩, ?_⟩, ?_⟩
  · intro s hs
    have hmem := ((mem_drawRect h).mp hs).1
    rw [hnone] at hmem
    exact absurd hmem (Finset.notMem_empty _)
  · rw [coloured_drawRect h, hnone, hnone]
  · rw [coloured_drawRect h, hnone, Finset.card_empty]
    rcases hempty with he | he
    · rw [he, Int.zero_mul]
      rfl
    · rw [he, Int.mul_zero]
      rfl

/-- A rectangle with room around it. -/
theorem coloursRectangle_of_room (hroom : rectWidth.toInt + 2 ≤ width.toInt)
    (hroom' : rectHeight.toInt + 2 ≤ height.toInt) (m : Int → UInt32) :
    ColoursRectangle colour.toUInt32 rectWidth.toInt rectHeight.toInt width.toInt height.toInt
      (drawRect colour rectWidth rectHeight width height m).2 := by
  obtain ⟨hw, hwe, -, hh, hhe, -, -⟩ := id h
  refine ⟨?_, fun s hs => ((mem_drawRect h).mp hs).2, ⟨_, _, ⟨by omega, by omega⟩,
    ⟨by omega, by omega⟩, coloured_drawRect h m⟩, ?_⟩
  · intro s hs
    exact mem_rectangle_bounds (by omega) (by omega) (by omega) (by omega)
      ((mem_drawRect h).mp hs).1
  · rw [coloured_drawRect h, card_rectangle (by omega) (by omega), Int.natCast_mul,
      Int.toNat_of_nonneg hw, Int.toNat_of_nonneg hh]

/-- A rectangle drawn on the screen has room around it. -/
theorem room_of_coloursRectangle (hwidth : 0 < rectWidth.toInt) (hheight : 0 < rectHeight.toInt)
    {m : Int → UInt32} (hdrawn : ColoursRectangle colour.toUInt32 rectWidth.toInt rectHeight.toInt
      width.toInt height.toInt (drawRect colour rectWidth rectHeight width height m).2) :
    rectWidth.toInt + 2 ≤ width.toInt ∧ rectHeight.toInt + 2 ≤ height.toInt := by
  obtain ⟨-, hwe, hwle, -, hhe, hhle, -⟩ := id h
  obtain ⟨x, y, ⟨hx, hx'⟩, ⟨hy, hy'⟩, hpixels⟩ := hdrawn.isRectangle
  rw [coloured_drawRect h] at hpixels
  have hfirst := first_eq_of_rectangle_eq (by omega) hwidth hheight hpixels
  -- the columns begin at 0 or later, as -1 would be the last pixel of a row
  have hleft : 0 ≤ width.toInt / 2 - 1 - rectWidth.toInt / 2 := by
    by_contra hneg
    have hminus : width.toInt / 2 - 1 - rectWidth.toInt / 2 = -1 := by omega
    have hlast : width.toInt - 1 + width.toInt * (height.toInt / 2 - 1 - rectHeight.toInt / 2 - 1) =
        x + width.toInt * y := by
      rw [← hfirst, hminus, Int.mul_sub]
      omega
    obtain ⟨hcol, -⟩ := index_inj (by omega) (by omega) hx (by omega) hlast
    omega
  obtain ⟨hcol, hrow⟩ := index_inj hleft (by omega) hx (by omega) hfirst
  omega

/-- **The rectangle stays on the screen** if and only if it is empty, or the screen
has two columns and two rows more. -/
theorem coloursRectangle_iff (m : Int → UInt32) :
    ColoursRectangle colour.toUInt32 rectWidth.toInt rectHeight.toInt width.toInt height.toInt
      (drawRect colour rectWidth rectHeight width height m).2 ↔
    (rectWidth.toInt = 0 ∨ rectHeight.toInt = 0) ∨
      (rectWidth.toInt + 2 ≤ width.toInt ∧ rectHeight.toInt + 2 ≤ height.toInt) := by
  constructor
  · intro hdrawn
    have hw := h.rectWidth_nonneg
    have hh := h.rectHeight_nonneg
    rcases lt_or_ge 0 rectWidth.toInt with hwidth | hwidth
    · rcases lt_or_ge 0 rectHeight.toInt with hheight | hheight
      · exact .inr (room_of_coloursRectangle h hwidth hheight hdrawn)
      · exact .inl (.inr (Int.le_antisymm hheight hh))
    · exact .inl (.inl (Int.le_antisymm hwidth hw))
  · rintro (hempty | ⟨hroom, hroom'⟩)
    · exact coloursRectangle_of_empty h hempty m
    · exact coloursRectangle_of_room h hroom hroom' m

end Drawn

/-- The rectangle of `kernel_start`, on the screen that the loader sets up. -/
theorem coloursRectangle_kernelStart : Extents 400 200 800 600 ∧
    (ColoursRectangle (0x2596beff : Int32).toUInt32 (400 : Int32).toInt (200 : Int32).toInt
        (800 : Int32).toInt (600 : Int32).toInt (drawRect 0x2596beff 400 200 800 600 fun _ => 0).2 ↔
      ((400 : Int32).toInt = 0 ∨ (200 : Int32).toInt = 0) ∨
        ((400 : Int32).toInt + 2 ≤ (800 : Int32).toInt ∧
          (200 : Int32).toInt + 2 ≤ (600 : Int32).toInt)) := by
  have hextents : Extents 400 200 800 600 :=
    ⟨by decide, by decide, by decide, by decide, by decide, by decide, by decide⟩
  exact ⟨hextents, coloursRectangle_iff hextents fun _ => 0⟩

/-- A rectangle as large as the screen. -/
theorem fullScreen_not_coloursRectangle : Extents 2 2 2 2 ∧
    ¬ ColoursRectangle (7 : Int32).toUInt32 (2 : Int32).toInt (2 : Int32).toInt (2 : Int32).toInt
      (2 : Int32).toInt (drawRect 7 2 2 2 2 fun _ => 0).2 := by
  refine ⟨⟨by decide, by decide, by decide, by decide, by decide, by decide, by decide⟩,
    fun h => ?_⟩
  have hstore : ((-3 : Int), (7 : UInt32)) ∈ (drawRect 7 2 2 2 2 fun _ => 0).2 := by decide
  exact absurd (h.onScreen _ hstore).1 (by decide)

end UefiKernel
