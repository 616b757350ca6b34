import Mathlib.Data.BitVec

/-!
# Fields

Words that are put together from fields.

A program that packs a word cuts its parts out with masks, shifts them into
place and takes the bitwise or.  `place w lo x` is the field `x` at bit `lo` of a
word of `w` bits; a masked and shifted word is such a field
(`and_mask_shiftLeft`).  A slice of a packed word is then found field by field:
it is the field where it lies on one (`extractLsb'_place`), and zero where it
lies beside one (`extractLsb'_place_of_apart`).
-/

namespace Fields

variable {w n k : Nat}

/-- The field `x` at bit `lo` of a word of `w` bits. -/
def place (w lo : Nat) (x : BitVec n) : BitVec w := x.setWidth w <<< lo

/-- The bits from `lo` on, `n` of them. -/
def mask (w lo n : Nat) : BitVec w := place w lo (BitVec.allOnes n)

theorem getLsbD_place (lo : Nat) (x : BitVec n) (i : Nat) :
    (place w lo x).getLsbD i = (decide (i < w) && decide (lo ≤ i) && x.getLsbD (i - lo)) := by
  rw [place, BitVec.getLsbD_shiftLeft, BitVec.getLsbD_setWidth]
  grind

/-- A field has its bits where it was placed. -/
theorem bounds_of_getLsbD_place {lo : Nat} {x : BitVec n} {i : Nat}
    (h : (place w lo x).getLsbD i = true) : lo ≤ i ∧ i < lo + n := by
  rw [getLsbD_place, Bool.and_eq_true, Bool.and_eq_true, decide_eq_true_eq, decide_eq_true_eq] at h
  obtain ⟨⟨-, hlo⟩, hx⟩ := h
  have hlt := BitVec.lt_of_getLsbD hx
  omega

/-! ## reading a field -/

/-- The slice on a field is the field. -/
theorem extractLsb'_place {lo : Nat} (x : BitVec n) (h : lo + n ≤ w) :
    (place w lo x).extractLsb' lo n = x := by
  refine BitVec.eq_of_getLsbD_eq fun i hi => ?_
  rw [BitVec.getLsbD_extractLsb', getLsbD_place, Nat.add_sub_cancel_left]
  have hw : lo + i < w := by omega
  simp [hi, hw]

/-- The slice beside a field is zero. -/
theorem extractLsb'_place_of_apart {lo a len : Nat} (x : BitVec n)
    (h : lo + n ≤ a ∨ a + len ≤ lo) : (place w lo x).extractLsb' a len = BitVec.ofNat len 0 := by
  refine BitVec.eq_of_getLsbD_eq fun i hi => ?_
  rw [BitVec.getLsbD_extractLsb', BitVec.getLsbD_zero]
  cases hbit : (place w lo x).getLsbD (a + i) with
  | false => rw [Bool.and_false]
  | true =>
      have hbounds := bounds_of_getLsbD_place hbit
      omega

/-- Fields beside each other have no bit in common. -/
theorem place_and_place {lo lo' : Nat} (x : BitVec n) (y : BitVec k)
    (h : lo + n ≤ lo' ∨ lo' + k ≤ lo) : place w lo x &&& place w lo' y = 0#w := by
  refine BitVec.eq_of_getLsbD_eq fun i _ => ?_
  rw [BitVec.getLsbD_and, BitVec.getLsbD_zero]
  cases hx : (place w lo x).getLsbD i with
  | false => rfl
  | true =>
      cases hy : (place w lo' y).getLsbD i with
      | false => rfl
      | true =>
          have hbounds := bounds_of_getLsbD_place hx
          have hbounds' := bounds_of_getLsbD_place hy
          omega

/-! ## cutting out a field -/

theorem extractLsb'_ushiftRight (x : BitVec w) (s a len : Nat) :
    (x >>> s).extractLsb' a len = x.extractLsb' (s + a) len := by
  refine BitVec.eq_of_getLsbD_eq fun i _ => ?_
  rw [BitVec.getLsbD_extractLsb', BitVec.getLsbD_extractLsb', BitVec.getLsbD_ushiftRight,
    Nat.add_assoc]

/-- There is nothing above a word. -/
theorem extractLsb'_of_le (x : BitVec w) {a len : Nat} (h : w ≤ a) :
    x.extractLsb' a len = BitVec.ofNat len 0 := by
  refine BitVec.eq_of_getLsbD_eq fun i _ => ?_
  rw [BitVec.getLsbD_extractLsb', BitVec.getLsbD_of_ge _ _ (by omega), BitVec.getLsbD_zero,
    Bool.and_false]

/-- A word under a mask, shifted: a field that was elsewhere before. -/
theorem and_mask_shiftLeft (x : BitVec w) (lo s : Nat) :
    (x &&& mask w lo n) <<< s = place w (lo + s) (x.extractLsb' lo n) := by
  refine BitVec.eq_of_getLsbD_eq fun i hi => ?_
  rw [BitVec.getLsbD_shiftLeft, BitVec.getLsbD_and, mask, getLsbD_place, getLsbD_place,
    BitVec.getLsbD_extractLsb', BitVec.getLsbD_allOnes]
  grind

/-- A word shifted and then put under a mask: a slice. -/
theorem setWidth_and_mask (x : BitVec w) (s : Nat) (h : n ≤ w) :
    ((x >>> s) &&& mask w 0 n).setWidth n = x.extractLsb' s n := by
  refine BitVec.eq_of_getLsbD_eq fun i hi => ?_
  rw [BitVec.getLsbD_setWidth, BitVec.getLsbD_and, BitVec.getLsbD_ushiftRight, mask, getLsbD_place,
    BitVec.getLsbD_extractLsb', BitVec.getLsbD_allOnes]
  grind

end Fields
