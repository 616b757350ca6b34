import UefiKernel.Console.Format

/-!
# UefiKernel.Console.Digits

The digits that `_do_vprintf` writes, and the narrowing of its arguments.

The code writes digits from the last to the first in front of a text; they are
the digits of the number (`Base.write_eq`), and never more than the 63 bytes
in front of the NUL of `buf`.
-/

namespace UefiKernel.Console

open Interact Prog

/-! ## digits -/

/-- `'0' + n` is the digit of `n`. -/
theorem digit_decimal : ∀ n < 10, (Nat.digitChar n).toUInt8 = UInt8.ofNat n + 0x30 := by
  decide

/-- One digit more in front. -/
theorem digitsOf_append {f : Char → UInt8} {base n : Nat} (hbase : 1 < base) (text : List UInt8) :
    (Nat.toDigits base n).map f ++ text =
      (if n < base then [] else (Nat.toDigits base (n / base)).map f) ++
        (f (Nat.digitChar (n % base)) :: text) := by
  rw [Nat.toDigits_eq_if hbase]
  split
  · rename_i h
    simp [Nat.mod_eq_of_lt h]
  · simp

theorem toNat_div_ten (num : UInt64) : (num / 10).toNat = num.toNat / 10 := UInt64.toNat_div ..

theorem div_ten_eq_zero_iff (num : UInt64) : num / 10 = 0 ↔ num.toNat < 10 := by
  rw [← UInt64.toNat_inj, toNat_div_ten, UInt64.toNat_zero]
  omega

/-- The last digit of a number. -/
theorem digit_decimal_mod (num : UInt64) :
    (num % 10).toUInt8 + 0x30 = (Nat.digitChar (num.toNat % 10)).toUInt8 := by
  rw [digit_decimal _ (Nat.mod_lt _ (by decide))]
  congr 1

/-- `write_uword_base10` writes the digits of its argument. -/
theorem writeUwordBase10_eq (num : UInt64) (text : List UInt8) :
    writeUwordBase10 num text = digitsOf 10 num.toNat ++ text := by
  rw [digitsOf, digitsOf_append (by decide)]
  fun_induction writeUwordBase10 num text with
  | case1 num text temp text' h ih =>
      rw [ih, if_neg (mt (div_ten_eq_zero_iff num).mpr h), ← digitsOf_append (by decide),
        toNat_div_ten, ← digit_decimal_mod]
  | case2 num text temp text' h =>
      rw [if_pos ((div_ten_eq_zero_iff num).mp (Classical.not_not.mp h)), ← digit_decimal_mod]
      rfl

/-- The loop that divides by ten writes the decimal digits. -/
theorem writeDecimal_eq (num : UInt64) : Base.decimal.write num = digitsOf 10 num.toNat := by
  rw [Base.write, writeUwordBase10_eq, List.append_nil]

/-! ## bits -/

/-- The mask is the remainder. -/
theorem toNat_mask (base : BitBase) (num : UInt64) :
    (num &&& ((1 <<< base.shift) - 1)).toNat = num.toNat % 2 ^ base.shift.toNat := by
  have hmask : ((1 <<< base.shift) - 1 : UInt64).toNat = 2 ^ base.shift.toNat - 1 := by
    cases base <;> rfl
  rw [UInt64.toNat_and, hmask, Nat.and_two_pow_sub_one_eq_mod]

/-- And the shift is the quotient. -/
theorem toNat_shift (base : BitBase) (num : UInt64) :
    (num >>> base.shift).toNat = num.toNat / 2 ^ base.shift.toNat := by
  cases base <;> rw [UInt64.toNat_shiftRight, Nat.shiftRight_eq_div_pow] <;> rfl

theorem shift_eq_zero_iff (base : BitBase) (num : UInt64) :
    num >>> base.shift = 0 ↔ num.toNat < 2 ^ base.shift.toNat := by
  rw [← UInt64.toNat_inj, toNat_shift, UInt64.toNat_zero, Nat.div_eq_zero_iff]
  have hpos : 2 ^ base.shift.toNat ≠ 0 := by
    cases base <;> decide
  omega

/-- The loop for bases 8 and 16 writes digits as they are in `HexDigits`. -/
theorem writeBits_eq {base : BitBase} {digits : Nat} {f : Char → UInt8}
    (hdigits : ∀ n < 2 ^ base.shift.toNat, hexDigits.getD (digits + n) 0 = f (Nat.digitChar n))
    (num : UInt64) (text : List UInt8) : writeBits base digits num text =
      (Nat.toDigits (2 ^ base.shift.toNat) num.toNat).map f ++ text := by
  have hbase : 1 < 2 ^ base.shift.toNat := by
    cases base <;> decide
  have hdigit : ∀ num : UInt64, hexDigits.getD
      (digits + (num &&& ((1 <<< base.shift) - 1)).toNat) 0 =
        f (Nat.digitChar (num.toNat % 2 ^ base.shift.toNat)) := by
    intro num
    rw [toNat_mask, hdigits _ (Nat.mod_lt _ (Nat.lt_trans Nat.zero_lt_one hbase))]
  rw [digitsOf_append hbase]
  fun_induction writeBits base digits num text with
  | case1 num text mask temp text' h ih =>
      rw [ih, if_neg (mt (shift_eq_zero_iff base num).mpr h), ← digitsOf_append hbase, toNat_shift,
        ← hdigit]
  | case2 num text mask temp text' h =>
      rw [if_pos ((shift_eq_zero_iff base num).mp (Classical.not_not.mp h)), ← hdigit]
      rfl

theorem writeOctal_eq (num : UInt64) : (Base.bits .octal 0).write num = digitsOf 8 num.toNat := by
  rw [Base.write, writeBits_eq (f := Char.toUInt8) (by decide), List.append_nil]
  rfl

theorem writeHex_eq (num : UInt64) : (Base.bits .hex 16).write num = digitsOf 16 num.toNat := by
  rw [Base.write, writeBits_eq (f := Char.toUInt8) (by decide), List.append_nil]
  rfl

theorem writeCapitalHex_eq (num : UInt64) :
    (Base.bits .hex 0).write num = capitalDigitsOf 16 num.toNat := by
  rw [Base.write, writeBits_eq (f := fun ch => ch.toUpper.toUInt8) (by decide), List.append_nil]
  rfl

/-! ## narrowing -/

/-- How many bits of an argument the flags keep. -/
def Flags.bits (flags : Flags) : Nat :=
  if flags.num64 then 64 else if flags.num16 then 16 else if flags.num8 then 8 else 32

/-- Unsigned values are taken modulo the width of their type. -/
theorem narrow_unsigned (flags : Flags) (h : flags.doSign = false) (arg : UInt64) :
    ∃ num, narrow flags arg = (flags, num) ∧ num.toNat = arg.toNat % 2 ^ flags.bits := by
  refine ⟨_, by rw [narrow, if_neg (by simp [h])], ?_⟩
  unfold Flags.bits
  split
  · exact (Nat.mod_eq_of_lt arg.toNat_lt).symm
  · split
    · rfl
    · split <;> rfl

theorem lt_zero_iff (n : Int64) : n < 0 ↔ n.toInt < 0 := by
  rw [Int64.lt_iff_toInt_lt, Int64.toInt_zero]

/-- The magnitude of a number, also of the least one. -/
theorem toNat_magnitude (n : Int64) :
    (if n < 0 then -n else n).toUInt64.toNat = n.toInt.natAbs := by
  have hlt : n.toBitVec.toNat < 2 ^ 64 := n.toBitVec.isLt
  have hint : n.toInt = if 2 * n.toBitVec.toNat < 2 ^ 64 then (n.toBitVec.toNat : Int)
      else n.toBitVec.toNat - (2 ^ 64 : Nat) := BitVec.toInt_eq_toNat_cond n.toBitVec
  split
  · rename_i hneg
    have hnat : (-n).toUInt64.toNat = (2 ^ 64 - n.toBitVec.toNat) % 2 ^ 64 :=
      BitVec.toNat_neg n.toBitVec
    rw [lt_zero_iff] at hneg
    rw [hnat]
    split at hint <;> omega
  · rename_i hneg
    have hnat : n.toUInt64.toNat = n.toBitVec.toNat := rfl
    rw [lt_zero_iff] at hneg
    rw [hnat]
    split at hint <;> omega

/-- The argument as `snum`. -/
theorem exists_snum {flags : Flags} (h : flags.doSign = true) (arg : UInt64) :
    ∃ snum : Int64, snum.toInt = (arg.toBitVec.setWidth flags.bits).toInt ∧ narrow flags arg =
      if snum < 0 then ({ flags with negative := true }, (-snum).toUInt64)
      else (flags, snum.toUInt64) := by
  refine ⟨_, ?_, by rw [narrow, if_pos h]⟩
  by_cases h64 : flags.num64
  · have hbits : flags.bits = 64 := if_pos h64
    rw [if_pos h64, hbits, BitVec.setWidth_eq]
    rfl
  · by_cases h16 : flags.num16
    · have hbits : flags.bits = 16 := by rw [Flags.bits, if_neg h64, if_pos h16]
      rw [if_neg h64, if_pos h16, hbits]
      exact Int16.toInt_toInt64 _
    · by_cases h8 : flags.num8
      · have hbits : flags.bits = 8 := by rw [Flags.bits, if_neg h64, if_neg h16, if_pos h8]
        rw [if_neg h64, if_neg h16, if_pos h8, hbits]
        exact Int8.toInt_toInt64 _
      · have hbits : flags.bits = 32 := by rw [Flags.bits, if_neg h64, if_neg h16, if_neg h8]
        rw [if_neg h64, if_neg h16, if_neg h8, hbits]
        exact Int32.toInt_toInt64 _

/-- Signed ones are the sign and the absolute value of what is left of them. -/
theorem narrow_signed (flags : Flags) (h : flags.doSign = true) (hneg : flags.negative = false)
    (arg : UInt64) : ∃ num, narrow flags arg =
      ({ flags with negative := decide ((arg.toBitVec.setWidth flags.bits).toInt < 0) }, num) ∧
        num.toNat = (arg.toBitVec.setWidth flags.bits).toInt.natAbs := by
  obtain ⟨snum, hsnum, hnarrow⟩ := exists_snum h arg
  have hmagnitude := toNat_magnitude snum
  have hlt := lt_zero_iff snum
  rw [hsnum] at hmagnitude hlt
  rw [hnarrow]
  split at hmagnitude
  · rename_i hn
    rw [if_pos hn, decide_eq_true (hlt.mp hn)]
    exact ⟨_, rfl, hmagnitude⟩
  · rename_i hn
    rw [if_neg hn, decide_eq_false (mt hlt.mpr hn), ← hneg]
    exact ⟨_, rfl, hmagnitude⟩

/-! ## no digit is a NUL -/

theorem digitChar_mem {base n : Nat} (hbase : 1 < base) {ch : Char} (h : ch ∈ Nat.toDigits base n) :
    ∃ d < base, ch = Nat.digitChar d := by
  induction n using Nat.strongRecOn with
  | ind n ih =>
      rw [Nat.toDigits_eq_if hbase] at h
      split at h
      · rename_i hlt
        exact ⟨n, hlt, List.mem_singleton.mp h⟩
      · rename_i hge
        rcases List.mem_append.mp h with h | h
        · exact ih _ (Nat.div_lt_self (by omega) hbase) h
        · exact ⟨_, Nat.mod_lt _ (by omega), List.mem_singleton.mp h⟩

theorem digit_ne_zero : ∀ d < 16, (Nat.digitChar d).toUInt8 ≠ 0 ∧
    (Nat.digitChar d).toUpper.toUInt8 ≠ 0 := by
  decide

/-- No digit is a NUL. -/
theorem digitsOf_ne_zero {base : Nat} (hbase : 1 < base) (hle : base ≤ 16) (n : Nat) :
    ∀ ch ∈ digitsOf base n, ch ≠ 0 := by
  intro ch hch
  obtain ⟨c, hc, rfl⟩ := List.mem_map.mp hch
  obtain ⟨d, hd, rfl⟩ := digitChar_mem hbase hc
  exact (digit_ne_zero d (by omega)).1

theorem capitalDigitsOf_ne_zero (n : Nat) : ∀ ch ∈ capitalDigitsOf 16 n, ch ≠ 0 := by
  intro ch hch
  obtain ⟨c, hc, rfl⟩ := List.mem_map.mp hch
  obtain ⟨d, hd, rfl⟩ := digitChar_mem (by decide) hc
  exact (digit_ne_zero d hd).2

/-! ## the room for digits -/

/-- The buffer has room for the digits and their NUL. -/
theorem length_digitsOf {base : Nat} (hbase : 8 ≤ base) (num : UInt64) :
    (digitsOf base num.toNat).length ≤ 63 := by
  have hpow : 8 ^ 63 ≤ base ^ 63 := Nat.pow_le_pow_left hbase 63
  have hnum := num.toNat_lt
  rw [digitsOf, List.length_map, Nat.length_toDigits_le_iff (by omega) (by decide)]
  omega

/-- The numbers are written in these ways. -/
theorem length_write {base : Base}
    (hbase : base ∈ [.decimal, .bits .octal 0, .bits .hex 0, .bits .hex 16]) (num : UInt64) :
    (base.write num).length ≤ 63 := by
  simp only [List.mem_cons, List.not_mem_nil, or_false] at hbase
  rcases hbase with rfl | rfl | rfl | rfl
  · rw [writeDecimal_eq]
    exact length_digitsOf (by decide) num
  · rw [writeOctal_eq]
    exact length_digitsOf (by decide) num
  · rw [writeCapitalHex_eq, capitalDigitsOf, List.length_map]
    have hlen : (digitsOf 16 num.toNat).length ≤ 63 := length_digitsOf (by decide) num
    rwa [digitsOf, List.length_map] at hlen
  · rw [writeHex_eq]
    exact length_digitsOf (by decide) num

theorem convertNumber_cons (flags : Flags) (arg : UInt64) (args : List UInt64) (base : Base) :
    convertNumber flags (arg :: args) base =
      pure ⟨(narrow flags arg).1, .lit (base.write (narrow flags arg).2), args⟩ := rfl

/-- No conversion writes more than the 63 bytes in front of the NUL of `buf`. -/
theorem length_convert {flags : Flags} {arg : UInt64} {args : List UInt64} {text : List UInt8}
    {conversion : Conversion} {conv : Converted}
    (hconv : convert flags (arg :: args) conversion = pure conv) (hstr : conv.str = .lit text) :
    text.length ≤ 63 := by
  have of_write : ∀ {base : Base} {num : UInt64},
      base ∈ [.decimal, .bits .octal 0, .bits .hex 0, .bits .hex 16] →
      conv.str = .lit (base.write num) → text.length ≤ 63 := by
    intro base num hbase h
    rw [h] at hstr
    rw [← CharPtr.lit.inj hstr]
    exact length_write hbase num
  have of_lit : ∀ text', text'.length ≤ 63 → conv.str = .lit text' → text.length ≤ 63 := by
    intro text' hlen h
    rw [h] at hstr
    rwa [← CharPtr.lit.inj hstr]
  cases conversion with
  | x | X | d | u | o =>
      exact of_write (by simp) (congrArg Converted.str (ret.inj hconv)).symm
  | c => exact of_lit [arg.toUInt8] (by simp) (congrArg Converted.str (ret.inj hconv)).symm
  | p =>
      by_cases h0 : arg = 0
      · have hnil := congrArg Converted.str (ret.inj ((if_pos h0).symm.trans hconv))
        exact of_lit _ (by decide) hnil.symm
      · have hnum := congrArg Converted.str (ret.inj ((if_neg h0).symm.trans hconv))
        exact of_write (by simp) hnum.symm
  | s =>
      by_cases h0 : arg = 0
      · have hnull := congrArg Converted.str (ret.inj ((if_pos h0).symm.trans hconv))
        exact of_lit _ (by decide) hnull.symm
      · have hmem := congrArg Converted.str (ret.inj ((if_neg h0).symm.trans hconv))
        rw [← hmem] at hstr
        cases hstr

end UefiKernel.Console
