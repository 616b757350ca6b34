import Mathlib.Algebra.Order.Floor.Semifield
import Mathlib.Data.Rat.Floor
import UefiKernel.Xen.Clock

/-!
# UefiKernel.Xen.Waiting

The arithmetic of the clock, and how long `wait` waits.

`TimeRecord.nanoseconds` is the time a record stands for in exact arithmetic,
with the two roundings that its format prescribes.  `toNat_time`: where nothing
overflows, the shifts and the 64 by 32 bit product of `kernel.c` compute it.
`clock_exact` puts that together with the loops of `pvclock_monotonic_read` and
`wait`, for a published record that stands still and any sequence of readings
of the counter.
-/

namespace UefiKernel.Xen

open Interact Prog Seqlock

/-! ## exact time -/

/-- The nanoseconds since the record's time stamp, before the multiplication:
`floor((tsc - tsc_timestamp) * 2^tsc_shift)`. -/
def TimeRecord.ticks (d : TimeRecord) (tsc : UInt64) : Nat :=
  ⌊((tsc.toNat : ℚ) - d.tscTimestamp.toNat) * 2 ^ d.tscShift.toInt⌋₊

/-- The time at a reading of the counter. -/
def TimeRecord.nanoseconds (d : TimeRecord) (tsc : UInt64) : Nat :=
  d.systemTime.toNat + ⌊(d.ticks tsc : ℚ) * d.tscToSystemMul.toNat / 2 ^ 32⌋₊

/-- A reading at which nothing overflows. -/
structure TimeRecord.Fits (d : TimeRecord) (tsc : UInt64) : Prop where
  shift : -63 ≤ d.tscShift.toInt ∧ d.tscShift.toInt ≤ 63
  after : d.tscTimestamp ≤ tsc
  scaled : ((tsc.toNat : ℚ) - d.tscTimestamp.toNat) * 2 ^ d.tscShift.toInt < 2 ^ 64
  sum : d.nanoseconds tsc < 2 ^ 64

section Exact

variable {d : TimeRecord} {tsc : UInt64}

/-- The difference of a later reading. -/
theorem cast_sub_timestamp (h : d.tscTimestamp ≤ tsc) :
    (tsc.toNat : ℚ) - d.tscTimestamp.toNat = ((tsc.toNat - d.tscTimestamp.toNat : Nat) : ℚ) :=
  (Nat.cast_sub (UInt64.le_iff_toNat_le.mp h)).symm

/-- The two directions of the shift. -/
theorem ticks_of_neg (h : d.tscTimestamp ≤ tsc) {k : Nat} (hk : d.tscShift.toInt = -(k : Int)) :
    d.ticks tsc = (tsc.toNat - d.tscTimestamp.toNat) / 2 ^ k := by
  have hpow : (2 : ℚ) ^ k = ((2 ^ k : Nat) : ℚ) := by rw [Nat.cast_pow, Nat.cast_ofNat]
  rw [TimeRecord.ticks, cast_sub_timestamp h, hk, zpow_neg, zpow_natCast, ← div_eq_mul_inv, hpow,
    Nat.floor_div_eq_div]

theorem ticks_of_nonneg (h : d.tscTimestamp ≤ tsc) {k : Nat} (hk : d.tscShift.toInt = (k : Int)) :
    ((tsc.toNat : ℚ) - d.tscTimestamp.toNat) * 2 ^ d.tscShift.toInt =
      (((tsc.toNat - d.tscTimestamp.toNat) * 2 ^ k : Nat) : ℚ) := by
  rw [cast_sub_timestamp h, hk, zpow_natCast, Nat.cast_mul, Nat.cast_pow, Nat.cast_ofNat]

/-- In whole numbers. -/
theorem nanoseconds_eq (d : TimeRecord) (tsc : UInt64) :
    d.nanoseconds tsc =
      d.systemTime.toNat + d.ticks tsc * d.tscToSystemMul.toNat / 2 ^ 32 := by
  have hpow : (2 : ℚ) ^ 32 = ((2 ^ 32 : Nat) : ℚ) := by rw [Nat.cast_pow, Nat.cast_ofNat]
  rw [TimeRecord.nanoseconds, ← Nat.cast_mul, hpow, Nat.floor_div_eq_div]

/-- Time does not go back. -/
theorem nanoseconds_mono {tsc' : UInt64} (h : tsc ≤ tsc') :
    d.nanoseconds tsc ≤ d.nanoseconds tsc' := by
  have hcast : (tsc.toNat : ℚ) ≤ tsc'.toNat := Nat.cast_le.mpr (UInt64.le_iff_toNat_le.mp h)
  have hticks : d.ticks tsc ≤ d.ticks tsc' := by
    refine Nat.floor_mono (mul_le_mul_of_nonneg_right ?_ ?_)
    · exact sub_le_sub_right hcast _
    · exact (zpow_pos two_pos _).le
  rw [nanoseconds_eq, nanoseconds_eq]
  exact Nat.add_le_add_left (Nat.div_le_div_right (Nat.mul_le_mul_right _ hticks)) _

/-! ## the arithmetic of `kernel.c` -/

/-- `mul64_32` is exact: the product does not overflow. -/
theorem toNat_mul64_32 (a : UInt64) (b : UInt32) :
    (mul64_32 a b).toNat = a.toNat * b.toNat / 2 ^ 32 := by
  have hlt : a.toNat * b.toNat / 2 ^ 32 < 2 ^ 64 := by
    refine Nat.div_lt_of_lt_mul ?_
    rw [Nat.mul_comm (2 ^ 32)]
    exact Nat.mul_lt_mul'' a.toNat_lt b.toNat_lt
  rw [mul64_32, UInt64.toNat_ofNat']
  exact Nat.mod_eq_of_lt hlt

theorem toNat_ofInt_natCast {k : Nat} (hk : k < 64) : (UInt64.ofInt (k : Int)).toNat = k := by
  rw [UInt64.ofInt, UInt64.toNat_ofNat']
  omega

/-- The negated shift count is the one that is meant. -/
theorem toNat_shiftRightNeg (delta : UInt64) {shift : Int8} {k : Nat}
    (hk : shift.toInt = -(k : Int)) (hlt : k < 64) :
    (shiftRightNeg delta shift).toNat = delta.toNat / 2 ^ k := by
  rw [shiftRightNeg, hk, Int.neg_neg, UInt64.toNat_shiftRight, toNat_ofInt_natCast hlt,
    Nat.mod_eq_of_lt hlt, Nat.shiftRight_eq_div_pow]

theorem toNat_shiftLeft {delta : UInt64} {shift : Int8} {k : Nat} (hk : shift.toInt = (k : Int))
    (hlt : k < 64) (hfits : delta.toNat * 2 ^ k < 2 ^ 64) :
    (shiftLeft delta shift).toNat = delta.toNat * 2 ^ k := by
  rw [shiftLeft, hk, UInt64.toNat_shiftLeft, toNat_ofInt_natCast hlt, Nat.mod_eq_of_lt hlt,
    Nat.shiftLeft_eq, Nat.mod_eq_of_lt hfits]

theorem int8_neg_iff {shift : Int8} : shift < 0 ↔ shift.toInt < 0 := Int8.lt_iff_toInt_lt

/-- The shift, either way. -/
theorem toNat_scaled (h : d.Fits tsc) :
    (if d.tscShift < 0 then shiftRightNeg (tsc - d.tscTimestamp) d.tscShift
      else shiftLeft (tsc - d.tscTimestamp) d.tscShift).toNat = d.ticks tsc := by
  obtain ⟨⟨hlow, hhigh⟩, hafter, hscaled, -⟩ := h
  have hdelta : (tsc - d.tscTimestamp).toNat = tsc.toNat - d.tscTimestamp.toNat :=
    UInt64.toNat_sub_of_le _ _ hafter
  split
  · next hneg =>
      rw [int8_neg_iff] at hneg
      obtain ⟨k, hk⟩ := Int.exists_eq_neg_ofNat (Int.le_of_lt hneg)
      rw [toNat_shiftRightNeg _ hk (by omega), hdelta, ticks_of_neg hafter hk]
  · next hneg =>
      rw [int8_neg_iff] at hneg
      obtain ⟨k, hk⟩ := Int.eq_ofNat_of_zero_le (Int.not_lt.mp hneg)
      have heq := ticks_of_nonneg hafter hk
      have hfits : (tsc.toNat - d.tscTimestamp.toNat) * 2 ^ k < 2 ^ 64 := by
        rw [heq] at hscaled
        exact_mod_cast hscaled
      rw [← hdelta] at hfits
      rw [toNat_shiftLeft hk (by omega) hfits, hdelta, TimeRecord.ticks, heq, Nat.floor_natCast]

/-- **The arithmetic is exact.** -/
theorem toNat_time (h : d.Fits tsc) : (d.time tsc).toNat = d.nanoseconds tsc := by
  have hsum := h.sum
  rw [nanoseconds_eq] at hsum ⊢
  rw [TimeRecord.time, UInt64.toNat_add, toNat_mul64_32, toNat_scaled h, Nat.add_comm]
  exact Nat.mod_eq_of_lt hsum

end Exact

/-! ## readings of the counter -/

/-- The record stands still, and the counter is found at `tsc n` when it is
read for the `n`-th time. -/
def stillClock (s : State TimeRecord) (tsc : Nat → UInt64) (n : Nat) :
    (e : XenEvent) → e.Answer × Nat
  | .rdtsc => (tsc n, n + 1)
  | e => (timeAnswer s e, n)

def clockEnv (s : State TimeRecord) (tsc : Nat → UInt64) (n : Nat) (e : XenEvent) (r : e.Answer)
    (n' : Nat) : Prop := stillClock s tsc n e = (r, n')

/-- The record is published, not being written. -/
def Published (s : State TimeRecord) : Prop := s.count % 2 = 0

/-- Behind an update the version is even. -/
theorem Published.version_even {s : State TimeRecord} (h : Published s) : s.version &&& 1 = 0 := by
  have hnat : (s.version &&& 1).toNat = 0 := by
    rw [UInt32.toNat_and, State.version, UInt32.toNat_ofNat']
    have hone := Nat.and_one_is_mod (s.count % 2 ^ 32)
    rw [Published] at h
    show s.count % 2 ^ 32 &&& 1 = 0
    omega
  exact UInt32.toNat_inj.mp hnat

section Runs

variable {s : State TimeRecord} {tsc : Nat → UInt64}

/-- The record stays as it is, and the counter has one value at each look. -/
theorem deterministic_clockEnv : Deterministic (clockEnv s tsc) := by
  intro n e r₁ n₁ r₂ n₂ h₁ h₂
  obtain ⟨rfl, rfl⟩ := Prod.mk.inj (h₁.symm.trans h₂)
  exact ⟨rfl, rfl⟩

theorem run_pvclockTi (field : TimeField) (n : Nat) :
    Run (clockEnv s tsc) (n, pvclockTi field) (n, ret (timeAnswer s (.loadTime field))) := by
  have he : clockEnv s tsc n (.loadTime field) (timeAnswer s (.loadTime field)) n := rfl
  exact .req he

theorem run_rdtsc (n : Nat) : Run (clockEnv s tsc) (n, rdtsc) (n + 1, ret (tsc n)) := by
  have he : clockEnv s tsc n .rdtsc (tsc n) (n + 1) := rfl
  exact .req he

/-- The shift is chosen by its sign. -/
theorem run_scaleDelta (delta : UInt64) (n : Nat) :
    Run (clockEnv s tsc) (n, scaleDelta delta)
      (n, ret (if s.data.tscShift < 0 then shiftRightNeg delta s.data.tscShift
        else shiftLeft delta s.data.tscShift)) := by
  unfold scaleDelta
  refine (run_pvclockTi .tscShift n).seq ?_
  by_cases hneg : s.data.tscShift < 0
  · rw [if_pos hneg]
    have hcond : timeAnswer s (.loadTime .tscShift) < 0 := hneg
    rw [if_pos hcond]
    exact (run_pvclockTi .tscShift n).seq .refl
  · rw [if_neg hneg]
    have hcond : ¬ timeAnswer s (.loadTime .tscShift) < 0 := hneg
    rw [if_neg hcond]
    exact (run_pvclockTi .tscShift n).seq .refl

/-- The version has not changed. -/
theorem run_versionChanged (hs : Published s) (n : Nat) :
    Run (clockEnv s tsc) (n, versionChanged (pvclockTi .version) s.version) (n, ret false) := by
  unfold versionChanged
  refine (run_pvclockTi .version n).seq ?_
  have heven : ¬ timeAnswer s (.loadTime .version) &&& 1 ≠ 0 := not_not_intro hs.version_even
  rw [if_neg heven]
  refine (run_pvclockTi .version n).seq ?_
  have hsame : decide (timeAnswer s (.loadTime .version) ≠ s.version) = false :=
    decide_eq_false (not_not_intro rfl)
  rw [hsame]
  exact .refl

/-- A read of the clock. -/
theorem run_pvclockMonotonicRead (hs : Published s) (n : Nat) :
    Run (clockEnv s tsc) (n, pvclockMonotonicRead) (n + 1, ret (s.data.time (tsc n))) := by
  refine Run.leave ?_ .refl
  refine (run_pvclockTi .version n).seq ?_
  refine (run_rdtsc n).seq ?_
  refine (run_pvclockTi .tscTimestamp (n + 1)).seq ?_
  refine (run_scaleDelta _ (n + 1)).seq ?_
  refine (run_pvclockTi .tscToSystemMul (n + 1)).seq ?_
  refine (run_pvclockTi .systemTime (n + 1)).seq ?_
  exact (run_versionChanged hs (n + 1)).seq .refl

end Runs

/-! ## waiting -/

/-- `secs` seconds have passed from one reading to the other. -/
def TimeRecord.Elapsed (d : TimeRecord) (secs : UInt32) (start tsc : UInt64) : Prop :=
  d.nanoseconds start + secs.toNat * 10 ^ 9 ≤ d.nanoseconds tsc

/-- The first of the readings after the one at the start at which the time has
passed. -/
def FirstElapsed (d : TimeRecord) (secs : UInt32) (tsc : Nat → UInt64) (n : Nat) : Prop :=
  0 < n ∧ d.Elapsed secs (tsc 0) (tsc n) ∧ ∀ i, 0 < i → i < n → ¬ d.Elapsed secs (tsc 0) (tsc i)

/-- The loop of `wait`. -/
def waitFrom (time : UInt64) (secs : UInt32) : XenM Unit :=
  loop (fun _ : Unit => do
    let timeNow ← pvclockMonotonicRead
    if (timeNow - time) / nsecPerSec < secs.toUInt64 then
      return .inl ()
    return .inr ()) ()

theorem wait_eq (secs : UInt32) :
    wait secs = pvclockMonotonicRead >>= fun time => waitFrom time secs := rfl

/-- The test of the loop. -/
theorem waits_iff {d : TimeRecord} {start tsc : UInt64} (hstart : d.Fits start) (htsc : d.Fits tsc)
    (hle : start ≤ tsc) (secs : UInt32) :
    (d.time tsc - d.time start) / nsecPerSec < secs.toUInt64 ↔ ¬ d.Elapsed secs start tsc := by
  have hmono := nanoseconds_mono (d := d) hle
  have htime : d.time start ≤ d.time tsc := by
    rw [UInt64.le_iff_toNat_le, toNat_time hstart, toNat_time htsc]
    exact hmono
  have hsec : nsecPerSec.toNat = 10 ^ 9 := rfl
  rw [UInt64.lt_iff_toNat_lt, UInt64.toNat_div, UInt64.toNat_sub_of_le _ _ htime,
    toNat_time hstart, toNat_time htsc, hsec, UInt32.toNat_toUInt64,
    Nat.div_lt_iff_lt_mul (by decide), TimeRecord.Elapsed]
  omega

section Wait

variable {s : State TimeRecord} (hs : Published s) {tsc : Nat → UInt64}
  (hfits : ∀ n, s.data.Fits (tsc n)) (hmono : ∀ i j, i ≤ j → tsc i ≤ tsc j) {secs : UInt32}

include hs hfits hmono

/-- Once `i` readings are made, the loop makes those up to the first at which
the time has passed. -/
theorem run_waitFrom {n : Nat} (h : FirstElapsed s.data secs tsc n) {i : Nat} (hi : 0 < i)
    (hin : i ≤ n) :
    Run (clockEnv s tsc) (i, waitFrom (s.data.time (tsc 0)) secs) (n + 1, ret ()) := by
  obtain ⟨k, rfl⟩ := Nat.exists_eq_add_of_le hin
  have htest := waits_iff (hfits 0) (hfits i) (hmono 0 i (Nat.zero_le i)) secs
  induction k generalizing i with
  | zero =>
      refine Run.leave ((run_pvclockMonotonicRead hs i).seq ?_) .refl
      rw [if_neg fun hwaits => htest.mp hwaits h.2.1]
      exact .refl
  | succ k ih =>
      have heq : i + (k + 1) = i + 1 + k := by omega
      rw [heq] at h ⊢
      refine Run.again ((run_pvclockMonotonicRead hs i).seq ?_) (ih (Nat.succ_pos i) h
        (Nat.le_add_right _ _) (waits_iff (hfits 0) (hfits _) (hmono 0 _ (Nat.zero_le _)) secs))
      rw [if_pos (htest.mpr (h.2.2 i hi (by omega)))]
      exact .refl

/-- It ends at the first reading that is late enough. -/
theorem run_wait {n : Nat} (h : FirstElapsed s.data secs tsc n) :
    Run (clockEnv s tsc) (0, wait secs) (n + 1, ret ()) := by
  rw [wait_eq]
  exact (run_pvclockMonotonicRead hs 0).seq (run_waitFrom hs hfits hmono h Nat.one_pos h.1)

/-- `wait` returns at no other reading. -/
theorem wp_wait : wp (clockEnv s tsc) (fun _ _ => True) (wait secs)
    (fun _ m => ∃ n, m = n + 1 ∧ FirstElapsed s.data secs tsc n) 0 := by
  have hread : ∀ {n : Nat} {Q : UInt64 → Nat → Prop}, Q (s.data.time (tsc n)) (n + 1) →
      wp (clockEnv s tsc) (fun _ _ => True) pvclockMonotonicRead Q n :=
    fun hQ => wp_of_deterministic deterministic_clockEnv (run_pvclockMonotonicRead hs _) hQ
  rw [wait_eq, wp_bind']
  refine hread (wp_loop
    (fun _ i => 0 < i ∧ ∀ j, 0 < j → j < i → ¬ s.data.Elapsed secs (tsc 0) (tsc j))
    ⟨Nat.one_pos, fun j hj hj' => by omega⟩ ?_)
  rintro - i ⟨hi, hnone⟩
  rw [wp_bind']
  refine hread ?_
  rw [wp_ite, waits_iff (hfits 0) (hfits i) (hmono 0 i (Nat.zero_le i))]
  refine ⟨fun hwaits => ⟨Nat.succ_pos i, fun j hj hji => ?_⟩, fun hdone => ?_⟩
  · rcases Nat.lt_succ_iff_lt_or_eq.mp hji with hlt | rfl
    · exact hnone j hj hlt
    · exact hwaits
  · exact ⟨i, rfl, hi, Classical.not_not.mp hdone, hnone⟩

end Wait

/-! ## the clock -/

/-- With the counter at `tsc`, `pvclock_monotonic_read` returns `value`. -/
def ReadsAs (s : State TimeRecord) (tsc value : UInt64) : Prop :=
  ∀ (readings : Nat → UInt64) (n : Nat), readings n = tsc → ∀ c,
    Run (clockEnv s readings) (n, pvclockMonotonicRead) c →
      Run (clockEnv s readings) c (n + 1, ret value)

/-- A reading of the clock is the record's time. -/
theorem readsAs_time {s : State TimeRecord} (hs : Published s) (tsc : UInt64) :
    ReadsAs s tsc (s.data.time tsc) := by
  rintro readings n rfl c hc
  exact (run_pvclockMonotonicRead hs n).goes_on deterministic_clockEnv hc

/-- And nothing else. -/
theorem ReadsAs.eq {s : State TimeRecord} (hs : Published s) {tsc value : UInt64}
    (h : ReadsAs s tsc value) : value = s.data.time tsc := by
  have hread : wp (clockEnv s fun _ => tsc) (fun _ _ => True) pvclockMonotonicRead
      (fun v _ => v = s.data.time tsc) 0 :=
    wp_of_deterministic deterministic_clockEnv (run_pvclockMonotonicRead hs 0) rfl
  have hr := h (fun _ => tsc) 0 rfl _ .refl
  have heq := post_of_run hread hr
  exact heq

/-- **The clock is exact and monotone, and `wait` is never early**: against a
published record that stands still, a read of the clock returns the exact time;
a later reading of the counter gives no earlier time; and `wait` returns after
the first reading at which its time has passed, and after no other. -/
theorem clock_exact {s : State TimeRecord} (hs : Published s) :
    (∀ tsc, s.data.Fits tsc →
      ∃ value, ReadsAs s tsc value ∧ value.toNat = s.data.nanoseconds tsc) ∧
    (∀ tsc tsc' value value', s.data.Fits tsc → s.data.Fits tsc' → tsc ≤ tsc' →
      ReadsAs s tsc value → ReadsAs s tsc' value' → value ≤ value') ∧
    ∀ (secs : UInt32) (tsc : Nat → UInt64), (∀ n, s.data.Fits (tsc n)) →
      (∀ i j, i ≤ j → tsc i ≤ tsc j) →
      (∀ n, FirstElapsed s.data secs tsc n → ∀ c, Run (clockEnv s tsc) (0, wait secs) c →
        Run (clockEnv s tsc) c (n + 1, ret ())) ∧
      ∀ m, Run (clockEnv s tsc) (0, wait secs) (m, ret ()) →
        ∃ n, m = n + 1 ∧ FirstElapsed s.data secs tsc n := by
  refine ⟨fun tsc hfits => ⟨_, readsAs_time hs tsc, toNat_time hfits⟩, ?_, ?_⟩
  · intro tsc tsc' value value' hfits hfits' hle hvalue hvalue'
    rw [hvalue.eq hs, hvalue'.eq hs, UInt64.le_iff_toNat_le, toNat_time hfits, toNat_time hfits']
    exact nanoseconds_mono hle
  · intro secs tsc hfits hmono
    refine ⟨fun n h c hc => ?_, fun m hm => post_of_run (wp_wait hs hfits hmono) hm⟩
    exact (run_wait hs hfits hmono h).goes_on deterministic_clockEnv hc

/-! ### one second at 1 GHz -/

theorem nanoseconds_recordBefore {tsc : UInt64} (h : 100 ≤ tsc) :
    recordBefore.data.nanoseconds tsc = 5 + (tsc.toNat - 100) := by
  have hticks : recordBefore.data.ticks tsc = (tsc.toNat - 100) * 2 ^ 1 := by
    rw [TimeRecord.ticks, ticks_of_nonneg h (k := 1) (by decide), Nat.floor_natCast]
    rfl
  have hsystem : recordBefore.data.systemTime.toNat = 5 := rfl
  have hmul : recordBefore.data.tscToSystemMul.toNat = 2 ^ 31 := rfl
  rw [nanoseconds_eq, hticks, hsystem, hmul]
  omega

theorem fits_recordBefore {tsc : UInt64} (h : 100 ≤ tsc) (hlt : tsc.toNat < 2 ^ 62) :
    recordBefore.data.Fits tsc where
  shift := by decide
  after := h
  scaled := by
    have hstamp : recordBefore.data.tscTimestamp.toNat = 100 := rfl
    have hnat : (tsc.toNat - 100) * 2 ^ 1 < 2 ^ 64 := by omega
    rw [ticks_of_nonneg h (k := 1) (by decide), hstamp]
    exact_mod_cast hnat
  sum := by
    rw [nanoseconds_recordBefore h]
    omega

/-- Two readings, one second apart. -/
def secondApart (n : Nat) : UInt64 := if n = 0 then 100 else 1000000100

theorem clock_exact_sample :
    Run (clockEnv recordBefore secondApart) (0, wait 1) (2, ret ()) := by
  have hlow : ∀ n, 100 ≤ secondApart n := by
    intro n
    unfold secondApart
    split <;> decide
  have hfits : ∀ n, recordBefore.data.Fits (secondApart n) := by
    intro n
    refine fits_recordBefore (hlow n) ?_
    unfold secondApart
    split <;> decide
  have hmono : ∀ i j, i ≤ j → secondApart i ≤ secondApart j := by
    intro i j hij
    unfold secondApart
    split
    · split <;> decide
    · rw [if_neg (by omega)]
      exact UInt64.le_refl _
  have hfirst : FirstElapsed recordBefore.data 1 secondApart 1 := by
    refine ⟨Nat.one_pos, ?_, fun i hi hi' => by omega⟩
    rw [TimeRecord.Elapsed, nanoseconds_recordBefore (hlow 0), nanoseconds_recordBefore (hlow 1)]
    decide
  exact ((clock_exact (s := recordBefore) rfl).2.2 1 secondApart hfits hmono).1 1 hfirst _ .refl

end UefiKernel.Xen
