import Mathlib.Algebra.Group.Int.Defs
import UefiKernel.Console.Formatter
import UefiKernel.Console.Syscall

/-!
# UefiKernel.Console.Value

System call 1, which prints a user's value.

The value is passed as a `long` and printed as an `int`, so it comes out as it
is exactly if it fits into 32 bits (`printsValue_iff`).
-/

namespace UefiKernel.Console

open Interact Prog

/-- The text in front of the value. -/
def valuePrefix : List UInt8 := bytes "The passed variable has the following value: "

/-- The text behind it. -/
def valueSuffix : List UInt8 := bytes " \n"

/-- A number in decimal: its digits, with a `-` in front of a negative one. -/
def decimal (n : Int) : List UInt8 :=
  (if n < 0 then bytes "-" else []) ++ digitsOf 10 n.natAbs

/-- System call 1 prints exactly the first text, `a1`, the second text and the
final NUL, and returns 0. -/
def PrintsValue (m : Machine) (a1 a2 a3 a4 a5 : Int64) : Prop :=
  ∃ g, Run m.env ({}, doSyscallEntry 1 a1 a2 a3 a4 a5) (g, .ret 0) ∧
    g.out = valuePrefix ++ decimal a1.toInt ++ valueSuffix ++ [0]

/-! ## decimals -/

theorem decimalFrom_append (n : Nat) (digits digits' : List UInt8) :
    decimalFrom n (digits ++ digits') = decimalFrom (decimalFrom n digits) digits' :=
  List.foldl_append ..

theorem digitChar_value : ∀ d < 10,
    isDigit (Nat.digitChar d).toUInt8 = true ∧ (Nat.digitChar d).toUInt8.toNat - '0'.toNat = d := by
  decide

/-- The digits of a number stand for it. -/
theorem decimalFrom_digitsOf (n : Nat) : decimalFrom 0 (digitsOf 10 n) = n := by
  induction n using Nat.strongRecOn with
  | ind n ih =>
      have hlast := (digitChar_value (n % 10) (Nat.mod_lt n (by decide))).2
      have hsplit : digitsOf 10 n ++ [] = _ := digitsOf_append (by decide) []
      rw [List.append_nil] at hsplit
      rw [hsplit, decimalFrom_append]
      by_cases hlt : n < 10
      · rw [if_pos hlt]
        show 10 * 0 + _ = n
        omega
      · rw [if_neg hlt]
        show 10 * decimalFrom 0 (digitsOf 10 (n / 10)) + _ = n
        rw [ih (n / 10) (by omega)]
        omega

theorem isDigit_of_mem_digitsOf {n : Nat} {ch : UInt8} (h : ch ∈ digitsOf 10 n) :
    isDigit ch = true := by
  obtain ⟨c, hc, rfl⟩ := List.mem_map.mp h
  obtain ⟨d, hd, rfl⟩ := digitChar_mem (by decide) hc
  exact (digitChar_value d hd).1

/-- No digits begin with a `-`. -/
theorem digitsOf_ne_minus (n : Nat) (text : List UInt8) : digitsOf 10 n ≠ bytes "-" ++ text := by
  intro h
  have hminus : '-'.toUInt8 ∈ digitsOf 10 n := by
    rw [h]
    exact List.mem_cons_self
  exact absurd (isDigit_of_mem_digitsOf hminus) (by decide)

/-- Different numbers are written differently. -/
theorem decimal_inj {n k : Int} (h : decimal n = decimal k) : n = k := by
  have hdigits : ∀ {i j : Nat}, digitsOf 10 i = digitsOf 10 j → i = j := by
    intro i j hij
    rw [← decimalFrom_digitsOf i, hij, decimalFrom_digitsOf]
  unfold decimal at h
  by_cases hn : n < 0 <;> by_cases hk : k < 0
  · rw [if_pos hn, if_pos hk] at h
    have := hdigits (List.append_cancel_left h)
    omega
  · rw [if_pos hn, if_neg hk] at h
    exact absurd h.symm (digitsOf_ne_minus _ _)
  · rw [if_neg hn, if_pos hk] at h
    exact absurd h (digitsOf_ne_minus _ _)
  · rw [if_neg hn, if_neg hk] at h
    have := hdigits h
    omega

/-! ## what is printed -/

/-- `%d` shows any argument, as the `int` that is made of it. -/
theorem exists_intDirective : ∃ d : Directive, d.text = bytes "%d" ∧ ∀ strings arg,
    (∀ m, d.verb.Accepts m strings arg) ∧
      d.render strings arg = decimal (arg.toBitVec.setWidth 32).toInt := by
  refine ⟨⟨0, false, [], none, .d, fun _ h => absurd h List.not_mem_nil, by decide, by decide⟩,
    rfl, fun strings arg => ⟨fun _ => trivial, ?_⟩⟩
  unfold decimal
  show Field.pad ⟨_, _, true⟩ false false 0 = _
  simp only [Field.pad, Nat.zero_sub, List.replicate_zero, Bool.false_and, List.nil_append,
    Bool.false_eq_true, if_false]
  rfl

/-- What system call 1 does. -/
theorem run_doSyscallEntry_one (m : Machine) (a1 a2 a3 a4 a5 : Int64) :
    Run m.env ({}, doSyscallEntry 1 a1 a2 a3 a4 a5)
      (({} : Trace).print (valuePrefix ++ decimal (a1.toBitVec.setWidth 32).toInt ++ valueSuffix ++
        [0]), ret 0) := by
  obtain ⟨before, htext, hrender, hmatches⟩ :=
    exists_plain_items_append (show 0 ∉ valuePrefix by decide) (by decide)
  obtain ⟨after, htext', hrender', hmatches'⟩ :=
    exists_plain_items_append (show 0 ∉ valueSuffix by decide) (by decide)
  obtain ⟨d, hd, hint⟩ := exists_intDirective
  have hfmt : m.HasText (.lit valueFormat)
      ((before ++ .directive d :: after).flatMap Item.text) := by
    have hformat : valueFormat = valuePrefix ++ (bytes "%d" ++ valueSuffix) := by decide
    rw [List.flatMap_append, List.flatMap_cons, htext, htext', Item.text, hd, ← hformat]
    exact Machine.hasText_lit (forall_mem_bytes (by decide))
  have hargs : Matches m (fun _ => []) (before ++ .directive d :: after) [a1.toUInt64] := by
    have hafter := (hmatches' m (fun _ => []) [] []).mpr trivial
    rw [List.append_nil] at hafter
    exact (hmatches _ _ _ _).mpr ⟨(hint _ _).1 m, hafter⟩
  have hbody := Machine.run_doVprintfBody hfmt hargs {}
  have hafter := hrender' (fun _ => []) [] []
  rw [List.append_nil, render, List.append_nil] at hafter
  rw [hrender, render, hafter, (hint _ _).2, ← List.append_assoc] at hbody
  rw [doSyscallEntry_one, ← Trace.print_print]
  exact (hbody.seq ((Machine.run_fn 0 _).seq .refl)).seq .refl

/-- Which is to print the value, if it is the same as an `int`. -/
theorem printsValue_iff_toInt {m : Machine} {a1 a2 a3 a4 a5 : Int64} :
    PrintsValue m a1 a2 a3 a4 a5 ↔ (a1.toBitVec.setWidth 32).toInt = a1.toInt := by
  have hrun := run_doSyscallEntry_one m a1 a2 a3 a4 a5
  constructor
  · rintro ⟨g, hr, hout⟩
    have hone := wp_of_deterministic m.deterministic hrun (Q := fun _ g' => g' = _) rfl
    obtain rfl := post_of_run hone hr
    exact decimal_inj (List.append_cancel_left
      (List.append_cancel_right (List.append_cancel_right hout)))
  · intro h
    rw [h] at hrun
    exact ⟨_, hrun, rfl⟩

theorem toInt_setWidth_iff (n : Int64) :
    (n.toBitVec.setWidth 32).toInt = n.toInt ↔ -2 ^ 31 ≤ n.toInt ∧ n.toInt < 2 ^ 31 := by
  have hlt : n.toBitVec.toNat < 2 ^ 64 := n.toBitVec.isLt
  have hint : n.toInt = if 2 * n.toBitVec.toNat < 2 ^ 64 then (n.toBitVec.toNat : Int)
      else n.toBitVec.toNat - (2 ^ 64 : Nat) := BitVec.toInt_eq_toNat_cond n.toBitVec
  rw [BitVec.toInt_setWidth, Int.bmod_def]
  split at hint <;> split <;> omega

/-! ## exactly when -/

/-- **System call 1 prints the value** exactly if it fits into an `int`. -/
theorem printsValue_iff {m : Machine} {a1 a2 a3 a4 a5 : Int64} :
    PrintsValue m a1 a2 a3 a4 a5 ↔ -2 ^ 31 ≤ a1.toInt ∧ a1.toInt < 2 ^ 31 :=
  printsValue_iff_toInt.trans (toInt_setWidth_iff a1)

/-- The value 2^31 comes out negative. -/
theorem value_garbled :
    ¬ ∀ (m : Machine) (a1 a2 a3 a4 a5 : Int64), PrintsValue m a1 a2 a3 a4 a5 := by
  intro h
  exact absurd (printsValue_iff_toInt.mp (h bareMachine 0x80000000 0 0 0 0)) (by decide)

end UefiKernel.Console
