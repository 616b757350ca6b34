import Mathlib.Algebra.Group.Nat.Defs
import Mathlib.Data.List.Nodup
import Mathlib.Logic.Function.Basic

/-!
# X64

Straight-line assembly with a stack, on a 64-bit x86 machine.

A state has the sixteen general-purpose registers, a memory of bytes and the
interrupt flag.  Addresses wrap around, so a block of bytes is given by the
distance from its first address (`InBlock`) or below its end (`Below`).

A call is a relation between the state at the callee's first instruction and
the state it returns to.  `Keeps` is what a caller relies on, in the states in
which it calls; `SysV` is that as the System V calling convention promises it,
where the stack is aligned.  The main result is about the way handlers and system
calls are entered: what is pushed before a call comes back when it is popped in
the opposite order (`call_restore`).
-/

namespace X64

/-! ## memory -/

/-- A memory of bytes. -/
abbrev Memory := UInt64 → UInt8

/-- The `n` bytes from `a` on. -/
def InBlock (a : UInt64) (n : Nat) (x : UInt64) : Prop := (x - a).toNat < n

/-- The `n` bytes below `a`. -/
def Below (a : UInt64) (n : Nat) (x : UInt64) : Prop := (a - 1 - x).toNat < n

/-- The number in `n` bytes, the low one first. -/
def loadBytes (m : Memory) (a : UInt64) : Nat → Nat
  | 0 => 0
  | n + 1 => (m a).toNat + 256 * loadBytes m (a + 1) n

/-- A quadword. -/
def load64 (m : Memory) (a : UInt64) : UInt64 := UInt64.ofNat (loadBytes m a 8)

def store64 (m : Memory) (a v : UInt64) : Memory := fun x =>
  if (x - a).toNat < 8 then UInt8.ofNat (v.toNat / 256 ^ (x - a).toNat) else m x

theorem store64_of_not_inBlock {m : Memory} {a v x : UInt64} (h : ¬ InBlock a 8 x) :
    store64 m a v x = m x := if_neg h

/-- A load depends on its bytes only. -/
theorem loadBytes_congr {m m' : Memory} {a : UInt64} {n : Nat} (hn : n ≤ 2 ^ 64)
    (h : ∀ x, InBlock a n x → m' x = m x) : loadBytes m' a n = loadBytes m a n := by
  induction n generalizing a with
  | zero => rfl
  | succ n ih =>
      have hfirst : InBlock a (n + 1) a := by simp [InBlock]
      have hrest : ∀ x, InBlock (a + 1) n x → m' x = m x := by
        intro x hx
        have ha := a.toNat_lt
        have hxlt := x.toNat_lt
        refine h x ?_
        simp only [InBlock, UInt64.toNat_sub, UInt64.toNat_add, UInt64.toNat_one] at hx ⊢
        omega
      rw [loadBytes, loadBytes, h a hfirst, ih (by omega) hrest]

/-- A quadword depends on its own bytes only. -/
theorem load64_congr {m m' : Memory} {a : UInt64} (h : ∀ x, InBlock a 8 x → m' x = m x) :
    load64 m' a = load64 m a := by
  rw [load64, load64, loadBytes_congr (by decide) h]

/-- A block inside a block. -/
theorem InBlock.shift {a x : UInt64} {i n k : Nat} (h : InBlock (a + UInt64.ofNat i) n x)
    (hk : i + n ≤ k) (hlt : i + n ≤ 2 ^ 64) : InBlock a k x := by
  have ha := a.toNat_lt
  have hx := x.toNat_lt
  have hi : (UInt64.ofNat i).toNat = i % 2 ^ 64 := UInt64.toNat_ofNat'
  simp only [InBlock, UInt64.toNat_sub, UInt64.toNat_add, hi] at h ⊢
  omega

/-- A number that lies in memory, from its byte `i` on. -/
theorem loadBytes_of_bytes {m : Memory} {a : UInt64} {v i n : Nat}
    (h : ∀ j < n, (m (a + UInt64.ofNat (i + j))).toNat = v / 256 ^ (i + j) % 256) :
    loadBytes m (a + UInt64.ofNat i) n = v / 256 ^ i % 256 ^ n := by
  induction n generalizing i with
  | zero => simp [loadBytes, Nat.mod_one]
  | succ n ih =>
      have hnext : a + UInt64.ofNat i + 1 = a + UInt64.ofNat (i + 1) := by
        rw [UInt64.ofNat_add, UInt64.add_assoc]
        rfl
      have hrest : ∀ j < n,
          (m (a + UInt64.ofNat (i + 1 + j))).toNat = v / 256 ^ (i + 1 + j) % 256 := by
        intro j hj
        have hj' := h (j + 1) (by omega)
        rwa [← Nat.add_assoc, Nat.add_right_comm] at hj'
      have hfirst := h 0 (Nat.succ_pos n)
      rw [Nat.add_zero] at hfirst
      rw [loadBytes, hfirst, hnext, ih hrest, Nat.pow_succ 256 n, Nat.mul_comm (256 ^ n),
        Nat.mod_mul, Nat.div_div_eq_div_mul, ← Nat.pow_succ]

/-- A part of a quadword is read back. -/
theorem loadBytes_store64 (m : Memory) (a v : UInt64) {i n : Nat} (h : i + n ≤ 8) :
    loadBytes (store64 m a v) (a + UInt64.ofNat i) n = v.toNat / 256 ^ i % 256 ^ n := by
  refine loadBytes_of_bytes fun j hj => ?_
  have hi : (a + UInt64.ofNat (i + j) - a).toNat = i + j := by
    rw [UInt64.add_comm, UInt64.add_sub_cancel, UInt64.toNat_ofNat']
    omega
  rw [store64, hi, if_pos (by omega), UInt8.toNat_ofNat']

/-- A quadword is loaded as it was stored. -/
theorem load64_store64 (m : Memory) (a v : UInt64) : load64 (store64 m a v) a = v := by
  have hbytes := loadBytes_store64 m a v (i := 0) (n := 8) (by omega)
  have hlt := v.toNat_lt
  have hzero : a + UInt64.ofNat 0 = a := UInt64.add_zero a
  rw [hzero, Nat.pow_zero, Nat.div_one] at hbytes
  rw [load64, hbytes, Nat.mod_eq_of_lt (by omega), UInt64.ofNat_toNat]

/-- Another quadword is as it was. -/
theorem load64_store64_of_apart {m : Memory} {a v : UInt64} {i j : Nat}
    (h : i + 8 ≤ j ∨ j + 8 ≤ i) (hi : i + 8 ≤ 2 ^ 64) (hj : j + 8 ≤ 2 ^ 64) :
    load64 (store64 m (a + UInt64.ofNat j) v) (a + UInt64.ofNat i) =
      load64 m (a + UInt64.ofNat i) := by
  refine load64_congr fun x hx => store64_of_not_inBlock fun hx' => ?_
  have ha := a.toNat_lt
  have hlt := x.toNat_lt
  have hi' : (UInt64.ofNat i).toNat = i % 2 ^ 64 := UInt64.toNat_ofNat'
  have hj' : (UInt64.ofNat j).toNat = j % 2 ^ 64 := UInt64.toNat_ofNat'
  simp only [InBlock, UInt64.toNat_sub, UInt64.toNat_add, hi', hj'] at hx hx'
  omega

theorem below_iff_inBlock {a x : UInt64} : Below a 8 x ↔ InBlock (a - 8) 8 x := by
  have ha := a.toNat_lt
  have hx := x.toNat_lt
  have h8 : (8 : UInt64).toNat = 8 := rfl
  simp only [InBlock, Below, UInt64.toNat_sub, UInt64.toNat_one, h8]
  omega

/-- The bytes below the first `k`. -/
theorem below_sub {a x : UInt64} {k n : Nat} (hn : n + k ≤ 2 ^ 64) :
    Below (a - UInt64.ofNat k) n x ↔ Below a (n + k) x ∧ ¬ Below a k x := by
  have ha := a.toNat_lt
  have hx := x.toNat_lt
  have hk : (UInt64.ofNat k).toNat = k % 2 ^ 64 := UInt64.toNat_ofNat'
  simp only [Below, UInt64.toNat_sub, UInt64.toNat_one, hk]
  omega

theorem below_sub_eight {a x : UInt64} {n : Nat} (hn : n + 8 ≤ 2 ^ 64) :
    Below (a - 8) n x ↔ Below a (n + 8) x ∧ ¬ Below a 8 x := below_sub hn

/-- What is below an address is not from it on. -/
theorem not_inBlock_of_below {a x : UInt64} {k n : Nat} (hn : n + k ≤ 2 ^ 64)
    (h : Below a k x) : ¬ InBlock a n x := by
  have ha := a.toNat_lt
  have hx := x.toNat_lt
  simp only [InBlock, Below, UInt64.toNat_sub, UInt64.toNat_one] at h ⊢
  omega

/-- A block that goes from below an address to above it. -/
theorem inBlock_sub {a x : UInt64} {k n : Nat} (hn : k + n < 2 ^ 64) :
    InBlock (a - UInt64.ofNat k) (k + n) x ↔ Below a k x ∨ InBlock a n x := by
  have ha := a.toNat_lt
  have hx := x.toNat_lt
  have hk : (UInt64.ofNat k).toNat = k := by
    rw [UInt64.toNat_ofNat']
    exact Nat.mod_eq_of_lt (by omega)
  simp only [InBlock, Below, UInt64.toNat_sub, UInt64.toNat_one, hk]
  omega

/-- The bytes below an address, from the first one of them on. -/
theorem inBlock_iff_below {a x : UInt64} {k : Nat} (hk : k < 2 ^ 64) :
    InBlock (a - UInt64.ofNat k) k x ↔ Below a k x := by
  rw [← Nat.add_zero k, inBlock_sub (n := 0) (by omega), Nat.add_zero]
  exact or_iff_left (Nat.not_lt_zero _)

/-! ## registers -/

inductive Reg
  | rax | rbx | rcx | rdx | rsi | rdi | rbp | rsp
  | r8 | r9 | r10 | r11 | r12 | r13 | r14 | r15
  deriving DecidableEq, Repr

open Reg

structure State where
  regs : Reg → UInt64
  mem : Memory
  /-- interrupts are enabled -/
  intr : Bool

namespace State

/-- A register is set. -/
def set (s : State) (r : Reg) (v : UInt64) : State := { s with regs := Function.update s.regs r v }

def push (s : State) (v : UInt64) : State :=
  { s.set rsp (s.regs rsp - 8) with mem := store64 s.mem (s.regs rsp - 8) v }

def pop (s : State) (r : Reg) : State :=
  (s.set rsp (s.regs rsp + 8)).set r (load64 s.mem (s.regs rsp))

@[simp] theorem set_mem (s : State) (r : Reg) (v : UInt64) : (s.set r v).mem = s.mem := rfl

@[simp] theorem push_intr (s : State) (v : UInt64) : (s.push v).intr = s.intr := rfl

@[simp] theorem set_regs_self (s : State) (r : Reg) (v : UInt64) : (s.set r v).regs r = v :=
  Function.update_self ..

@[simp] theorem set_regs_of_ne (s : State) {r r' : Reg} (h : r' ≠ r) (v : UInt64) :
    (s.set r v).regs r' = s.regs r' := Function.update_of_ne h ..

@[simp] theorem push_rsp (s : State) (v : UInt64) : (s.push v).regs rsp = s.regs rsp - 8 := by
  simp [push, set]

@[simp] theorem push_regs_of_ne (s : State) {r : Reg} (h : r ≠ rsp) (v : UInt64) :
    (s.push v).regs r = s.regs r := set_regs_of_ne s h ..

@[simp] theorem pop_mem (s : State) (r : Reg) : (s.pop r).mem = s.mem := rfl

@[simp] theorem pop_regs_self (s : State) (r : Reg) :
    (s.pop r).regs r = load64 s.mem (s.regs rsp) := Function.update_self ..

@[simp] theorem pop_rsp (s : State) {r : Reg} (h : r ≠ rsp) :
    (s.pop r).regs rsp = s.regs rsp + 8 := by
  simp [pop, h.symm]

@[simp] theorem pop_regs_of_ne (s : State) {r r' : Reg} (h : r' ≠ r) (h' : r' ≠ rsp) :
    (s.pop r).regs r' = s.regs r' := by
  simp [pop, h, h']

/-- A push changes the eight bytes below the stack pointer only. -/
theorem push_mem_of_not_below (s : State) (v : UInt64) {x : UInt64} (h : ¬ Below (s.regs rsp) 8 x) :
    (s.push v).mem x = s.mem x := by
  exact store64_of_not_inBlock fun hin => h (below_iff_inBlock.mpr hin)

/-- Values are pushed in turn. -/
def pushVals (s : State) : List UInt64 → State
  | [] => s
  | v :: vs => (s.push v).pushVals vs

/-- `pushq` for each register in turn. -/
def pushAll (s : State) : List Reg → State
  | [] => s
  | r :: rs => (s.push (s.regs r)).pushAll rs

/-- `popq` for each register in turn. -/
def popAll (s : State) : List Reg → State
  | [] => s
  | r :: rs => (s.pop r).popAll rs

@[simp] theorem pushAll_regs_of_ne {r : Reg} (h : r ≠ rsp) (s : State) (rs : List Reg) :
    (s.pushAll rs).regs r = s.regs r := by
  induction rs generalizing s with
  | nil => rfl
  | cons r' rs ih => rw [pushAll, ih, push_regs_of_ne s h]

@[simp] theorem pushAll_intr (s : State) (rs : List Reg) : (s.pushAll rs).intr = s.intr := by
  induction rs generalizing s with
  | nil => rfl
  | cons r rs ih => exact (ih _).trans (push_intr s _)

/-- Each push takes eight bytes. -/
theorem pushAll_rsp (s : State) (rs : List Reg) :
    (s.pushAll rs).regs rsp = s.regs rsp - UInt64.ofNat (8 * rs.length) := by
  induction rs generalizing s with
  | nil => exact (UInt64.sub_zero _).symm
  | cons r rs ih =>
      have h8 : UInt64.ofNat 8 = 8 := rfl
      rw [pushAll, ih, push_rsp, List.length_cons, Nat.mul_succ, UInt64.ofNat_add, h8,
        UInt64.sub_eq_iff_eq_add, UInt64.sub_eq_iff_eq_add, UInt64.add_assoc, UInt64.sub_add_cancel]

/-- Pushes change the bytes below the stack pointer only. -/
theorem pushAll_mem_of_not_below (s : State) {rs : List Reg} (hlen : 8 * rs.length ≤ 2 ^ 64)
    {x : UInt64} (h : ¬ Below (s.regs rsp) (8 * rs.length) x) :
    (s.pushAll rs).mem x = s.mem x := by
  induction rs generalizing s with
  | nil => rfl
  | cons r rs ih =>
      simp only [List.length_cons, Nat.mul_succ] at hlen h
      have hfirst : ¬ Below (s.regs rsp) 8 x := by
        intro hx
        exact h (Nat.lt_of_lt_of_le hx (Nat.le_add_left 8 _))
      have hrest : ¬ Below ((s.push (s.regs r)).regs rsp) (8 * rs.length) x := by
        rw [push_rsp, below_sub_eight hlen]
        exact fun hx => h hx.1
      rw [pushAll, ih _ (by omega) hrest, push_mem_of_not_below s _ hfirst]

@[simp] theorem pushVals_regs_of_ne {r : Reg} (h : r ≠ rsp) (s : State) (vs : List UInt64) :
    (s.pushVals vs).regs r = s.regs r := by
  induction vs generalizing s with
  | nil => rfl
  | cons v vs ih => rw [pushVals, ih, push_regs_of_ne s h]

theorem pushVals_rsp (s : State) (vs : List UInt64) :
    (s.pushVals vs).regs rsp = s.regs rsp - UInt64.ofNat (8 * vs.length) := by
  induction vs generalizing s with
  | nil => exact (UInt64.sub_zero _).symm
  | cons v vs ih =>
      have h8 : UInt64.ofNat 8 = 8 := rfl
      rw [pushVals, ih, push_rsp, List.length_cons, Nat.mul_succ, UInt64.ofNat_add, h8,
        UInt64.sub_eq_iff_eq_add, UInt64.sub_eq_iff_eq_add, UInt64.add_assoc, UInt64.sub_add_cancel]

/-- Pushes write below the stack pointer only. -/
theorem pushVals_mem_of_not_below (s : State) {vs : List UInt64} (hlen : 8 * vs.length ≤ 2 ^ 64)
    {x : UInt64} (h : ¬ Below (s.regs rsp) (8 * vs.length) x) :
    (s.pushVals vs).mem x = s.mem x := by
  induction vs generalizing s with
  | nil => rfl
  | cons v vs ih =>
      simp only [List.length_cons, Nat.mul_succ] at hlen h
      have hfirst : ¬ Below (s.regs rsp) 8 x := by
        intro hx
        exact h (Nat.lt_of_lt_of_le hx (Nat.le_add_left 8 _))
      have hrest : ¬ Below ((s.push v).regs rsp) (8 * vs.length) x := by
        rw [push_rsp, below_sub_eight hlen]
        exact fun hx => h hx.1
      rw [pushVals, ih _ (by omega) hrest, push_mem_of_not_below s _ hfirst]

/-- What was pushed lies below the old stack pointer. -/
theorem load64_pushVals (s : State) {vs : List UInt64} (hlen : 8 * vs.length ≤ 2 ^ 64) {i : Nat}
    (hi : i < vs.length) :
    load64 (s.pushVals vs).mem (s.regs rsp - UInt64.ofNat (8 * (i + 1))) = vs[i] := by
  induction vs generalizing s i with
  | nil => exact absurd hi (Nat.not_lt_zero i)
  | cons v vs ih =>
      simp only [List.length_cons, Nat.mul_succ] at hlen hi
      have h8 : UInt64.ofNat 8 = 8 := rfl
      cases i with
      | zero =>
          -- the later ones are pushed below it
          have hkept : ∀ x, InBlock (s.regs rsp - 8) 8 x →
              ((s.push v).pushVals vs).mem x = (s.push v).mem x := by
            intro x hx
            refine pushVals_mem_of_not_below _ (by omega) ?_
            rw [push_rsp, below_sub_eight hlen]
            exact fun h => h.2 (below_iff_inBlock.mpr hx)
          rw [pushVals, Nat.zero_add, Nat.mul_one, h8, load64_congr hkept]
          exact load64_store64 ..
      | succ i =>
          have hnext := ih (s.push v) (by omega) (Nat.lt_of_succ_lt_succ hi)
          have hbase : s.regs rsp - UInt64.ofNat (8 * (i + 1 + 1)) =
              (s.push v).regs rsp - UInt64.ofNat (8 * (i + 1)) := by
            rw [push_rsp, Nat.mul_succ 8 (i + 1), UInt64.ofNat_add, h8, UInt64.sub_eq_iff_eq_add,
              ← UInt64.add_assoc, UInt64.sub_add_cancel, UInt64.sub_add_cancel]
          rw [pushVals, hbase, hnext]
          rfl

theorem popAll_append (s : State) (rs rs' : List Reg) :
    s.popAll (rs ++ rs') = (s.popAll rs).popAll rs' := by
  induction rs generalizing s with
  | nil => rfl
  | cons r rs ih => exact ih _

/-- Pops write nothing. -/
@[simp] theorem popAll_mem (s : State) (rs : List Reg) : (s.popAll rs).mem = s.mem := by
  induction rs generalizing s with
  | nil => rfl
  | cons r rs ih => exact (ih _).trans (pop_mem s r)

/-- What has been pushed comes back in the opposite order, if the bytes it is
in have not changed. -/
theorem popAll_pushAll {rs : List Reg} (hnodup : rs.Nodup) (hsp : rsp ∉ rs)
    (hlen : 8 * rs.length ≤ 2 ^ 64) {s t : State} (hrsp : t.regs rsp = (s.pushAll rs).regs rsp)
    (hmem : ∀ x, Below (s.regs rsp) (8 * rs.length) x → t.mem x = (s.pushAll rs).mem x) :
    (∀ r ∈ rs, (t.popAll rs.reverse).regs r = s.regs r) ∧
    (t.popAll rs.reverse).regs rsp = s.regs rsp ∧
    (∀ r, r ∉ rs → r ≠ rsp → (t.popAll rs.reverse).regs r = t.regs r) ∧
    (t.popAll rs.reverse).mem = t.mem := by
  induction rs generalizing s with
  | nil => exact ⟨fun _ h => absurd h List.not_mem_nil, hrsp, fun _ _ _ => rfl, rfl⟩
  | cons r rs ih =>
      obtain ⟨hr, hnodup⟩ := List.nodup_cons.mp hnodup
      obtain ⟨hrne, hsp⟩ : rsp ≠ r ∧ rsp ∉ rs := by simpa using hsp
      simp only [List.length_cons, Nat.mul_succ] at hlen hmem
      have hrest : ∀ x, Below ((s.push (s.regs r)).regs rsp) (8 * rs.length) x →
          t.mem x = ((s.push (s.regs r)).pushAll rs).mem x := by
        intro x hx
        rw [push_rsp, below_sub_eight hlen] at hx
        exact hmem x hx.1
      obtain ⟨hregs, hrsp', hother, hmem'⟩ := ih hnodup hsp (by omega) hrsp hrest
      rw [List.reverse_cons, popAll_append]
      generalize t.popAll rs.reverse = u at *
      have hsaved : load64 u.mem (u.regs rsp) = s.regs r := by
        have hkept : ∀ x, InBlock (s.regs rsp - 8) 8 x →
            t.mem x = (s.push (s.regs r)).mem x := by
          intro x hx
          rw [← below_iff_inBlock] at hx
          rw [hmem x (Nat.lt_of_lt_of_le hx (Nat.le_add_left 8 _)), pushAll]
          refine pushAll_mem_of_not_below _ (by omega) ?_
          rw [push_rsp, below_sub_eight hlen]
          exact fun h => h.2 hx
        rw [hmem', hrsp', push_rsp, load64_congr hkept]
        exact load64_store64 ..
      refine ⟨?_, ?_, ?_, hmem'⟩
      · intro r' hr'
        by_cases heq : r' = r
        · rw [heq]
          exact (pop_regs_self u r).trans hsaved
        · have hin : r' ∈ rs := List.mem_of_ne_of_mem heq hr'
          have hne : r' ≠ rsp := fun h => hsp (h ▸ hin)
          exact (pop_regs_of_ne u heq hne).trans ((hregs r' hin).trans (push_regs_of_ne s hne _))
      · have hback : (u.pop r).regs rsp = s.regs rsp := by
          rw [pop_rsp u hrne.symm, hrsp', push_rsp, UInt64.sub_add_cancel]
        exact hback
      · intro r' hr' hne
        obtain ⟨heq, hnot⟩ : r' ≠ r ∧ r' ∉ rs := by simpa using hr'
        exact (pop_regs_of_ne u heq hne).trans (hother r' hnot hne)

end State

/-! ## code -/

/-- The instructions, over the functions `F` that are called by name. -/
inductive Instr (F : Type)
  | push (r : Reg)
  | pop (r : Reg)
  | mov (src dst : Reg)
  /-- `movq src, var(%rip)` -/
  | store (src : Reg) (var : UInt64)
  /-- `movq var(%rip), dst` -/
  | load (var : UInt64) (dst : Reg)
  | addImm (imm : UInt64) (dst : Reg)
  | call (f : F)
  | cli
  | sti
  deriving DecidableEq, Repr

/-- What the functions do, from their first instruction to after their `ret`. -/
abbrev Functions (F : Type) := F → State → State → Prop

section Code

variable {F : Type} {fn : Functions F}

/-- One instruction, with the call it makes: what is called, in which state. -/
def Instr.Step (fn : Functions F) : Instr F → State → List (F × State) → State → Prop
  | push r, s, calls, s' => calls = [] ∧ s' = s.push (s.regs r)
  | pop r, s, calls, s' => calls = [] ∧ s' = s.pop r
  | mov src dst, s, calls, s' => calls = [] ∧ s' = s.set dst (s.regs src)
  | store src var, s, calls, s' =>
      calls = [] ∧ s' = { s with mem := store64 s.mem var (s.regs src) }
  | load var dst, s, calls, s' => calls = [] ∧ s' = s.set dst (load64 s.mem var)
  | addImm imm dst, s, calls, s' => calls = [] ∧ s' = s.set dst (s.regs dst + imm)
  | call f, s, calls, s' => ∃ ret, calls = [(f, s.push ret)] ∧ fn f (s.push ret) s'
  | cli, s, calls, s' => calls = [] ∧ s' = { s with intr := false }
  | sti, s, calls, s' => calls = [] ∧ s' = { s with intr := true }

def Instr.isCall : Instr F → Bool
  | call _ => true
  | _ => false

/-- Straight-line code, with the calls it makes. -/
def Exec (fn : Functions F) : List (Instr F) → State → List (F × State) → State → Prop
  | [], s, calls, s' => calls = [] ∧ s' = s
  | i :: code, s, calls, s' => ∃ first rest s₁, calls = first ++ rest ∧ i.Step fn s first s₁ ∧
      Exec fn code s₁ rest s'

/-- Two pieces of code, one after the other. -/
theorem exec_append {code code' : List (Instr F)} {s s' : State} {calls : List (F × State)} :
    Exec fn (code ++ code') s calls s' ↔ ∃ first rest s₁, calls = first ++ rest ∧
      Exec fn code s first s₁ ∧ Exec fn code' s₁ rest s' := by
  induction code generalizing s calls with
  | nil => simp [Exec]
  | cons i code ih =>
      simp only [List.cons_append, Exec, ih]
      constructor
      · rintro ⟨c₁, _, s₁, rfl, hi, c₂, c₃, s₂, rfl, h₁, h₂⟩
        exact ⟨c₁ ++ c₂, c₃, s₂, (List.append_assoc ..).symm, ⟨c₁, c₂, s₁, rfl, hi, h₁⟩, h₂⟩
      · rintro ⟨_, c₃, s₂, rfl, ⟨c₁, c₂, s₁, rfl, hi, h₁⟩, h₂⟩
        exact ⟨c₁, c₂ ++ c₃, s₁, List.append_assoc .., hi, c₂, c₃, s₂, rfl, h₁, h₂⟩

@[simp] theorem exec_single {i : Instr F} {s s' : State} {calls : List (F × State)} :
    Exec fn [i] s calls s' ↔ i.Step fn s calls s' := by
  simp [Exec]

/-- A row of pushes. -/
@[simp] theorem exec_push {rs : List Reg} {s s' : State} {calls : List (F × State)} :
    Exec fn (rs.map .push) s calls s' ↔ calls = [] ∧ s' = s.pushAll rs := by
  induction rs generalizing s calls with
  | nil => rfl
  | cons r rs ih => simp [Exec, Instr.Step, ih, State.pushAll]

/-- A row of pops. -/
@[simp] theorem exec_pop {rs : List Reg} {s s' : State} {calls : List (F × State)} :
    Exec fn (rs.map .pop) s calls s' ↔ calls = [] ∧ s' = s.popAll rs := by
  induction rs generalizing s calls with
  | nil => rfl
  | cons r rs ih => simp [Exec, Instr.Step, ih, State.popAll]

/-- Code without calls runs to its end. -/
theorem exists_exec {code : List (Instr F)} (hcode : ∀ i ∈ code, i.isCall = false) (s : State) :
    ∃ s', Exec fn code s [] s' := by
  induction code generalizing s with
  | nil => exact ⟨s, rfl, rfl⟩
  | cons i code ih =>
      obtain ⟨s₁, hi⟩ : ∃ s₁, i.Step fn s [] s₁ := by
        cases i with
        | call f => exact absurd (hcode _ List.mem_cons_self) (by simp [Instr.isCall])
        | _ => exact ⟨_, rfl, rfl⟩
      obtain ⟨s', h⟩ := ih (fun i hi => hcode i (List.mem_cons_of_mem _ hi)) s₁
      exact ⟨s', [], [], s₁, rfl, hi, h⟩

/-- So does code with one call, if the callee returns. -/
theorem exists_exec_call {before after : List (Instr F)} {f : F}
    (hbefore : ∀ i ∈ before, i.isCall = false) (hafter : ∀ i ∈ after, i.isCall = false) {s : State}
    (hreturns : ∀ t, Exec fn before s [] t → ∃ u, fn f (t.push 0) u) :
    ∃ calls s', Exec fn (before ++ ([.call f] ++ after)) s calls s' := by
  obtain ⟨t, ht⟩ : ∃ t, Exec fn before s [] t := exists_exec hbefore s
  obtain ⟨u, hu⟩ := hreturns t ht
  obtain ⟨s', hs'⟩ : ∃ s', Exec fn after u [] s' := exists_exec hafter u
  have hcall : Exec fn [.call f] t [(f, t.push 0)] u := exec_single.mpr ⟨0, rfl, hu⟩
  exact ⟨_, s', exec_append.mpr ⟨_, _, t, rfl, ht, exec_append.mpr ⟨_, _, u, rfl, hcall, hs'⟩⟩⟩

/-! ## calls -/

/-- The registers that belong to the caller. -/
def calleeSaved : List Reg := [rbx, rbp, r12, r13, r14, r15]

/-- A function that keeps what its caller relies on, when it is called in a state
with `pre`: the stack pointer behind the return address, the caller's registers,
the `frame` bytes of the stack from there on, and the further memory `own` that is
not its to write. -/
structure Keeps (pre : State → Prop) (frame : Nat) (own : UInt64 → Prop)
    (f : State → State → Prop) : Prop where
  rsp_eq : ∀ s s', pre s → f s s' → s'.regs rsp = s.regs rsp + 8
  regs_eq : ∀ s s', pre s → f s s' → ∀ r ∈ calleeSaved, s'.regs r = s.regs r
  frame_eq : ∀ s s', pre s → f s s' → ∀ x, InBlock (s.regs rsp + 8) frame x → s'.mem x = s.mem x
  own_eq : ∀ s s', pre s → f s s' → ∀ x, own x → s'.mem x = s.mem x

/-- It keeps any part of what it keeps. -/
theorem Keeps.mono {pre : State → Prop} {frame : Nat} {own own' : UInt64 → Prop}
    {f : State → State → Prop} (h : Keeps pre frame own f) (hown : ∀ x, own' x → own x) :
    Keeps pre frame own' f :=
  ⟨h.rsp_eq, h.regs_eq, h.frame_eq, fun s s' hs hf x hx => h.own_eq s s' hs hf x (hown x hx)⟩

/-- A stack pointer that the calling convention allows at a call. -/
def Aligned (sp : UInt64) : Prop := sp.toNat % 16 = 0

instance (sp : UInt64) : Decidable (Aligned sp) := inferInstanceAs (Decidable (_ = _))

/-- Whole units of sixteen bytes do not matter. -/
theorem aligned_sub {sp : UInt64} {n : Nat} (hn : n % 16 = 0) :
    Aligned (sp - UInt64.ofNat n) ↔ Aligned sp := by
  have hsp := sp.toNat_lt
  have hn' : (UInt64.ofNat n).toNat = n % 2 ^ 64 := UInt64.toNat_ofNat'
  simp only [Aligned, UInt64.toNat_sub, hn']
  omega

/-- At the first instruction of a function that is called with the stack pointer at
`sp`, where the convention allows it. -/
structure CalledAt (sp : UInt64) (s : State) : Prop where
  rsp_eq : s.regs rsp + 8 = sp
  aligned : Aligned sp

/-- A function that obeys the System V calling convention when it is called with
the stack pointer at `sp`: it returns, and it keeps what it has to.  If `sp` is not
aligned, nothing is promised. -/
structure SysV (sp : UInt64) (frame : Nat) (own : UInt64 → Prop)
    (f : State → State → Prop) : Prop extends Keeps (CalledAt sp) frame own f where
  returns : ∀ s, CalledAt sp s → ∃ s', f s s'

section Call

variable {pre : State → Prop} {frame n : Nat} {own : UInt64 → Prop} {f : F} {t : State}
  {ret : UInt64} (h : Keeps pre frame own (fn f)) (hpre : pre (t.push ret))

/-- Where the return address is. -/
theorem push_rsp_add_eight (t : State) (ret : UInt64) : (t.push ret).regs rsp + 8 = t.regs rsp := by
  rw [State.push_rsp, UInt64.sub_add_cancel]

include h hpre

/-- A return address is pushed, and the call keeps what it has to. -/
theorem Keeps.call (hframe : frame + 8 ≤ 2 ^ 64) {u : State} (hf : fn f (t.push ret) u) :
    u.regs rsp = t.regs rsp ∧ (∀ r ∈ calleeSaved, u.regs r = t.regs r) ∧
    (∀ x, InBlock (t.regs rsp) frame x → u.mem x = t.mem x) ∧
    ∀ x, own x → ¬ Below (t.regs rsp) 8 x → u.mem x = t.mem x := by
  have hback := push_rsp_add_eight t ret
  refine ⟨(h.rsp_eq _ _ hpre hf).trans hback, ?_, ?_, ?_⟩
  · intro r hr
    have hne : r ≠ rsp := by
      rintro rfl
      revert hr
      decide
    rw [h.regs_eq _ _ hpre hf r hr, State.push_regs_of_ne t hne]
  · intro x hx
    rw [h.frame_eq _ _ hpre hf x (hback.symm ▸ hx)]
    exact State.push_mem_of_not_below t ret fun hlow => not_inBlock_of_below hframe hlow hx
  · intro x hown hx
    rw [h.own_eq _ _ hpre hf x hown, State.push_mem_of_not_below t ret hx]

/-- **Registers saved around a call.** They are pushed, perhaps others are set,
a function is called, and they are popped in the opposite order: they are as
before, as is the stack, above the saved registers as well. -/
theorem Keeps.call_restore {rs : List Reg} (hnodup : rs.Nodup) (hsp : rsp ∉ rs)
    (hframe : frame = 8 * rs.length + n) (hlen : frame + 8 ≤ 2 ^ 64) {s u : State}
    (hrsp : t.regs rsp = (s.pushAll rs).regs rsp) (hmem : t.mem = (s.pushAll rs).mem)
    (hf : fn f (t.push ret) u) :
    (∀ r ∈ rs, (u.popAll rs.reverse).regs r = s.regs r) ∧
    (u.popAll rs.reverse).regs rsp = s.regs rsp ∧
    (∀ r, r ∉ rs → r ≠ rsp → (u.popAll rs.reverse).regs r = u.regs r) ∧
    (∀ r ∈ calleeSaved, u.regs r = t.regs r) ∧
    (∀ x, InBlock (s.regs rsp) n x → (u.popAll rs.reverse).mem x = s.mem x) ∧
    ∀ x, own x → ¬ Below (s.regs rsp) (8 * rs.length + 8) x →
      (u.popAll rs.reverse).mem x = s.mem x := by
  subst hframe
  obtain ⟨hback, hsaved, hkept, hown⟩ := h.call hpre hlen hf
  have hbase : t.regs rsp = s.regs rsp - UInt64.ofNat (8 * rs.length) :=
    hrsp.trans (State.pushAll_rsp s rs)
  rw [hbase] at hkept hown
  have hblock : ∀ x, Below (s.regs rsp) (8 * rs.length) x ∨ InBlock (s.regs rsp) n x →
      u.mem x = (s.pushAll rs).mem x := by
    intro x hx
    rw [hkept x ((inBlock_sub (by omega)).mpr hx), hmem]
  obtain ⟨hregs, hrsp', hother, hmem'⟩ := State.popAll_pushAll hnodup hsp (by omega)
    (hback.trans hrsp) fun x hx => hblock x (.inl hx)
  refine ⟨hregs, hrsp', hother, hsaved, ?_, ?_⟩
  · intro x hx
    rw [hmem', hblock x (.inr hx)]
    refine State.pushAll_mem_of_not_below s (by omega) fun hlow => ?_
    exact not_inBlock_of_below (by omega) hlow hx
  · intro x hx hnot
    have hlow : ¬ Below (s.regs rsp - UInt64.ofNat (8 * rs.length)) 8 x := by
      rw [below_sub (by omega), Nat.add_comm 8]
      exact fun h => hnot h.1
    have hhigh : ¬ Below (s.regs rsp) (8 * rs.length) x := by
      intro h
      exact hnot (Nat.lt_of_lt_of_le h (Nat.le_add_right ..))
    rw [hmem', hown x hx hlow, hmem, State.pushAll_mem_of_not_below s (by omega) hhigh]

end Call

end Code

end X64
