import Mathlib.Logic.Relation
import UefiKernel.Console.Calls
import UefiKernel.Interrupts.Delivery
import UefiKernel.KernelEntry.Machine

/-!
# UefiKernel.KernelEntry.Refinement

The machine is what its programs take it for.

Each step of the machine keeps an invariant (`Shows`) about what the program
sees, and is a step of the program or none (`step_refines`); so is every run
(`run_refines`), with interrupts and page faults wherever they come.  None of
them can fail to be handled (`run_serviced`).
-/

namespace UefiKernel.KernelEntry

open Relation X64 Reg Interrupts

/-! ## the invariant -/

section Invariant

variable {own : UInt64 → Prop} {M : Machine} {stack : UInt64} {v : View own} {c c' : Cpu}

/-- The program is running, and sees `v`. -/
structure Running (M : Machine) (own : UInt64 → Prop) (stack : UInt64) (v : View own) (c : Cpu) :
    Prop where
  sees : view own c = v
  segments : InUser c
  flags : UserFlags c.rflags
  configured : Configured M.k M.labels M.info stack M.regs c.st.mem
  inOrder : M.inOrder c.st.mem

/-- The program has been interrupted by a page fault, when it was in the state
`u`, to which `iretq` goes back. -/
structure Interrupted (M : Machine) (own : UInt64 → Prop) (stack : UInt64) (v : View own)
    (c u : Cpu) : Prop where
  sees : view own u = v
  segments : InUser u
  flags : UserFlags u.rflags
  configured : Configured M.k M.labels M.info stack M.regs c.st.mem
  inOrder : M.inOrder c.st.mem
  kernel : InKernel c
  intr : c.st.intr = true
  rsp_eq : c.st.regs rsp = M.info.tssStackBuffer - UInt64.ofNat 40
  saved : Saved c.st.mem (c.st.regs rsp) u
  regs : ∀ r, r ≠ rsp → c.st.regs r = u.st.regs r
  mem : ∀ x, own x → c.st.mem x = u.st.mem x

/-- What the program sees, wherever the machine is. -/
inductive Shows (M : Machine) (own : UInt64 → Prop) (stack : UInt64) (v : View own) : Mode → Prop
  | user {c : Cpu} (h : Running M own stack v c) : Shows M own stack v (.user c)
  | resume {c u : Cpu} (h : Interrupted M own stack v c u) : Shows M own stack v (.resume c)
  | halted : Shows M own stack v .halted

/-- The tables are where they were. -/
theorem configured_of_kept {m m' : Memory}
    (h : Configured M.k M.labels M.info stack M.regs m)
    (hm : ∀ x, M.Kept own x → m' x = m x) :
    Configured M.k M.labels M.info stack M.regs m' :=
  h.of_regions fun r x hr hr' hx => hm x (.inr ⟨r, hr, hr', hx⟩)

end Invariant

/-! ## traps -/

section Traps

variable {own : UInt64 → Prop} {M : Machine} {stack : UInt64} {c c₁ : Cpu}

/-- The state behind a trap of `c`: as it was, in what matters, and with the
stack kept, of which `n` bytes were in use. -/
structure Returned (M : Machine) (own : UInt64 → Prop) (c c₁ : Cpu) (n : Nat) (u : State) :
    Prop where
  intr : u.intr = true
  regs : ∀ r, r ≠ rsp → u.regs r = c.st.regs r
  rsp_eq : u.regs rsp = c₁.st.regs rsp
  saved : Saved u.mem (interruptTop M.info c - 40) c
  kept : ∀ x, M.Kept own x → u.mem x = c.st.mem x
  above : ∀ x, X64.InBlock (interruptTop M.info c) n x → u.mem x = c.st.mem x
  inOrder : M.inOrder u.mem

theorem below_add {a x : UInt64} {k n : Nat} (hn : n + k ≤ 2 ^ 64)
    (h : Below (a - UInt64.ofNat k) n x) : Below a (n + k) x := ((below_sub hn).mp h).1

/-- The stack pointer of a trap. -/
theorem rsp_of_delivered {errorCode : List UInt64} (hd : Delivered M.info c errorCode c₁)
    {n : Nat} (htop : interruptTop M.info c = M.info.tssStackBuffer - UInt64.ofNat n) :
    c₁.st.regs rsp = M.info.tssStackBuffer - UInt64.ofNat (n + (40 + 8 * errorCode.length)) := by
  rw [hd.rsp_eq, htop, UInt64.ofNat_add n, UInt64.sub_eq_iff_eq_add, UInt64.sub_eq_iff_eq_add,
    UInt64.add_assoc, UInt64.add_comm (UInt64.ofNat (40 + 8 * errorCode.length)),
    UInt64.sub_add_cancel]

section Entry

variable (ha : M.Apart own stack) {errorCode : List UInt64}
  (hd : Delivered M.info c errorCode c₁) (hlen : errorCode.length ≤ 1) {n : Nat} (hn : n ≤ 48)
  (htop : interruptTop M.info c = M.info.tssStackBuffer - UInt64.ofNat n)

include hd hlen hn htop

/-- What is delivered is written to the stack in the task state segment. -/
theorem mem_of_delivered {x : UInt64} (hx : ¬ Below M.info.tssStackBuffer 4096 x) :
    c₁.st.mem x = c.st.mem x := by
  refine hd.mem x ?_
  rw [htop]
  exact fun h => hx (Nat.lt_of_lt_of_le (below_add (by omega) h) (by omega))

/-- So is what the stub pushes. -/
theorem mem_trapCall (ret : UInt64) {x : UInt64} (hx : ¬ Below M.info.tssStackBuffer 4096 x) :
    (trapCall c₁.st ret).mem x = c.st.mem x := by
  rw [trapCall_mem, mem_of_delivered hd hlen hn htop hx]
  rw [rsp_of_delivered hd htop]
  exact fun h => hx (Nat.lt_of_lt_of_le (below_add (by omega) h) (by omega))

include ha

/-- The state in which a trap's function begins. -/
theorem enters_trapCall (hconf : Configured M.k M.labels M.info stack M.regs c.st.mem)
    (horder : M.inOrder c.st.mem) (ret : UInt64) :
    M.Enters stack (M.info.tssStackBuffer - UInt64.ofNat (72 + (n + (40 + 8 * errorCode.length))))
      (trapCall c₁.st ret) := by
  have hmem := fun x => mem_trapCall hd hlen hn htop ret (x := x)
  refine ⟨?_, trapCall_intr .., ⟨M.regs, configured_of_kept hconf fun x (hx : M.Kept own x) => ?_⟩,
    ha.inOrder _ _ (fun x hx => ?_) horder⟩
  · have h72 : UInt64.ofNat 72 = 72 := rfl
    rw [trapCall_rsp, rsp_of_delivered hd htop, UInt64.ofNat_add 72, h72,
      UInt64.sub_eq_iff_eq_add, UInt64.sub_eq_iff_eq_add, UInt64.add_assoc, UInt64.sub_add_cancel]
  · exact hmem x fun h => ha.tssStack x h hx
  · exact hmem x fun h => hx (.inr (.inl h))

end Entry

/-- A trap on the stack in the task state segment. -/
theorem returned_of_trap (ha : M.Apart own stack) {f : Symbol} {errorCode : List UInt64}
    (hconf : Configured M.k M.labels M.info stack M.regs c.st.mem) (horder : M.inOrder c.st.mem)
    (hd : Delivered M.info c errorCode c₁) (hlen : errorCode.length ≤ 1) {n : Nat} (hn : n ≤ 48)
    (htop : interruptTop M.info c = M.info.tssStackBuffer - UInt64.ofNat n) {size : Nat}
    (hsize : size = n + (40 + 8 * errorCode.length))
    (hkeeps : M.Maintains (M.Kept own) stack (M.info.tssStackBuffer - UInt64.ofNat (72 + size))
      (72 + size) f)
    {rest : List (Instr Symbol)} {calls : List (Symbol × State)} {s : State}
    (hexec : Exec M.fn (trap f rest) c₁.st calls s) :
    ∃ u calls, Exec M.fn rest u calls s ∧ Returned M own c c₁ n u := by
  have hrsp : c₁.st.regs rsp = M.info.tssStackBuffer - UInt64.ofNat size := by
    rw [hsize]
    exact rsp_of_delivered hd htop
  have henters : ∀ ret, M.Enters stack (M.info.tssStackBuffer - UInt64.ofNat (72 + size))
      (trapCall c₁.st ret) := by
    rw [hsize]
    exact enters_trapCall ha hd hlen hn htop hconf horder
  obtain ⟨u, calls, hrest, hintr, hregs, hframe, hown, ret, t, hf, hmem⟩ :=
    exec_trap hkeeps.toKeeps henters (by omega) hexec
  have hused : ∀ x, Below M.info.tssStackBuffer size x → u.mem x = c₁.st.mem x := by
    intro x hx
    refine hframe x ?_
    rw [hrsp]
    exact (inBlock_iff_below (by omega)).mpr hx
  refine ⟨u, calls, hrest, hintr, fun r hr => (hregs r).trans (hd.regs r hr), hregs rsp, ?_, ?_, ?_,
    hmem ▸ hkeeps.inOrder _ _ (henters ret) hf⟩
  · refine hd.saved.congr fun x hx => hused x ?_
    have hsp : interruptTop M.info c - 40 = M.info.tssStackBuffer - UInt64.ofNat (n + 40) := by
      have h40 : UInt64.ofNat 40 = 40 := rfl
      rw [htop, UInt64.ofNat_add, h40, UInt64.sub_eq_iff_eq_add, UInt64.sub_eq_iff_eq_add,
        UInt64.add_assoc, UInt64.add_comm 40, UInt64.sub_add_cancel]
    rw [hsp] at hx
    have hx' : Below M.info.tssStackBuffer (n + 40) x :=
      (inBlock_iff_below (by omega)).mp (Nat.lt_of_lt_of_le hx (Nat.le_add_left 40 n))
    exact Nat.lt_of_lt_of_le hx' (by omega)
  · intro x hx
    have hout : ¬ Below M.info.tssStackBuffer 4096 x := fun h => ha.tssStack x h hx
    rw [hown x hx, mem_of_delivered hd hlen hn htop hout]
    rw [hrsp]
    exact fun h => hout (Nat.lt_of_lt_of_le (below_add (by omega) h) (by omega))
  · intro x hx
    rw [htop] at hx
    have hbelow : Below M.info.tssStackBuffer n x := (inBlock_iff_below (by omega)).mp hx
    rw [hused x (Nat.lt_of_lt_of_le hbelow (by omega)), hd.mem x]
    rw [htop, below_sub (by omega)]
    exact fun h => h.2 hbelow

theorem interruptTop_user (ha : M.Apart own stack) (hc : InUser c) :
    interruptTop M.info c = M.info.tssStackBuffer - UInt64.ofNat 0 := by
  have hcpl : ¬ c.cpl = 0 := by
    rw [Cpu.cpl, hc.1]
    decide
  have halign := ha.aligned
  rw [interruptTop, if_neg hcpl, align_eq (b := M.info.tssStackBuffer) (by omega)]
  exact (UInt64.sub_zero _).symm

/-- Behind the frame of a page fault, the stack has to be aligned again. -/
theorem interruptTop_kernel (ha : M.Apart own stack) (hc : InKernel c)
    (hrsp : c.st.regs rsp = M.info.tssStackBuffer - UInt64.ofNat 40) :
    interruptTop M.info c = M.info.tssStackBuffer - UInt64.ofNat 48 := by
  have hcpl : c.cpl = 0 := by
    rw [Cpu.cpl, hc.1]
    rfl
  have halign := ha.aligned
  have hlt := M.info.tssStackBuffer.toNat_lt
  have h40 : (UInt64.ofNat 40).toNat = 40 := rfl
  have h48 : (UInt64.ofNat 48).toNat = 48 := rfl
  rw [interruptTop, if_pos hcpl, hrsp]
  refine align_eq ?_
  rw [UInt64.toNat_sub, UInt64.toNat_sub, h40, h48]
  omega

/-- Behind the timer's stub, `iretq` goes back to where the interrupt came. -/
theorem iretq_of_timer (ha : M.Apart own stack) (ho : M.Obeys own stack) {n : Nat}
    (hn : n = 0 ∨ n = 48) (hconf : Configured M.k M.labels M.info stack M.regs c.st.mem)
    (horder : M.inOrder c.st.mem) (hc : InUser c ∨ InKernel c)
    (htop : interruptTop M.info c = M.info.tssStackBuffer - UInt64.ofNat n)
    (hd : Delivered M.info c [] c₁) {calls : List (Symbol × State)} {s : State}
    (hexec : Exec M.fn timerApic c₁.st calls s) :
    ∃ c', iretq M.regs { c₁ with st := s } = some c' ∧ Resumed c c' c' ∧
      (∀ r, c'.st.regs r = c.st.regs r) ∧
      (∀ x, M.Kept own x → c'.st.mem x = c.st.mem x) ∧
      (∀ x, X64.InBlock (interruptTop M.info c) n x → c'.st.mem x = c.st.mem x) ∧
      M.inOrder c'.st.mem := by
  rw [timerApic_eq] at hexec
  have hkeeps := ho.apicHandler (72 + (n + 40)) (by omega)
  obtain ⟨u, _, ⟨-, rfl⟩, hu⟩ :=
    returned_of_trap ha hconf horder hd (Nat.zero_le 1) (by omega) htop rfl hkeeps hexec
  have hgdt : GdtReady M.k M.regs s.mem := (configured_of_kept hconf hu.kept).gdt
  have hsp : s.regs rsp = interruptTop M.info c - 40 := hu.rsp_eq.trans hd.rsp_eq
  have hsaved : Saved s.mem (s.regs rsp) c := by
    rw [hsp]
    exact hu.saved
  obtain ⟨c', hiretq, hres⟩ := iretq_saved { c₁ with st := s } hgdt hsaved hc hd.cs
  refine ⟨c', hiretq,
    ⟨hres.rip, hres.rflags, hres.cs, hres.ss, hres.rsp_eq, fun _ _ => rfl, rfl⟩, ?_, ?_, ?_, ?_⟩
  · intro r
    by_cases hr : r = rsp
    · rw [hr]
      exact hres.rsp_eq
    · rw [hres.regs r hr]
      exact hu.regs r hr
  · intro x hx
    rw [hres.mem]
    exact hu.kept x hx
  · intro x hx
    rw [hres.mem]
    exact hu.above x hx
  · rw [hres.mem]
    exact hu.inOrder

theorem resumed_of_timer (ha : M.Apart own stack) (ho : M.Obeys own stack) {n : Nat}
    (hn : n = 0 ∨ n = 48) (hconf : Configured M.k M.labels M.info stack M.regs c.st.mem)
    (horder : M.inOrder c.st.mem) (hc : InUser c ∨ InKernel c)
    (htop : interruptTop M.info c = M.info.tssStackBuffer - UInt64.ofNat n) {c' : Cpu}
    (h : M.Timer c c') :
    Resumed c c' c' ∧ (∀ r, c'.st.regs r = c.st.regs r) ∧
      (∀ x, M.Kept own x → c'.st.mem x = c.st.mem x) ∧
      (∀ x, X64.InBlock (interruptTop M.info c) n x → c'.st.mem x = c.st.mem x) ∧
      M.inOrder c'.st.mem := by
  obtain ⟨c₁, calls, s, hdeliver, -, hexec, hiretq⟩ := h
  obtain ⟨c₁', hdeliver', -, hd⟩ := deliver_configured hconf apicInterruptEntry [] (Nat.zero_le 1)
  obtain rfl : c₁' = c₁ := Option.some.inj (hdeliver'.symm.trans hdeliver)
  obtain ⟨c₂, hiretq', hres⟩ := iretq_of_timer ha ho hn hconf horder hc htop hd hexec
  obtain rfl : c₂ = c' := Option.some.inj (hiretq'.symm.trans hiretq)
  exact hres

/-- The timer's interrupt is handled, from either level. -/
theorem exists_timer (ha : M.Apart own stack) (ho : M.Obeys own stack) {asked : View own → Prop}
    (hr : M.Returns stack asked) {n : Nat} (hn : n = 0 ∨ n = 48)
    (hconf : Configured M.k M.labels M.info stack M.regs c.st.mem) (horder : M.inOrder c.st.mem)
    (hc : InUser c ∨ InKernel c)
    (htop : interruptTop M.info c = M.info.tssStackBuffer - UInt64.ofNat n) :
    ∃ c', M.Timer c c' := by
  obtain ⟨c₁, hdeliver, hrip, hd⟩ := deliver_configured hconf apicInterruptEntry [] (Nat.zero_le 1)
  have henters := enters_trapCall ha hd (Nat.zero_le 1) (by omega) htop hconf horder 0
  obtain ⟨calls, s, hexec⟩ : ∃ calls s, Exec M.fn timerApic c₁.st calls s := by
    rw [timerApic_eq]
    refine exists_exec_trap ?_ fun _ h => absurd h List.not_mem_nil
    exact hr.apicHandler _ (by simp only [List.length_nil]; omega) _ henters
  obtain ⟨c', hiretq, -⟩ := iretq_of_timer ha ho hn hconf horder hc htop hd hexec
  exact ⟨c', c₁, calls, s, hdeliver, hrip, hexec, hiretq⟩

end Traps

/-! ## each step -/

section Steps

variable {own : UInt64 → Prop} {M : Machine} {prog : Program own} {stack : UInt64} {v : View own}
  {c c' u : Cpu}

/-- What is kept is all that the program sees. -/
theorem view_eq (hregs : ∀ r, c'.st.regs r = c.st.regs r) (hrip : c'.rip = c.rip)
    (hrflags : c'.rflags = c.rflags) (hmem : ∀ x, own x → c'.st.mem x = c.st.mem x) :
    view own c' = view own c := by
  refine View.ext (funext hregs) hrip hrflags (funext ?_)
  rintro ⟨x, hx⟩
  exact hmem x hx

theorem Running.intr (h : Running M own stack v c) : c.st.intr = true :=
  (Cpu.getLsbD_rflags c).symm.trans h.flags.2

theorem Running.timer (ha : M.Apart own stack) (ho : M.Obeys own stack)
    (h : Running M own stack v c) (ht : M.Timer c c') : Running M own stack v c' := by
  obtain ⟨hres, hregs, hkept, -, horder⟩ := resumed_of_timer ha ho (.inl rfl) h.configured
    h.inOrder (.inl h.segments) (interruptTop_user ha h.segments) ht
  refine ⟨?_, ⟨hres.cs.trans h.segments.1, hres.ss.trans h.segments.2⟩, ?_, ?_, horder⟩
  · rw [← h.sees]
    exact view_eq hregs hres.rip hres.rflags fun x hx => hkept x (.inl hx)
  · rw [hres.rflags]
    exact h.flags
  · exact configured_of_kept h.configured hkept

/-- The frame of the page fault is above the timer's. -/
theorem Interrupted.timer (ha : M.Apart own stack) (ho : M.Obeys own stack)
    (h : Interrupted M own stack v c u) (ht : M.Timer c c') : Interrupted M own stack v c' u := by
  have htop := interruptTop_kernel ha h.kernel h.rsp_eq
  obtain ⟨hres, hregs, hkept, habove, horder⟩ := resumed_of_timer ha ho (.inr rfl) h.configured
    h.inOrder (.inr h.kernel) htop ht
  refine ⟨h.sees, h.segments, h.flags, configured_of_kept h.configured hkept, horder,
    ⟨hres.cs.trans h.kernel.1, hres.ss.trans h.kernel.2⟩, ?_, (hregs rsp).trans h.rsp_eq, ?_,
    fun r hr => (hregs r).trans (h.regs r hr), fun x hx => (hkept x (.inl hx)).trans (h.mem x hx)⟩
  · rw [← Cpu.getLsbD_rflags, hres.rflags, Cpu.getLsbD_rflags]
    exact h.intr
  · rw [hregs rsp]
    refine h.saved.congr fun x hx => habove x ?_
    rw [h.rsp_eq, inBlock_iff_below (by decide)] at hx
    rw [htop, inBlock_iff_below (by decide)]
    exact Nat.lt_of_lt_of_le hx (by decide)

theorem Running.fault (ha : M.Apart own stack) (ho : M.Obeys own stack)
    (h : Running M own stack v c) {errorCode : UInt64} (hf : M.Fault errorCode c c') :
    Interrupted M own stack v c' c := by
  obtain ⟨c₁, calls, s, hdeliver, -, hexec, rfl⟩ := hf
  obtain ⟨c₁', hdeliver', -, hd⟩ :=
    deliver_configured h.configured pageFaultIdtIndex [errorCode] (Nat.le_refl 1)
  obtain rfl : c₁' = c₁ := Option.some.inj (hdeliver'.symm.trans hdeliver)
  have htop := interruptTop_user ha h.segments
  rw [pagefaultTrap_eq] at hexec
  obtain ⟨w, _, hadd, hw⟩ := returned_of_trap ha h.configured h.inOrder hd (Nat.le_refl 1)
    (Nat.zero_le 48) htop rfl ho.pageFaultHandler hexec
  obtain ⟨-, rfl⟩ := exec_single.mp hadd
  -- the error code is skipped
  have hcpl : ¬ c.cpl = 0 := by
    rw [Cpu.cpl, h.segments.1]
    decide
  have hzero : M.info.tssStackBuffer - UInt64.ofNat 0 = M.info.tssStackBuffer := UInt64.sub_zero _
  have hrsp : (w.set rsp (w.regs rsp + 8)).regs rsp =
      M.info.tssStackBuffer - UInt64.ofNat 40 := by
    have h48 : UInt64.ofNat (40 + 8 * [errorCode].length) = UInt64.ofNat 40 + 8 := rfl
    rw [State.set_regs_self, hw.rsp_eq, hd.rsp_eq, htop, hzero, h48, eq_comm,
      UInt64.sub_eq_iff_eq_add, UInt64.add_assoc, UInt64.add_comm 8, UInt64.sub_add_cancel]
  have hsaved : Saved w.mem (M.info.tssStackBuffer - UInt64.ofNat 40) c := by
    have hw' := hw.saved
    rw [htop, hzero] at hw'
    exact hw'
  refine ⟨h.sees, h.segments, h.flags, configured_of_kept h.configured hw.kept, hw.inOrder,
    ⟨hd.cs, ?_⟩, hw.intr, hrsp, ?_, ?_, fun x hx => hw.kept x (.inl hx)⟩
  · rw [hd.ss, if_neg hcpl]
  · show Saved w.mem ((w.set rsp (w.regs rsp + 8)).regs rsp) c
    rw [hrsp]
    exact hsaved
  · exact fun r hr => (State.set_regs_of_ne _ hr _).trans (hw.regs r hr)

theorem Interrupted.iretq (h : Interrupted M own stack v c u) :
    ∃ c', Interrupts.iretq M.regs c = some c' ∧ Running M own stack v c' := by
  obtain ⟨c', hiretq, hres⟩ :=
    iretq_saved c h.configured.gdt h.saved (.inl h.segments) h.kernel.1
  refine ⟨c', hiretq, ?_, ⟨hres.cs.trans h.segments.1, hres.ss.trans h.segments.2⟩, ?_, ?_, ?_⟩
  · rw [← h.sees]
    refine view_eq ?_ hres.rip hres.rflags fun x hx => ?_
    · intro r
      by_cases hr : r = rsp
      · rw [hr]
        exact hres.rsp_eq
      · exact (hres.regs r hr).trans (h.regs r hr)
    · rw [hres.mem]
      exact h.mem x hx
  · rw [hres.rflags]
    exact h.flags
  · rw [hres.mem]
    exact h.configured
  · rw [hres.mem]
    exact h.inOrder

/-- `syscall` finds the variables where they are. -/
theorem Running.placed (ha : M.Apart own stack) (h : Running M own stack v c) :
    M.k.toStackVars.Placed c.st.mem := by
  refine ⟨fun x hx hx' => ?_, fun x hx hx' => ?_⟩
  · exact absurd (ha.regions .userStack .kernelStack x hx hx') (by decide)
  · rw [h.configured.kernelStack] at hx'
    exact (ha.kernelStack x hx').2 hx

/-- `do_syscall_entry` begins as it is to begin. -/
theorem Running.enters (ha : M.Apart own stack) (h : Running M own stack v c)
    {fn : Functions Symbol} {next rflags : UInt64} {t : State} (ret : UInt64)
    (henter : Exec fn (syscallEnter M.k.toStackVars) (syscall next rflags c.st) [] t) :
    M.Enters stack (stack - 64) (t.push ret) := by
  have hplaced := h.placed ha
  have hkernel := h.configured.kernelStack
  have hmem : ∀ x, ¬ Below stack 72 x → ¬ X64.InBlock M.k.userStack 8 x →
      (t.push ret).mem x = c.st.mem x := by
    intro x hlow hvar
    refine exec_syscallEnter_mem hplaced henter ret ?_ hvar
    rw [hkernel]
    exact hlow
  refine ⟨?_, exec_syscallEnter_intr hplaced henter ret, ⟨M.regs, ?_⟩,
    ha.inOrder _ _ (fun x hx => ?_) h.inOrder⟩
  · rw [exec_syscallEnter_rsp hplaced henter ret, hkernel]
  · exact h.configured.of_regions fun r x hr hr' hx => hmem x
      (fun hlow => (ha.kernelStack x hlow).1 (.inr ⟨r, hr, hr', hx⟩))
      fun hvar => hr (ha.regions r .userStack x hx hvar)
  · exact hmem x (fun hlow => hx (.inr (.inr (.inl hlow)))) fun hvar => hx (.inr (.inr (.inr hvar)))

/-- It has been called by the program. -/
theorem Running.calledFrom (ha : M.Apart own stack) (h : Running M own stack v c)
    {fn : Functions Symbol} {next rflags : UInt64} {t : State} (ret : UInt64)
    (henter : Exec fn (syscallEnter M.k.toStackVars) (syscall next rflags c.st) [] t) :
    CalledFrom v (t.push ret) := by
  have hplaced := h.placed ha
  have hargs := exec_syscallEnter_args hplaced (Wrapper.syscall5 (c.st.regs rdi) (c.st.regs rsi)
    (c.st.regs rdx) (c.st.regs r10) (c.st.regs r8) (c.st.regs r9))
    (by simp [Asm.Loaded, syscall5, syscallAsm]) henter ret
  refine ⟨?_, fun x => ?_⟩
  · rw [← h.sees]
    exact (hargs.eq_of_length rfl).symm
  · rw [← h.sees]
    refine exec_syscallEnter_mem hplaced henter ret ?_ ?_
    · rw [h.configured.kernelStack]
      exact fun hlow => (ha.kernelStack x.1 hlow).1 (.inl x.2)
    · exact fun hvar => ha.program .userStack x.1 (by decide) x.2 hvar

/-- The entry code keeps what the kernel and the program rely on. -/
theorem Running.syscall_kept (ha : M.Apart own stack) (ho : M.Obeys own stack)
    (h : Running M own stack v c) {next rflags : UInt64} {calls : List (Symbol × State)} {s : State}
    (hexec : Exec M.fn (syscallEntry M.k.toStackVars) (KernelEntry.syscall next rflags c.st)
      calls s) {x : UInt64} (hx : M.Kept own x) : s.mem x = c.st.mem x := by
  refine exec_syscallEntry_mem (h.placed ha) ho.doSyscallEntry.toKeeps
    (fun _ ret => h.enters ha ret) hexec (.inl hx) ?_ ?_
  · rw [h.configured.kernelStack]
    exact fun hlow => (ha.kernelStack x hlow).1 hx
  · intro hvar
    obtain hown | ⟨r, hr, -, hr'⟩ := hx
    · exact ha.program .userStack x (by decide) hown hvar
    · exact hr (ha.regions r .userStack x hr' hvar)

/-- What the program sees of an answered call: the result, and what `syscall` itself
leaves in two registers. -/
theorem view_answered {c c' : Cpu} (hrip : c'.rip = c.rip + 2) (hflags : c'.rflags = c.rflags)
    (hrax : c'.st.regs rax = syscallResult (c.st.regs rdi)) (hr11 : c'.st.regs r11 = c.rflags)
    (hrcx : c'.st.regs rcx = c.rip + 2)
    (hregs : ∀ r, r ≠ rax → r ≠ r11 → r ≠ rcx → c'.st.regs r = c.st.regs r)
    (hmem : ∀ x, own x → c'.st.mem x = c.st.mem x) : view own c' = (view own c).answered := by
  refine View.ext (funext fun r => ?_) hrip hflags (funext fun x => hmem x.1 x.2)
  show c'.st.regs r = Function.update (Function.update (Function.update c.st.regs rcx _) r11 _)
    rax _ r
  by_cases h1 : r = rax
  · rw [h1, Function.update_self]
    exact hrax
  by_cases h2 : r = r11
  · rw [h2, Function.update_of_ne (by decide), Function.update_self]
    exact hr11
  by_cases h3 : r = rcx
  · rw [h3, Function.update_of_ne (by decide), Function.update_of_ne (by decide),
      Function.update_self]
    exact hrcx
  · rw [Function.update_of_ne h1, Function.update_of_ne h2, Function.update_of_ne h3]
    exact hregs r h1 h2 h3

/-- A system call, as the program sees it. -/
theorem Running.syscall (ha : M.Apart own stack) (ho : M.Obeys own stack)
    (h : Running M own stack v c) (hs : M.Syscall c c') : Running M own stack v.answered c' := by
  obtain ⟨c₁, calls, s, hsyscall, -, hexec, hsysret⟩ := hs
  obtain ⟨c₁', hsyscall', -, hst⟩ := syscallInstr_ready h.configured.syscall c
  obtain rfl : c₁' = c₁ := Option.some.inj (hsyscall'.symm.trans hsyscall)
  obtain ⟨c₂, hsysret', huser, hrip, hrflags, hregs, hmem⟩ :=
    sysretq_ready h.configured.syscall { c₁' with st := s }
  obtain rfl : c₂ = c' := Option.some.inj (hsysret'.symm.trans hsysret)
  rw [hst] at hexec
  obtain ⟨t, ret, u, henter, hcall, hf, hs⟩ := exec_syscallEntry_call hexec
  have henters : M.Enters stack (stack - 64) (t.push ret) := h.enters ha ret henter
  -- the wrapper with all arguments: its registers are loaded with what they hold
  obtain ⟨⟨s₁, s₂, hcalls, hargs, hf', hrax⟩, ⟨hrcx, hr11⟩, hkept⟩ :=
    exec_syscallEntry (h.placed ha) ho.doSyscallEntry.toKeeps (fun _ ret => h.enters ha ret)
      (fun _ => .inr) (Wrapper.syscall5 (c.st.regs rdi) (c.st.regs rsi) (c.st.regs rdx)
        (c.st.regs r10) (c.st.regs r8) (c.st.regs r9))
      (by simp [Asm.Loaded, syscall5, syscallAsm]) hexec
  obtain rfl : s₁ = t.push ret := by simpa using hcalls.symm.trans hcall
  have hresult : s.regs rax = syscallResult (c.st.regs rdi) := by
    obtain ⟨hrdi, -⟩ : c.st.regs rdi = (t.push ret).regs rdi ∧ _ := List.cons_prefix_cons.mp hargs
    rw [hrdi, ← ho.syscallResult henters hf']
    exact hrax
  have horder : M.inOrder s.mem := by
    rw [hs, State.set_mem, State.popAll_mem]
    exact ho.doSyscallEntry.inOrder _ _ henters hf
  have hflags : c₂.rflags = c.rflags := by
    rw [hrflags]
    exact (congrArg sysretFlags hr11).trans h.flags.1
  refine ⟨?_, huser, hflags ▸ h.flags, ?_, hmem ▸ horder⟩
  · rw [← h.sees]
    refine view_answered (hrip.trans hrcx) hflags (hregs ▸ hresult) (hregs ▸ hr11) (hregs ▸ hrcx)
      (fun r h1 h2 h3 => ?_) fun x hx => ?_
    · rw [hregs]
      exact hkept r (by simp [syscall5, syscallAsm, h1, h2, h3])
    · rw [hmem]
      exact h.syscall_kept ha ho hexec (.inl hx)
  · rw [hmem]
    exact configured_of_kept h.configured fun x hx => h.syscall_kept ha ho hexec hx

/-- An instruction of the program's own. -/
theorem Running.instr (ha : M.Apart own stack) (h : Running M own stack v c)
    (hi : prog.instr (view own c) (view own c')) (hcs : c'.cs = c.cs) (hss : c'.ss = c.ss)
    (hmem : ∀ x, ¬ own x → c'.st.mem x = c.st.mem x) :
    Running M own stack (view own c') c' := by
  refine ⟨rfl, ⟨hcs.trans h.segments.1, hss.trans h.segments.2⟩, prog.flags _ _ hi h.flags, ?_, ?_⟩
  · exact h.configured.of_regions fun r x _ hr hx => hmem x fun hown => ha.program r x hr hown hx
  · exact ha.inOrder _ _ (fun x hx => hmem x fun hown => hx (.inl hown)) h.inOrder

/-- A page fault is handled. -/
theorem Running.exists_fault (ha : M.Apart own stack) {asked : View own → Prop}
    (hr : M.Returns stack asked) (h : Running M own stack v c) (errorCode : UInt64) :
    ∃ c', M.Fault errorCode c c' := by
  obtain ⟨c₁, hdeliver, hrip, hd⟩ :=
    deliver_configured h.configured pageFaultIdtIndex [errorCode] (Nat.le_refl 1)
  have henters := enters_trapCall ha hd (Nat.le_refl 1) (Nat.zero_le 48)
    (interruptTop_user ha h.segments) h.configured h.inOrder 0
  obtain ⟨calls, s, hexec⟩ : ∃ calls s, Exec M.fn pagefaultTrap c₁.st calls s := by
    rw [pagefaultTrap_eq]
    exact exists_exec_trap (hr.pageFaultHandler _ henters) (by simp [Instr.isCall])
  exact ⟨_, c₁, calls, s, hdeliver, hrip, hexec, rfl⟩

/-- A system call comes back, if it is one of those that do. -/
theorem Running.exists_syscall (ha : M.Apart own stack) {asked : View own → Prop}
    (hr : M.Returns stack asked) (h : Running M own stack v c) (hasked : asked v) :
    ∃ c', M.Syscall c c' := by
  obtain ⟨c₁, hsyscall, hrip, hst⟩ := syscallInstr_ready h.configured.syscall c
  obtain ⟨calls, s, hexec⟩ : ∃ calls s, Exec M.fn (syscallEntry M.k.toStackVars) c₁.st calls s := by
    rw [hst]
    refine exists_exec_syscallEntry fun t henter => ?_
    exact hr.doSyscallEntry _ v (h.enters ha 0 henter) (h.calledFrom ha 0 henter) hasked
  obtain ⟨c', hsysret, -⟩ := sysretq_ready h.configured.syscall { c₁ with st := s }
  exact ⟨c', c₁, calls, s, hsyscall, hrip, hexec, hsysret⟩

/-- **One step** of the machine is one of the program, or none. -/
theorem step_refines (ha : M.Apart own stack) (ho : M.Obeys own stack) {mode mode' : Mode}
    (h : Shows M own stack v mode) (hs : Step M prog mode mode') :
    ∃ v', ReflTransGen (UserStep prog) v v' ∧ Shows M own stack v' mode' := by
  cases hs with
  | @instr c c' hi hcs hss hmem =>
      obtain @⟨_, h⟩ := h
      have hstep : UserStep prog v (view own c') := .instr (h.sees ▸ hi)
      exact ⟨_, .single hstep, .user (h.instr ha hi hcs hss hmem)⟩
  | @syscall c c' hasks hs =>
      obtain @⟨_, h⟩ := h
      have hstep : UserStep prog v v.answered := .syscall (h.sees ▸ hasks)
      exact ⟨_, .single hstep, .user (h.syscall ha ho hs)⟩
  | timer hintr ht =>
      obtain @⟨_, h⟩ := h
      exact ⟨v, .refl, .user (h.timer ha ho ht)⟩
  | fault hf =>
      obtain @⟨_, h⟩ := h
      exact ⟨v, .refl, .resume (h.fault ha ho hf)⟩
  | timerInKernel hintr ht =>
      obtain _ | @⟨_, _, h⟩ := h
      exact ⟨v, .refl, .resume (h.timer ha ho ht)⟩
  | @iretq c c' hi =>
      obtain _ | @⟨_, _, h⟩ := h
      obtain ⟨c'', hi', hrun⟩ := h.iretq
      obtain rfl : c'' = c' := Option.some.inj (hi'.symm.trans hi)
      exact ⟨v, .refl, .user hrun⟩
  | exception => exact ⟨v, .refl, .halted⟩

/-- Every run keeps the invariant. -/
theorem shows_of_run (ha : M.Apart own stack) (ho : M.Obeys own stack) {mode mode' : Mode}
    (h : Shows M own stack v mode) (hr : ReflTransGen (Step M prog) mode mode') :
    ∃ v', ReflTransGen (UserStep prog) v v' ∧ Shows M own stack v' mode' := by
  induction hr with
  | refl => exact ⟨v, .refl, h⟩
  | tail _ hs ih =>
      obtain ⟨v₁, hr₁, h₁⟩ := ih
      obtain ⟨v', hr', h'⟩ := step_refines ha ho h₁ hs
      exact ⟨v', hr₁.trans hr', h'⟩

end Steps

/-! ## runs -/

section Runs

variable {own : UInt64 → Prop} {M : Machine} {stack : UInt64} (ha : M.Apart own stack)
  (ho : M.Obeys own stack) {c : Cpu} {prog : Program own} {mode : Mode}

include ha ho

/-- The machine, from a program's state on, does what the program does. -/
theorem run_refines (hsegments : InUser c) (hflags : UserFlags c.rflags)
    (hconf : Configured M.k M.labels M.info stack M.regs c.st.mem) (horder : M.inOrder c.st.mem)
    (hr : ReflTransGen (Step M prog) (.user c) mode) :
    mode = .halted ∨ ∃ c', mode.Back M c' ∧
      ReflTransGen (UserStep prog) (view own c) (view own c') := by
  have hrunning : Running M own stack (view own c) c := ⟨rfl, hsegments, hflags, hconf, horder⟩
  obtain ⟨v, hv, hshows⟩ := shows_of_run ha ho (.user hrunning) hr
  cases hshows with
  | user h => exact .inr ⟨_, rfl, h.sees.symm ▸ hv⟩
  | resume h =>
      obtain ⟨c', hback, h'⟩ := h.iretq
      exact .inr ⟨c', hback, h'.sees.symm ▸ hv⟩
  | halted => exact .inl rfl

/-- **Nothing fails to be handled**, in any state that a run comes to: the timer,
page faults and the system calls that are asked for come back, and the program
cannot keep the timer off. -/
theorem run_serviced {asked : View own → Prop} (hret : M.Returns stack asked)
    (hsegments : InUser c) (hflags : UserFlags c.rflags)
    (hconf : Configured M.k M.labels M.info stack M.regs c.st.mem) (horder : M.inOrder c.st.mem)
    (hr : ReflTransGen (Step M prog) (.user c) mode) :
    (∀ c', mode = .user c' → c'.st.intr = true ∧
      (∃ c'', M.Timer c' c'' ∧ view own c'' = view own c') ∧
      (∀ errorCode, ∃ c'' c₃, M.Fault errorCode c' c'' ∧ iretq M.regs c'' = some c₃ ∧
        view own c₃ = view own c') ∧
      (asked (view own c') →
        ∃ c'', M.Syscall c' c'' ∧ view own c'' = (view own c').answered)) ∧
    ∀ c', mode = .resume c' → c'.st.intr = true ∧ (∃ c'', M.Timer c' c'') ∧
      ∃ c'', iretq M.regs c' = some c'' := by
  have hrunning : Running M own stack (view own c) c := ⟨rfl, hsegments, hflags, hconf, horder⟩
  obtain ⟨v, -, hshows⟩ := shows_of_run ha ho (.user hrunning) hr
  constructor
  · rintro c' rfl
    obtain @⟨_, h⟩ := hshows
    refine ⟨h.intr, ?_, fun errorCode => ?_, fun hasked => ?_⟩
    · obtain ⟨c'', ht⟩ := exists_timer ha ho hret (.inl rfl) h.configured h.inOrder
        (.inl h.segments) (interruptTop_user ha h.segments)
      exact ⟨c'', ht, (h.timer ha ho ht).sees.trans h.sees.symm⟩
    · obtain ⟨c'', hf⟩ := h.exists_fault ha hret errorCode
      obtain ⟨c₃, hback, h₃⟩ := (h.fault ha ho hf).iretq
      exact ⟨c'', c₃, hf, hback, h₃.sees.trans h.sees.symm⟩
    · obtain ⟨c'', hs⟩ := h.exists_syscall ha hret (h.sees ▸ hasked)
      exact ⟨c'', hs, (h.syscall ha ho hs).sees.trans (congrArg View.answered h.sees.symm)⟩
  · rintro c' rfl
    obtain _ | @⟨_, u, h⟩ := hshows
    obtain ⟨c'', hback, -⟩ := h.iretq
    exact ⟨h.intr, exists_timer ha ho hret (.inr rfl) h.configured h.inOrder (.inr h.kernel)
      (interruptTop_kernel ha h.kernel h.rsp_eq), c'', hback⟩

end Runs

/-! ## from the kernel's start on -/

section Start

/-- `sysretq` sets flags that it would set again. -/
theorem userFlags_sysretFlags {w : UInt64} (h : w.toBitVec.getLsbD 9 = true) :
    UserFlags (sysretFlags w) := by
  have hmask : (2 : UInt64) &&& 0x3C7FD7 = 2 := by decide
  have h9 : (0x3C7FD7#64).getLsbD 9 = true := rfl
  constructor
  · refine UInt64.toBitVec_inj.mp (BitVec.eq_of_getLsbD_eq fun i hi => ?_)
    have hbit : (0x3C7FD7#64).getLsbD i = true ∨ (2#64).getLsbD i = false := by
      revert i
      decide
    show (((w.toBitVec &&& 0x3C7FD7#64) ||| 2#64) &&& 0x3C7FD7#64 ||| 2#64).getLsbD i =
      ((w.toBitVec &&& 0x3C7FD7#64) ||| 2#64).getLsbD i
    simp only [BitVec.getLsbD_or, BitVec.getLsbD_and]
    obtain hbit | hbit := hbit
    · rw [hbit, Bool.and_true, Bool.and_true, Bool.or_assoc, Bool.or_self]
    · rw [hbit, Bool.or_false, Bool.or_false, Bool.and_assoc, Bool.and_self]
  · show ((w.toBitVec &&& 0x3C7FD7#64) ||| 2#64).getLsbD 9 = true
    rw [BitVec.getLsbD_or, BitVec.getLsbD_and, h, h9]
    rfl

variable {own : UInt64 → Prop} {M : Machine} {stack : UInt64} {c : Cpu}

/-- `user_jump` goes to the user's segments, with the interrupts on that were on. -/
theorem userJump_running
    (hconf : Configured M.k M.labels M.info stack M.regs c.st.mem) (hintr : c.st.intr = true)
    (hstack : ∀ x, Below (c.st.regs rsp) 8 x →
      ¬ M.Kept own x ∧ ¬ Region.userStack.Has M.k M.info x) :
    ∃ c', userJump M.k.toStackVars M.regs c = some c' ∧ c'.rip = c.st.regs rdi ∧
      c'.st.regs rsp = load64 c.st.mem M.k.userStack ∧ InUser c' ∧ UserFlags c'.rflags ∧
      Configured M.k M.labels M.info stack M.regs c'.st.mem := by
  let s₁ := (c.st.push c.rflags).pop r11
  let s₂ := s₁.set rcx (s₁.regs rdi)
  let s := s₂.set rsp (load64 s₂.mem M.k.userStack)
  have hmem : ∀ x, ¬ Below (c.st.regs rsp) 8 x → s.mem x = c.st.mem x :=
    fun x hx => State.push_mem_of_not_below c.st c.rflags hx
  have hr11 : s.regs r11 = c.rflags := by
    have hpop : s₁.regs r11 = c.rflags := by
      rw [State.pop_regs_self, State.push_rsp]
      exact load64_store64 ..
    rw [State.set_regs_of_ne _ (by decide), State.set_regs_of_ne _ (by decide), hpop]
  have hrcx : s.regs rcx = c.st.regs rdi := by
    rw [State.set_regs_of_ne _ (by decide), State.set_regs_self,
      State.pop_regs_of_ne _ (by decide) (by decide), State.push_regs_of_ne _ (by decide)]
  have huser : load64 s.mem M.k.userStack = load64 c.st.mem M.k.userStack :=
    userStack_of_region M.info fun x hx => hmem x fun hlow => (hstack x hlow).2 hx
  obtain ⟨c', hsysret, hseg, hrip, hrflags, hregs, hmem'⟩ :=
    sysretq_ready hconf.syscall { c with st := s }
  refine ⟨c', hsysret, hrip.trans hrcx, ?_, hseg, ?_, ?_⟩
  · rw [hregs, ← huser]
    exact State.set_regs_self ..
  · rw [hrflags]
    show UserFlags (sysretFlags (s.regs r11))
    rw [hr11]
    exact userFlags_sysretFlags ((Cpu.getLsbD_rflags c).trans hintr)
  · rw [hmem']
    exact configured_of_kept hconf fun x hx => hmem x fun hlow => (hstack x hlow).1 hx

end Start

/-! ## a sample -/

section Sample

/-- Functions of C that change nothing in memory, and the registers they may change. -/
def sampleFunctions : Functions Symbol := fun _ s s' =>
  s' = { s with regs := fun r =>
    if r = rsp then s.regs rsp + 8 else if r ∈ calleeSaved then s.regs r
    else syscallResult (s.regs rdi) }

theorem keeps_sampleFunctions (pre : State → Prop) (frame : Nat) (own : UInt64 → Prop)
    (f : Symbol) : Keeps pre frame own (sampleFunctions f) where
  rsp_eq := by
    rintro s _ - rfl
    rfl
  regs_eq := by
    rintro s _ - rfl r hr
    have hne : r ≠ rsp := by
      rintro rfl
      revert hr
      decide
    simp [hne, hr]
  frame_eq := by
    rintro s _ - rfl x -
    rfl
  own_eq := by
    rintro s _ - rfl x -
    rfl

def sampleMachine (regs : SystemRegs) : Machine where
  k := sampleStatics
  labels := sampleLabels
  info := sampleInfo
  regs := regs
  fn := sampleFunctions
  inOrder _ := True

/-- A program of one page. -/
def sampleOwn : UInt64 → Prop := X64.InBlock 0x10000 0x1000

/-- It goes ahead, or asks for whatever is in its registers. -/
def sampleProgram : Program sampleOwn where
  asks _ := True
  instr v v' := v' = { v with rip := v.rip + 1 }
  flags := by
    rintro v _ rfl h
    exact h

theorem toNat_bounds_of_kept {regs : SystemRegs} {x : UInt64}
    (h : (sampleMachine regs).Kept sampleOwn x) :
    x.toNat < 0x11000 ∨ 0x100000 ≤ x.toNat ∧ x.toNat < 0x110000 ∨
      0x911000 ≤ x.toNat ∧ x.toNat < 0x912000 := by
  have hx := x.toNat_lt
  obtain h | ⟨r, hr, hr', h⟩ := h
  · have hbase : (0x10000 : UInt64).toNat = 0x10000 := rfl
    simp only [sampleOwn, X64.InBlock, UInt64.toNat_sub, hbase] at h
    omega
  · have hbase : (r.base sampleStatics sampleInfo).toNat + r.size ≤ 0x110000 ∧
        0x100000 ≤ (r.base sampleStatics sampleInfo).toNat ∨
        0x911000 ≤ (r.base sampleStatics sampleInfo).toNat ∧
        (r.base sampleStatics sampleInfo).toNat + r.size ≤ 0x912000 := by
      cases r <;> first | exact absurd rfl hr | exact absurd rfl hr' | decide
    simp only [sampleMachine, Region.Has, X64.InBlock, UInt64.toNat_sub] at h
    omega

theorem apart_sampleMachine (regs : SystemRegs) :
    (sampleMachine regs).Apart sampleOwn 0x917000 where
  regions := apart_sampleStatics
  program := by
    intro r x _ hown hx
    have hlt := x.toNat_lt
    have hfrom : 0x100000 ≤ (r.base sampleStatics sampleInfo).toNat ∧
        (r.base sampleStatics sampleInfo).toNat + r.size ≤ 0x1000000 := by
      cases r <;> decide
    have hbase : (0x10000 : UInt64).toNat = 0x10000 := rfl
    simp only [sampleOwn, X64.InBlock, UInt64.toNat_sub, hbase] at hown
    simp only [sampleMachine, Region.Has, X64.InBlock, UInt64.toNat_sub] at hx
    omega
  tssStack := by
    intro x hx hkept
    have hlt := x.toNat_lt
    have hbounds := toNat_bounds_of_kept hkept
    have htop : (sampleInfo.tssStackBuffer - 1).toNat = 0x910FFF := rfl
    simp only [sampleMachine, Below, UInt64.toNat_sub _ x, htop] at hx
    omega
  kernelStack := by
    intro x hx
    have hlt := x.toNat_lt
    have htop : ((0x917000 : UInt64) - 1).toNat = 0x916FFF := rfl
    have hfrom : 0x916FB8 ≤ x.toNat := by
      simp only [Below, UInt64.toNat_sub _ x, htop] at hx
      omega
    refine ⟨fun hkept => ?_, fun huser => ?_⟩
    · have hbounds := toNat_bounds_of_kept hkept
      omega
    · have hbase : (Region.userStack.base sampleStatics sampleInfo).toNat = 0x108000 := rfl
      have hsize : Region.userStack.size = 8 := rfl
      simp only [sampleMachine, Region.Has, X64.InBlock, UInt64.toNat_sub, hbase, hsize] at huser
      omega
  aligned := by
    show sampleInfo.tssStackBuffer.toNat % 16 = 0
    decide
  inOrder := fun _ _ _ _ => trivial

theorem obeys_sampleMachine (regs : SystemRegs) :
    (sampleMachine regs).Obeys sampleOwn 0x917000 where
  apicHandler _ _ := ⟨keeps_sampleFunctions _ _ _ .apicHandler, fun _ _ _ _ => trivial⟩
  pageFaultHandler := ⟨keeps_sampleFunctions _ _ _ .pageFaultHandler, fun _ _ _ _ => trivial⟩
  doSyscallEntry := ⟨keeps_sampleFunctions _ _ _ .doSyscallEntry, fun _ _ _ _ => trivial⟩
  result := by
    rintro s _ - rfl
    obtain ⟨m, g, r, hr⟩ : ∃ m g r, Interact.Prog.Run (Console.Machine.env m)
        ({}, calledWith s) (g, .ret r) := Console.exists_run_doSyscallEntry ..
    exact ⟨m, g, r, hr, (syscallResult_of_run hr).symm⟩

theorem returns_sampleMachine (regs : SystemRegs) (asked : View sampleOwn → Prop) :
    (sampleMachine regs).Returns 0x917000 asked :=
  ⟨fun _ _ _ _ => ⟨_, rfl⟩, fun _ _ => ⟨_, rfl⟩, fun _ _ _ _ _ => ⟨_, rfl⟩⟩

/-- The kernel, in front of its jump to the program. -/
def sampleCpu (b : Boot) : Cpu where
  st := {
    regs := fun r => if r = rdi then 0xFFFFFFFFC0000000 else if r = rsp then 0x917000 else 0
    mem := b.mem
    intr := b.idt.interruptFlag }
  rip := 0x100300
  flags := 2
  cs := 0x08
  ss := 0x10

theorem stack_sampleCpu (b : Boot) (x : UInt64) (hx : Below ((sampleCpu b).st.regs rsp) 8 x) :
    ¬ (sampleMachine b.regs).Kept sampleOwn x ∧ ¬ Region.userStack.Has sampleStatics sampleInfo x :=
  (apart_sampleMachine b.regs).kernelStack x (Nat.lt_of_lt_of_le hx (by decide))

end Sample

end UefiKernel.KernelEntry
