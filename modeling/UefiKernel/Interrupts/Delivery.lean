import UefiKernel.Interrupts.Configured

/-!
# UefiKernel.Interrupts.Delivery

Interrupts and system calls on a processor that the kernel has set up.

From `Configured`, every vector leads to the address in its gate, from either
level (`deliver_eq`), and leaves a frame on the stack (`Saved`) with which
`iretq` goes back (`iretq_saved`).  `syscall` and `sysretq` likewise.
-/

namespace UefiKernel.Interrupts

open X64 Reg

/-! ## flags -/

/-- The mask is bit 9. -/
theorem getLsbD_interruptFlag (i : Nat) : (0x200#64).getLsbD i = decide (i = 9) := by
  by_cases hi : i < 64
  · revert i
    decide
  · rw [BitVec.getLsbD_of_ge _ _ (by omega)]
    exact (decide_eq_false (by omega)).symm

theorem or_interruptFlag {w : UInt64} (h : w.toBitVec.getLsbD 9 = true) :
    w ||| Cpu.interruptFlag = w := by
  refine UInt64.toBitVec_inj.mp (BitVec.eq_of_getLsbD_eq fun i hi => ?_)
  show (w.toBitVec ||| 0x200#64).getLsbD i = w.toBitVec.getLsbD i
  rw [BitVec.getLsbD_or, getLsbD_interruptFlag]
  by_cases h9 : i = 9
  · rw [h9, h]
    rfl
  · rw [decide_eq_false h9, Bool.or_false]

theorem and_not_interruptFlag {w : UInt64} (h : w.toBitVec.getLsbD 9 = false) :
    w &&& ~~~Cpu.interruptFlag = w := by
  refine UInt64.toBitVec_inj.mp (BitVec.eq_of_getLsbD_eq fun i hi => ?_)
  show (w.toBitVec &&& ~~~0x200#64).getLsbD i = w.toBitVec.getLsbD i
  rw [BitVec.getLsbD_and, BitVec.getLsbD_not, getLsbD_interruptFlag, decide_eq_true hi]
  by_cases h9 : i = 9
  · rw [h9, h]
    rfl
  · rw [decide_eq_false h9]
    simp

/-- The flags are as they were set. -/
@[simp] theorem Cpu.rflags_setFlags (c : Cpu) (w : UInt64) : (c.setFlags w).rflags = w := by
  rw [Cpu.rflags, Cpu.setFlags]
  cases h : w.toBitVec.getLsbD 9 with
  | true => exact or_interruptFlag h
  | false => exact and_not_interruptFlag h

/-- The interrupt flag is bit 9. -/
theorem Cpu.getLsbD_rflags (c : Cpu) : c.rflags.toBitVec.getLsbD 9 = c.st.intr := by
  have h9 : (0x200#64).getLsbD 9 = true := rfl
  rw [Cpu.rflags]
  cases c.st.intr with
  | true =>
      show (c.flags.toBitVec ||| 0x200#64).getLsbD 9 = true
      rw [BitVec.getLsbD_or, h9, Bool.or_true]
  | false =>
      show (c.flags.toBitVec &&& ~~~0x200#64).getLsbD 9 = false
      rw [BitVec.getLsbD_and, BitVec.getLsbD_not, h9]
      simp

@[simp] theorem Cpu.rip_setFlags (c : Cpu) (w : UInt64) : (c.setFlags w).rip = c.rip := rfl

@[simp] theorem Cpu.cs_setFlags (c : Cpu) (w : UInt64) : (c.setFlags w).cs = c.cs := rfl

@[simp] theorem Cpu.ss_setFlags (c : Cpu) (w : UInt64) : (c.setFlags w).ss = c.ss := rfl

@[simp] theorem Cpu.regs_setFlags (c : Cpu) (w : UInt64) :
    (c.setFlags w).st.regs = c.st.regs := rfl

@[simp] theorem Cpu.mem_setFlags (c : Cpu) (w : UInt64) : (c.setFlags w).st.mem = c.st.mem := rfl

/-! ## frames -/

/-- The frame of an interrupted processor, at `sp`. -/
structure Saved (m : Memory) (sp : UInt64) (c : Cpu) : Prop where
  rip : load64 m sp = c.rip
  cs : load64 m (sp + 8) = c.cs.toUInt64
  rflags : load64 m (sp + 16) = c.rflags
  rsp : load64 m (sp + 24) = c.st.regs rsp
  ss : load64 m (sp + 32) = c.ss.toUInt64

/-- Stores outside the frame keep what was saved. -/
theorem Saved.congr {m m' : Memory} {sp : UInt64} {c : Cpu} (h : Saved m sp c)
    (hm : ∀ x, X64.InBlock sp 40 x → m' x = m x) : Saved m' sp c := by
  have hload : ∀ i : Nat, i + 8 ≤ 40 →
      load64 m' (sp + UInt64.ofNat i) = load64 m (sp + UInt64.ofNat i) := by
    intro i hi
    exact load64_congr fun x hx => hm x (hx.shift hi (by omega))
  have h0 := hload 0 (by decide)
  have hzero : sp + UInt64.ofNat 0 = sp := UInt64.add_zero sp
  rw [hzero] at h0
  exact ⟨h0.trans h.rip, (hload 8 (by decide)).trans h.cs, (hload 16 (by decide)).trans h.rflags,
    (hload 24 (by decide)).trans h.rsp, (hload 32 (by decide)).trans h.ss⟩

/-- What is pushed first is the frame. -/
theorem saved_pushVals (s : State) (c : Cpu) {errorCode : List UInt64}
    (hlen : errorCode.length ≤ 1) :
    Saved (s.pushVals (c.frame ++ errorCode)).mem (s.regs rsp - 40) c := by
  have hload : ∀ i < 5, ∀ w, c.frame[i]? = some w →
      load64 (s.pushVals (c.frame ++ errorCode)).mem (s.regs rsp - UInt64.ofNat (8 * (i + 1))) =
        w := by
    intro i hi w hw
    have hframe : i < c.frame.length := hi
    have hlt : i < (c.frame ++ errorCode).length := by
      rw [List.length_append]
      omega
    have hbound : 8 * (c.frame ++ errorCode).length ≤ 2 ^ 64 := by
      have h5 : c.frame.length = 5 := rfl
      rw [List.length_append, h5]
      omega
    rw [State.load64_pushVals s hbound hlt, List.getElem_append_left hframe]
    rwa [List.getElem?_eq_getElem hframe, Option.some_inj] at hw
  have haddr : ∀ i j : Nat, i + j = 40 → s.regs rsp - UInt64.ofNat i =
      s.regs rsp - 40 + UInt64.ofNat j := by
    intro i j hij
    have h40 : (40 : UInt64) = UInt64.ofNat j + UInt64.ofNat i := by
      rw [← UInt64.ofNat_add, Nat.add_comm, hij]
      rfl
    rw [h40, UInt64.sub_eq_iff_eq_add, UInt64.add_assoc, UInt64.sub_add_cancel]
  have hzero : s.regs rsp - 40 + UInt64.ofNat 0 = s.regs rsp - 40 := UInt64.add_zero _
  refine ⟨?_, ?_, ?_, ?_, ?_⟩
  · rw [← hzero, ← haddr 40 0 rfl]
    exact hload 4 (by decide) _ rfl
  · rw [show (8 : UInt64) = UInt64.ofNat 8 from rfl, ← haddr 32 8 rfl]
    exact hload 3 (by decide) _ rfl
  · rw [show (16 : UInt64) = UInt64.ofNat 16 from rfl, ← haddr 24 16 rfl]
    exact hload 2 (by decide) _ rfl
  · rw [show (24 : UInt64) = UInt64.ofNat 24 from rfl, ← haddr 16 24 rfl]
    exact hload 1 (by decide) _ rfl
  · rw [show (32 : UInt64) = UInt64.ofNat 32 from rfl, ← haddr 8 32 rfl]
    exact hload 0 (by decide) _ rfl

/-! ## in -/

/-- The top of the stack that an interrupt is put on: aligned, and the one in the
task state segment unless the kernel is interrupted. -/
def interruptTop (info : Information) (c : Cpu) : UInt64 :=
  (if c.cpl = 0 then c.st.regs rsp else info.tssStackBuffer) &&& ~~~(0xF : UInt64)

/-- Alignment to 16 bytes. -/
theorem toNat_align (a : UInt64) : (a &&& ~~~(0xF : UInt64)).toNat = a.toNat / 16 * 16 := by
  have hbits : a &&& ~~~(0xF : UInt64) = (a >>> 4) <<< 4 := by
    refine UInt64.toBitVec_inj.mp (BitVec.eq_of_getLsbD_eq fun i hi => ?_)
    have hF : (0xF#64).getLsbD i = decide (i < 4) := by
      revert i
      decide
    show (a.toBitVec &&& ~~~0xF#64).getLsbD i = (a.toBitVec >>> 4 <<< 4).getLsbD i
    rw [BitVec.getLsbD_and, BitVec.getLsbD_not, hF, BitVec.getLsbD_shiftLeft,
      BitVec.getLsbD_ushiftRight, decide_eq_true hi]
    by_cases h4 : i < 4
    · simp [h4]
    · have hadd : 4 + (i - 4) = i := by omega
      simp [h4, hadd]
  have ha := a.toNat_lt
  have h4 : (4 : UInt64).toNat % 64 = 4 := rfl
  rw [hbits, UInt64.toNat_shiftLeft, UInt64.toNat_shiftRight, h4, Nat.shiftLeft_eq,
    Nat.shiftRight_eq_div_pow]
  omega

/-- The processor's mask rounds the stack pointer down to a multiple of 16. -/
theorem align_eq {a b : UInt64} (h : a.toNat / 16 * 16 = b.toNat) :
    a &&& ~~~(0xF : UInt64) = b := UInt64.toNat_inj.mp ((toNat_align a).trans h)

/-- In `c₁` the kernel begins to handle an interrupt of `c`. -/
structure Delivered (info : Information) (c : Cpu) (errorCode : List UInt64) (c₁ : Cpu) : Prop where
  cs : c₁.cs = 0x08
  ss : c₁.ss = if c.cpl = 0 then c.ss else 0
  regs : ∀ r, r ≠ rsp → c₁.st.regs r = c.st.regs r
  rsp_eq : c₁.st.regs rsp = interruptTop info c - UInt64.ofNat (40 + 8 * errorCode.length)
  mem : ∀ x, ¬ Below (interruptTop info c) (40 + 8 * errorCode.length) x →
    c₁.st.mem x = c.st.mem x
  saved : Saved c₁.st.mem (interruptTop info c - 40) c

section Configured

variable {k : Statics} {labels : Labels} {info : Information} {stack : UInt64}
  {p : SystemRegs} {c : Cpu}

/-- **Every vector is delivered**, from either level, to where its gate leads. -/
theorem deliver_configured (h : Configured k labels info stack p c.st.mem) (v : UInt8)
    (errorCode : List UInt64) (hlen : errorCode.length ≤ 1) :
    ∃ c₁, deliver p v errorCode c = some c₁ ∧ c₁.rip = installed labels.toHandlers v ∧
      Delivered info c errorCode c₁ := by
  let top := interruptTop info c
  have hdpl : (SegmentDescriptor.decode 0x00af9b000000ffff).dpl.toNat = 0 := by decide
  have htop : (if (SegmentDescriptor.decode 0x00af9b000000ffff).dpl.toNat < c.cpl then
      load64 c.st.mem (p.tss + 4) else c.st.regs rsp) &&& ~~~(0xF : UInt64) = top := by
    rw [hdpl, h.tss.tss, h.tss.rsp0]
    by_cases hcpl : c.cpl = 0
    · simp only [top, interruptTop, hcpl, Nat.lt_irrefl, if_false, if_true]
    · simp only [top, interruptTop, if_neg hcpl, if_pos (Nat.pos_of_ne_zero hcpl)]
  have hgate : (installedGate labels.toHandlers v).isInterrupt = true := by
    show ((0x8E : UInt8).toBitVec.getLsbD 7 && (0x8E : UInt8) &&& 0x1F == 0x0E) = true
    decide
  have hcode : (SegmentDescriptor.decode 0x00af9b000000ffff).isCode = true := by decide
  have hlimit : 11 ≤ p.tssLimit := by
    rw [h.tss.limit]
    decide
  have hok : (installedGate labels.toHandlers v).isInterrupt = true ∧
      (installedGate labels.toHandlers v).ist = 0 ∧
      (SegmentDescriptor.decode 0x00af9b000000ffff).isCode = true ∧
      (SegmentDescriptor.decode 0x00af9b000000ffff).dpl.toNat ≤ c.cpl ∧ 11 ≤ p.tssLimit :=
    ⟨hgate, rfl, hcode, hdpl ▸ Nat.zero_le _, hlimit⟩
  have hseg : segmentAt p c.st.mem (installedGate labels.toHandlers v).selector =
      some (.decode 0x00af9b000000ffff) := h.gdt.kernelCode
  have hcs : ((installedGate labels.toHandlers v).selector &&& 0xFFFC) |||
      UInt16.ofNat (SegmentDescriptor.decode 0x00af9b000000ffff).dpl.toNat = 0x08 := by
    rw [hdpl]
    show ((0x8 : UInt16) &&& 0xFFFC) ||| UInt16.ofNat 0 = 0x08
    decide
  have hss : (if (SegmentDescriptor.decode 0x00af9b000000ffff).dpl.toNat < c.cpl then
      UInt16.ofNat (SegmentDescriptor.decode 0x00af9b000000ffff).dpl.toNat else c.ss) =
      if c.cpl = 0 then c.ss else 0 := by
    rw [hdpl]
    by_cases hcpl : c.cpl = 0
    · rw [if_pos hcpl, hcpl, if_neg (Nat.lt_irrefl 0)]
    · rw [if_neg hcpl, if_pos (Nat.pos_of_ne_zero hcpl)]
      rfl
  let c₁ : Cpu := {
    st := { (c.st.set rsp top).pushVals (c.frame ++ errorCode) with intr := false }
    rip := installed labels.toHandlers v
    flags := c.flags &&& ~~~(0x34100 : UInt64)
    cs := 0x08
    ss := if c.cpl = 0 then c.ss else 0 }
  have hdeliver : deliver p v errorCode c = some c₁ := by
    simp only [deliver, h.idt.gates v, hseg, Option.bind_eq_bind, Option.bind_some, if_pos hok,
      htop, hcs, hss]
    rfl
  have hlen5 : (c.frame ++ errorCode).length = 5 + errorCode.length := List.length_append
  have hbytes : 8 * (c.frame ++ errorCode).length = 40 + 8 * errorCode.length := by omega
  have hstack : (c.st.set rsp top).regs rsp = top := State.set_regs_self ..
  refine ⟨c₁, hdeliver, rfl, rfl, rfl, ?_, ?_, ?_, ?_⟩
  · intro r hr
    show ((c.st.set rsp top).pushVals _).regs r = _
    rw [State.pushVals_regs_of_ne hr, State.set_regs_of_ne _ hr]
  · show ((c.st.set rsp top).pushVals _).regs rsp = _
    rw [State.pushVals_rsp, hstack, hbytes]
  · intro x hx
    show ((c.st.set rsp top).pushVals _).mem x = _
    rw [State.pushVals_mem_of_not_below _ (by omega), State.set_mem]
    rw [hstack, hbytes]
    exact hx
  · have hsaved := saved_pushVals (c.st.set rsp top) c hlen
    rw [hstack] at hsaved
    exact hsaved

/-! ## out -/

/-- Programs run in the user's segments. -/
def InUser (c : Cpu) : Prop := c.cs = 0x23 ∧ c.ss = 0x1B

/-- The kernel has its code segment, and no stack segment behind an interrupt. -/
def InKernel (c : Cpu) : Prop := c.cs = 0x08 ∧ c.ss = 0

/-- `c₂` goes on where `c` was interrupted, with what else is in `c'`. -/
structure Resumed (c c' c₂ : Cpu) : Prop where
  rip : c₂.rip = c.rip
  rflags : c₂.rflags = c.rflags
  cs : c₂.cs = c.cs
  ss : c₂.ss = c.ss
  rsp_eq : c₂.st.regs rsp = c.st.regs rsp
  regs : ∀ r, r ≠ rsp → c₂.st.regs r = c'.st.regs r
  mem : c₂.st.mem = c'.st.mem

/-- `iretq` with the frame of an interrupt. -/
theorem iretq_saved (c' : Cpu) (h : GdtReady k p c'.st.mem)
    (hs : Saved c'.st.mem (c'.st.regs rsp) c) (hc : InUser c ∨ InKernel c) (hcs : c'.cs = 0x08) :
    ∃ c₂, iretq p c' = some c₂ ∧ Resumed c c' c₂ := by
  have hcs' : (load64 c'.st.mem (c'.st.regs rsp + 8)).toUInt16 = c.cs := by
    rw [hs.cs, UInt16.toUInt16_toUInt64]
  have hss' : (load64 c'.st.mem (c'.st.regs rsp + 32)).toUInt16 = c.ss := by
    rw [hs.ss, UInt16.toUInt16_toUInt64]
  have hcpl : c'.cpl = 0 := by
    rw [Cpu.cpl, hcs]
    rfl
  obtain ⟨code, hseg, hok⟩ : ∃ code, segmentAt p c'.st.mem c.cs = some code ∧
      (code.isCode = true ∧ code.dpl.toNat = (c.cs &&& 3).toNat ∧ c'.cpl ≤ (c.cs &&& 3).toNat ∧
        stackOk p c'.st.mem c.ss (c.cs &&& 3).toNat = true) := by
    rw [hcpl]
    obtain ⟨hu, hu'⟩ | ⟨hk, hk'⟩ := hc
    · rw [hu, hu']
      refine ⟨_, h.userCode, by decide, by decide, Nat.zero_le _, ?_⟩
      rw [stackOk, h.userData]
      decide
    · rw [hk, hk']
      refine ⟨_, h.kernelCode, by decide, by decide, Nat.zero_le _, ?_⟩
      have hnull : segmentAt p c'.st.mem 0 = none := by
        unfold segmentAt
        exact if_pos (.inl (by decide))
      rw [stackOk, hnull]
      decide
  have hiretq : iretq p c' = some ({ c' with
      st := c'.st.set rsp (load64 c'.st.mem (c'.st.regs rsp + 24))
      rip := load64 c'.st.mem (c'.st.regs rsp)
      cs := c.cs
      ss := c.ss }.setFlags (load64 c'.st.mem (c'.st.regs rsp + 16))) := by
    simp only [iretq, hcs', hss', hseg, Option.bind_eq_bind, Option.bind_some, if_pos hok]
    rfl
  refine ⟨_, hiretq, ?_, ?_, ?_, ?_, ?_, ?_, ?_⟩
  · rw [Cpu.rip_setFlags]
    exact hs.rip
  · rw [Cpu.rflags_setFlags]
    exact hs.rflags
  · rw [Cpu.cs_setFlags]
  · rw [Cpu.ss_setFlags]
  · rw [Cpu.regs_setFlags]
    exact (State.set_regs_self ..).trans hs.rsp
  · intro r hr
    rw [Cpu.regs_setFlags]
    exact State.set_regs_of_ne _ hr _
  · rw [Cpu.mem_setFlags]
    rfl

/-! ## system calls -/

/-- `syscall` leads to the kernel's entry code. -/
theorem syscallInstr_ready (h : SyscallReady labels p) (c : Cpu) :
    ∃ c₁, syscallInstr p c = some c₁ ∧ c₁.rip = labels.syscallEntryPtr ∧
      c₁.st = KernelEntry.syscall (c.rip + 2) c.rflags c.st := by
  refine ⟨_, if_neg h.efer, h.lstar, ?_⟩
  have hoff : (c.rflags &&& ~~~p.sfmask).toBitVec.getLsbD 9 = false := by
    rw [h.sfmask]
    show (c.rflags.toBitVec &&& ~~~0x200#64).getLsbD 9 = false
    rw [BitVec.getLsbD_and, BitVec.getLsbD_not, getLsbD_interruptFlag]
    simp
  simp only [Cpu.setFlags, hoff]
  rfl

/-- `sysretq` goes back to the user's segments. -/
theorem sysretq_ready (h : SyscallReady labels p) (c : Cpu) :
    ∃ c₂, sysretq p c = some c₂ ∧ InUser c₂ ∧ c₂.rip = c.st.regs rcx ∧
      c₂.rflags = sysretFlags (c.st.regs r11) ∧ c₂.st.regs = c.st.regs ∧
      c₂.st.mem = c.st.mem := by
  refine ⟨_, if_neg h.efer, ⟨?_, ?_⟩, rfl, Cpu.rflags_setFlags _ _, rfl, rfl⟩
  · show ((p.star >>> 48).toUInt16 + 16) ||| 3 = 0x23
    rw [h.star]
    decide
  · show ((p.star >>> 48).toUInt16 + 8) ||| 3 = 0x1B
    rw [h.star]
    decide

end Configured

end UefiKernel.Interrupts
