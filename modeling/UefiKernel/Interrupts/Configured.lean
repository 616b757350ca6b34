import UefiKernel.Interrupts.Setup
import UefiKernel.Interrupts.Vectors
import UefiKernel.LiveTables

/-!
# UefiKernel.Interrupts.Configured

What the processor finds once the kernel has started.

`Configured` says it of registers and memory, for the descriptors, the task
state segment, the system call and the gates.  Each function of `Setup` is
proved to bring about its part and to keep the others', and the whole to keep
interrupts off until then.
-/

namespace UefiKernel.Interrupts

open X64 KernelEntry

/-! ## the parts -/

/-- The gate of a vector, as `idt_init` sets it. -/
def installedGate (h : Handlers) (v : UInt8) : Gate where
  offset := installed h v
  selector := 0x8
  ist := 0
  attr := 0x8E
  reserved := 0

/-- The descriptors of the kernel's and the user's segments. -/
structure GdtReady (k : Statics) (p : SystemRegs) (m : Memory) : Prop where
  gdtr : p.gdtr = { limit := 55, base := k.gdt }
  quads : ∀ i < 5, gdtQuads[i]? = some (load64 m (k.gdt + UInt64.ofNat (8 * i)))

structure SyscallReady (labels : Labels) (p : SystemRegs) : Prop where
  efer : p.efer &&& 1 ≠ 0
  star : p.star = 0x0010000800000000
  lstar : p.lstar = labels.syscallEntryPtr
  sfmask : p.sfmask = 0x200

structure TssReady (info : Information) (p : SystemRegs) (m : Memory) : Prop where
  tss : p.tss = info.tssSegmentBuffer
  limit : p.tssLimit = 103
  rsp0 : load64 m (info.tssSegmentBuffer + 4) = info.tssStackBuffer

structure IdtReady (k : Statics) (labels : Labels) (p : SystemRegs) (m : Memory) : Prop where
  idtr : p.idtr = { limit := 4095, base := k.idt }
  gates : ∀ v, gateAt p m v = some (installedGate labels.toHandlers v)

/-- All of it, with the kernel's stack at `stack`. -/
structure Configured (k : Statics) (labels : Labels) (info : Information) (stack : UInt64)
    (p : SystemRegs) (m : Memory) : Prop where
  gdt : GdtReady k p m
  syscall : SyscallReady labels p
  tss : TssReady info p m
  idt : IdtReady k labels p m
  kernelStack : load64 m k.kernelStack = stack

section Parts

variable {k : Statics} {labels : Labels} {info : Information} {p p' : SystemRegs} {m m' : Memory}

/-! ### descriptors -/

/-- A selector of one of the first descriptors. -/
theorem GdtReady.segment (h : GdtReady k p m) {selector : UInt16} {i : Nat} {d : UInt64}
    (hd : gdtQuads[i]? = some d) (hi : 0 < i ∧ i < 5)
    (hselector : selector &&& 0xFFF8 = UInt16.ofNat (8 * i)) (hti : selector &&& 4 = 0) :
    segmentAt p m selector = some (.decode d) := by
  have hnat : (UInt16.ofNat (8 * i)).toNat = 8 * i := by
    rw [UInt16.toNat_ofNat']
    omega
  have hne : UInt16.ofNat (8 * i) ≠ 0 := by
    intro h0
    rw [h0] at hnat
    have hzero : (0 : UInt16).toNat = 0 := rfl
    omega
  have hlimit : (55 : UInt16).toNat = 55 := rfl
  have h64 : (UInt16.ofNat (8 * i)).toUInt64 = UInt64.ofNat (8 * i) := by
    rw [← UInt64.toNat_inj, UInt16.toNat_toUInt64, hnat, UInt64.toNat_ofNat']
    omega
  have hload := h.quads i hi.2
  rw [hd, Option.some_inj] at hload
  have hnot : ¬ (UInt16.ofNat (8 * i) = 0 ∨ selector &&& 4 ≠ 0) :=
    fun hor => hor.elim hne fun h4 => h4 hti
  simp only [segmentAt, hselector, h.gdtr, hlimit, hnat, h64, if_neg hnot, ← hload]
  exact if_pos (by omega)

/-- The kernel's code segment, which the gates name. -/
theorem GdtReady.kernelCode (h : GdtReady k p m) :
    segmentAt p m 0x08 = some (.decode 0x00af9b000000ffff) :=
  h.segment (i := 1) rfl (by decide) (by decide) (by decide)

/-- Where `sysretq` finds the user's stack segment. -/
theorem GdtReady.userData (h : GdtReady k p m) :
    segmentAt p m 0x1B = some (.decode 0x00cff3000000ffff) :=
  h.segment (i := 3) rfl (by decide) (by decide) (by decide)

/-- And its code segment. -/
theorem GdtReady.userCode (h : GdtReady k p m) :
    segmentAt p m 0x23 = some (.decode 0x00affb000000ffff) :=
  h.segment (i := 4) rfl (by decide) (by decide) (by decide)

/-- The first five entries are all that it is about. -/
theorem GdtReady.congr (h : GdtReady k p m) (hgdtr : p'.gdtr = p.gdtr)
    (hm : ∀ i < 5, load64 m' (k.gdt + UInt64.ofNat (8 * i)) =
      load64 m (k.gdt + UInt64.ofNat (8 * i))) : GdtReady k p' m' :=
  ⟨hgdtr.trans h.gdtr, fun i hi => by rw [hm i hi]; exact h.quads i hi⟩

/-- It depends on its region only. -/
theorem GdtReady.of_region (info : Information) (h : GdtReady k p m) (hgdtr : p'.gdtr = p.gdtr)
    (hm : ∀ x, Region.gdt.Has k info x → m' x = m x) : GdtReady k p' m' := by
  refine h.congr hgdtr fun i hi => ?_
  exact Region.load64_eq hm rfl (show 8 * i + 8 ≤ 56 by omega)

/-- The TSS does not change as long as its memory does not. -/
theorem TssReady.of_region (h : TssReady info p m) (htss : p'.tss = p.tss)
    (hlimit : p'.tssLimit = p.tssLimit) (hm : ∀ x, Region.tss.Has k info x → m' x = m x) :
    TssReady info p' m' := by
  have hrsp0 : load64 m' (info.tssSegmentBuffer + 4) = load64 m (info.tssSegmentBuffer + 4) :=
    Region.load64_eq (i := 4) hm rfl (by decide)
  exact ⟨htss.trans h.tss, hlimit.trans h.limit, hrsp0.trans h.rsp0⟩

/-- Nor does the variable `kernel_stack`. -/
theorem kernelStack_of_region {k : Statics} (info : Information) {m m' : Memory}
    (hm : ∀ x, Region.kernelStack.Has k info x → m' x = m x) :
    load64 m' k.kernelStack = load64 m k.kernelStack :=
  Region.load64_eq (i := 0) hm (UInt64.add_zero _).symm (by decide)

/-- Nor `user_stack`. -/
theorem userStack_of_region {k : Statics} (info : Information) {m m' : Memory}
    (hm : ∀ x, Region.userStack.Has k info x → m' x = m x) :
    load64 m' k.userStack = load64 m k.userStack :=
  Region.load64_eq (i := 0) hm (UInt64.add_zero _).symm (by decide)

/-! ### gates -/

/-- Nor the gates. -/
theorem IdtReady.of_region (info : Information) (h : IdtReady k labels p m)
    (hidtr : p'.idtr = p.idtr) (hm : ∀ x, Region.idt.Has k info x → m' x = m x) :
    IdtReady k labels p' m' := by
  refine ⟨hidtr.trans h.idtr, fun v => ?_⟩
  have hv := v.toNat_lt
  have h8 : UInt64.ofNat 8 = 8 := rfl
  have hlow : load64 m' (k.idt + UInt64.ofNat (16 * v.toNat)) =
      load64 m (k.idt + UInt64.ofNat (16 * v.toNat)) :=
    Region.load64_eq hm rfl (show 16 * v.toNat + 8 ≤ 4096 by omega)
  have hhigh : load64 m' (k.idt + UInt64.ofNat (16 * v.toNat) + 8) =
      load64 m (k.idt + UInt64.ofNat (16 * v.toNat) + 8) := by
    refine Region.load64_eq (i := 16 * v.toNat + 8) hm ?_
      (show 16 * v.toNat + 8 + 8 ≤ 4096 by omega)
    rw [UInt64.ofNat_add, ← UInt64.add_assoc, h8]
    rfl
  rw [← h.gates v]
  simp only [gateAt, hidtr, h.idtr, hlow, hhigh]

end Parts

/-! ## the functions -/

section Functions

variable {k : Statics} {labels : Labels} {info : Information} {p : SystemRegs} {m : Memory}

/-- The kernel's image has the table in it. -/
def GdtLoaded (k : Statics) (m : Memory) : Prop :=
  ∀ i < 5, gdtQuads[i]? = some (load64 m (k.gdt + UInt64.ofNat (8 * i)))

/-- The registers are those that `syscall` and `sysretq` go by. -/
theorem syscallReady_syscallInit (labels : Labels) (p : SystemRegs) :
    SyscallReady labels (syscallInit labels.syscallEntryPtr p) := by
  have hstar : (gdtKernelData <<< 48) ||| (gdtKernelCode <<< 32) = 0x0010000800000000 := by decide
  have hmask : ((1 : UInt32) <<< 9).toUInt64 = 0x200 := by decide
  refine ⟨fun h => ?_, hstar, rfl, hmask⟩
  -- bit 0 has been set
  have hbit := congrArg (fun w : UInt64 => w.toBitVec.getLsbD 0) h
  simp [syscallInit] at hbit

/-- The gates that are in memory once the table is. -/
theorem gateAt_store (s : IdtState) (a : UInt64) (m : Memory) (hidtr : p.idtr = ⟨4095, a⟩)
    (v : UInt8) : gateAt p (s.store a m) v = some (s.gate v) := by
  have hv := v.toNat_lt
  have hlimit : (4095 : UInt16).toNat = 4095 := rfl
  -- the bytes of the entry
  have hbyte : ∀ j < 16, (s.store a m (a + UInt64.ofNat (16 * v.toNat) + UInt64.ofNat j)).toNat =
      (s.idt v).image.toNat / 256 ^ j % 256 := by
    intro j hj
    have hi : (a + UInt64.ofNat (16 * v.toNat) + UInt64.ofNat j - a).toNat = 16 * v.toNat + j := by
      rw [UInt64.add_assoc, UInt64.add_comm, UInt64.add_sub_cancel, ← UInt64.ofNat_add,
        UInt64.toNat_ofNat']
      omega
    have hdiv : (16 * v.toNat + j) / 16 = v.toNat := by omega
    have hmod : (16 * v.toNat + j) % 16 = j := by omega
    have hlt : 16 * v.toNat + j < sizeofIdtEntry * idtTableSize :=
      show _ < 4096 by omega
    simp only [IdtState.store, hi, hdiv, hmod, if_pos hlt, UInt8.ofNat_toNat, IdtEntry.byte,
      UInt8.toNat_ofNat']
  have hlow := loadBytes_of_bytes (i := 0) (n := 8) fun j hj =>
    (Nat.zero_add j).symm ▸ hbyte j (by omega)
  have hhigh := loadBytes_of_bytes (i := 8) (n := 8) fun j hj => hbyte (8 + j) (by omega)
  have hlow' : (load64 (s.store a m) (a + UInt64.ofNat (16 * v.toNat))).toBitVec =
      (s.idt v).image.extractLsb' 0 64 := by
    have hzero : UInt64.ofNat 0 = 0 := rfl
    rw [hzero, UInt64.add_zero, Nat.pow_zero, Nat.div_one] at hlow
    rw [load64, hlow, UInt64.toBitVec_ofNat']
    refine BitVec.eq_of_toNat_eq ?_
    simp [BitVec.extractLsb'_toNat]
  have hhigh' : (load64 (s.store a m) (a + UInt64.ofNat (16 * v.toNat) + 8)).toBitVec =
      (s.idt v).image.extractLsb' 64 64 := by
    have h8 : UInt64.ofNat 8 = 8 := rfl
    rw [h8] at hhigh
    rw [load64, hhigh, UInt64.toBitVec_ofNat']
    refine BitVec.eq_of_toNat_eq ?_
    simp [BitVec.extractLsb'_toNat, Nat.shiftRight_eq_div_pow]
  have happend : (s.idt v).image.extractLsb' 64 64 ++ (s.idt v).image.extractLsb' 0 64 =
      (s.idt v).image.extractLsb' 0 128 := BitVec.extractLsb'_append_extractLsb'_eq_extractLsb' rfl
  simp only [gateAt, hidtr, hlimit, hlow', hhigh', happend, BitVec.extractLsb'_eq_self]
  exact if_pos (by omega)

/-- Each vector of an exception has its gate, and the timer's has its own. -/
theorem idtReady_idtInit (k : Statics) (labels : Labels) (p : SystemRegs) (s : IdtState)
    (m : Memory) :
    IdtReady k labels { p with idtr := (idtInit k.idt labels.toHandlers s).idtr }
      ((idtInit k.idt labels.toHandlers s).store k.idt m) := by
  have hidtr : (idtInit k.idt labels.toHandlers s).idtr = ⟨4095, k.idt⟩ := by
    obtain ⟨hbase, hlimit⟩ := idtInit_idtr k.idt labels.toHandlers s
    generalize (idtInit k.idt labels.toHandlers s).idtr = r at hbase hlimit
    obtain ⟨limit, base⟩ := r
    have h4096 : 256 * sizeofIdtEntry = 4095 + 1 := rfl
    rw [h4096] at hlimit
    have hlimit' : limit = 4095 := UInt16.toNat_inj.mp (Nat.succ.inj hlimit)
    rw [hlimit', show base = k.idt from hbase]
  have hgates : ∀ v, (idtInit k.idt labels.toHandlers s).gate v =
      installedGate labels.toHandlers v := gate_idtInit k.idt labels.toHandlers s
  generalize idtInit k.idt labels.toHandlers s = s' at hidtr hgates ⊢
  refine ⟨hidtr, fun v => ?_⟩
  rw [gateAt_store s' k.idt m hidtr v, hgates]

theorem idtInit_interruptFlag (idtAddr : UInt64) (h : Handlers) (s : IdtState) :
    (idtInit idtAddr h s).interruptFlag = true := by
  simp only [idtInit, loadIdt]

/-- The table is in its region. -/
theorem only_store_idt (info : Information) (s : IdtState) (m : Memory) :
    Region.idt.Only k info m (s.store k.idt m) := fun _ hx => if_neg hx

/-- `tls_init` writes to the TLS page only. -/
theorem only_tlsInit (k : Statics) (info : Information) (p : SystemRegs) (m : Memory) :
    Region.tls.Only k info m (tlsInit info.tlsBuffer info p m).2 := by
  have hmemset : Region.tls.Only k info m (memset m info.tlsBuffer 0 sizeofTlsBlock) :=
    fun x hx => if_neg hx
  exact hmemset.trans (Region.only_store64 (i := 0) _ (UInt64.add_zero _).symm (by decide))

/-- `tss_segment_init`, from a table of descriptors that is in memory on. -/
theorem run_tssSegmentInit (hk : k.Apart info) (hgdt : GdtReady k p m) :
    ∃ m', tssSegmentInit k.gdt info p m =
        some ({ p with tss := info.tssSegmentBuffer, tssLimit := 103 }, m') ∧
      (∀ i < 5, load64 m' (k.gdt + UInt64.ofNat (8 * i)) =
        load64 m (k.gdt + UInt64.ofNat (8 * i))) ∧
      load64 m' (info.tssSegmentBuffer + 4) = info.tssStackBuffer ∧
      ∀ x, ¬ Region.gdt.Has k info x → ¬ Region.tss.Has k info x → m' x = m x := by
  -- the segment
  let m₁ := memset m info.tssSegmentBuffer 0 sizeofTssSegment
  let m₂ := store64 m₁ (info.tssSegmentBuffer + 4) info.tssStackBuffer
  let m₃ := store16 m₂ (info.tssSegmentBuffer + 102) sizeofTssSegment.toUInt16
  have hm₁ : Region.tss.Only k info m m₁ := fun x hx => if_neg hx
  have hm₂ : Region.tss.Only k info m₁ m₂ := Region.only_store64 (i := 4) _ rfl (by decide)
  have hm₃ : Region.tss.Only k info m₂ m₃ := by
    intro x hx
    refine if_neg fun h => hx ?_
    exact InBlock.shift (i := 102) (n := 2) h (by decide) (by decide)
  have hm : Region.tss.Only k info m m₃ := (hm₁.trans hm₂).trans hm₃
  have hrsp0 : load64 m₃ (info.tssSegmentBuffer + 4) = info.tssStackBuffer := by
    have hother : load64 m₃ (info.tssSegmentBuffer + 4) =
        load64 m₂ (info.tssSegmentBuffer + 4) := by
      refine load64_congr fun x hx => if_neg fun h => ?_
      have h4 : (4 : UInt64).toNat = 4 := rfl
      have h102 : (102 : UInt64).toNat = 102 := rfl
      have ha := info.tssSegmentBuffer.toNat_lt
      have hlt := x.toNat_lt
      simp only [X64.InBlock, UInt64.toNat_sub, UInt64.toNat_add, h4, h102] at hx h
      omega
    rw [hother]
    exact load64_store64 ..
  -- its descriptor
  let low := (tssPieces info.tssSegmentBuffer (sizeofTssSegment - 1).toUInt16).foldl (· ||| ·) 0
  let high := info.tssSegmentBuffer >>> 32
  let m₄ := store64 (store64 m₃ (k.gdt + UInt64.ofNat 40) low) (k.gdt + UInt64.ofNat 48) high
  let m₅ := store64 m₄ (k.gdt + UInt64.ofNat 40) (low ||| ((1 : UInt64) <<< 41))
  have h8 : UInt64.ofNat 40 + 8 = UInt64.ofNat 48 := rfl
  have hstores : storeQuads m₃ (loadTssSegment k.gdt 0x28 info.tssSegmentBuffer fun _ => 0).2 =
      m₄ := by
    have h0 : entryPtr (k.gdt + (0x28 : UInt16).toUInt64) 0 = k.gdt + UInt64.ofNat 40 := by
      rw [entryPtr, UInt64.add_assoc]
      rfl
    have h1 : entryPtr (k.gdt + (0x28 : UInt16).toUInt64) 1 = k.gdt + UInt64.ofNat 48 := by
      rw [entryPtr, UInt64.add_assoc]
      rfl
    rw [run_loadTssSegment, h0, h1]
    simp only [storeQuads, List.foldl_cons, List.foldl_nil, UInt64.ofNat_toNat, m₄, low, high]
  have hlow : load64 m₄ (k.gdt + UInt64.ofNat 40) = low := by
    rw [load64_store64_of_apart (by decide) (by decide) (by decide)]
    exact load64_store64 ..
  have hhigh : load64 m₄ (k.gdt + UInt64.ofNat 48) = high := load64_store64 ..
  have hltr : ltr 0x28 p m₄ =
      some ({ p with tss := info.tssSegmentBuffer, tssLimit := 103 }, m₅) := by
    have hindex : (0x28 : UInt16) &&& 0xFFF8 = 0x28 := by decide
    have haddr : k.gdt + (0x28 : UInt16).toUInt64 = k.gdt + UInt64.ofNat 40 := rfl
    have hok : ¬ ((0x28 : UInt16) = 0 ∨ (0x28 : UInt16) &&& 4 ≠ 0 ∨
      (55 : UInt16).toNat < (0x28 : UInt16).toNat + 15) := by decide
    have hdecode := decode_tssPieces info.tssSegmentBuffer (sizeofTssSegment - 1).toUInt16
    simp only [ltr, hindex, hgdt.gdtr, haddr, UInt64.add_assoc, h8, if_neg hok]
    simp only [hlow, hhigh, low, high, hdecode]
    rfl
  have hm₅ : Region.gdt.Only k info m₃ m₅ := by
    refine Region.Only.trans ?_ (Region.only_store64 (i := 40) _ rfl (by decide))
    refine Region.Only.trans ?_ (Region.only_store64 (i := 48) _ rfl (by decide))
    exact Region.only_store64 (i := 40) _ rfl (by decide)
  refine ⟨m₅, ?_, ?_, ?_, ?_⟩
  · show ltr 0x28 p (storeQuads m₃ (loadTssSegment k.gdt 0x28 info.tssSegmentBuffer fun _ => 0).2) =
      _
    rw [hstores]
    exact hltr
  · intro i hi
    have hkept : load64 m₅ (k.gdt + UInt64.ofNat (8 * i)) =
        load64 m₃ (k.gdt + UInt64.ofNat (8 * i)) := by
      rw [load64_store64_of_apart (by omega) (by omega) (by decide),
        load64_store64_of_apart (by omega) (by omega) (by decide),
        load64_store64_of_apart (by omega) (by omega) (by decide)]
    rw [hkept]
    exact Region.load64_eq (r := .gdt) (fun x hx => hm.other hk (by decide) hx) rfl
      (show 8 * i + 8 ≤ 56 by omega)
  · rw [← hrsp0]
    exact Region.load64_eq (r := .tss) (i := 4) (fun x hx => hm₅.other hk (by decide) hx) rfl
      (by decide)
  · intro x hgdt htss
    rw [hm₅ x hgdt, hm x htss]

end Functions

/-! ## the whole initialisation -/

section Whole

variable {k : Statics} {labels : Labels} {info : Information} {tls stack : UInt64}

/-- From `b` on, `P` holds before and after each of the acts, and in the end `Q`. -/
def Boot.Along (k : Statics) (labels : Labels) (info : Information) (tls : UInt64)
    (P Q : Boot → Prop) : List BootAct → Boot → Prop
  | [], b => P b ∧ Q b
  | act :: acts, b => P b ∧ ∃ b', act.run k labels info tls b = some b' ∧
      Boot.Along k labels info tls P Q acts b'

theorem Boot.Along.cons {P Q : Boot → Prop} {act : BootAct} {acts : List BootAct} {b b' : Boot}
    (hb : P b) (hact : act.run k labels info tls b = some b')
    (h : Boot.Along k labels info tls P Q acts b') :
    Boot.Along k labels info tls P Q (act :: acts) b := ⟨hb, b', hact, h⟩

theorem Boot.run_cons {act : BootAct} {acts : List BootAct} {b b' : Boot}
    (h : act.run k labels info tls b = some b') :
    b.run k labels info tls (act :: acts) = b'.run k labels info tls acts := by
  show (act.run k labels info tls b).bind (Boot.run k labels info tls · acts) = _
  rw [h]
  rfl

/-- `P` holds wherever the acts have come to. -/
theorem Boot.Along.reached {P Q : Boot → Prop} {acts pre : List BootAct} {b : Boot}
    (h : Boot.Along k labels info tls P Q acts b) (hpre : pre <+: acts) :
    ∃ b', b.run k labels info tls pre = some b' ∧ P b' := by
  induction pre generalizing acts b with
  | nil => exact ⟨b, rfl, by cases acts; exacts [h.1, h.1]⟩
  | cons act pre ih =>
      cases acts with
      | nil => exact absurd hpre (by simp)
      | cons act' acts =>
          obtain ⟨rfl, hrest⟩ := List.cons_prefix_cons.mp hpre
          obtain ⟨-, b₁, hact, h₁⟩ := h
          rw [Boot.run_cons hact]
          exact ih h₁ hrest

/-- And `Q` at the end, which is reached. -/
theorem Boot.Along.finished {P Q : Boot → Prop} {acts : List BootAct} {b : Boot}
    (h : Boot.Along k labels info tls P Q acts b) :
    ∃ b', b.run k labels info tls acts = some b' ∧ Q b' := by
  induction acts generalizing b with
  | nil => exact ⟨b, rfl, h.2⟩
  | cons act acts ih =>
      obtain ⟨-, b₁, hact, h₁⟩ := h
      rw [Boot.run_cons hact]
      exact ih h₁

/-- What an act leaves alone that is not about the tables. -/
structure Boot.Same (k : Statics) (info : Information) (b b' : Boot) : Prop where
  mem : ∀ r : Region, r ≠ .userStack → r ≠ .tls → ∀ x, r.Has k info x → b'.mem x = b.mem x
  regs : { b'.regs with fsbase := b.regs.fsbase } = b.regs
  flag : b'.idt.interruptFlag = b.idt.interruptFlag

/-- The descriptors and the kernel's stack are there, and interrupts are off. -/
structure Begun (k : Statics) (stack : UInt64) (b : Boot) : Prop where
  gdt : GdtReady k b.regs b.mem
  kernelStack : load64 b.mem k.kernelStack = stack
  off : b.idt.interruptFlag = false

section Same

variable {b b' : Boot} (h : b.Same k info b')

include h

/-- What the start has put in place stays, if nothing of the kernel's has changed. -/
theorem Boot.Same.begun (hb : Begun k stack b) : Begun k stack b' := by
  refine ⟨hb.gdt.of_region info ?_ ?_, ?_, h.flag.trans hb.off⟩
  · rw [← h.regs]
  · exact h.mem .gdt (by decide) (by decide)
  · rw [kernelStack_of_region info (h.mem .kernelStack (by decide) (by decide))]
    exact hb.kernelStack

theorem Boot.Same.syscall (hb : SyscallReady labels b.regs) : SyscallReady labels b'.regs := by
  rw [← h.regs] at hb
  exact ⟨hb.efer, hb.star, hb.lstar, hb.sfmask⟩

theorem Boot.Same.tss (hb : TssReady info b.regs b.mem) : TssReady info b'.regs b'.mem := by
  refine hb.of_region (k := k) ?_ ?_ (h.mem .tss (by decide) (by decide))
  · rw [← h.regs]
  · rw [← h.regs]

end Same

section Acts

variable (hk : k.Apart info) {b : Boot}

/-- `_start` loads the GDT and leaves interrupts off. -/
theorem begun_start (hk : k.Apart info) (hgdt : GdtLoaded k b.mem) :
    Begun k stack (start k stack b) := by
  have hm : Region.kernelStack.Only k info b.mem (start k stack b).mem :=
    Region.only_store64 (i := 0) _ (UInt64.add_zero _).symm (by decide)
  refine ⟨⟨rfl, fun i hi => ?_⟩, load64_store64 .., rfl⟩
  have hquad : load64 (start k stack b).mem (k.gdt + UInt64.ofNat (8 * i)) =
      load64 b.mem (k.gdt + UInt64.ofNat (8 * i)) :=
    Region.load64_eq (r := .gdt) (fun x hx => hm.other hk (by decide) hx) rfl
      (show 8 * i + 8 ≤ 56 by omega)
  rw [hquad]
  exact hgdt i hi

/-- What the acts in between do is outside the kernel's regions. -/
theorem same_other {f : Memory → Memory} (hf : ∀ m (r : Region) x, r.Has k info x → f m x = m x)
    (b : Boot) : b.Same k info { b with mem := f b.mem } :=
  ⟨fun r _ _ x hx => hf b.mem r x hx, rfl, rfl⟩

/-- The variable is none of what the processor reads. -/
theorem same_setUserStack (hk : k.Apart info) (b : Boot) :
    b.Same k info { b with mem := store64 b.mem k.userStack userStackVirtAddr } := by
  have hm : Region.userStack.Only k info b.mem (store64 b.mem k.userStack userStackVirtAddr) :=
    Region.only_store64 (i := 0) _ (UInt64.add_zero _).symm (by decide)
  exact ⟨fun r hr _ x hx => hm.other hk hr hx, rfl, rfl⟩

/-- `tls_init` changes its page and `FS_BASE` only. -/
theorem same_tlsInit (hk : k.Apart info) (b : Boot) :
    b.Same k info { b with
      regs := (tlsInit info.tlsBuffer info b.regs b.mem).1
      mem := (tlsInit info.tlsBuffer info b.regs b.mem).2 } :=
  ⟨fun _ _ hr _ hx => (only_tlsInit k info b.regs b.mem).other hk hr hx, rfl, rfl⟩

/-- `syscall_init` sets model-specific registers only. -/
theorem Begun.syscallInit (h : Begun k stack b) (ptr : UInt64) :
    Begun k stack { b with regs := Interrupts.syscallInit ptr b.regs } :=
  ⟨⟨h.gdt.gdtr, h.gdt.quads⟩, h.kernelStack, h.off⟩

/-- `tss_segment_init` loads a TSS, and leaves what is there already. -/
theorem Begun.tssSegmentInit (labels : Labels) (hk : k.Apart info) (h : Begun k stack b) :
    ∃ b', BootAct.run k labels info tls b .tssSegmentInit = some b' ∧ Begun k stack b' ∧
      TssReady info b'.regs b'.mem ∧
      (SyscallReady labels b.regs → SyscallReady labels b'.regs) ∧
      load64 b'.mem k.userStack = load64 b.mem k.userStack := by
  obtain ⟨m', hr, hquads, hrsp0, hm⟩ := run_tssSegmentInit hk h.gdt
  refine ⟨_, congrArg (Option.map _) hr, ⟨h.gdt.congr rfl hquads, ?_, h.off⟩, ⟨rfl, rfl, hrsp0⟩,
    ?_, ?_⟩
  · rw [← h.kernelStack]
    refine kernelStack_of_region info fun x hx => hm x ?_ ?_
    · exact fun hx' => absurd (hk _ _ _ hx hx') (by decide)
    · exact fun hx' => absurd (hk _ _ _ hx hx') (by decide)
  · exact fun hs => ⟨hs.efer, hs.star, hs.lstar, hs.sfmask⟩
  · refine userStack_of_region info fun x hx => hm x ?_ ?_
    · exact fun hx' => absurd (hk _ _ _ hx hx') (by decide)
    · exact fun hx' => absurd (hk _ _ _ hx hx') (by decide)

/-- `idt_init` is what enables interrupts, when all the rest is there. -/
theorem Begun.idtInit (hk : k.Apart info) (h : Begun k stack b) (hs : SyscallReady labels b.regs)
    (ht : TssReady info b.regs b.mem) :
    ∃ b', BootAct.run k labels info tls b .idtInit = some b' ∧ b'.idt.interruptFlag = true ∧
      Configured k labels info stack b'.regs b'.mem ∧
      load64 b'.mem k.userStack = load64 b.mem k.userStack := by
  have hm := only_store_idt (k := k) info (Interrupts.idtInit k.idt labels.toHandlers b.idt) b.mem
  refine ⟨_, rfl, idtInit_interruptFlag .., ?_,
    userStack_of_region info fun x hx => hm.other hk (by decide) hx⟩
  refine ⟨?_, ⟨hs.efer, hs.star, hs.lstar, hs.sfmask⟩, ?_, idtReady_idtInit .., ?_⟩
  · exact h.gdt.of_region info rfl fun x hx => hm.other hk (by decide) hx
  · exact ht.of_region (k := k) rfl rfl fun x hx => hm.other hk (by decide) hx
  · rw [← h.kernelStack]
    exact kernelStack_of_region info fun x hx => hm.other hk (by decide) hx

/-- Nothing else writes there. -/
theorem Configured.of_regions {p : SystemRegs} {m m' : Memory}
    (h : Configured k labels info stack p m)
    (hm : ∀ (r : Region) x, r ≠ .userStack → r ≠ .tls → r.Has k info x → m' x = m x) :
    Configured k labels info stack p m' := by
  refine ⟨?_, h.syscall, ?_, ?_, ?_⟩
  · exact h.gdt.of_region info rfl fun x => hm .gdt x (by decide) (by decide)
  · exact h.tss.of_region (k := k) rfl rfl fun x => hm .tss x (by decide) (by decide)
  · exact h.idt.of_region info rfl fun x => hm .idt x (by decide) (by decide)
  · rw [← h.kernelStack]
    exact kernelStack_of_region info fun x => hm .kernelStack x (by decide) (by decide)

end Acts

/-- The page of `tls`, by the page tables that are in `CR3` then. -/
theorem walk_tls {info : Information} (hc : info.Counts) (hp : info.Placed) (m : PhysMem) :
    walk (bootPaging info m).mem (bootPaging info m).cr3 tlsVirtAddr =
      some ⟨info.tlsBuffer.toNat, true, true⟩ := by
  have hwalk := walk_run hc hp m [] (fun _ h => absurd h List.not_mem_nil) (v := tlsVirtAddr)
    (.inr (by decide))
  have hpage : userPage info false 510 = some info.tlsBuffer.toNat := rfl
  have hspace : addressSpace info (faulted []) tlsVirtAddr =
      some ⟨info.tlsBuffer.toNat, true, true⟩ := by
    rw [addressSpace, if_neg (by decide), if_pos (by decide)]
    show (userPage info false 510).map _ = _
    rw [hpage]
    rfl
  exact hwalk.trans hspace

/-- The kernel's table maps `tls_virt_addr` to the page that the loader found. -/
theorem tls_eq {info : Information} (hc : info.Counts) (hp : info.Placed) {m : PhysMem}
    {tls : UInt64} {w u : Bool}
    (htls : walk (bootPaging info m).mem (bootPaging info m).cr3 tlsVirtAddr =
      some ⟨tls.toNat, w, u⟩) : tls = info.tlsBuffer := by
  obtain ⟨hphys, -⟩ := Mapping.mk.inj (Option.some.inj (htls.symm.trans (walk_tls hc hp m)))
  exact UInt64.toNat_inj.mp hphys

/-- Interrupts are on only if all is there. -/
def Boot.Safe (k : Statics) (labels : Labels) (info : Information) (stack : UInt64) (b : Boot) :
    Prop :=
  b.idt.interruptFlag = true → Configured k labels info stack b.regs b.mem

/-- As long as interrupts are off there is nothing to show. -/
theorem Begun.safe {b : Boot} (h : Begun k stack b) : b.Safe k labels info stack :=
  fun hon => absurd (h.off.symm.trans hon) (by decide)

/-- Interrupts are on, and the user's stack is known. -/
def Boot.Ready (k : Statics) (b : Boot) : Prop :=
  b.idt.interruptFlag = true ∧ load64 b.mem k.userStack = userStackVirtAddr

/-- Each act of `kernel_start` keeps interrupts off or leaves everything in place. -/
theorem along_kernelStart (hk : k.Apart info) {f : Nat → Memory → Memory}
    (hf : ∀ i m (r : Region) x, r.Has k info x → f i m x = m x) {b : Boot}
    (hb : Begun k stack b) :
    Boot.Along k labels info info.tlsBuffer (Boot.Safe k labels info stack)
      (Boot.Ready k) (kernelStart f) b := by
  have h₁ := (same_other (hf 0) b).begun hb
  have h₂ := (same_setUserStack hk _).begun h₁
  have h₃ := (same_other (hf 1) _).begun h₂
  have h₄ := h₃.syscallInit labels.syscallEntryPtr
  have hsame₅ := same_other (hf 2) { b with
    regs := syscallInit labels.syscallEntryPtr b.regs
    mem := f 1 (store64 (f 0 b.mem) k.userStack userStackVirtAddr) }
  have hs₅ := hsame₅.syscall (syscallReady_syscallInit labels b.regs)
  have h₅ := hsame₅.begun h₄
  obtain ⟨b₆, hr₆, h₆, ht₆, hs₆, hu₆⟩ := h₅.tssSegmentInit labels hk
  have hsame₇ := same_other (hf 3) b₆
  have h₇ := hsame₇.begun h₆
  have hsame₈ := same_tlsInit hk { b₆ with mem := f 3 b₆.mem }
  have h₈ := hsame₈.begun h₇
  have hsame₉ := same_other (hf 4) { b₆ with
    regs := (tlsInit info.tlsBuffer info b₆.regs (f 3 b₆.mem)).1
    mem := (tlsInit info.tlsBuffer info b₆.regs (f 3 b₆.mem)).2 }
  have h₉ := hsame₉.begun h₈
  obtain ⟨b₁₀, hr₁₀, hon, hready, hu₁₀⟩ := h₉.idtInit hk
    (hsame₉.syscall (hsame₈.syscall (hsame₇.syscall (hs₆ hs₅))))
    (hsame₉.tss (hsame₈.tss (hsame₇.tss ht₆)))
  refine .cons hb.safe rfl (.cons h₁.safe rfl (.cons h₂.safe rfl (.cons h₃.safe rfl ?_)))
  refine .cons h₄.safe rfl (.cons h₅.safe hr₆ (.cons h₆.safe rfl (.cons h₇.safe rfl ?_)))
  refine .cons h₈.safe rfl (.cons h₉.safe hr₁₀ (.cons (fun _ => hready) rfl
    ⟨fun _ => hready.of_regions fun r x _ _ hx => hf 5 _ r x hx, hon, ?_⟩))
  -- `user_stack` is set at first, and not again
  have huser : ∀ i m, load64 (f i m) k.userStack = load64 m k.userStack :=
    fun i m => userStack_of_region info (hf i m .userStack)
  have htls : ∀ p m, load64 (tlsInit info.tlsBuffer info p m).2 k.userStack =
      load64 m k.userStack :=
    fun p m => userStack_of_region info fun x hx =>
      (only_tlsInit k info p m).other hk (by decide) hx
  rw [huser, hu₁₀, huser, htls, huser, hu₆, huser, huser]
  exact load64_store64 ..

/-- The kernel starts, and is configured then. -/
theorem boot_finished (hk : k.Apart info) (hc : info.Counts) (hp : info.Placed) {m : PhysMem}
    {w u : Bool} (htls : walk (bootPaging info m).mem (bootPaging info m).cr3 tlsVirtAddr =
      some ⟨tls.toNat, w, u⟩)
    {f : Nat → Memory → Memory} (hf : ∀ i m (r : Region) x, r.Has k info x → f i m x = m x)
    {b : Boot} (hgdt : GdtLoaded k b.mem) :
    ∃ b', b.run k labels info tls (.start stack :: kernelStart f) = some b' ∧ b'.Ready k ∧
      Configured k labels info stack b'.regs b'.mem := by
  obtain rfl := tls_eq hc hp htls
  have halong : Boot.Along k labels info info.tlsBuffer (Boot.Safe k labels info stack)
      (Boot.Ready k) (kernelStart f) (start k stack b) :=
    along_kernelStart hk hf (begun_start hk hgdt)
  obtain ⟨b', hr, hready⟩ := halong.finished
  obtain ⟨b'', hr', hsafe⟩ := halong.reached List.prefix_rfl
  obtain rfl : b'' = b' := Option.some.inj (hr'.symm.trans hr)
  refine ⟨b'', ?_, hready, hsafe hready.1⟩
  rw [Boot.run_cons rfl]
  exact hr

end Whole

/-! ## a sample -/

/-- Regions that are intervals beside each other. -/
theorem apart_of_intervals {k : Statics} {info : Information}
    (hfit : ∀ r : Region, (r.base k info).toNat + r.size ≤ 2 ^ 64)
    (h : ∀ r r' : Region, r ≠ r' → (r.base k info).toNat + r.size ≤ (r'.base k info).toNat ∨
      (r'.base k info).toNat + r'.size ≤ (r.base k info).toNat) : k.Apart info := by
  intro r r' x hx hx'
  by_contra hne
  have hr := hfit r
  have hr' := hfit r'
  have hlt := x.toNat_lt
  have hor := h r r' hne
  simp only [Region.Has, X64.InBlock, UInt64.toNat_sub] at hx hx'
  omega

def sampleLabels : Labels where
  toHandlers := sampleHandlers
  syscallEntryPtr := 0x100080
  default_ne_pageFault := by decide
  default_ne_apic := by decide
  pageFault_ne_apic := by decide

/-- The kernel's image at 1 MiB. -/
def sampleStatics : Statics where
  userStack := 0x108000
  kernelStack := 0x108008
  gdt := 0x100200
  idt := 0x104000

theorem apart_sampleStatics : sampleStatics.Apart sampleInfo := by
  refine apart_of_intervals ?_ ?_
  · intro r
    cases r <;> decide
  · intro r r'
    cases r <;> cases r' <;> decide

/-- Memory with a list of quadwords at an address. -/
def quadsAt (l : List UInt64) (a : UInt64) : Memory := fun x =>
  let i := (x - a).toNat
  UInt8.ofNat ((l.getD (i / 8) 0).toNat / 256 ^ (i % 8))

/-- Quadwords laid out in memory are read back. -/
theorem load64_quadsAt (l : List UInt64) (a : UInt64) {i : Nat} (hi : 8 * i + 8 ≤ 2 ^ 64) :
    load64 (quadsAt l a) (a + UInt64.ofNat (8 * i)) = l.getD i 0 := by
  have hbytes : loadBytes (quadsAt l a) (a + UInt64.ofNat (8 * i) + UInt64.ofNat 0) 8 =
      (l.getD i 0).toNat / 256 ^ 0 % 256 ^ 8 := by
    refine loadBytes_of_bytes fun j hj => ?_
    have hoff : (a + UInt64.ofNat (8 * i) + UInt64.ofNat (0 + j) - a).toNat = 8 * i + j := by
      rw [UInt64.add_assoc, UInt64.add_comm, UInt64.add_sub_cancel, ← UInt64.ofNat_add,
        UInt64.toNat_ofNat']
      omega
    have hdiv : (8 * i + j) / 8 = i := by omega
    have hmod : (8 * i + j) % 8 = j := by omega
    rw [Nat.zero_add] at hoff ⊢; simp only [quadsAt, hoff, hdiv, hmod, UInt8.toNat_ofNat']
  have hzero : UInt64.ofNat 0 = 0 := rfl
  have hlt := (l.getD i 0).toNat_lt
  rw [hzero, UInt64.add_zero, Nat.pow_zero, Nat.div_one] at hbytes
  rw [load64, hbytes, Nat.mod_eq_of_lt (by omega), UInt64.ofNat_toNat]

/-- Memory with the table of descriptors in it. -/
def sampleMemory : Memory := quadsAt gdtQuads 0x100200

theorem gdtLoaded_sampleMemory : GdtLoaded sampleStatics sampleMemory := by
  intro i hi
  have hload : load64 sampleMemory (sampleStatics.gdt + UInt64.ofNat (8 * i)) =
      gdtQuads.getD i 0 := load64_quadsAt gdtQuads 0x100200 (by omega)
  have hlen : i < gdtQuads.length := Nat.lt_of_lt_of_le hi (by decide)
  rw [hload, List.getD_eq_getElem?_getD, List.getElem?_eq_getElem hlen]
  rfl

def sampleBoot : Boot where
  regs := {
    gdtr := ⟨0, 0⟩, idtr := ⟨0, 0⟩, tss := 0, tssLimit := 0, efer := 0x500, star := 0, lstar := 0,
    sfmask := 0, fsbase := 0 }
  mem := sampleMemory
  idt := zeroIdt

end UefiKernel.Interrupts
