import UefiKernel.Interrupts.Processor
import UefiKernel.KernelEntry.Stubs

/-!
# UefiKernel.Interrupts.Setup

How the kernel sets the processor up: `_start`, then `syscall_init`,
`tss_segment_init`, `tls_init` and `idt_init`, in the order of `kernel_start`.

What each of them writes is a `Region` of memory of its own.  `Configured` is
what the processor needs of registers and memory; it depends on four of these
regions only (`Configured.congr`), and interrupts are off until all of it is
there (`boot_configured`).
-/

namespace UefiKernel.Interrupts

open X64 KernelEntry

/-! ## memory -/

/-- `__builtin_memset`. -/
def memset (m : Memory) (a : UInt64) (v : UInt8) (n : Nat) : Memory := fun x =>
  if (x - a).toNat < n then v else m x

def store16 (m : Memory) (a : UInt64) (v : UInt16) : Memory := fun x =>
  if (x - a).toNat < 2 then UInt8.ofNat (v.toNat / 256 ^ (x - a).toNat) else m x

/-- Stores of quadwords, in order. -/
def storeQuads (m : Memory) (l : List (Nat × UInt64)) : Memory :=
  l.foldl (fun m s => store64 m (UInt64.ofNat s.1) s.2) m

/-- An entry of the table, byte by byte. -/
def IdtEntry.byte (e : IdtEntry) (i : Nat) : UInt8 := UInt8.ofNat (e.image.toNat / 256 ^ i)

/-- `idt`, at `a`. -/
def IdtState.store (s : IdtState) (a : UInt64) (m : Memory) : Memory := fun x =>
  let i := (x - a).toNat
  if i < sizeofIdtEntry * idtTableSize then (s.idt (UInt8.ofNat (i / 16))).byte (i % 16) else m x

/-! ## `kernel_entry.S` -/

/-- `gdt`. -/
def gdtQuads : List UInt64 :=
  [0x0000000000000000,
    0x00af9b000000ffff, -- KERNEL code (64-bit)
    0x00cf93000000ffff, -- KERNEL data (64-bit)
    0x00cff3000000ffff, -- USER data (64-bit)
    0x00affb000000ffff, -- USER code (64-bit)
    0x0000000000000000, -- TSS Reserved Entry 1
    0x0000000000000000] -- TSS Reserved Entry 2

/-- Where the kernel's image has its tables and variables. -/
structure Statics extends StackVars where
  gdt : UInt64
  idt : UInt64

/-- The labels of the entry code: one address for each. -/
structure Labels extends Handlers where
  syscallEntryPtr : UInt64
  default_ne_pageFault : defaultInterruptHandlerPtr ≠ pageFaultHandlerPtr
  default_ne_apic : defaultInterruptHandlerPtr ≠ apicHandlerPtr
  pageFault_ne_apic : pageFaultHandlerPtr ≠ apicHandlerPtr

/-! ## the initialisation -/

/-- The processor and memory, while the kernel starts. -/
structure Boot where
  regs : SystemRegs
  mem : Memory
  idt : IdtState

/-- `_start`, called with the kernel's stack as its first argument. -/
def start (k : Statics) (stack : UInt64) (b : Boot) : Boot where
  regs := { b.regs with gdtr := { limit := (8 * gdtQuads.length - 1).toUInt16, base := k.gdt } }
  mem := store64 b.mem k.kernelStack stack
  -- `cli`
  idt := { b.idt with interruptFlag := false }

def userStackVirtAddr : UInt64 := 0xFFFFFFFFC0001000

def gdtKernelCode : UInt64 := 0x08

def gdtKernelData : UInt64 := 0x10

def syscallInit (syscallEntryPtr : UInt64) (p : SystemRegs) : SystemRegs :=
  { p with
    efer := p.efer ||| 0x1
    star := (gdtKernelData <<< 48) ||| (gdtKernelCode <<< 32)
    lstar := syscallEntryPtr
    sfmask := ((1 : UInt32) <<< 9).toUInt64 }

/-- `tss_segment_init`; `rsp[0]` and `iopb_base` are at 4 and 102. -/
def tssSegmentInit (gdt : UInt64) (info : Information) (p : SystemRegs) (m : Memory) :
    Option (SystemRegs × Memory) :=
  let tssOffset : UInt16 := 0x28
  let tssSegment := info.tssSegmentBuffer
  let m := memset m tssSegment 0 sizeofTssSegment
  let m := store64 m (tssSegment + 4) info.tssStackBuffer
  let m := store16 m (tssSegment + 102) sizeofTssSegment.toUInt16
  let (selector, stores) := loadTssSegment gdt tssOffset tssSegment fun _ => 0
  ltr selector p (storeQuads m stores)

/-- `sizeof(tls_block_t)`: `myself` and `padding`. -/
def sizeofTlsBlock : Nat := 8 + 4088

def tlsVirtAddr : UInt64 := 0xFFFFFFFFC01FE000

/-- `tls_init`, with the address that the page tables give for `tls`. -/
def tlsInit (tls : UInt64) (info : Information) (p : SystemRegs) (m : Memory) :
    SystemRegs × Memory :=
  ({ p with fsbase := tlsVirtAddr },
    store64 (memset m info.tlsBuffer 0 sizeofTlsBlock) tls tlsVirtAddr)

/-- What the kernel does, one after the other. -/
inductive BootAct
  | start (stack : UInt64)
  /-- `user_stack = (void *)user_stack_virt_addr` -/
  | setUserStack
  | syscallInit
  | tssSegmentInit
  | tlsInit
  | idtInit
  /-- the console, the page tables, the timer -/
  | other (f : Memory → Memory)

section Acts

variable (k : Statics) (labels : Labels) (info : Information) (tls : UInt64)

def BootAct.run (b : Boot) : BootAct → Option Boot
  | .start stack => some (Interrupts.start k stack b)
  | .setUserStack => some { b with mem := store64 b.mem k.userStack userStackVirtAddr }
  | .syscallInit =>
      some { b with regs := Interrupts.syscallInit labels.syscallEntryPtr b.regs }
  | .tssSegmentInit => (Interrupts.tssSegmentInit k.gdt info b.regs b.mem).map fun r =>
      { b with regs := r.1, mem := r.2 }
  | .tlsInit =>
      let (regs, mem) := Interrupts.tlsInit tls info b.regs b.mem
      some { b with regs, mem }
  | .idtInit =>
      let idt := Interrupts.idtInit k.idt labels.toHandlers b.idt
      some { regs := { b.regs with idtr := idt.idtr }, mem := idt.store k.idt b.mem, idt }
  | .other f => some { b with mem := f b.mem }

def Boot.run (b : Boot) (acts : List BootAct) : Option Boot :=
  acts.foldlM (BootAct.run k labels info tls) b

end Acts

/-- `kernel_start`, after `_start`, up to `user_jump`. -/
def kernelStart (f : Nat → Memory → Memory) : List BootAct :=
  [.other (f 0), .setUserStack, .other (f 1), .syscallInit, .other (f 2), .tssSegmentInit,
    .other (f 3), .tlsInit, .other (f 4), .idtInit, .other (f 5)]

/-! ## regions -/

/-- What is written while the kernel starts, and must not be written otherwise. -/
inductive Region
  | gdt
  | idt
  | kernelStack
  | userStack
  | tss
  | tls
  deriving DecidableEq, Repr

section Regions

variable (k : Statics) (info : Information)

def Region.base : Region → UInt64
  | gdt => k.gdt
  | idt => k.idt
  | kernelStack => k.kernelStack
  | userStack => k.userStack
  | tss => info.tssSegmentBuffer
  | tls => info.tlsBuffer

def Region.size : Region → Nat
  | gdt => 8 * gdtQuads.length
  | idt => sizeofIdtEntry * idtTableSize
  | kernelStack => 8
  | userStack => 8
  | tss => sizeofTssSegment
  | tls => sizeofTlsBlock

/-- `x` is the address of a byte of the region. -/
def Region.Has (r : Region) (x : UInt64) : Prop := X64.InBlock (r.base k info) r.size x

/-- No two regions have a byte in common. -/
def Statics.Apart : Prop := ∀ (r r' : Region) x, r.Has k info x → r'.Has k info x → r = r'

/-- Only bytes of the region change. -/
def Region.Only (r : Region) (m m' : Memory) : Prop := ∀ x, ¬ r.Has k info x → m' x = m x

end Regions

section Only

variable {k : Statics} {info : Information} {r r' : Region} {m m' m'' : Memory}

theorem Region.Only.trans (h : r.Only k info m m') (h' : r.Only k info m' m'') :
    r.Only k info m m'' := fun x hx => (h' x hx).trans (h x hx)

/-- The other regions are as they were. -/
theorem Region.Only.other (h : r.Only k info m m') (hk : k.Apart info) (hne : r' ≠ r) {x : UInt64}
    (hx : r'.Has k info x) : m' x = m x := h x fun hx' => hne (hk _ _ _ hx hx')

theorem Region.only_store64 (m : Memory) {a v : UInt64} {i : Nat}
    (ha : a = r.base k info + UInt64.ofNat i) (hi : i + 8 ≤ r.size) :
    r.Only k info m (store64 m a v) := by
  have hsize : r.size ≤ 2 ^ 64 := by cases r <;> decide
  intro x hx
  refine store64_of_not_inBlock fun h => hx ?_
  rw [ha] at h
  exact h.shift hi (by omega)

/-- A quadword of a region that is as it was. -/
theorem Region.load64_eq (h : ∀ x, r.Has k info x → m' x = m x) {a : UInt64} {i : Nat}
    (ha : a = r.base k info + UInt64.ofNat i) (hi : i + 8 ≤ r.size) :
    load64 m' a = load64 m a := by
  have hsize : r.size ≤ 2 ^ 64 := by cases r <;> decide
  refine load64_congr fun x hx => h x ?_
  rw [ha] at hx
  exact hx.shift hi (by omega)

end Only

end UefiKernel.Interrupts
