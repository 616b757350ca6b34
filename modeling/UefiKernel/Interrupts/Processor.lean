import UefiKernel.Interrupts.Descriptors
import UefiKernel.Lib.X64

/-!
# UefiKernel.Interrupts.Processor

How the processor comes into the kernel and out of it again: interrupts and
`iretq`, `syscall` and `sysretq`, in 64-bit mode.

Nothing here is the kernel's.  The processor reads its descriptors in memory
each time (`gateAt`, `segmentAt`), where the kernel has to have put them; where
it does not find what it needs, it raises another exception, which is `none`.
-/

namespace UefiKernel.Interrupts

open X64 Reg

/-! ## what it reads in memory -/

/-- What `lgdt`, `lidt`, `ltr` and `wrmsr` set. -/
structure SystemRegs where
  gdtr : IdtPointer
  idtr : IdtPointer
  /-- base and limit of the task state segment -/
  tss : UInt64
  tssLimit : BitVec 20
  efer : UInt64
  star : UInt64
  lstar : UInt64
  sfmask : UInt64
  fsbase : UInt64

/-- A descriptor of a code or data segment. -/
structure SegmentDescriptor where
  type : BitVec 4
  system : BitVec 1
  dpl : BitVec 2
  present : BitVec 1
  long : BitVec 1
  size : BitVec 1
  deriving DecidableEq, Repr

def SegmentDescriptor.decode (d : UInt64) : SegmentDescriptor where
  type := d.toBitVec.extractLsb' 40 4
  system := d.toBitVec.extractLsb' 44 1
  dpl := d.toBitVec.extractLsb' 45 2
  present := d.toBitVec.extractLsb' 47 1
  long := d.toBitVec.extractLsb' 53 1
  size := d.toBitVec.extractLsb' 54 1

/-- 64-bit code, not conforming. -/
def SegmentDescriptor.isCode (d : SegmentDescriptor) : Bool :=
  d.present == 1 && d.system == 1 && d.type.extractLsb' 2 2 == 0b10 && d.long == 1 && d.size == 0

/-- Data that can be written. -/
def SegmentDescriptor.isStack (d : SegmentDescriptor) : Bool :=
  d.present == 1 && d.system == 1 && d.type.getLsbD 3 == false && d.type.getLsbD 1

/-- An interrupt gate, which keeps further interrupts off. -/
def Gate.isInterrupt (g : Gate) : Bool := g.present && g.attr &&& 0x1F == 0x0E

/-- The gate of a vector. -/
def gateAt (p : SystemRegs) (m : Memory) (v : UInt8) : Option Gate :=
  let a := p.idtr.base + UInt64.ofNat (16 * v.toNat)
  if 16 * v.toNat + 15 ≤ p.idtr.limit.toNat then
    some (Gate.decode ((load64 m (a + 8)).toBitVec ++ (load64 m a).toBitVec))
  else none

/-- The descriptor that a selector names, in the global table. -/
def segmentAt (p : SystemRegs) (m : Memory) (selector : UInt16) : Option SegmentDescriptor :=
  let i := selector &&& 0xFFF8
  if i = 0 ∨ selector &&& 4 ≠ 0 then none
  else if i.toNat + 7 ≤ p.gdtr.limit.toNat then
    some (.decode (load64 m (p.gdtr.base + i.toUInt64)))
  else none

/-- `ltr`: the segment's place is remembered, and it is marked as busy. -/
def ltr (selector : UInt16) (p : SystemRegs) (m : Memory) : Option (SystemRegs × Memory) :=
  let i := selector &&& 0xFFF8
  let a := p.gdtr.base + i.toUInt64
  let d := SystemDescriptor.decode (load64 m a) (load64 m (a + 8))
  if i = 0 ∨ selector &&& 4 ≠ 0 ∨ p.gdtr.limit.toNat < i.toNat + 15 then none
  else if d.present = 1 ∧ d.system = 0 ∧ d.type = 9 then
    some ({ p with tss := d.base, tssLimit := d.limit },
      store64 m a (load64 m a ||| ((1 : UInt64) <<< 41)))
  else none

/-! ## the processor -/

/-- The registers in `X64.State`, and those that an interrupt saves with them.
The interrupt flag is not in `flags` but in the state, and the resume flag, which
a fault saves as 1 and the next instruction clears, is left out. -/
structure Cpu where
  st : State
  rip : UInt64
  flags : UInt64
  cs : UInt16
  ss : UInt16

namespace Cpu

/-- The privilege level. -/
def cpl (c : Cpu) : Nat := (c.cs &&& 3).toNat

def interruptFlag : UInt64 := 0x200

/-- `rflags`. -/
def rflags (c : Cpu) : UInt64 :=
  if c.st.intr then c.flags ||| interruptFlag else c.flags &&& ~~~interruptFlag

/-- `rflags` is set. -/
def setFlags (c : Cpu) (w : UInt64) : Cpu :=
  { c with flags := w, st := { c.st with intr := w.toBitVec.getLsbD 9 } }

/-- The five quadwords that an interrupt saves, in the order of the pushes. -/
def frame (c : Cpu) : List UInt64 :=
  [c.ss.toUInt64, c.st.regs rsp, c.rflags, c.cs.toUInt64, c.rip]

end Cpu

/-- An interrupt, or an exception with its error code.  The stack is the one in
the task state segment if the level changes, and it is aligned. -/
def deliver (p : SystemRegs) (v : UInt8) (errorCode : List UInt64) (c : Cpu) : Option Cpu := do
  let gate ← gateAt p c.st.mem v
  let code ← segmentAt p c.st.mem gate.selector
  if gate.isInterrupt ∧ gate.ist = 0 ∧ code.isCode ∧ code.dpl.toNat ≤ c.cpl ∧ 11 ≤ p.tssLimit then
    let inner := code.dpl.toNat < c.cpl
    let top := if inner then load64 c.st.mem (p.tss + 4) else c.st.regs rsp
    let s := (c.st.set rsp (top &&& ~~~(0xF : UInt64))).pushVals (c.frame ++ errorCode)
    return {
      st := { s with intr := false }
      rip := gate.offset
      -- trap, nested task, resume, virtual mode
      flags := c.flags &&& ~~~(0x34100 : UInt64)
      cs := (gate.selector &&& 0xFFFC) ||| UInt16.ofNat code.dpl.toNat
      ss := if inner then UInt16.ofNat code.dpl.toNat else c.ss }
  else none

/-- The stack segment that goes with a code segment of level `rpl`. -/
def stackOk (p : SystemRegs) (m : Memory) (ss : UInt16) (rpl : Nat) : Bool :=
  match segmentAt p m ss with
  | some d => d.isStack && d.dpl.toNat == rpl && (ss &&& 3).toNat == rpl
  -- the null selector, which is allowed in the kernel
  | none => ss &&& 0xFFFC == 0 && rpl < 3 && (ss &&& 3).toNat == rpl

/-- `iretq`, in the kernel. -/
def iretq (p : SystemRegs) (c : Cpu) : Option Cpu := do
  let sp := c.st.regs rsp
  let m := c.st.mem
  let cs := (load64 m (sp + 8)).toUInt16
  let ss := (load64 m (sp + 32)).toUInt16
  let code ← segmentAt p m cs
  let rpl := (cs &&& 3).toNat
  if code.isCode ∧ code.dpl.toNat = rpl ∧ c.cpl ≤ rpl ∧ stackOk p m ss rpl then
    return { c with
      st := c.st.set rsp (load64 m (sp + 24)), rip := load64 m sp, cs, ss
      }.setFlags (load64 m (sp + 16))
  else none

/-- `syscall`. -/
def syscallInstr (p : SystemRegs) (c : Cpu) : Option Cpu :=
  if p.efer &&& 1 = 0 then none
  else
    let next := c.rip + 2
    let w := c.rflags &&& ~~~p.sfmask
    some ({ c with
      st := (c.st.set rcx next).set r11 c.rflags
      rip := p.lstar
      cs := (p.star >>> 32).toUInt16 &&& 0xFFFC
      ss := (p.star >>> 32).toUInt16 + 8 }.setFlags w)

/-- The flags that `sysretq` sets. -/
def sysretFlags (w : UInt64) : UInt64 := w &&& 0x3C7FD7 ||| 2

/-- `sysretq`, in the kernel. -/
def sysretq (p : SystemRegs) (c : Cpu) : Option Cpu :=
  if p.efer &&& 1 = 0 then none
  else
    some ({ c with
      rip := c.st.regs rcx
      cs := ((p.star >>> 48).toUInt16 + 16) ||| 3
      ss := ((p.star >>> 48).toUInt16 + 8) ||| 3 }.setFlags (sysretFlags (c.st.regs r11)))

end UefiKernel.Interrupts
