import UefiKernel.Console.Syscall
import UefiKernel.Interrupts.Configured
import UefiKernel.KernelEntry.Transparent
import UefiKernel.Lib.Calculus

/-!
# UefiKernel.KernelEntry.Machine

The machine that a user program runs on, on two levels.

To the program there are its own instructions, and system calls, each of which
is one step (`UserStep`).  The machine goes through the tables in memory and the
entry code for a system call, and may be interrupted: by the timer, also in the
kernel before the last instruction of `pagefault_trap`, behind its `sti`, and by
page faults, before any instruction (`Step`).

The stubs are run in one go; up to their `sti` there are no interrupts.  With any
other exception the machine is at its end (`Mode.halted`), and what `default_trap`
prints before that is left out.  Runs begin at the program's first instruction:
interrupts are on since `idt_init`, but none that comes before the `sysretq` of
`user_jump` is modelled.

Of the C functions the machine has what their compiled code does where a stub calls
them (`Machine.Obeys`), and whether it returns (`Machine.Returns`).
-/

namespace UefiKernel.KernelEntry

open X64 Reg Interrupts

/-! ## the program's level -/

/-- What belongs to the program: registers, and the bytes in `own`. -/
@[ext] structure View (own : UInt64 → Prop) where
  regs : Reg → UInt64
  rip : UInt64
  rflags : UInt64
  mem : {x // own x} → UInt8

/-- The flags of a program: as `sysretq` sets them, with interrupts enabled. -/
def UserFlags (w : UInt64) : Prop := sysretFlags w = w ∧ w.toBitVec.getLsbD 9 = true

/-- A program: where it has a `syscall` instruction, and what the others do. -/
structure Program (own : UInt64 → Prop) where
  asks : View own → Prop
  instr : View own → View own → Prop
  flags : ∀ v v', instr v v' → UserFlags v.rflags → UserFlags v'.rflags

/-- What `do_syscall_entry` returns. -/
def syscallResult (n : UInt64) : UInt64 := if n = 0 ∨ n = 1 then 0 else -1

/-- It is so whatever the printing comes to. -/
theorem syscallResult_of_run {G : Type}
    {env : G → (e : Console.PrintEvent) → e.Answer → G → Prop} {n a1 a2 a3 a4 a5 r : Int64}
    {g g' : G}
    (h : Interact.Prog.Run env (g, Console.doSyscallEntry n a1 a2 a3 a4 a5) (g', .ret r)) :
    r.toUInt64 = syscallResult n.toUInt64 := by
  have hinj : ∀ m : Int64, n.toUInt64 = m.toUInt64 → n = m := fun _ => congrArg Int64.ofUInt64
  have hret : ∀ {g₁ : G} {a : Int64}, Interact.Prog.Run env (g₁, .ret a) (g', .ret r) → r = a := by
    intro g₁ a h
    obtain heq | ⟨_, hs, -⟩ := Relation.ReflTransGen.cases_head h
    · cases heq
      rfl
    · cases hs
  by_cases h0 : n = 0
  · subst h0
    rw [Console.doSyscallEntry_zero] at h
    obtain ⟨_, _, -, hr⟩ := h.of_bind
    rw [hret hr]
    rfl
  by_cases h1 : n = 1
  · subst h1
    rw [Console.doSyscallEntry_one] at h
    obtain ⟨_, _, -, hr⟩ := h.of_bind
    rw [hret hr]
    rfl
  · rw [Console.doSyscallEntry_other h0 h1] at h
    have hne : ¬ (n.toUInt64 = 0 ∨ n.toUInt64 = 1) := fun hn => hn.elim (h0 ∘ hinj 0) (h1 ∘ hinj 1)
    rw [hret h, syscallResult, if_neg hne]
    rfl

section Levels

variable {own : UInt64 → Prop}

/-- Behind the system call. -/
def View.answered (v : View own) : View own where
  regs := Function.update (Function.update (Function.update v.regs rcx (v.rip + 2)) r11 v.rflags)
    rax (syscallResult (v.regs rdi))
  rip := v.rip + 2
  rflags := v.rflags
  mem := v.mem

inductive UserStep (prog : Program own) : View own → View own → Prop
  | instr {v v' : View own} (h : prog.instr v v') : UserStep prog v v'
  | syscall {v : View own} (h : prog.asks v) : UserStep prog v v.answered

/-! ## the machine's level -/

def view (own : UInt64 → Prop) (c : Cpu) : View own where
  regs := c.st.regs
  rip := c.rip
  rflags := c.rflags
  mem x := c.st.mem x.1

/-- Where the machine is. -/
inductive Mode
  | user (c : Cpu)
  /-- before the `iretq` of `pagefault_trap` -/
  | resume (c : Cpu)
  /-- behind the `hlt` of `default_trap` -/
  | halted

/-- The machine's parts that do not change: the kernel's image and its labels,
the record of the loader, the processor's registers, and the C functions. -/
structure Machine where
  k : Statics
  labels : Labels
  info : Information
  regs : SystemRegs
  fn : Functions Symbol
  /-- what the C functions count on in the variables of theirs -/
  inOrder : Memory → Prop

/-- An interrupt that comes back: through the gate, the stub and `iretq`. -/
def Machine.Timer (M : Machine) (c c' : Cpu) : Prop :=
  ∃ c₁ calls s, deliver M.regs apicInterruptEntry [] c = some c₁ ∧
    c₁.rip = M.labels.apicHandlerPtr ∧ Exec M.fn timerApic c₁.st calls s ∧
    iretq M.regs { c₁ with st := s } = some c'

/-- A page fault, up to the stub's last instruction. -/
def Machine.Fault (M : Machine) (errorCode : UInt64) (c c' : Cpu) : Prop :=
  ∃ c₁ calls s, deliver M.regs pageFaultIdtIndex [errorCode] c = some c₁ ∧
    c₁.rip = M.labels.pageFaultHandlerPtr ∧ Exec M.fn pagefaultTrap c₁.st calls s ∧
    c' = { c₁ with st := s }

/-- A system call, from `syscall` to `sysretq`. -/
def Machine.Syscall (M : Machine) (c c' : Cpu) : Prop :=
  ∃ c₁ calls s, syscallInstr M.regs c = some c₁ ∧ c₁.rip = M.labels.syscallEntryPtr ∧
    Exec M.fn (syscallEntry M.k.toStackVars) c₁.st calls s ∧
    sysretq M.regs { c₁ with st := s } = some c'

inductive Step (M : Machine) (prog : Program own) : Mode → Mode → Prop
  /-- the program reaches nothing but what is its own -/
  | instr {c c' : Cpu} (h : prog.instr (view own c) (view own c'))
      (hcs : c'.cs = c.cs) (hss : c'.ss = c.ss) (hmem : ∀ x, ¬ own x → c'.st.mem x = c.st.mem x) :
      Step M prog (.user c) (.user c')
  | syscall {c c' : Cpu} (hasks : prog.asks (view own c)) (h : M.Syscall c c') :
      Step M prog (.user c) (.user c')
  | timer {c c' : Cpu} (hintr : c.st.intr = true) (h : M.Timer c c') :
      Step M prog (.user c) (.user c')
  | fault {c c' : Cpu} {errorCode : UInt64} (h : M.Fault errorCode c c') :
      Step M prog (.user c) (.resume c')
  | timerInKernel {c c' : Cpu} (hintr : c.st.intr = true) (h : M.Timer c c') :
      Step M prog (.resume c) (.resume c')
  | iretq {c c' : Cpu} (h : iretq M.regs c = some c') : Step M prog (.resume c) (.user c')
  | exception {c c₁ : Cpu} {v : UInt8} {errorCode : List UInt64}
      (hv : v.toNat < numCpuExceptions) (h : deliver M.regs v errorCode c = some c₁)
      (hcode : c₁.rip = M.labels.defaultInterruptHandlerPtr) : Step M prog (.user c) .halted

end Levels

/-- Where the program will go on, if nothing else comes. -/
def Mode.Back (M : Machine) : Mode → Cpu → Prop
  | .user c, c' => c' = c
  | .resume c, c' => Interrupts.iretq M.regs c = some c'
  | .halted, _ => False

/-- `user_jump`, with the address in `%rdi`, in one go: an interrupt in front of its
`sysretq` is not modelled. -/
def userJump (vars : StackVars) (regs : SystemRegs) (c : Cpu) : Option Cpu :=
  -- `pushfq`; `pop %r11`
  let s := (c.st.push c.rflags).pop r11
  let s := s.set rcx (s.regs rdi)
  let s := s.set rsp (load64 s.mem vars.userStack)
  sysretq regs { c with st := s }

/-! ## memory and the C functions -/

/-- Bytes that must not change behind a program's back: its own, and what the
processor and the stubs read while it runs. -/
def Machine.Kept (M : Machine) (own : UInt64 → Prop) (x : UInt64) : Prop :=
  own x ∨ ∃ r : Region, r ≠ .userStack ∧ r ≠ .tls ∧ r.Has M.k M.info x

/-- Bytes that the program, the processor and the stubs write to. -/
def Machine.Written (M : Machine) (own : UInt64 → Prop) (stack x : UInt64) : Prop :=
  own x ∨ Below M.info.tssStackBuffer 4096 x ∨ Below stack 72 x ∨
    Region.userStack.Has M.k M.info x

/-- The program's memory, the kernel's tables and variables and both of its stacks,
of which one is at `stack`, are apart. -/
structure Machine.Apart (M : Machine) (own : UInt64 → Prop) (stack : UInt64) : Prop where
  regions : M.k.Apart M.info
  program : ∀ (r : Region) x, r ≠ .tls → own x → ¬ r.Has M.k M.info x
  tssStack : ∀ x, Below M.info.tssStackBuffer 4096 x → ¬ M.Kept own x
  kernelStack : ∀ x, Below stack 72 x → ¬ M.Kept own x ∧ ¬ Region.userStack.Has M.k M.info x
  aligned : M.info.tssStackBuffer.toNat % 16 = 0
  inOrder : ∀ m m', (∀ x, ¬ M.Written own stack x → m' x = m x) → M.inOrder m → M.inOrder m'

/-- Where a stub calls a C function: on a stack at `sp`, with interrupts off, and with
the kernel's tables and variables as they are to be. -/
structure AtEntry (k : Statics) (labels : Labels) (info : Information) (inOrder : Memory → Prop)
    (stack sp : UInt64) (s : State) : Prop where
  rsp_eq : s.regs rsp + 8 = sp
  intr : s.intr = false
  configured : ∃ regs, Configured k labels info stack regs s.mem
  inOrder : inOrder s.mem

abbrev Machine.Enters (M : Machine) (stack sp : UInt64) : State → Prop :=
  AtEntry M.k M.labels M.info M.inOrder stack sp

/-- A C function, as compiled, where it is called on a stack at `sp` of which `n` bytes
are in use. -/
structure Machine.Maintains (M : Machine) (kept : UInt64 → Prop) (stack sp : UInt64) (n : Nat)
    (f : Symbol) : Prop extends Keeps (M.Enters stack sp) n kept (M.fn f) where
  inOrder : ∀ s s', M.Enters stack sp s → M.fn f s s' → M.inOrder s'.mem

/-- `do_syscall_entry` in C, with its arguments where the convention has them. -/
def calledWith (s : State) : Console.PrintM Int64 :=
  Console.doSyscallEntry (s.regs rdi).toInt64 (s.regs rsi).toInt64 (s.regs rdx).toInt64
    (s.regs rcx).toInt64 (s.regs r8).toInt64 (s.regs r9).toInt64

/-- The C functions, as compiled: where the stubs call them, they keep what they
have to, and `do_syscall_entry` returns what it does in C. -/
structure Machine.Obeys (M : Machine) (own : UInt64 → Prop) (stack : UInt64) : Prop where
  /-- called for an interrupt of the program, or for one behind a page fault's frame -/
  apicHandler : ∀ n, n = 112 ∨ n = 160 →
    M.Maintains (M.Kept own) stack (M.info.tssStackBuffer - UInt64.ofNat n) n .apicHandler
  /-- called on a stack that is not aligned, where the convention promises nothing -/
  pageFaultHandler : M.Maintains (M.Kept own) stack
    (M.info.tssStackBuffer - UInt64.ofNat 120) 120 .pageFaultHandler
  doSyscallEntry : M.Maintains (fun x => M.Kept own x ∨ X64.InBlock M.k.userStack 8 x) stack
    (stack - 64) 64 .doSyscallEntry
  result : ∀ s s', M.Enters stack (stack - 64) s → M.fn .doSyscallEntry s s' →
    ∃ (m : Console.Machine) (g : Console.Trace) (r : Int64),
      Interact.Prog.Run m.env ({}, calledWith s) (g, .ret r) ∧ s'.regs rax = r.toUInt64

/-- `do_syscall_entry` has been called by a program in the state `v`. -/
structure CalledFrom {own : UInt64 → Prop} (v : View own) (s : State) : Prop where
  args : sysvArgs s = [rdi, rsi, rdx, r10, r8, r9].map v.regs
  mem : ∀ x : {x // own x}, s.mem x.1 = v.mem x

/-- The handlers return, and `do_syscall_entry` does from the calls in `asked`. -/
structure Machine.Returns {own : UInt64 → Prop} (M : Machine) (stack : UInt64)
    (asked : View own → Prop) : Prop where
  apicHandler : ∀ n, n = 112 ∨ n = 160 → ∀ s,
    M.Enters stack (M.info.tssStackBuffer - UInt64.ofNat n) s → ∃ s', M.fn .apicHandler s s'
  pageFaultHandler : ∀ s, M.Enters stack (M.info.tssStackBuffer - UInt64.ofNat 120) s →
    ∃ s', M.fn .pageFaultHandler s s'
  doSyscallEntry : ∀ s v, M.Enters stack (stack - 64) s → CalledFrom v s → asked v →
    ∃ s', M.fn .doSyscallEntry s s'

section Regs

variable {M : Machine} {own : UInt64 → Prop} {stack : UInt64}

/-- None of this is about the processor's registers. -/
theorem Machine.Apart.withRegs (h : M.Apart own stack) (regs : SystemRegs) :
    Machine.Apart { M with regs } own stack :=
  ⟨h.regions, h.program, h.tssStack, h.kernelStack, h.aligned, h.inOrder⟩

theorem Machine.Maintains.withRegs {kept : UInt64 → Prop} {sp : UInt64} {n : Nat} {f : Symbol}
    (h : M.Maintains kept stack sp n f) (regs : SystemRegs) :
    Machine.Maintains { M with regs } kept stack sp n f :=
  ⟨h.toKeeps, h.inOrder⟩

theorem Machine.Obeys.withRegs (h : M.Obeys own stack) (regs : SystemRegs) :
    Machine.Obeys { M with regs } own stack :=
  ⟨fun n hn => (h.apicHandler n hn).withRegs regs, h.pageFaultHandler.withRegs regs,
    h.doSyscallEntry.withRegs regs, h.result⟩

end Regs

/-- The result is the one that the program counts on. -/
theorem Machine.Obeys.syscallResult {M : Machine} {own : UInt64 → Prop} {stack : UInt64}
    (ho : M.Obeys own stack) {s s' : State} (hs : M.Enters stack (stack - 64) s)
    (hf : M.fn .doSyscallEntry s s') : s'.regs rax = syscallResult (s.regs rdi) := by
  obtain ⟨m, g, r, hr, hrax⟩ := ho.result s s' hs hf
  exact hrax.trans (syscallResult_of_run hr)

end UefiKernel.KernelEntry
