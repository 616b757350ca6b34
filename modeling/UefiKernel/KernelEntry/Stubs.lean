import UefiKernel.Lib.X64

/-!
# UefiKernel.KernelEntry.Stubs

The ways into the kernel: the stubs of `kernel_asm.S`, and the wrappers of
`userinc/syscall.h` on the other side of the `syscall` instruction.

A stub is its code up to `sysretq` or `iretq`.  A wrapper is its inline
assembly: which registers the compiler has to load, and which it must take to
be changed.
-/

namespace UefiKernel.KernelEntry

open X64 Reg

/-! ## `kernel_asm.S` -/

/-- The C functions the stubs call. -/
inductive Symbol
  | doSyscallEntry
  | pageFaultHandler
  | apicHandler
  deriving DecidableEq, Repr

/-- The addresses of the variables `user_stack` and `kernel_stack`. -/
structure StackVars where
  userStack : UInt64
  kernelStack : UInt64

def syscallEntry (vars : StackVars) : List (Instr Symbol) :=
  -- Set up the kernel stack
  [.store rsp vars.userStack, .load vars.kernelStack rsp,
    -- Save SYSCALL/SYSRET registers
    .push rcx, .push r11,
    -- Save other registers
    .push rdi, .push rsi, .push rdx, .push r8, .push r9, .push r10,
    -- Call the internal handler
    .mov r10 rcx, .call .doSyscallEntry,
    -- Restore other registers
    .pop r10, .pop r9, .pop r8, .pop rdx, .pop rsi, .pop rdi,
    -- Restore SYSCALL/SYSRET registers
    .pop r11, .pop rcx,
    .load vars.userStack rsp]

/-- `SAVE_REGS`. -/
def saveRegs : List (Instr Symbol) :=
  [.push rax, .push rcx, .push rdx, .push rdi, .push rsi, .push r8, .push r9, .push r10, .push r11]

/-- `RESTORE_REGS`. -/
def restoreRegs : List (Instr Symbol) :=
  [.pop r11, .pop r10, .pop r9, .pop r8, .pop rsi, .pop rdi, .pop rdx, .pop rcx, .pop rax]

def pagefaultTrap : List (Instr Symbol) :=
  [.cli] ++ saveRegs ++ [.call .pageFaultHandler] ++ restoreRegs ++ [.sti, .addImm 8 rsp]

def timerApic : List (Instr Symbol) :=
  [.cli] ++ saveRegs ++ [.call .apicHandler] ++ restoreRegs ++ [.sti]

/-! ## `syscall.h` -/

/-- `syscall`, with the address of the next instruction and the flags, under
the mask that `syscall_init` sets. -/
def syscall (next rflags : UInt64) (s : State) : State :=
  { (s.set rcx next).set r11 rflags with intr := false }

/-- Inline assembly: `output : inputs : clobbers`. -/
structure Asm where
  output : Reg
  inputs : List (Reg × UInt64)
  clobbers : List Reg

/-- The assembly of all wrappers; the compiler is told that memory may change. -/
def syscallAsm (inputs : List (Reg × UInt64)) : Asm := ⟨rax, inputs, [rcx, r11]⟩

def syscall0 (n : UInt64) : Asm := syscallAsm [(rdi, n)]

def syscall1 (n a1 : UInt64) : Asm := syscallAsm [(rdi, n), (rsi, a1)]

def syscall2 (n a1 a2 : UInt64) : Asm := syscallAsm [(rdi, n), (rsi, a1), (rdx, a2)]

def syscall3 (n a1 a2 a3 : UInt64) : Asm :=
  syscallAsm [(rdi, n), (rsi, a1), (rdx, a2), (r10, a3)]

def syscall4 (n a1 a2 a3 a4 : UInt64) : Asm :=
  syscallAsm [(rdi, n), (rsi, a1), (rdx, a2), (r10, a3), (r8, a4)]

def syscall5 (n a1 a2 a3 a4 a5 : UInt64) : Asm :=
  syscallAsm [(rdi, n), (rsi, a1), (rdx, a2), (r10, a3), (r8, a4), (r9, a5)]

/-- A wrapper, and the arguments it is given. -/
inductive Wrapper : Asm → List UInt64 → Prop
  | syscall0 (n : UInt64) : Wrapper (syscall0 n) [n]
  | syscall1 (n a1 : UInt64) : Wrapper (syscall1 n a1) [n, a1]
  | syscall2 (n a1 a2 : UInt64) : Wrapper (syscall2 n a1 a2) [n, a1, a2]
  | syscall3 (n a1 a2 a3 : UInt64) : Wrapper (syscall3 n a1 a2 a3) [n, a1, a2, a3]
  | syscall4 (n a1 a2 a3 a4 : UInt64) : Wrapper (syscall4 n a1 a2 a3 a4) [n, a1, a2, a3, a4]
  | syscall5 (n a1 a2 a3 a4 a5 : UInt64) :
      Wrapper (syscall5 n a1 a2 a3 a4 a5) [n, a1, a2, a3, a4, a5]

/-- The compiler has loaded the inputs. -/
def Asm.Loaded (w : Asm) (s : State) : Prop := ∀ input ∈ w.inputs, s.regs input.1 = input.2

/-- The registers that a function with six arguments finds them in. -/
def sysvArgs (s : State) : List UInt64 := [rdi, rsi, rdx, rcx, r8, r9].map s.regs

end UefiKernel.KernelEntry
