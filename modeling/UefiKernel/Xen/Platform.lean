import UefiKernel.Lib.Interact

/-!
# UefiKernel.Xen.Platform

What the kernel does to the machine when it runs under Xen, as the events of an
interactive program: CPUID, MSR writes, hypercalls, the time-stamp counter, and
the loads and stores on memory it shares with the hypervisor.

Xen's public headers are not part of the kernel; the constants taken from them
are the fields of `XenHeaders`.
-/

namespace UefiKernel.Xen

open Interact

/-- Constants of Xen's public headers. -/
structure XenHeaders where
  domidSelf : UInt16
  xenmemAddToPhysmap : UInt32
  xenmapspaceSharedInfo : UInt32
  xenmapspaceGrantTable : UInt32
  xenverVersion : UInt32
  gtfPermitAccess : UInt32
  gtfReadonly : UInt32

/-- The linker's symbols for the pages of the kernel that Xen fills. -/
structure KernelImage where
  miniosHypercallPage : UInt64
  miniosSharedInfo : UInt64

/-- The registers CPUID leaves. -/
structure CpuidRegs where
  eax : UInt32
  ebx : UInt32
  ecx : UInt32
  edx : UInt32
  deriving DecidableEq, Repr, Inhabited

/-- `struct xen_add_to_physmap`. -/
structure XenAddToPhysmap where
  domid : UInt16
  idx : UInt64
  space : UInt32
  gpfn : UInt64
  deriving DecidableEq, Repr

/-- The hypercalls of the kernel. -/
inductive Hypercall
  | memoryOp (cmd : UInt32) (xatp : XenAddToPhysmap)
  | xenVersion (cmd : UInt32) (arg : UInt64)
  deriving DecidableEq, Repr

/-- The fields of `pvclock_vcpu_time_info` that are read. -/
inductive TimeField
  | version
  | tscTimestamp
  | systemTime
  | tscToSystemMul
  | tscShift
  deriving DecidableEq, Repr

abbrev TimeField.Val : TimeField → Type
  | version => UInt32
  | tscTimestamp => UInt64
  | systemTime => UInt64
  | tscToSystemMul => UInt32
  | tscShift => Int8

/-- The fields of `pvclock_wall_clock`. -/
inductive WallField
  | version
  | sec
  | nsec
  deriving DecidableEq, Repr

/-- A store to an entry of the grant table. -/
inductive GrantStore
  | frame (frame : UInt32)
  | domid (domid : UInt16)
  | flags (flags : UInt16)
  deriving DecidableEq, Repr

inductive XenEvent
  | cpuid (level : UInt32)
  | wrmsr (reg : UInt32) (val : UInt64)
  | hypercall (call : Hypercall)
  | rdtsc
  | loadTime (field : TimeField)
  | loadWall (field : WallField)
  | storeGrant (ref : UInt32) (store : GrantStore)
  | storeByte (p : UInt64) (byte : UInt8)
  | printf (format : String) (args : List UInt64)
  deriving DecidableEq, Repr

abbrev XenEvent.Answer : XenEvent → Type
  | cpuid _ => CpuidRegs
  | wrmsr _ _ => Unit
  | hypercall _ => Int32
  | rdtsc => UInt64
  | loadTime field => field.Val
  | loadWall _ => UInt32
  | storeGrant _ _ => Unit
  | storeByte _ _ => Unit
  | printf _ _ => Unit

abbrev XenM := Prog XenEvent XenEvent.Answer

def x86Cpuid (level : UInt32) : XenM CpuidRegs := Prog.req (XenEvent.cpuid level)

def wrmsr (reg : UInt32) (val : UInt64) : XenM Unit := Prog.req (XenEvent.wrmsr reg val)

def hypercall (call : Hypercall) : XenM Int32 := Prog.req (XenEvent.hypercall call)

def rdtsc : XenM UInt64 := Prog.req XenEvent.rdtsc

/-- `pvclock_ti->field`. -/
def pvclockTi (field : TimeField) : XenM field.Val := Prog.req (XenEvent.loadTime field)

/-- `pvclock_wc->field`. -/
def pvclockWc (field : WallField) : XenM UInt32 := Prog.req (XenEvent.loadWall field)

def printf (format : String) (args : List UInt64) : XenM Unit :=
  Prog.req (XenEvent.printf format args)

end UefiKernel.Xen
