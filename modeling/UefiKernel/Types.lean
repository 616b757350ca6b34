import Mathlib.Algebra.Group.Nat.Defs

/-!
# UefiKernel.Types

The record the boot loader hands to the kernel, and the page size both
programs count in.

The loader (`struct information` in `boot.c`) and the kernel (the same struct
in `kerninc/types.h`) declare the record separately, with equal field types
and order; the loader's `gnttab_table` is the kernel's `gnt_table`.  One
structure stands for both.
-/

namespace UefiKernel

/-- Bytes in a page. -/
def pageSize : Nat := 0x1000

/-- `struct information`: where the loader put things, and how many. -/
structure Information where
  kernelStackBuffer : UInt64
  userStackBuffer : UInt64
  kernelPtBase : UInt64
  userPtBase : UInt64
  userAppBuffer : UInt64
  tssStackBuffer : UInt64
  tssSegmentBuffer : UInt64
  extraPageForException : UInt64
  tlsBuffer : UInt64
  sharedPage : UInt64
  gntTable : UInt64
  numUserPtes : UInt32
  numUserPdes : UInt32
  numUserPdpes : UInt32
  numUserPml4es : UInt32
  numKernelStackPages : UInt32
  numUserStackPages : UInt32
  numUserBinaryPages : UInt32
  deriving DecidableEq, Repr, Inhabited

/-- A page-aligned physical address.  The architecture has 52 address bits. -/
def IsPage (a : Nat) : Prop := a % pageSize = 0 ∧ a < 2 ^ 52

/-- `pages` whole pages of physical memory starting at `base`. -/
structure IsBlock (base pages : Nat) : Prop where
  aligned : base % pageSize = 0
  fits : base + pages * pageSize ≤ 2 ^ 52

/-- The blocks `[a, a + n pages)` and `[b, b + k pages)` have no page in common. -/
def Apart (a n b k : Nat) : Prop := a + n * pageSize ≤ b ∨ b + k * pageSize ≤ a

/-- `p` is the address of a page of the block. -/
def InBlock (base pages p : Nat) : Prop :=
  base ≤ p ∧ p < base + pages * pageSize

end UefiKernel
