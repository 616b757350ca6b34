import UefiKernel.Lib.Store
import UefiKernel.Paging

/-!
# UefiKernel.PageTable

The page-table builders of `kernel.c`: `page_table_init_kernel`, which maps
the low 4 GiB one to one, and `page_table_init_user`, which maps the user
window in the top gigabyte and reuses the kernel's lower half.

Both are programs over physical memory (`StoreM`), written in the order of
the source; a table `T *t` is its base address and `t[i] = v` is
`setEntry t i v`.  Index and count arithmetic is done at the source's widths:
`0x1000 * i` is a 32-bit product, a pointer difference is 64-bit.
-/

namespace UefiKernel

open Store Store.StoreM

/-- A program of the kernel over physical memory. -/
abbrev TableM := StoreM Nat UInt64

/-- `&t[i]` for a table of 8-byte entries. -/
def entryPtr (t : UInt64) (i : Nat) : UInt64 := t + 8 * UInt64.ofNat i

/-- `t[i] = v`. -/
def setEntry (t : UInt64) (i : Nat) (v : UInt64) : TableM Unit := store (entryPtr t i).toNat v

/-- The entry for page `i` of the user stack, `i < num_user_stack_pages`. -/
def userStackEntry (info : Information) (i : Nat) : UInt64 :=
  (0x1000 * UInt32.ofNat i).toUInt64 +
    (info.userStackBuffer - (info.numUserStackPages * 0x1000).toUInt64) + 0x7

/-- The entry at index `i` for a page of the user binary. -/
def userAppEntry (info : Information) (i : Nat) : UInt64 :=
  let temp := UInt32.ofNat i - info.numUserStackPages
  (0x1000 * temp).toUInt64 + info.userAppBuffer + 0x7

/-- `page_table_init_user`: build the user tables at `user_pt_base` and return
the address of their PML4. -/
def pageTableInitUser (info : Information) (kPml4e : UInt64) (redef : UInt8) : TableM UInt64 := do
  let uPte := info.userPtBase
  forRange 0 info.numUserStackPages.toNat fun i => setEntry uPte i (userStackEntry info i)
  forRange info.numUserStackPages.toNat info.numUserPtes.toNat fun i =>
    setEntry uPte i (userAppEntry info i)
  -- "Assuming num_user_ptes will be lesser than 512."
  forRange info.numUserPtes.toNat 512 fun i => setEntry uPte i 0
  setEntry uPte 510 (info.tlsBuffer + 0x7)
  if redef = 1 then setEntry uPte 511 (info.extraPageForException + 0x7)
  let uPde := entryPtr uPte 512
  forRange 0 info.numUserPdes.toNat fun j => setEntry uPde j (entryPtr uPte (512 * j) + 0x7)
  forRange info.numUserPdes.toNat 512 fun j => setEntry uPde j 0
  let uPdpe := entryPtr uPde 512
  forRange 0 (512 - info.numUserPdpes).toNat fun k => setEntry uPdpe k 0
  setEntry uPdpe 511 (uPde + 0x7)
  let uPml4e := entryPtr uPdpe 512
  let lower ← load kPml4e.toNat
  setEntry uPml4e 0 lower
  forRange 1 (512 - info.numUserPml4es).toNat fun m => setEntry uPml4e m 0
  setEntry uPml4e 511 (uPdpe + 0x7)
  return uPml4e

/-- `page_table_init_kernel`: build the 4 GiB identity map at `kernel_pt_base`
and return the address of its PML4. -/
def pageTableInitKernel (info : Information) : TableM UInt64 := do
  let numKPte : UInt32 := 1048576
  let numKPde := numKPte / 512
  let numKPdpe := numKPde / 512
  let numPml4 := numKPdpe / 4
  let kPte := info.kernelPtBase
  forRange 0 numKPte.toNat fun i => setEntry kPte i (0x1000 * UInt32.ofNat i + 0x3).toUInt64
  let kPde := entryPtr kPte numKPte.toNat
  forRange 0 numKPde.toNat fun j => setEntry kPde j (entryPtr kPte (512 * j) + 0x3)
  let kPdpe := entryPtr kPde numKPde.toNat
  forRange 0 numKPdpe.toNat fun k => setEntry kPdpe k (entryPtr kPde (512 * k) + 0x3)
  forRange numKPdpe.toNat 512 fun k => setEntry kPdpe k 0
  let pml4e := entryPtr kPdpe 512
  forRange 0 numPml4.toNat fun m => setEntry pml4e m (entryPtr kPdpe (512 * m) + 0x3)
  forRange numPml4.toNat 511 fun m => setEntry pml4e m 0
  return pml4e

end UefiKernel
