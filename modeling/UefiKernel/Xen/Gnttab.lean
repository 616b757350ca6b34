import UefiKernel.Xen.Platform

/-!
# UefiKernel.Xen.Gnttab

The grant table: the free list of `gnttab.c`, its initialisation and the grant
of a page.

The table itself is shared with Xen, so stores to it are events; the free list
is the kernel's own.  The fence between the stores of an entry is no event:
stores are seen in the order in which they are issued.
-/

namespace UefiKernel.Xen

open Interact Prog

/-- `gnttab_list`. -/
abbrev GnttabList := UInt32 → UInt32

/-- `NR_RESERVED_ENTRIES`. -/
def nrReservedEntries : Nat := 8

/-- `NR_GRANT_FRAMES`. -/
def nrGrantFrames : Nat := 1

/-- `NR_GRANT_ENTRIES`; an entry has eight bytes. -/
def nrGrantEntries : Nat := nrGrantFrames * 4096 / 8

/-- `gnttab_list[ref] = val`. -/
def GnttabList.set (list : GnttabList) (ref val : UInt32) : GnttabList :=
  fun i => if i = ref then val else list i

def putFreeEntry (list : GnttabList) (ref : UInt32) : GnttabList :=
  (GnttabList.set list ref (list 0)).set 0 ref

def getFreeEntry (list : GnttabList) : UInt32 × GnttabList :=
  let ref := list 0
  (ref, list.set 0 (list ref))

/-- `for (i = NR_RESERVED_ENTRIES; i < NR_GRANT_ENTRIES; i++) put_free_entry(i)`. -/
def putFreeEntries (list : GnttabList) : GnttabList :=
  (List.range' nrReservedEntries (nrGrantEntries - nrReservedEntries)).foldl
    (fun list i => putFreeEntry list (UInt32.ofNat i)) list

/-- `while (1) {}`. -/
def halt : XenM Unit := loop (fun _ : Unit => pure (.inl ())) ()

/-- The loop over the frames of the table, from the last to the first. -/
def mapGrantFrames (xen : XenHeaders) (page : UInt64) : Nat → XenM Unit
  | 0 => pure ()
  | i + 1 => do
      let result ← hypercall (.memoryOp xen.xenmemAddToPhysmap {
        domid := xen.domidSelf
        idx := UInt64.ofNat i
        space := xen.xenmapspaceGrantTable
        gpfn := page + UInt64.ofNat i })
      if result ≠ 0 then
        printf "cannot map gnttab_table!" []
        halt
      mapGrantFrames xen page i

def initGnttab (xen : XenHeaders) (gnttabTable : UInt64) (list : GnttabList) :
    XenM GnttabList := do
  let page := gnttabTable >>> 12
  let list := putFreeEntries list
  mapGrantFrames xen page nrGrantFrames
  printf "gnttab_table mapped at %p.\n" [gnttabTable]
  return list

def storeGrant (ref : UInt32) (store : GrantStore) : XenM Unit :=
  req (XenEvent.storeGrant ref store)

def gnttabGrantAccess (xen : XenHeaders) (list : GnttabList) (domid : UInt16) (frame : UInt64)
    (readonly : Int32) : XenM (UInt32 × GnttabList) := do
  let (ref, list) := getFreeEntry list
  storeGrant ref (.frame frame.toUInt32)
  storeGrant ref (.domid domid)
  let readonly := readonly.toUInt32 * xen.gtfReadonly
  storeGrant ref (.flags (xen.gtfPermitAccess ||| readonly).toUInt16)
  return (ref, list)

end UefiKernel.Xen
