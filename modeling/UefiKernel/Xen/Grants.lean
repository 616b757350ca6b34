import UefiKernel.Lib.Threaded
import UefiKernel.Xen.Gnttab

/-!
# UefiKernel.Xen.Grants

The rest of `gnttab.c`, and any number of calls to it: grants of pages and of
transfers, and the two ways to end one.

The entries of the table are read and exchanged as well as stored here, so the
events are those of `XenEvent` and three more.  What the table answers is left
open: `Grants.Reachable` is about the states between calls in any environment.
Beside the free list a state keeps, as a ghost, what is granted under which
reference.
-/

namespace UefiKernel.Xen

open Interact Prog

/-- The further constants of Xen's `grant_table.h`. -/
structure GrantHeaders extends XenHeaders where
  gtfAcceptTransfer : UInt32
  gtfReading : UInt32
  gtfWriting : UInt32
  gtfTransferCommitted : UInt32
  gtfTransferCompleted : UInt32

/-- An access to an entry of the table, or any other event under Xen. -/
inductive GrantEvent
  | xen (e : XenEvent)
  | loadFlags (ref : UInt32)
  | loadFrame (ref : UInt32)
  | cmpxchgFlags (ref : UInt32) (old new : UInt16)
  deriving DecidableEq, Repr

abbrev GrantEvent.Answer : GrantEvent → Type
  | xen e => e.Answer
  | loadFlags _ => UInt16
  | loadFrame _ => UInt32
  | cmpxchgFlags _ _ _ => UInt16

abbrev GrantM := Prog GrantEvent GrantEvent.Answer

/-- A program under Xen, as one that may use the table. -/
def ofXen {α : Type} (p : XenM α) : GrantM α := embed GrantEvent.xen (fun _ r => r) p

instance : MonadLift XenM GrantM := ⟨ofXen⟩

/-- `gnttab_table[ref].flags`. -/
def loadFlags (ref : UInt32) : GrantM UInt16 := req (GrantEvent.loadFlags ref)

/-- `gnttab_table[ref].frame`. -/
def loadFrame (ref : UInt32) : GrantM UInt32 := req (GrantEvent.loadFrame ref)

/-- `synch_cmpxchg(&gnttab_table[ref].flags, old, new)`: the value found there. -/
def synchCmpxchg (ref : UInt32) (old new : UInt16) : GrantM UInt16 :=
  req (GrantEvent.cmpxchgFlags ref old new)

/-! ## the calls -/

def gnttabGrantTransfer (xen : GrantHeaders) (list : GnttabList) (domid : UInt16) (pfn : UInt64) :
    XenM (UInt32 × GnttabList) := do
  let (ref, list) := getFreeEntry list
  storeGrant ref (.frame pfn.toUInt32)
  storeGrant ref (.domid domid)
  storeGrant ref (.flags xen.gtfAcceptTransfer.toUInt16)
  return (ref, list)

/-- One pass of the loop in `gnttab_end_access`, which leaves with whether the
entry is free. -/
def endAccessStep (xen : GrantHeaders) (ref : UInt32) (nflags : UInt16) :
    GrantM (UInt16 ⊕ Bool) := do
  let flags := nflags
  if flags.toUInt32 &&& (xen.gtfReading ||| xen.gtfWriting) ≠ 0 then
    printf "WARNING: g.e. still in use! (%x)\n" [flags.toUInt64]
    return .inr false
  let nflags ← synchCmpxchg ref flags 0
  if nflags ≠ flags then
    return .inl nflags
  return .inr true

def gnttabEndAccess (xen : GrantHeaders) (list : GnttabList) (ref : UInt32) :
    GrantM (Int32 × GnttabList) := do
  let nflags ← loadFlags ref
  let free ← loop (endAccessStep xen ref) nflags
  if free then
    return (1, putFreeEntry list ref)
  return (0, list)

/-- One pass of the first loop in `gnttab_end_transfer`, which leaves with the
flags of a committed transfer, or with none if the entry has been released. -/
def uncommittedStep (xen : GrantHeaders) (ref : UInt32) (_ : Unit) :
    GrantM (Unit ⊕ Option UInt16) := do
  let flags ← loadFlags ref
  if flags.toUInt32 &&& xen.gtfTransferCommitted ≠ 0 then
    return .inr (some flags)
  let prev ← synchCmpxchg ref flags 0
  if prev = flags then
    printf "Release unused transfer grant.\n" []
    return .inr none
  return .inl ()

/-- One pass of the loop that waits for a transfer in progress. -/
def uncompletedStep (xen : GrantHeaders) (ref : UInt32) (flags : UInt16) :
    GrantM (UInt16 ⊕ Unit) := do
  if flags.toUInt32 &&& xen.gtfTransferCompleted ≠ 0 then
    return .inr ()
  let flags ← loadFlags ref
  return .inl flags

def gnttabEndTransfer (xen : GrantHeaders) (list : GnttabList) (ref : UInt32) :
    GrantM (UInt64 × GnttabList) := do
  match ← loop (uncommittedStep xen ref) () with
  | none => return (0, putFreeEntry list ref)
  | some flags =>
    loop (uncompletedStep xen ref) flags
    let frame ← loadFrame ref
    return (frame.toUInt64, putFreeEntry list ref)

/-! ## any number of calls -/

inductive GrantKind
  | access
  | transfer
  deriving DecidableEq, Repr

/-- What a reference was granted for. -/
structure Grant where
  kind : GrantKind
  domid : UInt16
  frame : UInt64
  deriving DecidableEq, Repr

/-- A call of one of the four functions. -/
inductive GrantCall
  | grantAccess (domid : UInt16) (frame : UInt64) (readonly : Int32)
  | grantTransfer (domid : UInt16) (pfn : UInt64)
  | endAccess (ref : UInt32)
  | endTransfer (ref : UInt32)
  deriving DecidableEq, Repr

/-- What a call returns. -/
inductive GrantResult
  | ref (ref : UInt32)
  | ended (ok : Int32)
  | frame (frame : UInt64)
  deriving DecidableEq, Repr

/-- The code of a call. -/
def GrantCall.prog (xen : GrantHeaders) (list : GnttabList) :
    GrantCall → GrantM (GrantResult × GnttabList)
  | grantAccess domid frame readonly => do
      let (ref, list) ← gnttabGrantAccess xen.toXenHeaders list domid frame readonly
      return (.ref ref, list)
  | grantTransfer domid pfn => do
      let (ref, list) ← gnttabGrantTransfer xen list domid pfn
      return (.ref ref, list)
  | endAccess ref => do
      let (ok, list) ← gnttabEndAccess xen list ref
      return (.ended ok, list)
  | endTransfer ref => do
      let (frame, list) ← gnttabEndTransfer xen list ref
      return (.frame frame, list)

/-- What is granted under each reference. -/
abbrev Granted := UInt32 → Option Grant

/-- What is granted after a call that returned. -/
def GrantCall.after (granted : Granted) : GrantCall → GrantResult → Granted
  | grantAccess domid frame _, .ref ref =>
      Function.update granted ref (some ⟨.access, domid, frame⟩)
  | grantTransfer domid pfn, .ref ref =>
      Function.update granted ref (some ⟨.transfer, domid, pfn⟩)
  | endAccess ref, .ended ok => if ok = 0 then granted else Function.update granted ref none
  | endTransfer ref, .frame _ => Function.update granted ref none
  | _, _ => granted

/-- The state between two calls; `mem` is what the environment keeps. -/
structure Grants (T : Type) where
  list : GnttabList
  granted : Granted
  mem : T

/-- The states that calls lead to from the zeroed `gnttab_list` and one
`init_gnttab`, if each call is `proper` when it is made. -/
inductive Grants.Reachable {T : Type} (xen : GrantHeaders)
    (env : T → (e : GrantEvent) → e.Answer → T → Prop) (proper : Granted → GrantCall → Prop)
    (start : T) : Grants T → Prop
  | init {gnttabTable : UInt64} {list : GnttabList} {mem : T}
      (hr : Run env (start, ofXen (initGnttab xen.toXenHeaders gnttabTable fun _ => 0))
        (mem, ret list)) : Reachable xen env proper start ⟨list, fun _ => none, mem⟩
  | call {s : Grants T} {c : GrantCall} {result : GrantResult} {list : GnttabList} {mem : T}
      (h : Reachable xen env proper start s) (hc : proper s.granted c)
      (hr : Run env (s.mem, c.prog xen s.list) (mem, ret (result, list))) :
      Reachable xen env proper start ⟨list, c.after s.granted result, mem⟩

/-! ## references -/

/-- A reference that may be granted. -/
def IsRef (ref : UInt32) : Prop := nrReservedEntries ≤ ref.toNat ∧ ref.toNat < nrGrantEntries

/-- The references that may be granted, in order. -/
def grantRefs : List UInt32 :=
  (List.range' nrReservedEntries (nrGrantEntries - nrReservedEntries)).map UInt32.ofNat

/-- How many references are outstanding. -/
def numOutstanding (granted : Granted) : Nat :=
  (grantRefs.filter fun ref => (granted ref).isSome).length

/-- No grant is requested while all 504 references are outstanding, and an end
call names an outstanding reference of its kind. -/
def GrantCall.OfKind (granted : Granted) : GrantCall → Prop
  | grantAccess _ _ _ | grantTransfer _ _ => numOutstanding granted < 504
  | endAccess ref => ∃ g, granted ref = some g ∧ g.kind = .access
  | endTransfer ref => ∃ g, granted ref = some g ∧ g.kind = .transfer

end UefiKernel.Xen
