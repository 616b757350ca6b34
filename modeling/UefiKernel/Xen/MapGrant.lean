import UefiKernel.Console.Printf
import UefiKernel.Xen.Hypercalls

/-!
# UefiKernel.Xen.MapGrant

The kernel of the second guest (`guest2/kernel.c`).

It is the first guest's but for the end of its Xen branch: it grants nothing,
and maps the page that the other guest has granted over its own shared page.
The reference and the domain it asks for are written into the code.

What follows the hypercall is a message that reads the mapped page, so its
bytes are those of the formatter, one event each; the messages in front of the
hypercall are events as a whole, as they are for the first guest.
-/

namespace UefiKernel.Xen

open Interact Prog
open Console (PrintEvent PrintM bytes)

/-- The further constants of Xen's `grant_table.h` and `gnttab` operations. -/
structure MapHeaders extends XenHeaders where
  gnttabopMapGrantRef : UInt32
  gntmapHostMap : UInt32
  gntstOkay : Int16

/-- The fields of `struct gnttab_map_grant_ref` that are set. -/
structure GnttabMapGrantRef where
  hostAddr : UInt64
  flags : UInt32
  ref : UInt32
  dom : UInt16
  deriving DecidableEq, Repr

inductive Guest2Event
  | xen (e : XenEvent)
  | grantTableOp (cmd : UInt32) (op : GnttabMapGrantRef) (count : UInt32)
  | print (e : PrintEvent)
  deriving DecidableEq, Repr

/-- The operation is answered by a return value and by its `status`. -/
abbrev Guest2Event.Answer : Guest2Event → Type
  | xen e => e.Answer
  | grantTableOp _ _ _ => Int32 × Int16
  | print e => e.Answer

abbrev Guest2M := Prog Guest2Event Guest2Event.Answer

/-- What both kernels do under Xen. -/
def alsoXen {α : Type} (p : XenM α) : Guest2M α := embed Guest2Event.xen (fun _ r => r) p

/-- What the formatter does. -/
def printing {α : Type} (p : PrintM α) : Guest2M α := embed Guest2Event.print (fun _ r => r) p

instance : MonadLift XenM Guest2M := ⟨alsoXen⟩

instance : MonadLift PrintM Guest2M := ⟨printing⟩

/-- `HYPERVISOR_grant_table_op`. -/
def hypervisorGrantTableOp (cmd : UInt32) (op : GnttabMapGrantRef) (count : UInt32) :
    Guest2M (Int32 × Int16) :=
  req (Guest2Event.grantTableOp cmd op count)

namespace Guest2

def failedFormat : List UInt8 :=
  bytes "GNTTABOP_map_grant_ref failed, return value:%d, status:%d\n"

def messageFormat : List UInt8 := bytes "Message read from shared memory: %s\n"

/-- What is asked for. -/
def mapOp (xen : MapHeaders) (info : Information) : GnttabMapGrantRef where
  ref := 511
  dom := 5
  hostAddr := info.sharedPage
  flags := xen.gntmapHostMap

/-- From the hypercall on. -/
def readMessage (xen : MapHeaders) (info : Information) : Guest2M UInt64 := do
  let op := mapOp xen info
  let (rc, status) ← hypervisorGrantTableOp xen.gnttabopMapGrantRef op 1
  if rc ≠ 0 ∨ status ≠ xen.gntstOkay then
    Console.printf (.lit failedFormat) [rc.toInt64.toUInt64, status.toInt64.toUInt64]
  else
    Console.printf (.lit messageFormat) [op.hostAddr]

/-- What follows `xen_shared_init() == 0`, up to the hypercall. -/
def reportClock (xen : XenHeaders) : XenM UInt64 := do
  let result ← hypercall (.xenVersion xen.xenverVersion 0)
  let version := result.toUInt32
  printf "Major version: %d\n" [(version >>> 16).toUInt64]
  printf "Minor version: %d\n" [(version &&& 0xFFFF).toUInt64]
  let timeNow ← pvclockMonotonicRead
  let wallClockOffset ← pvclockWcRead
  printf "PV Clock Monotonic: %ldns\n" [timeNow]
  printf "PV Clock Wall Clock: %ldns\n" [wallClockOffset + timeNow]
  wait 1
  let timeNow ← pvclockMonotonicRead
  printf "PV Clock Monotonic after busy wait: %ldns\n" [timeNow]
  printf "PV Clock Wall Clock after busy wait: %ldns\n" [wallClockOffset + timeNow]
  return wallClockOffset

/-- What follows `xen_hypercalls_init()`. -/
def kernelStartHypercalls (xen : MapHeaders) (image : KernelImage) (info : Information)
    (k : XenGlobals) : Guest2M XenGlobals := do
  printf "Initialized Xen hypercalls!\n" []
  let failed ← xenSharedInit xen.toXenHeaders image
  if failed = 0 then
    let wallClockOffset ← reportClock xen.toXenHeaders
    let _ ← readMessage xen info
    return { k with wallClockOffset }
  else
    printf "Could not get Xen shared info!\n" []
    return k

/-- From `xen_detect()` to the jump to the user program. -/
def kernelStartXen (xen : MapHeaders) (image : KernelImage) (info : Information)
    (k : XenGlobals) : Guest2M XenGlobals := do
  let hyperv ← xenDetect
  if hyperv = .xen then
    printf "Xen hypervisor detected!\n" []
    let xenBase ← xenBaseDetect
    let xenBase ← xenHypercallsInit image xenBase
    kernelStartHypercalls xen image info { k with xenBase }
  else
    return k

end Guest2

/-! ## footprints -/

/-- Every event is one that both kernels have. -/
theorem issues_alsoXen {α : Type} (p : XenM α) :
    (alsoXen p).Issues fun e => ∃ e', e = Guest2Event.xen e' := by
  have hembed : wp (fun (_ : Unit) _ _ _ => True) (fun _ e => ∃ e', e = Guest2Event.xen e')
      (alsoXen p) (fun _ _ => True) () :=
    wp_embed (fun _ _ _ _ _ => trivial) (fun _ e _ => ⟨e, rfl⟩) (issues_true p)
  exact hembed

end UefiKernel.Xen
