import UefiKernel.Lib.Interact
import UefiKernel.Lib.Store
import UefiKernel.Lib.Threaded
import UefiKernel.Lib.Rely
import UefiKernel.Lib.Parallel
import UefiKernel.Lib.Handle
import UefiKernel.Types
import UefiKernel.Paging
import UefiKernel.TableImage
import UefiKernel.AddressSpace
import UefiKernel.LiveTables
import UefiKernel.IdentityMap
import UefiKernel.Rectangle
import UefiKernel.FaultRetry
import UefiKernel.TableLimits
import UefiKernel.Boot.Loader
import UefiKernel.Boot.ExitHook
import UefiKernel.Boot.MapGrowth
import UefiKernel.Boot.Graphics
import UefiKernel.Boot.Handover
import UefiKernel.Boot.PoolFailure
import UefiKernel.Isolation
import UefiKernel.ProgramImage
import UefiKernel.Console.Bounds
import UefiKernel.Console.Message
import UefiKernel.Console.Value
import UefiKernel.Console.Secrecy
import UefiKernel.Console.Formatter
import UefiKernel.Console.Buffers
import UefiKernel.KernelEntry.Transparent
import UefiKernel.Framebuffer.Tail
import UefiKernel.Framebuffer.Scrolling
import UefiKernel.Framebuffer.Printing
import UefiKernel.Interrupts.Descriptors
import UefiKernel.Interrupts.Vectors
import UefiKernel.Interrupts.Delivery
import UefiKernel.KernelEntry.Session
import UefiKernel.Interrupts.Timer
import UefiKernel.KernelEntry.Clocked
import UefiKernel.Lib.Seqlock
import UefiKernel.Xen.Clock
import UefiKernel.Xen.Waiting
import UefiKernel.Xen.Detect
import UefiKernel.Xen.Gnttab
import UefiKernel.Xen.Grants
import UefiKernel.Xen.FreeRefs
import UefiKernel.Xen.Exhaustion
import UefiKernel.Xen.SharedTable
import UefiKernel.Xen.Exposure
import UefiKernel.Xen.RoundTrip
import UefiKernel.Xen.Hypercalls
import UefiKernel.Xen.BaseSearch
import UefiKernel.Xen.MapGrant
import UefiKernel.Xen.Exchange
