import UefiKernel.Lib.Interact
import UefiKernel.Types

/-!
# UefiKernel.Boot.Efi

The boot loader's world: the UEFI services `boot.c` calls, as the events of an
interactive program, with the status codes they answer.

A service with an out-parameter answers its status and the value it leaves
there.  Reading a field of an object the firmware owns (a loaded image, a file
record, the graphics mode) and writing through the pointer to the information
record are events too, since the pointer may be bad.  Nothing here says what
the firmware does; that is an environment of `Interact`, and each group of
results names the rules it relies on.
-/

namespace UefiKernel.Boot

open Interact

/-! ## status codes -/

abbrev EfiStatus := UInt64

namespace EfiStatus

/-- `ENCODE_ERROR`: error codes have the top bit set. -/
def encodeError (code : UInt64) : EfiStatus := 0x8000000000000000 ||| code

def success : EfiStatus := 0
def invalidParameter : EfiStatus := encodeError 2
def bufferTooSmall : EfiStatus := encodeError 5
def outOfResources : EfiStatus := encodeError 9
def notFound : EfiStatus := encodeError 14

end EfiStatus

/-- `EFI_ERROR`: the status is negative as a signed integer. -/
def efiError (s : EfiStatus) : Prop := 2 ^ 63 ≤ s.toNat

instance (s : EfiStatus) : Decidable (efiError s) := inferInstanceAs (Decidable (_ ≤ _))

theorem not_efiError_success : ¬ efiError EfiStatus.success := by decide

/-- `EFI_SIZE_TO_PAGES`. -/
def efiSizeToPages (size : UInt64) : UInt64 :=
  (size >>> 12) + (if size &&& 0xFFF ≠ 0 then 1 else 0)

/-- `EFI_SIZE_TO_PAGES` rounds up. -/
theorem toNat_efiSizeToPages (size : UInt64) :
    (efiSizeToPages size).toNat = (size.toNat + 0xFFF) / pageSize := by
  have hlt := size.toNat_lt
  have hshift : (size >>> 12).toNat = size.toNat / 2 ^ 12 := by
    rw [UInt64.toNat_shiftRight, Nat.shiftRight_eq_div_pow]
    rfl
  have hmask : (size &&& 0xFFF).toNat = size.toNat % 2 ^ 12 := by
    rw [UInt64.toNat_and]
    exact Nat.and_two_pow_sub_one_eq_mod size.toNat 12
  have hzero : size &&& 0xFFF = 0 ↔ size.toNat % 2 ^ 12 = 0 := by
    rw [← hmask, ← UInt64.toNat_inj]
    rfl
  rw [efiSizeToPages, UInt64.toNat_add, hshift]
  simp only [pageSize]
  by_cases h : size &&& 0xFFF = 0
  · have hmod := hzero.mp h
    rw [if_neg (not_not_intro h), UInt64.toNat_zero]
    omega
  · have hmod : size.toNat % 2 ^ 12 ≠ 0 := fun h' => h (hzero.mpr h')
    rw [if_pos h, UInt64.toNat_one]
    omega

/-! ## data -/

/-- The protocols `boot.c` asks for. -/
inductive Guid
  | loadedImage
  | simpleFileSystem
  | graphicsOutput
  | fileInfo
  deriving DecidableEq, Repr

/-- `EFI_MEMORY_TYPE`, as far as `boot.c` uses it. -/
inductive MemoryType
  | bootServicesCode
  | bootServicesData
  deriving DecidableEq, Repr

/-- `EFI_GRAPHICS_PIXEL_FORMAT`. -/
inductive PixelFormat
  | redGreenBlueReserved8BitPerColor
  | blueGreenRedReserved8BitPerColor
  | bitMask
  | bltOnly
  deriving DecidableEq, Repr

/-- `EFI_GRAPHICS_OUTPUT_MODE_INFORMATION`. -/
structure ModeInformation where
  horizontalResolution : UInt32
  verticalResolution : UInt32
  pixelFormat : PixelFormat
  pixelsPerScanLine : UInt32
  deriving DecidableEq, Repr

/-! ## services -/

/-- What the boot loader asks of the firmware and of memory. -/
inductive Efi
  | handleProtocol (handle : UInt64) (guid : Guid)
  | deviceHandle (li : UInt64)
  | openVolume (fio : UInt64)
  | fileOpen (vh : UInt64) (path : String)
  | fileClose (fh : UInt64)
  | getInfo (fh size buf : UInt64)
  | fileSize (info : UInt64)
  | fileRead (fh size buf : UInt64)
  | allocatePool (type : MemoryType) (size : UInt64)
  | freePool (buf : UInt64)
  | allocatePages (type : MemoryType) (pages : UInt64)
  | writeInfo (info : UInt64)
  | locateProtocol (guid : Guid)
  | gopMode (graphics : UInt64)
  | maxMode (mode : UInt64)
  | frameBufferBase (mode : UInt64)
  | queryMode (graphics : UInt64) (mode : UInt32)
  | setMode (graphics : UInt64) (mode : UInt32)
  | getMemoryMap (size buf : UInt64)
  | exitBootServices (handle key : UInt64)
  | stall (microseconds : UInt64)
  | outputString (text : String)
  | callKernel (entry stack fb : UInt64) (width height : UInt32) (infoPtr : UInt64)
      (info : Information)

/-- What the firmware answers. -/
abbrev Efi.Answer : Efi → Type
  | handleProtocol _ _ | openVolume _ | fileOpen _ _ | locateProtocol _ => EfiStatus × UInt64
  | deviceHandle _ | fileSize _ | gopMode _ | frameBufferBase _ => UInt64
  | maxMode _ => UInt32
  | getInfo _ _ _ => EfiStatus × UInt64
  | fileRead _ _ _ => EfiStatus × UInt64
  | allocatePool _ _ | allocatePages _ _ => EfiStatus × UInt64
  | queryMode _ _ => EfiStatus × ModeInformation
  | getMemoryMap _ _ => EfiStatus × UInt64 × UInt64
  | setMode _ _ | exitBootServices _ _ => EfiStatus
  | fileClose _ | freePool _ | stall _ | outputString _ | writeInfo _ => Unit
  | callKernel _ _ _ _ _ _ _ => Unit

/-- A program of the boot loader. -/
abbrev EfiM := Prog Efi Efi.Answer

end UefiKernel.Boot
