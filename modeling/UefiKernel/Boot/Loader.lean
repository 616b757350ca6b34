import UefiKernel.Boot.Efi

/-!
# UefiKernel.Boot.Loader

The boot loader, `boot.c`, function by function.

A C function is a program of the same name; an out-parameter that the caller
reads is part of the result, and a local variable that survives an iteration
of `while (1)` is part of the loop's state.  Pointers are their addresses,
`NULL` is 0.  The contents of the information record are carried along as a
value, while each group of stores through its pointer is an event
(`Efi.writeInfo`); `uninit` is what the pool buffer held before.
-/

namespace UefiKernel.Boot

open Interact Prog

/-- `BootServices->Stall`. -/
def stall (microseconds : UInt64) : EfiM Unit := req (Efi.stall microseconds)

/-- `AllocatePool`: the wrapper answers `NULL` when the service fails. -/
def allocatePool (size : UInt64) (memoryType : MemoryType) : EfiM UInt64 := do
  let (status, ptr) ← req (Efi.allocatePool memoryType size)
  if efiError status then
    return 0
  return ptr

/-- `FreePool`. -/
def freePool (buf : UInt64) : EfiM Unit := req (Efi.freePool buf)

/-- `AllocatePages`, always called with `AllocateAnyPages`: the status and the
base. -/
def allocatePages (memoryType : MemoryType) (pages : UInt64) : EfiM (EfiStatus × UInt64) := do
  let (efiStatus, base) ← req (Efi.allocatePages memoryType pages)
  if efiStatus = EfiStatus.invalidParameter then
    req (Efi.outputString "Could not allocate pages due to invalid parameters.\r\n")
  else if efiStatus = EfiStatus.outOfResources then
    req (Efi.outputString
      "Could not allocate pages as enough resources are not available.\r\n")
  else if efiStatus = EfiStatus.notFound then
    req (Efi.outputString
      "Could not allocate pages as the requested pages could not be found.\r\n")
  return (efiStatus, base)

/-- `OpenFile`: the status, the volume handle and the file handle. -/
def openFile (imageHandle : UInt64) (fullFilePath : String) :
    EfiM (EfiStatus × UInt64 × UInt64) := do
  let (efiStatus, li) ← req (Efi.handleProtocol imageHandle .loadedImage)
  if efiError efiStatus then
    req (Efi.outputString "Cannot get LoadedImage for BOOTx64.EFI\r\n")
    return (efiStatus, 0, 0)
  let device ← req (Efi.deviceHandle li)
  let (efiStatus, fio) ← req (Efi.handleProtocol device .simpleFileSystem)
  if efiError efiStatus then
    req (Efi.outputString "Cannot get fio\r\n")
    return (efiStatus, 0, 0)
  let (efiStatus, vh) ← req (Efi.openVolume fio)
  if efiError efiStatus then
    req (Efi.outputString "Cannot get the volume handle!\r\n")
    return (efiStatus, vh, 0)
  let (efiStatus, fh) ← req (Efi.fileOpen vh fullFilePath)
  if efiError efiStatus then
    req (Efi.outputString "Cannot get the file handle!\r\n")
    return (efiStatus, vh, fh)
  return (EfiStatus.success, vh, fh)

/-- `CloseFile`. -/
def closeFile (vh fh : UInt64) : EfiM Unit := do
  req (Efi.fileClose vh)
  req (Efi.fileClose fh)

/-- `ReadFileSize`: the status and the size, which stays 0 on every path that
does not read it. -/
def readFileSize (fh : UInt64) : EfiM (EfiStatus × UInt64) := do
  let (efiStatus, fileInfoSize) ← req (Efi.getInfo fh 0 0)
  if efiStatus ≠ EfiStatus.bufferTooSmall then
    req (Efi.outputString "Cannot get file size.\r\n")
    return (efiStatus, 0)
  let fileInfo ← allocatePool fileInfoSize .bootServicesData
  let (efiStatus, _) ← req (Efi.getInfo fh fileInfoSize fileInfo)
  let mut fileSize := 0
  if efiError efiStatus then
    req (Efi.outputString "Cannot get file info.\r\n")
  else
    fileSize ← req (Efi.fileSize fileInfo)
  freePool fileInfo
  return (efiStatus, fileSize)

/-- `LoadBinaryFileInBuffer`. -/
def loadBinaryFileInBuffer (fh fileSize buffer : UInt64) : EfiM EfiStatus := do
  let (efiStatus, _) ← req (Efi.fileRead fh fileSize buffer)
  if efiError efiStatus then
    req (Efi.outputString "Cannot load binary file.\r\n")
  return efiStatus

/-- One pass of `SetGraphicsMode`'s search: `.inl mode` goes on with `mode`,
`.inr (some fb)` returns, `.inr none` leaves the loop. -/
def searchMode (graphics modePtr : UInt64) (width height mode : UInt32) :
    EfiM (UInt32 ⊕ Option UInt64) := do
  let maxMode ← req (Efi.maxMode modePtr)
  if ¬ mode < maxMode then
    return .inr none
  let (efiStatus, info) ← req (Efi.queryMode graphics mode)
  if efiError efiStatus then
    req (Efi.outputString "Cannot get graphics information!\r\n")
    return .inr none
  if info.pixelFormat ≠ .blueGreenRedReserved8BitPerColor then
    return .inl (mode + 1)
  if info.verticalResolution ≠ height ∨ info.horizontalResolution ≠ width then
    return .inl (mode + 1)
  let efiStatus ← req (Efi.setMode graphics mode)
  if efiError efiStatus then
    req (Efi.outputString "Cannot set graphics mode!\r\n")
    return .inr none
  let fb ← req (Efi.frameBufferBase modePtr)
  return .inr (some fb)

/-- `SetGraphicsMode`.  `graphics->Mode` points at one object throughout. -/
def setGraphicsMode (width height : UInt32) : EfiM UInt64 := do
  let (efiStatus, graphics) ← req (Efi.locateProtocol .graphicsOutput)
  if efiError efiStatus then
    req (Efi.outputString "Cannot get the GOP handle!\r\n")
    return 0
  let modePtr ← req (Efi.gopMode graphics)
  if modePtr = 0 then
    req (Efi.outputString "Incorrect GOP mode information!\r\n")
    return 0
  let maxMode ← req (Efi.maxMode modePtr)
  if maxMode = 0 then
    req (Efi.outputString "Incorrect GOP mode information!\r\n")
    return 0
  let frameBufferDefault ← req (Efi.frameBufferBase modePtr)
  let found ← loop (searchMode graphics modePtr width height) 0
  match found with
  | some fb => return fb
  | none =>
      req (Efi.outputString "Cannot set the specified graphics mode!\r\n")
      stall (5 * 1000000)
      return frameBufferDefault

/-- What `ExitBootServicesHook` carries from one iteration to the next. -/
structure MapBuffer where
  memoryMap : UInt64
  memoryMapSize : UInt64
  deriving DecidableEq, Repr

/-- The second half of an iteration of `ExitBootServicesHook`: fetch the map
and exit. -/
def exitWithMap (imageHandle : UInt64) (buf : MapBuffer) : EfiM (MapBuffer ⊕ EfiStatus) := do
  let memoryMap := buf.memoryMap
  let (efiStatus, memoryMapSize, memoryMapKey) ← req (Efi.getMemoryMap buf.memoryMapSize memoryMap)
  if efiError efiStatus then
    freePool memoryMap
    req (Efi.outputString "Error getting memory map.\r\n")
    return .inr efiStatus
  let efiStatus ← req (Efi.exitBootServices imageHandle memoryMapKey)
  if efiStatus = EfiStatus.invalidParameter then
    freePool memoryMap
    return .inl ⟨memoryMap, memoryMapSize⟩
  else if efiError efiStatus then
    req (Efi.outputString "Error exiting boot services.\r\n")
    freePool memoryMap
    return .inr efiStatus
  else
    return .inr efiStatus

/-- One iteration of `ExitBootServicesHook`. -/
def exitBootServicesStep (imageHandle : UInt64) (buf : MapBuffer) :
    EfiM (MapBuffer ⊕ EfiStatus) := do
  let (efiStatus, memoryMapSize, _) ← req (Efi.getMemoryMap buf.memoryMapSize buf.memoryMap)
  if efiStatus = EfiStatus.bufferTooSmall then
    let memoryMap ← allocatePool memoryMapSize .bootServicesData
    exitWithMap imageHandle ⟨memoryMap, memoryMapSize⟩
  else if efiError efiStatus then
    req (Efi.outputString "Error getting memory map size.\r\n")
    return .inr efiStatus
  else
    exitWithMap imageHandle ⟨buf.memoryMap, memoryMapSize⟩

/-- `ExitBootServicesHook`. -/
def exitBootServicesHook (imageHandle : UInt64) : EfiM EfiStatus :=
  loop (exitBootServicesStep imageHandle) ⟨0, 0⟩

/-- `CalculateNumPagesUserPageTable`: the number of pages, and the record with
the four counts filled in. -/
def calculateNumPagesUserPageTable (pagesForUserBinary userStackPages : UInt64)
    (info : Information) : UInt64 × Information :=
  let numPtes := pagesForUserBinary + userStackPages
  let numPdes := numPtes / 512 + 1
  let numPdpes := numPdes / 512 + 1
  let numPml4es := numPdpes / 512 + 1
  let numPages := efiSizeToPages (8 * numPtes) + efiSizeToPages (8 * numPdes) +
    efiSizeToPages (8 * numPdpes) + efiSizeToPages (8 * numPml4es)
  (numPages, { info with
    numUserPtes := numPtes.toUInt32
    numUserPdes := numPdes.toUInt32
    numUserPdpes := numPdpes.toUInt32
    numUserPml4es := numPml4es.toUInt32 })

/-- A group of stores through the pointer to the information record. -/
def writeInfo (info : UInt64) : EfiM Unit := req (Efi.writeInfo info)

/-- The call of the kernel's entry point.  The kernel never returns, but the
loader's code goes on. -/
def callKernel (entry stack fb : UInt64) (width height : UInt32) (infoPtr : UInt64)
    (info : Information) : EfiM Unit :=
  req (Efi.callKernel entry stack fb width height infoPtr info)

/-- `efi_main` leaves early with the status of the service that failed. -/
abbrev BootM := ExceptT EfiStatus EfiM

/-- What `efi_main` does with every status: on an error it waits for five
seconds and returns it. -/
def checkStatus (efiStatus : EfiStatus) : BootM Unit := do
  if efiError efiStatus then
    stall (5 * 1000000)
    throw efiStatus

/-- The body of `efi_main`. -/
def loadAndStart (imageHandle : UInt64) (uninit : Information) : BootM EfiStatus := do
  let kernelPageTablePages := efiSizeToPages (0x800000 + 0x4000 + 0x2000)
  let kernelStackPages : UInt64 := 1
  let userStackPages : UInt64 := 1
  let infoPtr ← allocatePool 120 .bootServicesData
  writeInfo infoPtr
  let mut info := { uninit with
    numUserStackPages := userStackPages.toUInt32
    numKernelStackPages := kernelStackPages.toUInt32 }
  let (efiStatus, kvh, kfh) ← openFile imageHandle "\\EFI\\BOOT\\KERNEL"
  checkStatus efiStatus
  let (efiStatus, kernelFileSize) ← readFileSize kfh
  checkStatus efiStatus
  let (efiStatus, kernelBase) ← allocatePages .bootServicesCode (efiSizeToPages kernelFileSize)
  checkStatus efiStatus
  let kernelBuffer := kernelBase
  let efiStatus ← loadBinaryFileInBuffer kfh kernelFileSize kernelBuffer
  checkStatus efiStatus
  closeFile kvh kfh
  let (efiStatus, uvh, ufh) ← openFile imageHandle "\\EFI\\BOOT\\USER"
  checkStatus efiStatus
  let (efiStatus, userFileSize) ← readFileSize ufh
  checkStatus efiStatus
  let pagesForUserBinary := efiSizeToPages userFileSize
  writeInfo infoPtr
  info := { info with numUserBinaryPages := pagesForUserBinary.toUInt32 }
  let (efiStatus, userBase) ← allocatePages .bootServicesCode pagesForUserBinary
  checkStatus efiStatus
  let userBuffer := userBase
  let efiStatus ← loadBinaryFileInBuffer ufh userFileSize userBuffer
  checkStatus efiStatus
  closeFile uvh ufh
  let (efiStatus, kernelPageTableBase) ← allocatePages .bootServicesData kernelPageTablePages
  checkStatus efiStatus
  writeInfo infoPtr
  let (userPageTablePages, counted) :=
    calculateNumPagesUserPageTable pagesForUserBinary userStackPages info
  info := counted
  let (efiStatus, userPageTableBase) ← allocatePages .bootServicesData userPageTablePages
  checkStatus efiStatus
  let (efiStatus, tssBase) ← allocatePages .bootServicesData 2
  checkStatus efiStatus
  let tssStackBase := tssBase + 4096
  let tssSegmentBase := tssStackBase
  let (efiStatus, tlsBase) ← allocatePages .bootServicesData 1
  checkStatus efiStatus
  let (efiStatus, sharedPageBase) ← allocatePages .bootServicesData 1
  checkStatus efiStatus
  let (efiStatus, gntTableBase) ← allocatePages .bootServicesData 1
  checkStatus efiStatus
  let (efiStatus, exceptionPageBase) ← allocatePages .bootServicesData 1
  checkStatus efiStatus
  let (efiStatus, stackBase) ← allocatePages .bootServicesData (kernelStackPages + userStackPages)
  checkStatus efiStatus
  let kernelStackBase := stackBase + 4096 * kernelStackPages
  let userStackBase := kernelStackBase + 4096 * userStackPages
  let fb ← setGraphicsMode 800 600
  let efiStatus ← exitBootServicesHook imageHandle
  checkStatus efiStatus
  writeInfo infoPtr
  info := { info with
    kernelStackBuffer := kernelStackBase
    userStackBuffer := userStackBase
    kernelPtBase := kernelPageTableBase
    userPtBase := userPageTableBase
    userAppBuffer := userBuffer
    tssSegmentBuffer := tssSegmentBase
    tssStackBuffer := tssStackBase
    extraPageForException := exceptionPageBase
    tlsBuffer := tlsBase
    gntTable := gntTableBase
    sharedPage := sharedPageBase }
  callKernel kernelBuffer kernelStackBase fb 800 600 infoPtr info
  return EfiStatus.success

/-- `efi_main`. -/
def efiMain (imageHandle : UInt64) (uninit : Information) : EfiM EfiStatus := do
  match ← (loadAndStart imageHandle uninit).run with
  | .ok efiStatus => return efiStatus
  | .error efiStatus => return efiStatus

end UefiKernel.Boot
