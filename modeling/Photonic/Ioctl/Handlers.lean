import Photonic.Dcam.Current
import Photonic.Ioctl.Slot
import Photonic.Lib.SharedBuffer
import Photonic.Mailbox.RawPacket

namespace Photonic

abbrev PlReturnCode := BitVec 32

def PlError.code : PlError → PlReturnCode
  | success => 0x00
  | deviceNotFound => 0x03
  | invalidCount => 0x07
  | outOfMemory => 0x09
  | notPrepared => 0x0D
  | hardware => 0x0E
  | noResources => 0x16
  | invalidState => 0x17
  | badFrameSize => 0x19
  | lockFailed => 0x1A
  | notStreaming => 0x1F
  | formatUnavailable => 0x20

def plError : PlReturnCode := 0x01
def plErrorNoPreview : PlReturnCode := 0x0A
def plErrorOutOfRange : PlReturnCode := 0x14

def statusNotImplemented : NtStatus := 0xC0000002

namespace Ioctl
open Dcam Mailbox

/-- The fields of `PHOTONIC_IOCTL_REQUEST` that no handler changes. -/
structure Request where
  fileObject : ℕ
  inputLength : ℕ
  outputLength : ℕ
  deriving DecidableEq, Repr

/-- `PHOTONIC_DEVICE_EXTENSION`, with the camera behind it. -/
structure Host (σ : Type) where
  core : IoctlDevice
  camera : σ
  csrBaseAddress : ℕ
  modes : List VideoMode
  lastError : PlReturnCode

/-- What the handlers call: the two kinds of bus access, the processor's floating point, and the
work of the slot verbs. What a verb does after its checks is modelled in `VerbPc`; here it has any
outcome. -/
structure Services (σ : Type) where
  registers : RegisterPort σ
  blocks : BlockPort σ
  saveFloatingPointState : Routine σ NtStatus Unit
  fps : ℕ → BitVec 32
  carryOut : VerbPc → Routine (Host σ) (NtStatus × PlError) Unit

/-- The extension of a request, and its `Error`. -/
structure Issued (σ : Type) where
  host : Host σ
  error : PlReturnCode

abbrev HandlerBody (σ α : Type) := Routine (Buffered (Issued σ)) NtStatus α

abbrev Handler (σ : Type) := Request → HandlerBody σ Unit

section
variable {σ α : Type}

def readUshort (offset : ℕ) : HandlerBody σ (BitVec 16) := do
  let b0 ← Buffered.readByte offset
  let b1 ← Buffered.readByte (offset + 1)
  pure (b1 ++ b0)

def readUlong (offset : ℕ) : HandlerBody σ (BitVec 32) := do
  let b0 ← Buffered.readByte offset
  let b1 ← Buffered.readByte (offset + 1)
  let b2 ← Buffered.readByte (offset + 2)
  let b3 ← Buffered.readByte (offset + 3)
  pure (ulongOfBytes ⟨b0, b1, b2, b3⟩)

def writeUlong (offset : ℕ) (w : BitVec 32) : HandlerBody σ Unit :=
  Buffered.copyTo offset 4 [(bytesOfUlong w).b0, (bytesOfUlong w).b1, (bytesOfUlong w).b2,
    (bytesOfUlong w).b3]

def trace : List ℕ → HandlerBody σ Unit
  | [] => pure ()
  | offset :: offsets => do
    let _ ← readUlong offset
    trace offsets

def onHost (x : Routine (Host σ) NtStatus α) : HandlerBody σ α :=
  Buffered.onDevice fun s => ((x s.host).1, { s with host := (x s.host).2 })

def extension : HandlerBody σ (Host σ) := onHost Routine.get

def onCamera (x : Routine σ NtStatus α) : Routine (Host σ) NtStatus α := fun s =>
  ((x s.camera).1, { s with camera := (x s.camera).2 })

def setError (error : PlReturnCode) : HandlerBody σ Unit :=
  Buffered.onDevice (Routine.modify fun s => { s with error })

def fail (status : NtStatus) (error : PlReturnCode) : HandlerBody σ α := do
  setError error
  Routine.throw status

def orFail (x : Routine (Host σ) NtStatus α) (error : PlReturnCode) : HandlerBody σ α := do
  match ← onHost x.attempt with
  | .ok a => pure a
  | .error status => fail status error

def checkRemoved : HandlerBody σ Unit := do
  let s ← extension
  if s.core.dev.ses.removed then fail statusDeviceRemoved PlError.deviceNotFound.code else pure ()

def echoStatus (request : Request) : HandlerBody σ Unit :=
  if 4 ≤ request.outputLength then do
    writeUlong 0 PlError.success.code
    Buffered.setInformation 4
  else pure ()

/-- The stubs. -/
def notImplemented : Handler σ := fun _ => Routine.throw statusNotImplemented

end

variable {σ : Type} (d : Services σ)

def sdkVersion : Handler σ := notImplemented
def serialNumber : Handler σ := notImplemented
def setCancelTimeout : Handler σ := notImplemented
def getVendorName : Handler σ := notImplemented
def getModelName : Handler σ := notImplemented
def getDcamVersion : Handler σ := notImplemented
def getNamesLength : Handler σ := notImplemented

def getLastError : Handler σ := fun _ => do
  let lastError ← onHost fun s =>
    let s := if s.core.dev.ses.removed then { s with lastError := PlError.deviceNotFound.code } else s
    (.ok s.lastError, s)
  writeUlong 0 lastError
  Buffered.setInformation 4
  trace [0]

def subwindowGet : Handler σ := fun _ => do
  checkRemoved
  let s ← extension
  let w ← orFail (onCamera (getCurrentSubwindow d.registers s.csrBaseAddress s.modes))
    PlError.hardware.code
  writeUlong 0x00 PlError.success.code
  writeUlong 0x04 (BitVec.ofNat 32 w.scale)
  writeUlong 0x10 (BitVec.ofNat 32 w.width)
  writeUlong 0x08 (BitVec.ofNat 32 w.offsetX)
  writeUlong 0x0C (BitVec.ofNat 32 w.offsetY)
  writeUlong 0x14 (BitVec.ofNat 32 w.height)
  Buffered.setInformation 24
  trace [0x04, 0x10, 0x14, 0x08, 0x0C]

def subwindowSet : Handler σ := fun request => do
  checkRemoved
  let scale ← readUlong 0x04
  let width ← readUlong 0x10
  let height ← readUlong 0x14
  let offsetX ← readUlong 0x08
  let offsetY ← readUlong 0x0C
  let s ← extension
  if scale = 1 ∧ offsetX = 0 ∧ offsetY = 0 ∧
      s.modes.any fun e => width.toNat = e.defaultWidth ∧ height.toNat = e.defaultHeight then
    echoStatus request
  else fail statusInvalidParameter plErrorOutOfRange

def getPixelFormat : Handler σ := fun _ => do
  checkRemoved
  let s ← extension
  let pixelFormat ← orFail
    (onCamera (getCurrentPixelFormat d.registers s.csrBaseAddress s.modes)) PlError.hardware.code
  writeUlong 0 (BitVec.ofNat 32 pixelFormat)
  Buffered.setInformation 4

def setPixelFormat : Handler σ := fun request => do
  let pixelFormat ← readUlong 0
  checkRemoved
  let s ← extension
  if s.core.pinOpen ∨ s.core.slot.isSome then
    fail statusInvalidDeviceState PlError.invalidState.code
  else
    match ← onHost (onCamera
        (selectPixelFormat d.registers s.csrBaseAddress s.modes pixelFormat.toNat)).attempt with
    | .ok _ => echoStatus request
    | .error status =>
      if status = Dcam.statusNotFound then fail statusInvalidParameter PlError.invalidCount.code
      else fail status PlError.hardware.code

def imageFlip : Handler σ := notImplemented

def invalidateCurrentFormat : Handler σ := fun _ => pure ()

def getChannel : Handler σ := notImplemented
def getPacketSize : Handler σ := notImplemented

/-- A verb past its checks, or rejected by them. -/
def slotVerb (verb : Verb) : Handler σ := fun request => do
  let s ← extension
  match s.core.handler request.fileObject verb with
  | .done reply =>
    if ntSuccess reply.status then echoStatus request else fail reply.status reply.error.code
  | .goes pc =>
    match ← onHost fun s => (.ok (d.carryOut pc s).1, (d.carryOut pc s).2) with
    | .ok _ => echoStatus request
    | .error (status, error) => fail status error.code

def prepareVideo : Handler σ := fun request => do
  let frameCount ← readUlong 4
  slotVerb d (.prepareVideo frameCount.toNat) request

def startVideo : Handler σ := fun request => do
  let flags ← readUlong 0
  slotVerb d (.startVideo flags.toNat) request

def startImager : Handler σ := fun request => do
  let mode ← readUlong 0
  slotVerb d (.startImager mode.toNat) request

def prepareImager : Handler σ := slotVerb d .prepareImager
def stopVideo : Handler σ := slotVerb d .stop
def stopImager : Handler σ := slotVerb d .stop
def unprepareVideo : Handler σ := slotVerb d .unprepare
def unprepareImager : Handler σ := slotVerb d .unprepare
def unmapVideoFrame : Handler σ := slotVerb d .unmapVideoFrame
def swTrigger : Handler σ := slotVerb d .swTrigger

def mapVideoFrame : Handler σ := fun request => do
  let frameCount ← readUlong 0
  let frameSize ← readUlong 4
  let baseVA ← readUlong 8
  slotVerb d (.mapVideoFrame ⟨frameCount.toNat, frameSize.toNat, baseVA.toNat⟩) request

def registerEvent : Handler σ := fun request => do
  let handle ← readUlong 4
  let type ← readUlong 8
  slotVerb d (.registerEvent handle.toNat type.toNat) request

def unregisterEvent : Handler σ := fun request => do
  let handle ← readUlong 4
  let type ← readUlong 8
  slotVerb d (.unregisterEvent handle.toNat type.toNat) request

def getTransferInfo : Handler σ := fun _ => do
  let s ← extension
  match s.core.slot with
  | none => fail statusUnsuccessful PlError.notStreaming.code
  | some c => do
    writeUlong 4 c.ring.currentFrameIndex
    writeUlong 8 c.ring.totalFrameCount
    writeUlong 0 PlError.success.code
    Buffered.setInformation 12
    trace [4, 8]

def ioctlInitialize : Handler σ := notImplemented
def propertyGet : Handler σ := notImplemented
def propertySet : Handler σ := notImplemented
def triggerSet : Handler σ := notImplemented
def strobeSet : Handler σ := notImplemented

def intervalToFps (interval offset : ℕ) : HandlerBody σ Unit :=
  if interval = 0 then fail statusDeviceDataError plError
  else do
    orFail (onCamera d.saveFloatingPointState) plError
    writeUlong offset (d.fps interval)

/-- `PhotonicIoctlEnumFrameRate`. An index past the last rate is reported in the buffer. -/
def enumFrameRate : Handler σ := fun _ => do
  checkRemoved
  let index ← readUlong 4
  let s ← extension
  match ← onHost (onCamera
      (Dcam.enumFrameRate d.registers s.csrBaseAddress s.modes index.toNat)).attempt with
  | .error status =>
    if status = statusNoMoreEntries then do
      writeUlong 0 plErrorOutOfRange
      Buffered.setInformation 12
    else fail status PlError.hardware.code
  | .ok interval => do
    intervalToFps d interval 8
    writeUlong 0 PlError.success.code
    Buffered.setInformation 12
    trace [4]

def setFrameRate : Handler σ := fun request => do
  checkRemoved
  let index ← readUlong 4
  let s ← extension
  if s.core.pinOpen ∨ s.core.slot.isSome then
    fail statusInvalidDeviceState PlError.invalidState.code
  else
    match ← onHost (onCamera
        (Dcam.setFrameRate d.registers s.csrBaseAddress s.modes index.toNat)).attempt with
    | .ok _ => echoStatus request
    | .error status =>
      if status = statusNoMoreEntries then fail statusInvalidParameter PlError.invalidCount.code
      else fail status PlError.hardware.code

def getFrameRate : Handler σ := fun _ => do
  checkRemoved
  let s ← extension
  let interval ← orFail (onCamera (Dcam.getFrameRate d.registers s.csrBaseAddress s.modes))
    plErrorNoPreview
  intervalToFps d interval 8
  writeUlong 0 PlError.success.code
  writeUlong 4 0
  Buffered.setInformation 12

/-- `PhotonicMailboxRegisterAccess` -/
def registerAccess (isWrite : Bool) : Handler σ := fun request =>
  if if isWrite then request.inputLength < 16
      else request.inputLength < 12 ∨ request.outputLength < 16 then
    fail statusBufferTooSmall PlError.invalidCount.code
  else do
    let flags ← readUshort 4
    if flags ≠ 0xFFFF then fail statusInvalidParameter plError
    else do
      let address ← readUlong 8
      if isWrite then do
        let value ← readUlong 12
        orFail (onCamera (d.registers.write address.toNat value)) PlError.hardware.code
      else do
        let value ← orFail (onCamera (d.registers.read address.toNat)) PlError.hardware.code
        writeUlong 12 value
        Buffered.setInformation 16
        trace [8, 12]

/-- The loop that swaps the `ULONG`s of the buffer, from an offset on. -/
def swapUlongsFrom (offset : ℕ) : ℕ → HandlerBody σ Unit
  | 0 => pure ()
  | n + 1 => do
    let w ← readUlong offset
    writeUlong offset (rtlUlongByteSwap w)
    swapUlongsFrom (offset + 4) n

def blockAccess (x : σ → NtStatus × σ) : Routine σ NtStatus Unit := fun s =>
  (if ntSuccess (x s).1 then .ok () else .error (x s).1, (x s).2)

def blockData (x : σ → (NtStatus × List Byte) × σ) : Routine σ NtStatus (List Byte) := fun s =>
  (if ntSuccess (x s).1.1 then .ok (x s).1.2 else .error (x s).1.1, (x s).2)

/-- `PhotonicMailboxRawPacket` -/
def rawPacket : Handler σ := fun request =>
  let address := 0xFFFF <<< 32 ||| mailboxBaseCsrAddr
  if request.inputLength % 4 ≠ 0 ∨ request.outputLength % 4 ≠ 0 then
    fail statusInvalidBufferSize PlError.invalidCount.code
  else if maxPacketBytes < request.inputLength ∨ maxPacketBytes < request.outputLength then
    fail statusInvalidBufferSize PlError.invalidCount.code
  else do
    swapUlongsFrom 0 (request.inputLength / 4)
    let packet ← Buffered.readBytes 0 request.inputLength
    orFail (onCamera (blockAccess (writeBlock d.blocks address packet))) PlError.hardware.code
    if 0 < request.outputLength then do
      let data ← orFail (onCamera (blockData (readBlock d.blocks address request.outputLength)))
        PlError.hardware.code
      Buffered.copyTo 0 request.outputLength data
      swapUlongsFrom 0 (request.outputLength / 4)
      Buffered.setInformation request.outputLength
    else pure ()

def mailbox : Handler σ := fun request => do
  let command ← readUlong 0
  checkRemoved
  if command = 0x0000 then Routine.throw statusNotImplemented
  else if command = 0x0010 then registerAccess d true request
  else if command = 0x0014 then registerAccess d false request
  else if 0x1000 ≤ command.toNat then rawPacket d request
  else fail statusInvalidParameter plError

structure DispatchEntry (σ : Type) where
  ioControlCode : BitVec 32
  handler : Handler σ
  minInputLength : ℕ
  minOutputLength : ℕ
  requires32BitCaller : Bool

def fileDeviceUnknown : ℕ := 0x22

/-- `CTL_CODE` of a function, with `METHOD_BUFFERED` and `FILE_ANY_ACCESS`. -/
def ctlCode (function : ℕ) : BitVec 32 := BitVec.ofNat 32 (fileDeviceUnknown <<< 16 ||| function <<< 2)

/-- `g_PhotonicIoctlDispatch` -/
def ioctlDispatch : List (DispatchEntry σ) :=
  [⟨ctlCode 0x806, sdkVersion, 0, 0, false⟩,
   ⟨ctlCode 0x807, sdkVersion, 0, 0, false⟩,
   ⟨ctlCode 0x809, serialNumber, 12, 12, false⟩,
   ⟨ctlCode 0x80B, setCancelTimeout, 12, 0, false⟩,
   ⟨ctlCode 0x80C, getVendorName, 0, 0, false⟩,
   ⟨ctlCode 0x80D, getModelName, 0, 0, false⟩,
   ⟨ctlCode 0x835, subwindowGet d, 0, 24, false⟩,
   ⟨ctlCode 0x836, subwindowSet, 24, 0, false⟩,
   ⟨ctlCode 0x837, startVideo d, 4, 0, false⟩,
   ⟨ctlCode 0x838, stopVideo d, 0, 0, false⟩,
   ⟨ctlCode 0x839, registerEvent d, 12, 0, true⟩,
   ⟨ctlCode 0x83A, unregisterEvent d, 12, 0, true⟩,
   ⟨ctlCode 0x83B, getTransferInfo, 0, 12, false⟩,
   ⟨ctlCode 0x83C, prepareVideo d, 8, 0, false⟩,
   ⟨ctlCode 0x83D, unprepareVideo d, 0, 0, false⟩,
   ⟨ctlCode 0x83E, mapVideoFrame d, 12, 0, true⟩,
   ⟨ctlCode 0x83F, unmapVideoFrame d, 0, 0, false⟩,
   ⟨ctlCode 0x845, ioctlInitialize, 0, 0, false⟩,
   ⟨ctlCode 0x846, propertyGet, 12, 12, false⟩,
   ⟨ctlCode 0x847, propertySet, 12, 0, false⟩,
   ⟨ctlCode 0x848, triggerSet, 20, 4, false⟩,
   ⟨ctlCode 0x849, strobeSet, 20, 4, false⟩,
   ⟨ctlCode 0x84A, swTrigger d, 0, 0, false⟩,
   ⟨ctlCode 0x84B, enumFrameRate d, 12, 12, false⟩,
   ⟨ctlCode 0x84C, setFrameRate d, 12, 0, false⟩,
   ⟨ctlCode 0x84D, imageFlip, 8, 0, false⟩,
   ⟨ctlCode 0x84F, getFrameRate d, 0, 12, false⟩,
   ⟨ctlCode 0x850, getChannel, 0, 4, false⟩,
   ⟨ctlCode 0x854, getPacketSize, 0, 4, false⟩,
   ⟨ctlCode 0x856, getPixelFormat d, 0, 4, false⟩,
   ⟨ctlCode 0x857, setPixelFormat d, 4, 0, false⟩,
   ⟨ctlCode 0x858, prepareImager d, 8, 0, false⟩,
   ⟨ctlCode 0x859, unprepareImager d, 0, 0, false⟩,
   ⟨ctlCode 0x85A, startImager d, 4, 0, false⟩,
   ⟨ctlCode 0x85B, stopImager d, 0, 0, false⟩,
   ⟨ctlCode 0x85C, getDcamVersion, 0, 4, false⟩,
   ⟨ctlCode 0x85D, getNamesLength, 0, 0, false⟩,
   ⟨ctlCode 0x85E, invalidateCurrentFormat, 0, 0, false⟩,
   ⟨ctlCode 0x8FE, getLastError, 0, 4, false⟩,
   ⟨ctlCode 0xDC6, mailbox d, 4, 0, false⟩]

def ioctlLookup (ioControlCode : BitVec 32) : Option (DispatchEntry σ) :=
  (ioctlDispatch d).find? fun entry => entry.ioControlCode = ioControlCode

/-- What an IRP is completed with, and what its buffer and the extension have come to. -/
structure Completion (σ : Type) where
  status : NtStatus
  information : ℕ
  bytes : ℕ → Byte
  accesses : List Access
  host : Host σ

/-- The contract of the table, and the handler. -/
def DispatchEntry.run (entry : DispatchEntry σ) (is32BitCaller : Bool) (request : Request) :
    HandlerBody σ Unit :=
  if entry.requires32BitCaller && !is32BitCaller then Routine.throw statusNotSupported
  else if request.inputLength < entry.minInputLength ∨
      request.outputLength < entry.minOutputLength then
    fail statusBufferTooSmall PlError.invalidCount.code
  else entry.handler request

def Issued.commit (s : Issued σ) : Host σ :=
  if s.error ≠ PlError.success.code then { s.host with lastError := s.error } else s.host

/-- `PhotonicDeviceControl`: `none` is a request that is forwarded to the class driver. -/
def deviceControl (code : BitVec 32) (is32BitCaller : Bool) (request : Request) (memory : ℕ → Byte)
    (host : Host σ) : Option (Completion σ) :=
  if code.toNat / 2 ^ 16 ≠ fileDeviceUnknown then none
  else match ioctlLookup d code with
    | none => none
    | some entry =>
      if !host.core.registered then none
      else
        let issued : Buffered (Issued σ) := ⟨⟨host, PlError.success.code⟩, memory, [], 0⟩
        let (result, s) := entry.run is32BitCaller request issued
        some
          { status := match result with
              | .ok _ => statusSuccess
              | .error status => status
            information := s.information
            bytes := s.bytes
            accesses := s.accesses
            host := s.device.commit }

end Ioctl
end Photonic
