import Photonic.Engine.Renewal
import Photonic.Interface.Extension
import Photonic.Ioctl.Events
import Photonic.Session.FrontEnd

namespace Photonic

inductive MdlOp
  | lock
  | unlock
  | free
  deriving DecidableEq, Repr

/-- The MDLs the driver allocated, each named by its number, and what it did with them. -/
structure Mdls where
  next : ℕ
  history : ℕ → List MdlOp

namespace Mdls

def empty : Mdls := ⟨0, fun _ => []⟩

/-- `IoAllocateMdl` -/
def alloc (m : Mdls) : Mdls := { m with next := m.next + 1 }

def record (m : Mdls) (id : ℕ) (ops : List MdlOp) : Mdls :=
  { m with history := Function.update m.history id (m.history id ++ ops) }

end Mdls

/-- `PHOTONIC_IOCTL_CAPTURE`, without its stream and engine. `taken` are the ring indices
acquired since the ring was last initialised, `shots` those delivered with success since
it was last mapped. -/
structure Slot where
  fileObject : ℕ
  imageSize : ℕ
  events : Events
  taken : List ℕ
  shots : List ℕ

namespace Slot

def ring (s : Slot) : Ring := s.events.ring

def setRing (s : Slot) (r : Ring) : Slot := { s with events := { s.events with ring := r } }

def fresh (fileObject imageSize : ℕ) : Slot :=
  ⟨fileObject, imageSize, ⟨.fresh, 0, 0, [], [], [], .idle, .empty, [], []⟩, [], []⟩

/-- `PhotonicIoctlFramesAcquire` -/
def acquire (s : Slot) : Option (Cookie × Option ℕ) × Slot :=
  match s.ring.framesAcquire with
  | none => (none, s)
  | some (answer, ring) => (some answer, { s.setRing ring with taken := s.taken ++ [answer.1] })

/-- `PhotonicIoctlFramesDeliver`. The pass over the events is a step of its own. -/
def deliver (oneShot : Bool) (s : Slot) (d : Delivery) : Slot :=
  { s with
    events := (s.events.step (.deliver oneShot d)).getD
      { s.events with ring := s.ring.framesDeliver oneShot d }
    shots := if Ring.index d.cookie < maxVideoFrames ∧ ntSuccess d.status = true then
        s.shots ++ [Ring.index d.cookie] else s.shots }

/-- The two callbacks `PhotonicIoctlCapturePrepare` gives the engine. -/
def callbacks : Callbacks (Option Slot) where
  acquire
    | none => (none, none)
    | some s => (s.acquire.1, some s.acquire.2)
  deliver ses s d := s.map fun s => s.deliver ses.oneShot d

def restart (s : Slot) (r : Ring) : Slot := { s.setRing r with taken := [] }

section
variable (s : Slot) (r : Ring)

@[simp] theorem setRing_ring : (s.setRing r).ring = r := rfl
@[simp] theorem setRing_fileObject : (s.setRing r).fileObject = s.fileObject := rfl
@[simp] theorem setRing_taken : (s.setRing r).taken = s.taken := rfl
@[simp] theorem setRing_shots : (s.setRing r).shots = s.shots := rfl
@[simp] theorem restart_ring : (s.restart r).ring = r := rfl
@[simp] theorem restart_taken : (s.restart r).taken = [] := rfl
@[simp] theorem restart_shots : (s.restart r).shots = s.shots := rfl
@[simp] theorem deliver_fileObject (b : Bool) (d : Delivery) :
    (s.deliver b d).fileObject = s.fileObject := rfl
@[simp] theorem deliver_taken (b : Bool) (d : Delivery) : (s.deliver b d).taken = s.taken := rfl

@[simp] theorem deliver_ring (b : Bool) (d : Delivery) :
    (s.deliver b d).ring = s.ring.framesDeliver b d := by
  simp only [deliver, ring, Events.step]
  split
  · rfl
  · split <;> rfl

end
end Slot

/-- `PL_RETURN_CODE`, of what these handlers report. -/
inductive PlError
  | success
  | deviceNotFound
  | notPrepared
  | notStreaming
  | invalidState
  | invalidCount
  | badFrameSize
  | lockFailed
  | outOfMemory
  | noResources
  | hardware
  | formatUnavailable
  deriving DecidableEq, Repr

def statusNotSupported : NtStatus := 0xC00000BB
def statusBufferTooSmall : NtStatus := 0xC0000023
def statusDeviceNotReady : NtStatus := 0xC00000A3
def statusNotFound : NtStatus := 0xC0000225

@[simp] theorem ntSuccess_statusUnsuccessful : ntSuccess statusUnsuccessful = false := by decide
@[simp] theorem ntSuccess_statusNotSupported : ntSuccess statusNotSupported = false := by decide
@[simp] theorem ntSuccess_statusBufferTooSmall : ntSuccess statusBufferTooSmall = false := by decide
@[simp] theorem ntSuccess_statusNotFound : ntSuccess statusNotFound = false := by decide

/-- `PHOTONIC_MAP_VIDEO_FRAME_IN32` -/
structure MapArgs where
  frameCount : ℕ
  frameSize : ℕ
  baseVA : ℕ
  deriving DecidableEq, Repr

/-- The slot verbs. Stop and unprepare are the same routine in both families. -/
inductive Verb
  | prepareVideo (frameCount : ℕ)
  | prepareImager
  | startVideo (flags : ℕ)
  | startImager (mode : ℕ)
  | stop
  | unprepare
  | mapVideoFrame (args : MapArgs)
  | unmapVideoFrame
  | registerEvent (handle type : ℕ)
  | unregisterEvent (handle type : ℕ)
  | swTrigger
  | getTransferInfo
  deriving DecidableEq, Repr

/-- Whether the request meets its entry in the dispatch table. -/
inductive Contract
  | met
  | not32BitCaller
  | shortBuffer
  deriving DecidableEq, Repr

/-- `PHOTONIC_GET_TRANSFER_INFO_OUT` -/
structure TransferInfo where
  currentFrameIndex : BitVec 32
  totalFrameCount : BitVec 32
  deriving DecidableEq, Repr

/-- What a request is completed with. -/
structure Reply where
  status : NtStatus
  error : PlError
  info : Option TransferInfo
  deriving DecidableEq, Repr

inductive ReleaseNext
  | finish
  | build (fileObject : ℕ)
  deriving DecidableEq, Repr

inductive StopNext
  | finish
  | unmap
  | release (next : ReleaseNext)
  deriving DecidableEq, Repr

/-- What a `PhotonicIoctlFramesUnmap` is part of. -/
inductive UnmapNext
  | unmapped
  | map (args : MapArgs)
  | mapFailed (status : NtStatus) (error : PlError)
  | release (next : ReleaseNext)
  deriving DecidableEq, Repr

/-- What a `PhotonicCapturePump` of a handler is part of. -/
inductive PumpNext
  | start
  | arm
  | mapped
  deriving DecidableEq, Repr

inductive VerbPc
  | idle
  | build (fileObject : ℕ)
  | setOneShot (oneShot pumpRing : Bool)
  | setPumpRing (pumpRing : Bool)
  | requeue (next : PumpNext)
  | pump (next : PumpNext)
  | pumped (next : PumpNext)
  | start (pumpRing : Bool)
  | started
  | stop (next : StopNext)
  | quarantine (next : ReleaseNext)
  | unmap (i : ℕ) (force : Bool) (next : UnmapNext)
  | validate (args : MapArgs)
  | allocate (args : MapArgs) (i : ℕ)
  | lock (args : MapArgs) (i : ℕ) (mdl : Mdl)
  | publish (args : MapArgs)
  | listen
  | arm
  | register (handle type : ℕ)
  | insert
  | unregister (handle type : ℕ)
  | dereference
  | flush (next : ReleaseNext)
  | flushing (next : ReleaseNext)
  | destroy (next : ReleaseNext)
  | finish (status : NtStatus) (error : PlError)
  deriving DecidableEq, Repr

/-- What a handler does with its request: complete it at once, or go to work on it. -/
inductive Handling
  | done (reply : Reply)
  | goes (pc : VerbPc)
  deriving DecidableEq, Repr

/-- The device with its capture slot. `pinOpen`: the DirectShow stream owns the engine.
`registered`: IOCTLs reach the extension. -/
structure IoctlDevice where
  dev : Device
  slot : Option Slot
  pinOpen : Bool
  registered : Bool
  pc : VerbPc
  mdls : Mdls

def reject (status : NtStatus) (error : PlError) : Handling := .done ⟨status, error, none⟩

def Slot.checkOwner (c : Slot) (fileObject : ℕ) (h : Handling) : Handling :=
  if c.fileObject = fileObject then h else reject statusUnsuccessful .success

namespace IoctlDevice
variable (s : IoctlDevice) (fileObject : ℕ)

/-- `PhotonicIoctlCapturePrepare`, up to its first side effect. -/
def capturePrepare (allowReprepare : Bool) : Handling :=
  if s.dev.ses.removed then reject statusDeviceRemoved .deviceNotFound
  else match s.slot with
    | none => .goes (.build fileObject)
    | some c =>
      if !allowReprepare || s.dev.ses.streamState ≠ .stop || c.fileObject ≠ fileObject then
        reject statusInvalidDeviceState .invalidState
      else .goes (.stop (.release (.build fileObject)))

def prepareVideo (frameCount : ℕ) : Handling :=
  if frameCount = 0 ∨ maxVideoFrames < frameCount then reject statusInvalidParameter .invalidCount
  else s.capturePrepare fileObject true

def prepareImager : Handling := s.capturePrepare fileObject false

def captureStart (startValue : ℕ) (pumpRing : Bool) : Handling :=
  if s.dev.ses.removed then reject statusDeviceRemoved .deviceNotFound
  else match s.slot with
    | none => reject statusUnsuccessful .notStreaming
    | some c => c.checkOwner fileObject <|
      if !s.dev.eng.cap.draining && (s.dev.ses.oneShot ≠ (startValue = 0 : Bool) ||
          c.ring.pumpRingOnStart ≠ pumpRing) then
        reject statusInvalidDeviceState .invalidState
      else .goes (.setOneShot (startValue = 0) pumpRing)

def stopRequest : Handling :=
  match s.slot with
  | none => reject statusUnsuccessful .success
  | some c => c.checkOwner fileObject (.goes (.stop .finish))

def unprepareRequest : Handling :=
  match s.slot with
  | none => reject statusUnsuccessful .success
  | some c => c.checkOwner fileObject (.goes (.stop (.release .finish)))

def mapVideoFrame (args : MapArgs) : Handling :=
  if s.dev.ses.removed then reject statusDeviceRemoved .deviceNotFound
  else match s.slot with
    | none => reject statusInvalidDeviceState .notPrepared
    | some c => c.checkOwner fileObject <|
      if c.ring.mappedFrameCount ≠ 0 then reject statusInvalidDeviceState .invalidState
      else if s.dev.eng.cap.hasQuarantinedFrames then reject statusDeviceNotReady .invalidState
      else .goes (.unmap 0 false (.map args))

def unmapVideoFrame : Handling :=
  match s.slot with
  | none => .done ⟨statusSuccess, .success, none⟩
  | some c => c.checkOwner fileObject (.goes (.stop .unmap))

def registerEvent (handle type : ℕ) : Handling :=
  match s.slot with
  | none => reject statusUnsuccessful .notStreaming
  | some c =>
    if c.ring.mappedFrameCount = 0 then reject statusUnsuccessful .notStreaming
    else c.checkOwner fileObject <|
      if type ≠ 0 ∧ type ≠ 1 then reject statusInvalidParameter .formatUnavailable
      else .goes (.register handle type)

def unregisterEvent (handle type : ℕ) : Handling :=
  match s.slot with
  | none => reject statusNotFound .success
  | some c => c.checkOwner fileObject (.goes (.unregister handle type))

def swTrigger : Handling :=
  if s.dev.ses.removed then reject statusDeviceRemoved .deviceNotFound
  else match s.slot with
    | none => reject statusUnsuccessful .notPrepared
    | some c => c.checkOwner fileObject
      (.goes (if s.dev.ses.streamState = .run then .requeue .arm else .listen))

def getTransferInfo : Handling :=
  match s.slot with
  | none => reject statusUnsuccessful .notStreaming
  | some c => .done ⟨statusSuccess, .success,
    some ⟨c.ring.currentFrameIndex, c.ring.totalFrameCount⟩⟩

def handler : Verb → Handling
  | .prepareVideo frameCount => s.prepareVideo fileObject frameCount
  | .prepareImager => s.prepareImager fileObject
  | .startVideo flags => s.captureStart fileObject flags true
  | .startImager mode => s.captureStart fileObject mode false
  | .stop => s.stopRequest fileObject
  | .unprepare => s.unprepareRequest fileObject
  | .mapVideoFrame args => s.mapVideoFrame fileObject args
  | .unmapVideoFrame => s.unmapVideoFrame fileObject
  | .registerEvent handle type => s.registerEvent fileObject handle type
  | .unregisterEvent handle type => s.unregisterEvent fileObject handle type
  | .swTrigger => s.swTrigger fileObject
  | .getTransferInfo => s.getTransferInfo

/-- `PhotonicDeviceControl`: the contract of the dispatch table, then the handler. -/
def deviceControl (contract : Contract) (verb : Verb) : Handling :=
  match contract with
  | .not32BitCaller => reject statusNotSupported .success
  | .shortBuffer => reject statusBufferTooSmall .invalidCount
  | .met => s.handler fileObject verb

end IoctlDevice
end Photonic
