import Photonic.Lib.Heap
import Photonic.Device.State

namespace Photonic

def statusDeviceBusy : NtStatus := 0x80000011
def statusUnsuccessful : NtStatus := 0xC0000001
def statusInvalidDeviceState : NtStatus := 0xC0000184
def statusDeviceRemoved : NtStatus := 0xC00002B6

@[simp] theorem ntSuccess_statusDeviceBusy : ntSuccess statusDeviceBusy = false := by decide
@[simp] theorem ntSuccess_statusInvalidDeviceState : ntSuccess statusInvalidDeviceState = false := by
  decide
@[simp] theorem ntSuccess_statusDeviceRemoved : ntSuccess statusDeviceRemoved = false := by decide
@[simp] theorem ntSuccess_statusInsufficientResources :
    ntSuccess statusInsufficientResources = false := by decide

/-- `PHOTONIC_CAPTURE` as a block of memory, with the IRPs of its descriptors. -/
structure CaptureBlocks where
  capture : ℕ
  irps : List ℕ
  deriving DecidableEq, Repr

def CaptureBlocks.blocks (c : CaptureBlocks) : List ℕ := c.capture :: c.irps

/-- A `PHOTONIC_STREAM_EXTENSION`: of a stream object, which the class driver allocates, or
the one embedded in a capture slot. -/
inductive StreamExtension
  | pin (stream : ℕ)
  | slot (block : ℕ)
  deriving DecidableEq, Repr

structure VideoStream where
  object : ℕ
  capture : CaptureBlocks
  deriving DecidableEq, Repr

/-- `PHOTONIC_IOCTL_CAPTURE`: its block, the handle it was prepared on, the state of its
stream and its engine. -/
structure IoctlCapture where
  block : ℕ
  fileObject : ℕ
  streamState : KsState
  capture : CaptureBlocks
  deriving DecidableEq, Repr

/-- The fields of `PHOTONIC_DEVICE_EXTENSION` by which the stream pin and the capture slot exclude each
other. Every operation holds `InterfaceMutex` from its first look at them to its last write. -/
structure Extension where
  removed : Bool
  videoStream : Option VideoStream
  ioctlCapture : Option IoctlCapture
  activeCaptureStream : Option StreamExtension
  heap : Heap
  leaked : List ℕ

/-- Which allocations of a creation succeed: the engine's, and the IRP of each descriptor. -/
structure CreateAnswer where
  capture : Bool
  irp : ℕ → Bool

/-- `PhotonicCapturePoolAllocate`: the IRPs of the first `n` descriptors, up to one that is
not to be had, and whether all are there. -/
def poolAllocate (ok : ℕ → Bool) (h : Heap) : ℕ → (List ℕ × Bool) × Heap
  | 0 => (([], true), h)
  | n + 1 =>
    match poolAllocate ok h n with
    | ((irps, false), h) => ((irps, false), h)
    | ((irps, true), h) =>
      match h.alloc (ok n) with
      | (none, h) => ((irps, false), h)
      | (some irp, h) => ((irps ++ [irp], true), h)

def captureCreate (a : CreateAnswer) (h : Heap) : Option CaptureBlocks × Heap :=
  match h.alloc a.capture with
  | (none, h) => (none, h)
  | (some capture, h) =>
    match poolAllocate a.irp h captureFrameCount with
    | ((irps, true), h) => (some ⟨capture, irps⟩, h)
    | ((irps, false), h) => (none, (h.freeAll irps).free capture)

namespace Extension

def captureDestroy (x : Extension) (c : CaptureBlocks) (quarantined : Bool) : Extension :=
  if quarantined then { x with leaked := c.blocks ++ x.leaked }
  else { x with heap := (x.heap.freeAll c.irps).free c.capture }

/-- What an open meets: whether the stream object has the video stream's number, the
allocations, and whether the format's `biSizeImage` contradicts its geometry. -/
structure OpenAnswer where
  videoNumber : Bool
  create : CreateAnswer
  sizeMismatch : Bool

def streamOpen (x : Extension) (stream : ℕ) (a : OpenAnswer) : NtStatus × Extension :=
  if !a.videoNumber then (statusInvalidParameter, x)
  else if x.removed then (statusDeviceRemoved, x)
  else if x.activeCaptureStream ≠ none then (statusDeviceBusy, x)
  else match captureCreate a.create x.heap with
    | (none, heap) => (statusInsufficientResources, { x with heap })
    | (some capture, heap) =>
      if a.sizeMismatch then
        (statusInvalidParameter, { x with heap }.captureDestroy capture false)
      else
        (statusSuccess, { x with
          heap, videoStream := some ⟨stream, capture⟩
          activeCaptureStream := some (.pin stream) })

/-- `PhotonicStreamClose`, after its stop: `quarantined` tells what the stop could not
flush. The class driver closes the stream it opened. -/
def streamClose (x : Extension) (quarantined : Bool) : Extension :=
  match x.videoStream with
  | none => x
  | some v =>
    { x.captureDestroy v.capture quarantined with videoStream := none, activeCaptureStream := none }

def captureRelease (x : Extension) (quarantined : Bool) : Extension :=
  match x.ioctlCapture with
  | none => x
  | some c =>
    let x := { x with ioctlCapture := none, activeCaptureStream := none }
    let x := x.captureDestroy c.capture quarantined
    if quarantined then { x with leaked := c.block :: x.leaked }
    else { x with heap := x.heap.free c.block }

/-- What a prepare meets: whether the release of the old slot's engine leaves frames
quarantined, the slot's allocation, whether the camera's mode is read and its coding has a
known depth, and the engine's allocations. -/
structure PrepareAnswer where
  quarantined : Bool
  slot : Bool
  mode : NtStatus
  knownDepth : Bool
  create : CreateAnswer

/-- `PhotonicIoctlCapturePrepare` behind its checks: a slot is built and published. -/
def prepareSlot (x : Extension) (fileObject : ℕ) (a : PrepareAnswer) : NtStatus × Extension :=
  match x.heap.alloc a.slot with
  | (none, heap) => (statusInsufficientResources, { x with heap })
  | (some block, heap) =>
    if !ntSuccess a.mode then (a.mode, { x with heap := heap.free block })
    else if !a.knownDepth then (statusInvalidDeviceState, { x with heap := heap.free block })
    else match captureCreate a.create heap with
      | (none, heap) => (statusInsufficientResources, { x with heap := heap.free block })
      | (some capture, heap) =>
        (statusSuccess, { x with
          heap, ioctlCapture := some ⟨block, fileObject, .stop, capture⟩
          activeCaptureStream := some (.slot block) })

/-- The slot-state rules of the prepare. -/
def Repreparable (c : IoctlCapture) (fileObject : ℕ) (allowReprepare : Bool) : Prop :=
  allowReprepare = true ∧ c.streamState = .stop ∧ c.fileObject = fileObject

instance (c : IoctlCapture) (fileObject : ℕ) (allowReprepare : Bool) :
    Decidable (Repreparable c fileObject allowReprepare) :=
  inferInstanceAs (Decidable (_ ∧ _ ∧ _))

def prepareFree (x : Extension) (fileObject : ℕ) (a : PrepareAnswer) : NtStatus × Extension :=
  if x.activeCaptureStream ≠ none then (statusDeviceBusy, x) else x.prepareSlot fileObject a

def prepare (x : Extension) (fileObject : ℕ) (allowReprepare : Bool) (a : PrepareAnswer) :
    NtStatus × Extension :=
  if x.removed then (statusDeviceRemoved, x)
  else match x.ioctlCapture with
    | none => x.prepareFree fileObject a
    | some c =>
      if Repreparable c fileObject allowReprepare then
        (x.captureRelease a.quarantined).prepareFree fileObject a
      else (statusInvalidDeviceState, x)

/-- `PhotonicIoctlCaptureIsOwner`: file objects are compared by their address. -/
def IsOwner (x : Extension) (fileObject : ℕ) : Prop :=
  ∃ c ∈ x.ioctlCapture, c.fileObject = fileObject

instance (x : Extension) (fileObject : ℕ) : Decidable (x.IsOwner fileObject) :=
  match h : x.ioctlCapture with
  | none => .isFalse fun ⟨_, hc, _⟩ => by rw [h] at hc; cases hc
  | some c =>
    decidable_of_iff (c.fileObject = fileObject)
      ⟨fun heq => ⟨c, h, heq⟩, fun ⟨_, hc, heq⟩ => by rw [h] at hc; cases hc; exact heq⟩

/-- `PhotonicIoctlCaptureUnprepareRequest` -/
def unprepare (x : Extension) (fileObject : ℕ) (quarantined : Bool) : NtStatus × Extension :=
  if x.IsOwner fileObject then (statusSuccess, x.captureRelease quarantined)
  else (statusUnsuccessful, x)

def cleanup (x : Extension) (fileObject : ℕ) (quarantined : Bool) : Extension :=
  if x.IsOwner fileObject then x.captureRelease quarantined else x

/-- The slot's stream goes to a state, by a start, a stop or the work item. -/
def setStreamState (x : Extension) (st : KsState) : Extension :=
  { x with ioctlCapture := x.ioctlCapture.map fun c => { c with streamState := st } }

end Extension
end Photonic
