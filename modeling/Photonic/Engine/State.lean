import Photonic.Lib.Machine
import Photonic.Lib.Pool
import Mathlib.Data.Multiset.AddSub
import Mathlib.Data.Fintype.Basic
import Mathlib.Logic.Function.Basic

namespace Photonic

/-- NTSTATUS, a signed 32-bit value. -/
abbrev NtStatus := BitVec 32

/-- `NT_SUCCESS`: the sign bit is clear. -/
def ntSuccess (status : NtStatus) : Bool := !status.msb

def statusSuccess : NtStatus := 0x00000000
def statusInvalidParameter : NtStatus := 0xC000000D
def statusInsufficientResources : NtStatus := 0xC000009A
def statusIoTimeout : NtStatus := 0xC00000B5
def statusCancelled : NtStatus := 0xC0000120

@[simp] theorem ntSuccess_statusSuccess : ntSuccess statusSuccess = true := by decide
@[simp] theorem ntSuccess_statusCancelled : ntSuccess statusCancelled = false := by decide
@[simp] theorem ntSuccess_statusInvalidParameter : ntSuccess statusInvalidParameter = false := by
  decide

/-- The front-end's opaque `ULONG_PTR`: a read SRB pointer or a ring index. -/
abbrev Cookie := ℕ

abbrev captureFrameCount : ℕ := 4

instance : NeZero captureFrameCount := ⟨by decide⟩

abbrev FrameId := Fin captureFrameCount

inductive FrameState
  | free
  | attaching
  | completedWhileAttaching
  | pending
  | detaching
  | detachFailed
  deriving DecidableEq, Repr

/-- `PHOTONIC_CAPTURE_FRAME`, without the linkage (see `freeList`, `pendingList`). -/
structure Frame where
  state : FrameState
  cookie : Cookie
  completionStatus : NtStatus
  deriving DecidableEq, Repr

/-- The part of `PHOTONIC_CAPTURE` that `Lock` guards or that is read at
DISPATCH_LEVEL. `chunkEpoch` counts the times the chunk MDLs were freed. -/
structure Capture where
  pumpActive : Bool
  pumpAgain : Bool
  frameBytes : ℕ
  resourceHandle : ℕ
  chunkEpoch : ℕ
  listening : Bool
  firstAttachDone : Bool
  frames : FrameId → Frame
  freeList : List FrameId
  pendingList : List FrameId
  draining : Bool
  inFlightIrps : ℤ
  drainDone : Bool
  deriving DecidableEq

/-- The control work item of the device extension. `workItems` is what
`IoQueueWorkItem` queued and no system worker has started; `refused` records that
the remove lock refused a work request. -/
structure ControlWork where
  controlWorkQueued : Bool
  workItems : ℕ
  refused : Bool
  deriving DecidableEq, Repr

/-- What the bus driver keeps about a descriptor's buffer. `armed`: it may still
raise the frame callback of the current attach. `frameDone`: it has raised it. -/
structure BusFrame where
  armed : Bool
  frameDone : Bool
  frameStatus : NtStatus
  handle : ℕ
  chunkEpoch : ℕ
  deriving DecidableEq, Repr

structure Delivery where
  cookie : Cookie
  bytesUsed : ℕ
  status : NtStatus
  deriving DecidableEq, Repr

/-- Who called a routine, hence what happens when it returns: a completion routine
goes on to account its IRP, the other callers have nothing left in the engine. -/
inductive Caller
  | completion
  | handler
  | control
  deriving DecidableEq, Repr

/-- `PhotonicCapturePump` and `PhotonicCapturePumpLap`. -/
inductive PumpPc
  | elect
  | top
  | claim (i : ℕ)
  | acquire (i : ℕ) (d : FrameId)
  | giveBack (d : FrameId)
  | reject (i : ℕ) (d : FrameId) (cookie : Cookie)
  | rejectDeliver (i : ℕ) (cookie : Cookie)
  | publish (i : ℕ) (d : FrameId) (cookie : Cookie)
  | handBack (cookie : Cookie)
  | beginAttach (i : ℕ) (d : FrameId)
  | bottom
  deriving DecidableEq, Repr

/-- `PhotonicCaptureRequestWork`. -/
inductive RequestPc
  | exchange
  | acquireLock
  | queue
  | undo
  deriving DecidableEq, Repr

/-- `PhotonicCaptureWorker`, up to `InterfaceMutex`. -/
inductive WorkerPc
  | clear
  | wait
  deriving DecidableEq, Repr

/-- One concurrent activity, by the point it has reached. -/
inductive Pc
  | attachAtBus (d : FrameId)
  | detachAtBus (d : FrameId)
  | attachComplete (d : FrameId) (status : NtStatus) (cookie : Cookie)
  | attachFailed (cookie : Cookie) (status : NtStatus)
  | attachLive (needListen : Bool)
  | irpDone
  | irpDoneTest
  | irpDoneSignal
  | beginDetach (caller : Caller) (d : FrameId)
  | detachComplete (d : FrameId) (status : NtStatus) (cookie : Cookie) (bytes : ℕ)
      (completion : NtStatus)
  | detachDeliver (cookie : Cookie) (bytes : ℕ) (completion : NtStatus)
  | releaseDeliver (cookie : Cookie)
  | pump (caller : Caller) (pc : PumpPc)
  | requestWork (caller : Caller) (pc : RequestPc)
  | worker (pc : WorkerPc)
  deriving DecidableEq, Repr

/-- The engine with everything that runs on it. `acquired` and `delivered` record
the calls of the two front-end callbacks. Whatever runs concurrently is one element of `pool`: an activation of the
driver by the point it has reached, or an IRP at the bus driver, which turns into an activation of
its completion routine. -/
structure Engine where
  cap : Capture
  work : ControlWork
  bus : FrameId → BusFrame
  acquired : List Cookie
  delivered : List Delivery
  pool : Multiset Pc
  deriving DecidableEq

namespace Capture

def setFrame (c : Capture) (d : FrameId) (f : Frame) : Capture :=
  { c with frames := Function.update c.frames d f }

def setState (c : Capture) (d : FrameId) (state : FrameState) : Capture :=
  c.setFrame d { c.frames d with state }

/-- `RemoveEntryList` of a descriptor on the pending list. -/
def unlinkPending (c : Capture) (d : FrameId) : Capture :=
  { c with pendingList := c.pendingList.erase d }

def recycle (c : Capture) (d : FrameId) : Capture :=
  { c.setFrame d { c.frames d with state := .free, cookie := 0 } with
    freeList := c.freeList ++ [d] }

/-- State Free, `InsertHeadList(FreeList)`: the lap returns its descriptor. -/
def putBack (c : Capture) (d : FrameId) : Capture :=
  { c.setState d .free with freeList := d :: c.freeList }

def takeForDetach (c : Capture) (d : FrameId) (completion : NtStatus) : Capture :=
  (c.unlinkPending d).setFrame d { c.frames d with state := .detaching, completionStatus := completion }

def publish (c : Capture) (d : FrameId) : Capture :=
  { c.setState d .attaching with pendingList := c.pendingList ++ [d] }

def countIrp (c : Capture) : Capture := { c with inFlightIrps := c.inFlightIrps + 1 }

def hasQuarantinedFrames (c : Capture) : Bool :=
  (List.finRange captureFrameCount).any fun d => (c.frames d).state = .detachFailed

def cookieQuarantined (c : Capture) (cookie : Cookie) : Bool :=
  (List.finRange captureFrameCount).any fun d =>
    (c.frames d).state = .detachFailed && (c.frames d).cookie = cookie

theorem hasQuarantinedFrames_iff (c : Capture) :
    c.hasQuarantinedFrames = true ↔ ∃ d, (c.frames d).state = .detachFailed := by
  simp [hasQuarantinedFrames]

/-- The status a detach completes its read with: a failed frame is not delivered
as a good one. -/
def frameCompletion (frameStatus : NtStatus) : NtStatus :=
  if ntSuccess frameStatus then statusSuccess else frameStatus

/-- The first fully attached descriptor of the pending list, as the quiesce's
claim loop finds it. -/
def firstPending (c : Capture) : Option FrameId :=
  c.pendingList.find? fun d => (c.frames d).state = .pending

end Capture

namespace Engine

def spawn (e : Engine) (pc : Pc) : Engine := { e with pool := pc ::ₘ e.pool }

/-- Return to the caller of a pump or of a work request. -/
def ret (e : Engine) : Caller → Engine
  | .completion => e.spawn .irpDone
  | _ => e

/-- The Deliver callback. -/
def deliver (e : Engine) (cookie : Cookie) (bytesUsed : ℕ) (status : NtStatus) : Engine :=
  { e with delivered := e.delivered ++ [⟨cookie, bytesUsed, status⟩] }

end Engine
end Photonic
