import Photonic.Engine.Step

namespace Photonic

/-- What becomes of one synchronous IRB (`PhotonicSubmitIrbEx`). -/
inductive IrbOutcome
  | notConnected
  | noMemory
  | removeLockRefused
  | completed (status : NtStatus)
  | abandoned
  deriving DecidableEq, Repr

def statusDeviceNotConnected : NtStatus := 0xC000009D
def statusDeletePending : NtStatus := 0xC0000056

namespace IrbOutcome

/-- The status `PhotonicSubmitIrb` returns. -/
def status : IrbOutcome → NtStatus
  | notConnected => statusDeviceNotConnected
  | noMemory => statusInsufficientResources
  | removeLockRefused => statusDeletePending
  | completed st => st
  | abandoned => statusIoTimeout

/-- `*Submitted`: the request reached the bus driver. -/
def submitted : IrbOutcome → Bool
  | notConnected => false
  | noMemory => false
  | removeLockRefused => false
  | completed _ => true
  | abandoned => true

def succeeded (o : IrbOutcome) : Bool := ntSuccess o.status

theorem eq_completed_of_succeeded {o : IrbOutcome} (h : o.succeeded = true) :
    ∃ st, o = .completed st ∧ ntSuccess st = true := by
  cases o with
  | completed st => exact ⟨st, rfl, h⟩
  | _ => exact absurd h (by decide)

theorem submitted_of_succeeded {o : IrbOutcome} (h : o.succeeded = true) : o.submitted = true := by
  obtain ⟨st, rfl, -⟩ := eq_completed_of_succeeded h
  rfl

end IrbOutcome

/-- The three isochronous resources of a session. -/
inductive Resource
  | channel
  | bandwidth
  | handle
  deriving DecidableEq, Repr

/-- Who called `PhotonicCaptureTeardownShutdown`. -/
inductive ShutdownRet
  | stop
  | work
  deriving DecidableEq, Repr

/-- Who called `PhotonicCaptureTeardownQuiesce`. -/
inductive QuiesceRet
  | shutdown (r : ShutdownRet)
  | work
  deriving DecidableEq, Repr

/-- Who called `PhotonicCaptureTeardownReleaseSessionResources`. -/
inductive ReleaseRet
  | shutdown (r : ShutdownRet)
  | settled
  | startRetry (expectBuffers : Bool)
  | startFail
  deriving DecidableEq, Repr

/-- Who called `PhotonicCaptureEnsureListen`. -/
inductive ListenRet
  | start (expectBuffers : Bool)
  | work
  | trigger
  deriving DecidableEq, Repr

inductive QuiescePc
  | enter
  | isochStop
  | clearListening
  | claim
  | claimed
  | clearEvent
  | poll
  | wait
  | check
  | pumpIdle
  | clearFirst
  deriving DecidableEq, Repr

/-- `flushed` is the local of the source. -/
inductive ReleasePc
  | enter
  | isochStop
  | clearListening
  | free (r : Resource) (flushed : Bool)
  | guard (flushed : Bool)
  | scan (i : ℕ)
  | deliver (i : ℕ)
  | freeMdls
  deriving DecidableEq, Repr

inductive ListenPc
  | check
  | wait
  | recheck
  | submit
  | set
  deriving DecidableEq, Repr

inductive StartPc
  | enter
  | retried
  | configure
  | setupChunks
  | allocate (r : Resource)
  | setIsochChannel
  | clearFirst
  | clearCancel
  | undrain
  | pump
  | pumped
  | enable
  | publish
  deriving DecidableEq, Repr

inductive StopPc
  | publish
  | test
  | pumpIdle
  | retry
  | drainReads
  deriving DecidableEq, Repr

inductive ShutdownPc
  | publish
  | disable
  | drainReads
  deriving DecidableEq, Repr

inductive WorkPc
  | enter
  | exchange
  | test
  | decide
  | pump
  | pumped
  | enable
  | retry
  | requested
  deriving DecidableEq, Repr

/-- The holder of `InterfaceMutex`: none, a control request between two calls into the
engine, or the routine it is in. -/
inductive Ctl
  | free
  | held
  | start (expectBuffers : Bool) (pc : StartPc)
  | stop (pc : StopPc)
  | shutdown (r : ShutdownRet) (pc : ShutdownPc)
  | quiesce (r : QuiesceRet) (pc : QuiescePc)
  | release (r : ReleaseRet) (pc : ReleasePc)
  | listen (r : ListenRet) (pc : ListenPc)
  | work (pc : WorkPc)
  deriving DecidableEq, Repr

/-- `KSSTATE` -/
inductive KsState
  | stop
  | acquire
  | pause
  | run
  deriving DecidableEq, Repr

/-- The fields of `PHOTONIC_CAPTURE`, the stream and the device extension that only
the holder of `InterfaceMutex` writes, and the interlocked `CancelPending`. -/
structure Session where
  channelAllocated : Bool
  bandwidthAllocated : Bool
  resourceAllocated : Bool
  channel : ℕ
  bandwidthHandle : ℕ
  isoEnabled : Bool
  enableWanted : Bool
  controlRetries : ℕ
  cancelPending : Bool
  streamState : KsState
  oneShot : Bool
  removed : Bool
  deriving DecidableEq, Repr

/-- What the bus driver holds: the grants whose free was not submitted yet, the handles
whose context is listening, the abandoned listens it may still perform, the handles
whose free completed with success since they were granted, and the abandoned allocations
it may still grant. -/
structure Bus where
  granted : Resource → List ℕ
  listening : List ℕ
  lateListens : List ℕ
  flushed : List ℕ
  lateGrants : List Resource

/-- The engine's memory: in use, freed, or leaked by `PhotonicCaptureDestroy`. -/
inductive Life
  | alive
  | freed
  | leaked
  deriving DecidableEq, Repr

structure Device where
  eng : Engine
  ses : Session
  bus : Bus
  ctl : Ctl
  life : Life

namespace Session

def allocated (s : Session) : Resource → Bool
  | .channel => s.channelAllocated
  | .bandwidth => s.bandwidthAllocated
  | .handle => s.resourceAllocated

def setAllocated (s : Session) : Resource → Bool → Session
  | .channel, b => { s with channelAllocated := b }
  | .bandwidth, b => { s with bandwidthAllocated := b }
  | .handle, b => { s with resourceAllocated := b }

end Session

namespace Bus

def grant (b : Bus) (r : Resource) (v : ℕ) : Bus :=
  let b := { b with granted := Function.update b.granted r (v :: b.granted r) }
  if r = .handle then
    { b with listening := b.listening.filter (· ≠ v), flushed := b.flushed.filter (· ≠ v) }
  else b

/-- An allocation nobody waits for any more is granted. Its value reaches nobody, so what is
known of a context that had this handle before stays. -/
def grantLate (b : Bus) (r : Resource) (v : ℕ) : Bus :=
  { b with
    granted := Function.update b.granted r (v :: b.granted r)
    lateGrants := b.lateGrants.erase r }

/-- The bus driver has seen the free of a grant. -/
def free (b : Bus) (r : Resource) (v : ℕ) : Bus :=
  { b with granted := Function.update b.granted r ((b.granted r).erase v) }

/-- `REQUEST_ISOCH_STOP` completed with success. -/
def stop (b : Bus) (h : ℕ) : Bus := { b with listening := b.listening.filter (· ≠ h) }

/-- `REQUEST_ISOCH_LISTEN` took effect. -/
def listen (b : Bus) (h : ℕ) : Bus := { b with listening := h :: b.listening }

/-- `REQUEST_ISOCH_FREE_RESOURCES` completed with success: the context is gone and its
leftover DMA mappings are flushed. -/
def flush (b : Bus) (h : ℕ) : Bus :=
  { b.stop h with flushed := h :: b.flushed }

end Bus
end Photonic
