import Photonic.Engine.State

namespace Photonic

/-- What the environment decides in a step: the status the bus driver completes an
IRP with, what the Acquire callback produces (a cookie with its MDL's byte count,
if it has an MDL), and whether the remove lock is granted. -/
structure Oracle where
  status : NtStatus
  acquired : Option (Cookie × Option ℕ)
  granted : Bool
  deriving DecidableEq, Repr

namespace Engine

def setBus (e : Engine) (d : FrameId) (b : BusFrame) : Engine :=
  { e with bus := Function.update e.bus d b }

/-- The bus driver completes an attach IRP: an attach whose frame is already done
does not fail. The completion routine reads its locals. -/
def attachAtBus (e : Engine) (d : FrameId) (status : NtStatus) : Option Engine :=
  if ntSuccess status then
    some (e.spawn (.attachComplete d status (e.cap.frames d).cookie))
  else if (e.bus d).frameDone then none
  else some ((e.setBus d { e.bus d with armed := false }).spawn
    (.attachComplete d status (e.cap.frames d).cookie))

def attachComplete (e : Engine) (d : FrameId) (status : NtStatus) (cookie : Cookie) : Engine :=
  if !ntSuccess status then
    { e with cap := (e.cap.unlinkPending d).recycle d }.spawn (.attachFailed cookie status)
  else if (e.cap.frames d).state = .completedWhileAttaching then
    { e with cap := e.cap.takeForDetach d (Capture.frameCompletion (e.bus d).frameStatus) }.spawn
      (.beginDetach .completion d)
  else if e.cap.draining then
    { e with cap := e.cap.setState d .pending }.spawn .irpDone
  else
    { e with cap := e.cap.setState d .pending }.spawn (.attachLive !e.cap.listening)

/-- `KeSetEvent(FirstAttachDone)`, then the work request when nothing listens. -/
def attachLive (e : Engine) (needListen : Bool) : Engine :=
  { e with cap := { e.cap with firstAttachDone := true } }.spawn
    (if needListen then .requestWork .completion .exchange else .irpDone)

/-- `PhotonicCapturePumpIrpDone`: the interlocked decrement. -/
def irpDone (e : Engine) : Engine :=
  let e' := { e with cap := { e.cap with inFlightIrps := e.cap.inFlightIrps - 1 } }
  if e'.cap.inFlightIrps = 0 then e'.spawn .irpDoneTest else e'

/-- `PhotonicCapturePumpIrpDone`: the read of `Draining`. -/
def irpDoneTest (e : Engine) : Engine :=
  if e.cap.draining then e.spawn .irpDoneSignal else e

/-- `PhotonicCapturePumpBeginDetach`: the IRP goes to the bus driver. -/
def beginDetach (e : Engine) (d : FrameId) : Engine :=
  (e.setBus d { e.bus d with armed := false }).spawn (.detachAtBus d)

def detachAtBus (e : Engine) (d : FrameId) (status : NtStatus) : Engine :=
  let completion := (e.cap.frames d).completionStatus
  let bytes := if ntSuccess completion then e.cap.frameBytes else 0
  e.spawn (.detachComplete d status (e.cap.frames d).cookie bytes completion)

/-- The locked regions of `PhotonicCapturePumpDetachComplete`. -/
def detachComplete (e : Engine) (d : FrameId) (status : NtStatus) (cookie : Cookie) (bytes : ℕ)
    (completion : NtStatus) : Engine :=
  if !ntSuccess status then { e with cap := e.cap.setState d .detachFailed }.spawn .irpDone
  else { e with cap := e.cap.recycle d }.spawn (.detachDeliver cookie bytes completion)

/-- `PhotonicCapturePumpIsochCallback`, raised by the bus driver for a frame whose
attach was issued and whose detach was not. -/
def isochCallback (e : Engine) (d : FrameId) (frameStatus : NtStatus) : Option Engine :=
  if !(e.bus d).armed then none
  else
    let e := e.setBus d { e.bus d with armed := false, frameDone := true, frameStatus := frameStatus }
    match (e.cap.frames d).state with
    | .pending => some ({ e with
        cap := (e.cap.takeForDetach d (Capture.frameCompletion frameStatus)).countIrp }.spawn
          (.beginDetach .handler d))
    | .attaching => some { e with cap := e.cap.setState d .completedWhileAttaching }
    | _ => some e

def lapNext (i : ℕ) : PumpPc := if i + 1 < captureFrameCount then .claim (i + 1) else .bottom

/-- `PhotonicCapturePumpPrime`, of what the engine reads back. -/
def prime (c : Capture) (d : FrameId) (cookie : Cookie) : Capture :=
  c.setFrame d { c.frames d with cookie := cookie, completionStatus := statusSuccess }

/-- The Acquire callback and the length guard behind it. -/
def lapAcquire (e : Engine) (k : Caller) (i : ℕ) (d : FrameId) :
    Option (Cookie × Option ℕ) → Engine
  | none => e.spawn (.pump k (.giveBack d))
  | some (cookie, mdl) =>
    let e := { e with acquired := e.acquired ++ [cookie] }
    if mdl.all fun bytes => bytes < e.cap.frameBytes then
      e.spawn (.pump k (.reject i d cookie))
    else { e with cap := prime e.cap d cookie }.spawn (.pump k (.publish i d cookie))

def pump (e : Engine) (o : Oracle) (k : Caller) : PumpPc → Engine
  | .elect =>
    if e.cap.pumpActive then { e with cap := { e.cap with pumpAgain := true } }.ret k
    else { e with cap := { e.cap with pumpActive := true } }.spawn (.pump k .top)
  | .top => { e with cap := { e.cap with pumpAgain := false } }.spawn (.pump k (.claim 0))
  | .claim i =>
    if e.cap.draining then e.spawn (.pump k .bottom)
    else match e.cap.freeList with
      | [] => e.spawn (.pump k .bottom)
      | d :: rest => { e with cap := { e.cap with freeList := rest } }.spawn (.pump k (.acquire i d))
  | .acquire i d => e.lapAcquire k i d o.acquired
  | .giveBack d => { e with cap := e.cap.putBack d }.spawn (.pump k .bottom)
  | .reject i d cookie => { e with cap := e.cap.putBack d }.spawn (.pump k (.rejectDeliver i cookie))
  | .rejectDeliver i cookie =>
    (e.deliver cookie 0 statusInvalidParameter).spawn (.pump k (lapNext i))
  | .publish i d cookie =>
    if e.cap.draining then { e with cap := e.cap.putBack d }.spawn (.pump k (.handBack cookie))
    else { e with cap := (e.cap.publish d).countIrp }.spawn (.pump k (.beginAttach i d))
  | .handBack cookie => (e.deliver cookie 0 statusCancelled).spawn (.pump k .bottom)
  | .beginAttach i d =>
    ((e.setBus d ⟨true, false, statusSuccess, e.cap.resourceHandle, e.cap.chunkEpoch⟩).spawn
      (.attachAtBus d)).spawn (.pump k (lapNext i))
  | .bottom =>
    if e.cap.pumpAgain then e.spawn (.pump k .top)
    else { e with cap := { e.cap with pumpActive := false } }.ret k

def requestWork (e : Engine) (o : Oracle) (k : Caller) : RequestPc → Engine
  | .exchange =>
    if e.work.controlWorkQueued then e.ret k
    else { e with work := { e.work with controlWorkQueued := true } }.spawn
      (.requestWork k .acquireLock)
  | .acquireLock =>
    if o.granted then e.spawn (.requestWork k .queue)
    else { e with work := { e.work with refused := true } }.spawn (.requestWork k .undo)
  | .queue => { e with work := { e.work with workItems := e.work.workItems + 1 } }.ret k
  | .undo => { e with work := { e.work with controlWorkQueued := false } }.ret k

/-- One step of an activity that has been taken out of the pool. A worker that
waits for `InterfaceMutex` goes on in the control executor. Each spinlock-held region, interlocked operation, event
operation, callback and IRP hand-over is one step. A completion routine that `IoCallDriver` runs
inline is one of the interleavings. -/
def exec (e : Engine) (o : Oracle) : Pc → Option Engine
  | .attachAtBus d => e.attachAtBus d o.status
  | .detachAtBus d => some (e.detachAtBus d o.status)
  | .attachComplete d status cookie => some (e.attachComplete d status cookie)
  | .attachFailed cookie status => some ((e.deliver cookie 0 status).spawn .irpDone)
  | .attachLive needListen => some (e.attachLive needListen)
  | .irpDone => some e.irpDone
  | .irpDoneTest => some e.irpDoneTest
  | .irpDoneSignal => some { e with cap := { e.cap with drainDone := true } }
  | .beginDetach _ d => some (e.beginDetach d)
  | .detachComplete d status cookie bytes completion =>
    some (e.detachComplete d status cookie bytes completion)
  | .detachDeliver cookie bytes completion =>
    some ((e.deliver cookie bytes completion).spawn (.pump .completion .elect))
  | .releaseDeliver cookie => some (e.deliver cookie 0 statusCancelled)
  | .pump k pc => some (e.pump o k pc)
  | .requestWork k pc => some (e.requestWork o k pc)
  | .worker .clear =>
    some ({ e with work := { e.work with controlWorkQueued := false } }.spawn (.worker .wait))
  | .worker .wait => none

inductive Region
  | setDraining
  | clearDraining
  | setListening (listening : Bool)
  | clearFirstAttachDone
  | clearDrainDone
  | claimPending
  | releaseQuarantined (d : FrameId)
  | setGeometry (frameBytes : ℕ)
  | setResourceHandle (handle : ℕ)
  | freeChunkMdls
  | takeWorker
  deriving DecidableEq, Repr

/-- The claim of one attached descriptor by the quiesce. -/
def claimPending (e : Engine) : Engine :=
  match e.cap.firstPending with
  | none => e
  | some d => { e with cap := (e.cap.takeForDetach d statusCancelled).countIrp }.spawn
      (.beginDetach .control d)

def region (e : Engine) : Region → Option Engine
  | .setDraining => some { e with cap := { e.cap with draining := true } }
  | .clearDraining => some { e with cap := { e.cap with draining := false } }
  | .setListening b => some { e with cap := { e.cap with listening := b } }
  | .clearFirstAttachDone => some { e with cap := { e.cap with firstAttachDone := false } }
  | .clearDrainDone => some { e with cap := { e.cap with drainDone := false } }
  | .claimPending => some e.claimPending
  | .releaseQuarantined d =>
    if (e.cap.frames d).state = .detachFailed then
      some ({ e with cap := e.cap.recycle d }.spawn (.releaseDeliver (e.cap.frames d).cookie))
    else none
  | .setGeometry frameBytes => some { e with cap := { e.cap with frameBytes := frameBytes } }
  | .setResourceHandle handle => some { e with cap := { e.cap with resourceHandle := handle } }
  | .freeChunkMdls => some { e with cap := { e.cap with chunkEpoch := e.cap.chunkEpoch + 1 } }
  | .takeWorker =>
    if .worker .wait ∈ e.pool then some { e with pool := e.pool.erase (.worker .wait) } else none

inductive Act
  | run (pc : Pc) (o : Oracle)
  | callback (d : FrameId) (frameStatus : NtStatus)
  | callPump (caller : Caller)
  | callRequestWork (caller : Caller)
  | startWork
  | control (region : Region)
  deriving DecidableEq, Repr

def step (e : Engine) : Act → Option Engine
  | .run pc o => if pc ∈ e.pool then { e with pool := e.pool.erase pc }.exec o pc else none
  | .callback d frameStatus => e.isochCallback d frameStatus
  | .callPump k => if k = .completion then none else some (e.spawn (.pump k .elect))
  | .callRequestWork k =>
    if k = .completion then none else some (e.spawn (.requestWork k .exchange))
  | .startWork =>
    if e.work.workItems = 0 then none
    else some ({ e with work := { e.work with workItems := e.work.workItems - 1 } }.spawn
      (.worker .clear))
  | .control r => e.region r

/-- `PhotonicCaptureCreate`: every descriptor is on the free list and the engine
idles with `Draining` set. -/
def create : Engine where
  cap :=
    { pumpActive := false, pumpAgain := false, frameBytes := 0, resourceHandle := 0,
      chunkEpoch := 0, listening := false, firstAttachDone := false,
      frames := fun _ => ⟨.free, 0, statusSuccess⟩, freeList := List.finRange captureFrameCount,
      pendingList := [], draining := true, inFlightIrps := 0, drainDone := false }
  work := ⟨false, 0, false⟩
  bus := fun _ => ⟨false, false, statusSuccess, 0, 0⟩
  acquired := []
  delivered := []
  pool := 0

def machine : Machine Engine Act := ⟨create, step⟩

end Engine
end Photonic
