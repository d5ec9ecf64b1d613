import Photonic.Session.FrontEnd
import Photonic.Stream.Rundown

namespace Photonic

/-- `Srb->Command` of a request on the data path. -/
inductive SrbCommand
  | readData
  | writeData
  | other
deriving DecidableEq, Repr

/-- What the driver reads of a request. `dataBufferArray` tells whether the pointer is set, `mdl`
is the byte count of `Irp->MdlAddress`, if there are an IRP and an MDL. `frameInfo` tells whether
the `Size` of the stream header leaves room for a `KS_FRAME_INFO` behind it: a client that
connected without extended headers sends plain ones. -/
structure Srb where
  command : SrbCommand
  numberOfBuffers : ℕ
  dataBufferArray : Bool
  mdl : Option ℕ
  frameExtent : ℕ
  frameInfo : Bool
deriving DecidableEq, Repr

/-- `PHOTONIC_SRB_EXTENSION`. `own` tells whether the back-pointer `Srb` is that of the request
the extension belongs to. -/
structure SrbExtension where
  queued : Bool
  own : Bool
deriving DecidableEq, Repr

/-- A completed request. `frameNumber` is the number it claims or reports, if its stream header is
filled in, and `frameInfo` tells whether the header has room for it. -/
structure Completion where
  srb : Cookie
  bytesWritten : ℕ
  status : NtStatus
  frameNumber : Option (BitVec 32)
  frameInfo : Bool
deriving DecidableEq, Repr

/-- `PictureNumber` of the `KS_FRAME_INFO`, where it is filled in. -/
def Completion.pictureNumber (c : Completion) : Option (BitVec 32) :=
  if c.frameInfo then c.frameNumber else none

/-- The requests and the fields of the stream extension that the engine's callbacks use. What was
received and completed is on record. -/
structure Reads where
  srbs : Cookie → Srb
  ext : Cookie → SrbExtension
  /-- `Srb->Irp->Cancel` -/
  irpCancel : Cookie → Bool
  pendingReads : List Cookie
  frameNumber : BitVec 32
  received : List Cookie
  completed : List Completion

namespace Reads

def completedCount (f : Reads) (srb : Cookie) : ℕ := (f.completed.map Completion.srb).count srb

/-- The class driver has handed the request in and has not got it back. -/
def outstanding (f : Reads) (srb : Cookie) : Prop := f.completedCount srb < f.received.count srb

instance (f : Reads) (srb : Cookie) : Decidable (f.outstanding srb) :=
  inferInstanceAs (Decidable (_ < _))

/-- A request that is completed without a stream header. -/
def complete (f : Reads) (srb : Cookie) (status : NtStatus) : Reads :=
  { f with completed := f.completed ++ [⟨srb, 0, status, none, false⟩] }

def completeRead (f : Reads) (srb : Cookie) (bytesWritten : ℕ) (status : NtStatus) : Reads :=
  let frameNumber := if bytesWritten ≠ 0 then f.frameNumber + 1 else f.frameNumber
  { f with
    frameNumber := frameNumber
    completed := f.completed ++
      [⟨srb, bytesWritten, status, some frameNumber, (f.srbs srb).frameInfo⟩] }

def deliverFrame (f : Reads) (d : Delivery) : Reads :=
  let used := if ntSuccess d.status then min d.bytesUsed (f.srbs d.cookie).frameExtent else 0
  f.completeRead d.cookie used d.status

def setQueued (f : Reads) (srb : Cookie) (queued : Bool) : Reads :=
  { f with ext := Function.update f.ext srb { f.ext srb with queued } }

/-- `InsertTailList(PendingReads)` -/
def park (f : Reads) (srb : Cookie) : Reads :=
  { f.setQueued srb true with pendingReads := f.pendingReads ++ [srb] }

/-- `RemoveHeadList` or `RemoveEntryList`. -/
def unpark (f : Reads) (srb : Cookie) : Reads :=
  { f.setQueued srb false with pendingReads := f.pendingReads.erase srb }

def acquireBuffer (f : Reads) : Option (Cookie × Option ℕ) × Reads :=
  match f.pendingReads with
  | [] => (none, f)
  | srb :: _ => (some (srb, (f.srbs srb).mdl), f.unpark srb)

def headWithoutMdl (f : Reads) : Option Cookie :=
  f.pendingReads.head?.filter fun srb => (f.srbs srb).mdl.isNone

def callbacks : Callbacks Reads where
  acquire := acquireBuffer
  deliver _ f d := f.deliverFrame d

end Reads

namespace Pin

def statusNotImplemented : NtStatus := 0xC0000002
def statusNotSupported : NtStatus := 0xC00000BB
def statusDeviceRemoved : NtStatus := 0xC00002B6

/-- Where a handler is, behind the step it took last. A step is one hold of `PendingLock`, one
notification of the class driver, or one call into the engine. A call of the pump is an activity of
the engine, and its handler leaves the gate without waiting for it. -/
inductive Thread
  -- `PhotonicStreamReceiveDataPacket`
  | enter (srb : Cookie)
  | refuse (srb : Cookie)
  | answer (srb : Cookie)
  | init (srb : Cookie)
  | reject (srb : Cookie)
  | park (srb : Cookie)
  | fail (srb : Cookie) (status : NtStatus)
  | pump
  -- `PhotonicCancelPacket`
  | cancelEnter (srb : Cookie)
  | claim (srb : Cookie)
  | cancelled (srb : Cookie)
  | notify
  -- `PhotonicStreamLeaveDataPath`
  | leave
  | signal
  -- `PhotonicStreamAcquireBuffer` has a read without an MDL
  | skipped (srb : Cookie)
  -- `PhotonicStreamCompletePendingReads`, of a flush and of the holder of `InterfaceMutex`
  | flush
  | flushed (srb : Cookie)
  | drained (srb : Cookie)
deriving DecidableEq, Repr

/-- The request a handler holds and is to complete or to park. -/
def Thread.holds : Thread → Option Cookie
  | .enter srb | .refuse srb | .answer srb | .init srb | .reject srb | .park srb | .fail srb _
  | .cancelled srb | .skipped srb | .flushed srb | .drained srb => some srb
  | .pump | .cancelEnter _ | .claim _ | .notify | .leave | .signal | .flush => none

def Thread.isSkipped : Thread → Bool
  | .skipped _ => true
  | _ => false

def Thread.isDrained : Thread → Bool
  | .drained _ => true
  | _ => false

/-- How far `PhotonicStreamClose` is. -/
inductive Closer
  | opened
  | waiting
  | idle
  | stopping
  | destroyed
  | closed
deriving DecidableEq, Repr

end Pin

/-- An open capture pin. -/
structure Pin where
  dev : Device
  reads : Reads
  gate : Stream.Rundown.Gate
  closer : Pin.Closer
  threads : Multiset Pin.Thread

namespace Pin

/-- `Stream->StreamState`. The close publishes KSSTATE_STOP with the rundown. -/
def streamState (s : Pin) : KsState := if s.gate.rundown then .stop else s.dev.ses.streamState

def spawn (s : Pin) (t : Thread) : Pin := { s with threads := t ::ₘ s.threads }

def setReads (s : Pin) (f : Reads) : Pin := { s with reads := f }

def feed (s : Pin) (a : Device.Act) : Option Pin :=
  (s.dev.feed Reads.callbacks s.reads a).map fun p => { s with dev := p.1, reads := p.2 }

def enterDataPath (s : Pin) : Bool × Pin :=
  let r := Stream.Rundown.enterDataPath s.gate
  (r.1, { s with gate := r.2 })

/-- The locked part of `PhotonicStreamReceiveReadData` that decides a read's fate. -/
def parkRead (s : Pin) (srb : Cookie) : Pin :=
  if s.dev.ses.removed then s.spawn (.fail srb statusDeviceRemoved)
  else if s.streamState = .stop then s.spawn (.fail srb statusCancelled)
  else if s.reads.irpCancel srb then s.spawn (.fail srb statusCancelled)
  else (s.setReads (s.reads.park srb)).spawn .pump

/-- The locked part of `PhotonicStreamCancelRead`. -/
def claimRead (s : Pin) (srb : Cookie) : Pin :=
  if (s.reads.ext srb).queued && (s.reads.ext srb).own then
    (s.setReads (s.reads.unpark srb)).spawn (.cancelled srb)
  else if s.streamState = .stop then s.spawn .leave
  else s.spawn .notify

/-- One step of a handler that has been taken out of `threads`. -/
def threadStep (s : Pin) : Thread → Option Pin
  | .enter srb =>
    let (entered, s) := s.enterDataPath
    some (s.spawn (if !entered then .refuse srb
      else if (s.reads.srbs srb).command = .readData then .init srb else .answer srb))
  | .refuse srb => some (s.setReads (s.reads.complete srb statusCancelled))
  | .answer srb =>
    some ((s.setReads (s.reads.complete srb (if (s.reads.srbs srb).command = .writeData then
      statusNotSupported else statusNotImplemented))).spawn .leave)
  | .init srb =>
    let r := s.reads.srbs srb
    some ((s.setReads { s.reads with ext := Function.update s.reads.ext srb ⟨false, true⟩ }).spawn
      (if r.numberOfBuffers ≠ 1 || !r.dataBufferArray then .reject srb else .park srb))
  | .reject srb => some ((s.setReads (s.reads.complete srb statusInvalidParameter)).spawn .leave)
  | .park srb => some (s.parkRead srb)
  | .fail srb status => some ((s.setReads (s.reads.completeRead srb 0 status)).spawn .leave)
  | .pump =>
    -- `Stream->Capture != NULL`
    if s.dev.life = .alive then (s.feed .callPump).map (spawn · .leave) else some (s.spawn .leave)
  | .cancelEnter srb =>
    let (entered, s) := s.enterDataPath
    some (if entered then s.spawn (.claim srb) else s)
  | .claim srb => some (s.claimRead srb)
  | .cancelled srb => some ((s.setReads (s.reads.completeRead srb 0 statusCancelled)).spawn .leave)
  | .notify =>
    if s.dev.life = .alive then (s.feed .notifyCancel).map (spawn · .leave)
    else some (s.spawn .leave)
  | .leave =>
    let (idle, gate) := Stream.Rundown.leaveDataPath s.gate
    some (if idle then { s with gate }.spawn .signal else { s with gate })
  | .signal => some { s with gate := Stream.Rundown.setIdle s.gate }
  | .skipped srb => some (s.setReads (s.reads.completeRead srb 0 statusInvalidParameter))
  | .flush =>
    match s.reads.pendingReads with
    | [] => some s
    | srb :: _ => some ((s.setReads (s.reads.unpark srb)).spawn (.flushed srb))
  | .flushed srb => some ((s.setReads (s.reads.completeRead srb 0 statusSuccess)).spawn .flush)
  | .drained srb => some (s.setReads (s.reads.completeRead srb 0 statusSuccess))

/-- The executor is in `PhotonicStreamCompletePendingReads`. -/
def drainsReads : Ctl → Bool
  | .stop .drainReads | .shutdown _ .drainReads => true
  | _ => false

/-- The holder of `InterfaceMutex` drains the parked reads. -/
def draining (s : Pin) : Bool := drainsReads s.dev.ctl || s.closer = .destroyed

/-- The drain has found the queue empty. -/
def drainEnds (s : Pin) : Bool := s.reads.pendingReads = [] && ∀ t ∈ s.threads, !t.isDrained

def Acquiring (s : Pin) : Prop := ∃ pc ∈ s.dev.eng.pool, pc.acquires = true

instance (s : Pin) : Decidable s.Acquiring := Multiset.decidableExistsMultiset

/-- A step of the device that is none of the pin's own. A lap calls Acquire again when the read
without an MDL is completed; a drain returns when the queue is empty; the holder of the mutex is
a state change or a surprise removal until the close begins. -/
def devAllowed (s : Pin) : Device.Act → Bool
  | .run (.pump _ (.acquire _ _)) _ =>
    s.reads.headWithoutMdl.isNone && ∀ t ∈ s.threads, !t.isSkipped
  | .run _ _ | .callback _ _ | .startWork | .lateListen _ | .lateGrant _ _ | .acquireMutex
  | .workMutex => true
  | .ctl _ => !drainsReads s.dev.ctl || s.drainEnds
  | .api .stop | .api .surpriseRemoval | .api (.setState _) => s.closer = .opened
  | .releaseMutex => s.closer = .opened || s.closer = .closed
  | .callPump | .notifyCancel | .api (.start _) | .api .ensureListen | .api .destroy
  | .api (.setOneShot _) => false

/-- The steps: of the device, of a handler, of AcquireBuffer on a read without an MDL, the calls
of the class driver, and those of the holder of `InterfaceMutex`. -/
inductive Act
  | dev (a : Device.Act)
  | thread (t : Thread)
  | skip
  | receive (srb : Cookie) (r : Srb) (garbage : Option Bool)
  | cancelPacket (srb : Cookie)
  | beginFlush
  | setRun
  | drain
  | close
  | wake
  | closeStop
  | closeDestroy
  | closeReturn
deriving DecidableEq

/-- The class driver hands in a request that it has. The extension is that of an earlier request,
or memory of arbitrary content, whose back-pointer is another's. -/
def receive (s : Pin) (srb : Cookie) (r : Srb) (garbage : Option Bool) : Pin :=
  let ext := match garbage with
    | none => s.reads.ext
    | some queued => Function.update s.reads.ext srb ⟨queued, false⟩
  { s with
    reads := { s.reads with
      srbs := Function.update s.reads.srbs srb r
      ext := ext
      irpCancel := Function.update s.reads.irpCancel srb false
      received := s.reads.received ++ [srb] } }.spawn (.enter srb)

def beginClose (s : Pin) : Pin :=
  let (busy, gate) := Stream.Rundown.beginRundown s.gate
  { s with gate := gate, closer := if busy then .waiting else .idle }

def step (s : Pin) : Act → Option Pin
  | .dev a => if s.devAllowed a then s.feed a else none
  | .thread t => if t ∈ s.threads then { s with threads := s.threads.erase t }.threadStep t else none
  | .skip =>
    -- no other read is in the lap's hand
    if s.Acquiring ∧ ∀ t ∈ s.threads, t.isSkipped = false then
      s.reads.headWithoutMdl.map fun srb =>
        (s.setReads (s.reads.unpark srb)).spawn (.skipped srb)
    else none
  | .receive srb r garbage => if s.reads.outstanding srb then none else some (s.receive srb r garbage)
  | .cancelPacket srb =>
    -- `IoCancelIrp` sets the bit and calls the cancel routine
    if s.reads.outstanding srb then
      let s := s.setReads { s.reads with irpCancel := Function.update s.reads.irpCancel srb true }
      some (if (s.reads.srbs srb).command = .readData then s.spawn (.cancelEnter srb) else s)
    else none
  | .beginFlush => some (s.spawn .flush)
  | .setRun =>
    -- the start of `PhotonicStreamControlSetState(KSSTATE_RUN)`
    if s.closer = .opened then
      (if s.dev.life ≠ .alive || s.dev.eng.cap.draining then
        s.setReads { s.reads with frameNumber := 0 } else s).feed (.api (.start true))
    else none
  | .drain =>
    if s.draining ∧ ∀ t ∈ s.threads, t.isDrained = false then
      match s.reads.pendingReads with
      | [] => none
      | srb :: _ => some ((s.setReads (s.reads.unpark srb)).spawn (.drained srb))
    else none
  | .close => if s.closer = .opened ∧ s.dev.ctl = .held then some s.beginClose else none
  | .wake =>
    if s.closer = .waiting ∧ s.gate.dataPathIdle = true then some { s with closer := .idle } else none
  | .closeStop =>
    if s.closer = .idle then { s with closer := .stopping }.feed (.api .stop) else none
  | .closeDestroy =>
    if s.closer = .stopping then { s with closer := .destroyed }.feed (.api .destroy) else none
  | .closeReturn =>
    if s.closer = .destroyed ∧ s.drainEnds then { s with closer := .closed }.feed .releaseMutex
    else none

/-- A freshly opened pin. -/
def machine : Machine Pin Act where
  init :=
    { dev := Device.create
      reads := ⟨fun _ => ⟨.readData, 0, false, none, 0, false⟩, fun _ => ⟨false, false⟩, fun _ => false, [], 0,
        [], []⟩
      gate := .fresh
      closer := .opened
      threads := 0 }
  step := step

end Pin
end Photonic
