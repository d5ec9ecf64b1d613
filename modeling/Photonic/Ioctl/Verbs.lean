import Photonic.Ioctl.Slot

namespace Photonic

/-- What the environment answers to one step of a verb: whether an allocation succeeds,
what reading the camera's mode yields, and the status of the call into the system. -/
structure VerbAnswer where
  allocated : Bool
  mode : NtStatus
  knownDepth : Bool
  imageSize : ℕ
  status : NtStatus
  deriving DecidableEq, Repr

def Pc.handlerPump : Pc → Bool
  | .pump k _ => k = .handler
  | _ => false

/-- The engine of a slot that is prepared, or of a stream that is opened. -/
def Device.renew (s : Device) : Device :=
  { Device.create with
    eng := s.eng.renew
    ses := { Device.create.ses with removed := s.ses.removed }
    bus := s.bus
    ctl := .held }

/-- The steps of the engine, of the bus driver and of the work item, which no handler takes. -/
def Device.Act.shared : Device.Act → Bool
  | .run _ _ | .callback _ _ | .startWork | .lateListen _ | .lateGrant _ _ | .workMutex | .ctl _ => true
  | .callPump | .notifyCancel | .acquireMutex | .api _ | .releaseMutex => false

/-- A pump on which the verb waits has returned. -/
def PumpNext.pc : PumpNext → VerbPc
  | start => .start true
  | arm => .listen
  | mapped => .finish statusSuccess .success

def StopNext.pc : StopNext → VerbPc
  | finish => .finish statusSuccess .success
  | unmap => .unmap 0 false .unmapped
  | release next => .quarantine next

def UnmapNext.pc : UnmapNext → VerbPc
  | unmapped => .finish statusSuccess .success
  | map args => .validate args
  | mapFailed status error => .finish status error
  | release next => .flush next

def ReleaseNext.pc : ReleaseNext → VerbPc
  | finish => .finish statusSuccess .success
  | build fileObject => .build fileObject

/-- The unmap is the map's own first step. -/
def UnmapNext.maps : UnmapNext → Bool
  | map _ => true
  | _ => false

namespace IoctlDevice

def goto (s : IoctlDevice) (pc : VerbPc) : IoctlDevice := { s with pc }

def fail (s : IoctlDevice) (status : NtStatus) (error : PlError) : Option IoctlDevice :=
  some (s.goto (.finish status error))

def setSlot (s : IoctlDevice) (c : Slot) (pc : VerbPc) : IoctlDevice := { s with slot := some c, pc }

/-- Call into the engine and go on at `pc` once the executor is back. -/
def call (s : IoctlDevice) (a : Device.Act) (pc : VerbPc) : Option IoctlDevice :=
  (s.dev.step a).map fun dev => { s with dev, pc }

/-- `PhotonicIoctlCapturePrepare`, with no slot in the picture. -/
def buildStep (s : IoctlDevice) (o : VerbAnswer) (fileObject : ℕ) : Option IoctlDevice :=
  if s.pinOpen then s.fail statusDeviceBusy .invalidState
  else if !o.allocated then s.fail statusInsufficientResources .outOfMemory
  else if !ntSuccess o.mode then s.fail o.mode .hardware
  else if !o.knownDepth then s.fail statusInvalidDeviceState .invalidState
  else if !ntSuccess o.status then s.fail o.status .noResources
  else some { s with
    dev := s.dev.renew
    slot := some (.fresh fileObject o.imageSize)
    pc := .finish statusSuccess .success }

/-- One iteration of the loop, or what follows it. -/
def unmapStep (s : IoctlDevice) (c : Slot) (i : ℕ) (force : Bool) (next : UnmapNext) : IoctlDevice :=
  if i < maxVideoFrames then
    match (c.ring.frames i).mdl with
    | none => s.setSlot (c.setRing (c.ring.unmapFrame i)) (.unmap (i + 1) force next)
    | some mdl =>
      if !force && s.dev.eng.cap.cookieQuarantined i then s.goto (.unmap (i + 1) force next)
      else { s.setSlot (c.setRing (c.ring.unmapFrame i)) (.unmap (i + 1) force next) with
        mdls := s.mdls.record mdl.id [.unlock, .free] }
  else
    s.setSlot { c.restart c.ring.reset with shots := if next.maps then [] else c.shots } next.pc

def validateStep (s : IoctlDevice) (c : Slot) (args : MapArgs) : Option IoctlDevice :=
  if args.frameCount = 0 ∨ maxVideoFrames < args.frameCount then
    s.fail statusInvalidParameter .invalidCount
  else if args.frameSize ≠ c.imageSize then s.fail statusInvalidParameter .badFrameSize
  else if 2 ^ 32 < args.baseVA + args.frameCount * args.frameSize then
    s.fail statusInvalidParameter .invalidCount
  else some (s.goto (.allocate args 0))

/-- The map unwinds the `mapped` frames it has locked. -/
def mapFailed (s : IoctlDevice) (c : Slot) (mapped : ℕ) (status : NtStatus) (error : PlError) :
    IoctlDevice :=
  s.setSlot (c.setRing { c.ring with mappedFrameCount := mapped })
    (.unmap 0 false (.mapFailed status error))

def allocateStep (s : IoctlDevice) (c : Slot) (o : VerbAnswer) (args : MapArgs) (i : ℕ) : IoctlDevice :=
  if i < args.frameCount then
    if o.allocated then
      { s with mdls := s.mdls.alloc, pc := .lock args i ⟨s.mdls.next, args.frameSize⟩ }
    else s.mapFailed c i statusInsufficientResources .outOfMemory
  else s.goto (.publish args)

def lockStep (s : IoctlDevice) (c : Slot) (o : VerbAnswer) (args : MapArgs) (i : ℕ) (mdl : Mdl) :
    IoctlDevice :=
  if ntSuccess o.status then
    { s.setSlot (c.setRing (c.ring.setFrame i ⟨some mdl, .queued⟩)) (.allocate args (i + 1)) with
      mdls := s.mdls.record mdl.id [.lock] }
  else { s with mdls := s.mdls.record mdl.id [.free] }.mapFailed c i o.status .lockFailed

def publishStep (s : IoctlDevice) (c : Slot) (args : MapArgs) : IoctlDevice :=
  s.setSlot (c.restart (c.ring.publish args.frameCount))
    (if s.dev.ses.streamState = .run then .pump .mapped else .finish statusSuccess .success)

def eventsStep (s : IoctlDevice) (c : Slot) (a : Events.Act) (pc : Events → VerbPc) :
    Option IoctlDevice :=
  (c.events.step a).map fun events => s.setSlot { c with events } (pc events)

def registerStep (s : IoctlDevice) (c : Slot) (o : VerbAnswer) (handle type : ℕ) : Option IoctlDevice :=
  s.eventsStep c (.register handle type o.allocated (ntSuccess o.status)) fun _ =>
    if !o.allocated then .finish statusInsufficientResources .outOfMemory
    else if !ntSuccess o.status then .finish o.status .invalidCount
    else .insert

/-- `PhotonicIoctlUnregisterEvent`, up to the release of what it found. -/
def unregisterStep (s : IoctlDevice) (c : Slot) (handle type : ℕ) : Option IoctlDevice :=
  s.eventsStep c (.unregister handle type) fun events =>
    if events.verb = .idle then .finish statusNotFound .success else .dereference

def startedStep (s : IoctlDevice) (o : VerbAnswer) : Option IoctlDevice :=
  if s.dev.ses.streamState = .run then s.fail statusSuccess .success
  else if ntSuccess o.status then none
  else s.fail o.status .hardware

def slotStep (s : IoctlDevice) (c : Slot) (o : VerbAnswer) : VerbPc → Option IoctlDevice
  | .setPumpRing b => some (s.setSlot (c.setRing { c.ring with pumpRingOnStart := b })
    (if b then .requeue .start else .start false))
  | .requeue next => some (s.setSlot (c.setRing c.ring.framesRequeue) (.pump next))
  | .unmap i force next => some (s.unmapStep c i force next)
  | .validate args => s.validateStep c args
  | .allocate args i => some (s.allocateStep c o args i)
  | .lock args i mdl => some (s.lockStep c o args i mdl)
  | .publish args => some (s.publishStep c args)
  | .register handle type => s.registerStep c o handle type
  | .insert => s.eventsStep c .insert fun _ => .finish statusSuccess .success
  | .unregister handle type => s.unregisterStep c handle type
  | .dereference => s.eventsStep c .dereference fun _ => .finish statusSuccess .success
  | .flush next => s.eventsStep c .flush fun _ => .flushing next
  | .flushing next => s.eventsStep c .dereference fun events =>
    if events.verb = .released then .destroy next else .flushing next
  | _ => none

def verbStep (s : IoctlDevice) (o : VerbAnswer) : Option IoctlDevice :=
  match s.pc with
  | .idle => none
  | .build fileObject => s.buildStep o fileObject
  | .setOneShot oneShot pumpRing => s.call (.api (.setOneShot oneShot)) (.setPumpRing pumpRing)
  | .pump next => s.call .callPump (.pumped next)
  | .pumped next =>
    if ∀ pc ∈ s.dev.eng.pool, pc.handlerPump = false then some (s.goto next.pc) else none
  | .start pumpRing => s.call (.api (.start pumpRing)) .started
  | .started => s.startedStep o
  | .stop next => s.call (.api .stop) next.pc
  | .quarantine next => some (s.goto (.unmap 0 s.dev.eng.cap.hasQuarantinedFrames (.release next)))
  | .listen => s.call (.api .ensureListen) .arm
  | .arm => if ntSuccess o.status then s.fail statusSuccess .success else s.fail o.status .hardware
  | .destroy next => (s.call (.api .destroy) next.pc).map fun s => { s with slot := none }
  | .finish _ _ => s.call .releaseMutex .idle
  | pc => s.slot.bind fun c => s.slotStep c o pc

inductive Act
  | dev (a : Device.Act)
  | request (fileObject : ℕ) (contract : Contract) (verb : Verb)
  | verb (o : VerbAnswer)
  | pass (n : ℕ)
  | fire (n : ℕ) (e : Event) (rest : List Event)
  | cleanup (fileObject : ℕ)
  | surpriseRemoval
  | uninit
  | openPin
  | closePin

/-- Nobody holds `InterfaceMutex`. -/
def Unheld (s : IoctlDevice) : Prop := s.pc = .idle ∧ s.dev.ctl = .free

instance (s : IoctlDevice) : Decidable s.Unheld := inferInstanceAs (Decidable (_ ∧ _))

/-- `PhotonicIoctlCaptureIsOwner` -/
def IsOwner (s : IoctlDevice) (fileObject : ℕ) : Prop := ∃ c ∈ s.slot, c.fileObject = fileObject

instance (s : IoctlDevice) (fileObject : ℕ) : Decidable (s.IsOwner fileObject) :=
  match h : s.slot with
  | none => .isFalse fun ⟨_, hc, _⟩ => by rw [h] at hc; cases hc
  | some c =>
    decidable_of_iff (c.fileObject = fileObject)
      ⟨fun heq => ⟨c, h, heq⟩, fun ⟨_, hc, heq⟩ => by rw [h] at hc; cases hc; exact heq⟩

def devStep (s : IoctlDevice) (a : Device.Act) : Option IoctlDevice :=
  if s.pinOpen then
    if a.shared ∨ s.pc = .idle then (s.dev.step a).map fun dev => { s with dev } else none
  else if a.shared then
    (s.dev.feed Slot.callbacks s.slot a).map fun p => { s with dev := p.1, slot := p.2 }
  else none

/-- A thread that delivered a frame goes on with the events. -/
def signalStep (s : IoctlDevice) (a : Events.Act) : Option IoctlDevice :=
  s.slot.bind fun c => (c.events.step a).map fun events => { s with slot := some { c with events } }

def cleanupStep (s : IoctlDevice) (fileObject : ℕ) : Option IoctlDevice :=
  if !s.registered then some s
  else if s.Unheld then
    if s.IsOwner fileObject then s.call .acquireMutex (.stop (.release .finish)) else some s
  else none

/-- The holder of `InterfaceMutex` carries out a slot verb step by step. It goes on while the engine
has not been given the executor: a stop, a start or a listen that it calls runs as the device's own
steps. A request that is rejected completes in one step. -/
def step (s : IoctlDevice) : Act → Option IoctlDevice
  | .dev a => s.devStep a
  | .request fileObject contract verb =>
    if s.registered ∧ s.Unheld then
      match s.deviceControl fileObject contract verb with
      | .done _ => some s
      | .goes pc => s.call .acquireMutex pc
    else none
  | .verb o => if s.dev.ctl = .held then s.verbStep o else none
  | .pass n => s.signalStep (.pass n)
  | .fire n e rest => s.signalStep (.fire n e rest)
  | .cleanup fileObject => s.cleanupStep fileObject
  | .surpriseRemoval =>
    if s.Unheld then
      (s.call .acquireMutex .idle).bind fun s =>
        s.call (.api .surpriseRemoval) (.finish statusSuccess .success)
    else none
  | .uninit =>
    if s.Unheld then
      { s with registered := false }.call .acquireMutex
        (if s.slot = none then .finish statusSuccess .success else .stop (.release .finish))
    else none
  | .openPin =>
    if s.Unheld ∧ s.slot = none ∧ s.pinOpen = false ∧ s.dev.ses.removed = false then
      some { s with dev := s.dev.renew.goto .free, pinOpen := true }
    else none
  | .closePin =>
    if s.pinOpen = true ∧ s.pc = .idle ∧ s.dev.ctl = .held ∧ s.dev.life ≠ .alive then
      some { s with dev := s.dev.goto .free, pinOpen := false }
    else none

/-- The device as it is added: no stream is open and no slot is prepared. -/
def create : IoctlDevice where
  dev := { Device.create with life := .freed }
  slot := none
  pinOpen := false
  registered := true
  pc := .idle
  mdls := .empty

def machine : Machine IoctlDevice Act := ⟨create, step⟩

end IoctlDevice
end Photonic
