import Photonic.Device.State

namespace Photonic

/-- What the environment answers to one step of the executor: the outcome of an IRB
and the grant in its result fields, the success of a camera register write or of an
allocation, whether the frame geometry fits the host, the frame size, and whether a
wait timed out. -/
structure Answer where
  irb : IrbOutcome
  value : ℕ
  ok : Bool
  fits : Bool
  frameBytes : ℕ
  timeout : Bool
  deriving DecidableEq, Repr

def controlRetryMax : ℕ := 8

/-- What the executor itself is in the middle of. -/
def Pc.isControl : Pc → Bool
  | .beginDetach k _ => k = .control
  | .pump k _ => k = .control
  | .requestWork k _ => k = .control
  | .releaseDeliver _ => true
  | _ => false

namespace Device

def goto (s : Device) (c : Ctl) : Device := { s with ctl := c }

def region (s : Device) (r : Engine.Region) (c : Ctl) : Option Device :=
  (s.eng.region r).map fun e => { s with eng := e, ctl := c }

def callReturned (s : Device) : Bool := ∀ pc ∈ s.eng.pool, !pc.isControl

def call (s : Device) (pc : Pc) (c : Ctl) : Device := { s with eng := s.eng.spawn pc, ctl := c }

/-- The value recorded for a resource. -/
def value (s : Device) : Resource → ℕ
  | .channel => s.ses.channel
  | .bandwidth => s.ses.bandwidthHandle
  | .handle => s.eng.cap.resourceHandle

def needsReleaseRetry (s : Device) : Bool :=
  s.ses.resourceAllocated || s.ses.bandwidthAllocated || s.ses.channelAllocated ||
    s.eng.cap.hasQuarantinedFrames

def shutdownReturn : ShutdownRet → Ctl
  | .stop => .held
  | .work => .listen .work .check

def quiesceReturn : QuiesceRet → Ctl
  | .shutdown r => .release (.shutdown r) .enter
  | .work => .work .decide

def releaseReturn : ReleaseRet → Ctl
  | .shutdown r => .shutdown r .drainReads
  | .settled => .stop .drainReads
  | .startRetry expectBuffers => .start expectBuffers .retried
  | .startFail => .held

def listenReturn : ListenRet → Ctl
  | .start expectBuffers => .start expectBuffers .enable
  | .work => .work .enable
  | .trigger => .held

/-- The request of `PhotonicCaptureResourceIsochStop`. Its status is not looked at. -/
def isochStop (s : Device) (o : Answer) : Device :=
  if o.irb.succeeded then { s with bus := s.bus.stop s.eng.cap.resourceHandle } else s

def quiesceStep (s : Device) (o : Answer) (r : QuiesceRet) : QuiescePc → Option Device
  | .enter =>
    if s.eng.cap.draining then some (s.goto (quiesceReturn r))
    else s.region .setDraining
      (.quiesce r (if s.ses.resourceAllocated then .isochStop else .claim))
  | .isochStop =>
    some ((s.isochStop o).goto (.quiesce r .clearListening))
  | .clearListening => s.region (.setListening false) (.quiesce r .claim)
  | .claim =>
    s.region .claimPending
      (.quiesce r (if s.eng.cap.firstPending = none then .clearEvent else .claimed))
  | .claimed => if s.callReturned then some (s.goto (.quiesce r .claim)) else none
  | .clearEvent => s.region .clearDrainDone (.quiesce r .poll)
  | .poll => some (s.goto (.quiesce r (if s.eng.cap.inFlightIrps = 0 then .check else .wait)))
  | .wait => if s.eng.cap.drainDone || o.timeout then some (s.goto (.quiesce r .poll)) else none
  | .check => some (s.goto (.quiesce r (if s.eng.cap.pendingList = [] then .pumpIdle else .claim)))
  | .pumpIdle => if s.eng.cap.pumpActive then none else some (s.goto (.quiesce r .clearFirst))
  | .clearFirst => s.region .clearFirstAttachDone (quiesceReturn r)

/-- Where the release goes on after the free of a resource: the handle, the bandwidth
and the channel are freed in this order. -/
def afterFree (flushed : Bool) : Resource → ReleasePc
  | .handle => .free .bandwidth flushed
  | .bandwidth => .free .channel flushed
  | .channel => .guard flushed

/-- `PhotonicCaptureResourceFreeOne` with the flag it decides on. Only the free of the
handle flushes. -/
def freeOne (s : Device) (o : Answer) (res : Resource) : Device :=
  if o.irb.submitted then
    { s with
      ses := s.ses.setAllocated res false
      bus := if res = .handle ∧ o.irb.succeeded then
          (s.bus.free res (s.value res)).flush (s.value res) else s.bus.free res (s.value res) }
  else s

def releaseStep (s : Device) (o : Answer) (r : ReleaseRet) : ReleasePc → Option Device
  | .enter =>
    some (s.goto (.release r (if s.eng.cap.listening then .isochStop else .free .handle false)))
  | .isochStop =>
    some ((s.isochStop o).goto (.release r .clearListening))
  | .clearListening => s.region (.setListening false) (.release r (.free .handle false))
  | .free res flushed =>
    if s.ses.allocated res then
      some ((s.freeOne o res).goto
        (.release r (afterFree (flushed || (res = .handle && o.irb.succeeded)) res)))
    else some (s.goto (.release r (afterFree flushed res)))
  | .guard flushed =>
    if !flushed && s.eng.cap.hasQuarantinedFrames then some (s.goto (releaseReturn r))
    else some (s.goto (.release r (.scan 0)))
  | .scan i =>
    if h : i < captureFrameCount then
      if (s.eng.cap.frames ⟨i, h⟩).state = .detachFailed then
        s.region (.releaseQuarantined ⟨i, h⟩) (.release r (.deliver i))
      else some (s.goto (.release r (.scan (i + 1))))
    else some (s.goto (.release r .freeMdls))
  | .deliver i => if s.callReturned then some (s.goto (.release r (.scan (i + 1)))) else none
  | .freeMdls => s.region .freeChunkMdls (releaseReturn r)

def shutdownStep (s : Device) (r : ShutdownRet) : ShutdownPc → Option Device
  | .publish => some { s with ses := { s.ses with streamState := .stop }, ctl := .shutdown r .disable }
  | .disable =>
    -- `PhotonicCaptureTeardownDisableCamera`: the register writes are best effort
    some { s with
      ses := { s.ses with enableWanted := false, isoEnabled := false }
      ctl := .quiesce (.shutdown r) .enter }
  | .drainReads => some (s.goto (shutdownReturn r))

/-- A control request stops the engine, or a start whose camera enable failed. -/
def stopStep (s : Device) : StopPc → Option Device
  | .publish =>
    some { s with
      ses := { s.ses with streamState := .stop }
      ctl := if s.life = .alive then .stop .test else .held }
  | .test => some (s.goto (if s.eng.cap.draining then .stop .pumpIdle else .shutdown .stop .publish))
  | .pumpIdle => if s.eng.cap.pumpActive then none else some (s.goto (.stop .retry))
  | .retry =>
    some (s.goto (if s.needsReleaseRetry then .release .settled .enter else .stop .drainReads))
  | .drainReads => some (s.goto .held)

/-- The guard `EnsureListen` tests under `Lock`, twice. -/
def nothingToListen (s : Device) : Bool :=
  s.eng.cap.draining || s.eng.cap.listening || s.eng.cap.pendingList.isEmpty

def listenStep (s : Device) (o : Answer) (r : ListenRet) : ListenPc → Option Device
  | .check => some (s.goto (if s.nothingToListen then listenReturn r else .listen r .wait))
  | .wait =>
    if s.eng.cap.firstAttachDone then some (s.goto (.listen r .recheck))
    else if o.timeout then some (s.goto (listenReturn r)) else none
  | .recheck => some (s.goto (if s.nothingToListen then listenReturn r else .listen r .submit))
  | .submit =>
    let h := s.eng.cap.resourceHandle
    if o.irb.succeeded then
      some { s with bus := s.bus.listen h, ctl := .listen r .set }
    else
      some { s with
        bus := if o.irb = .abandoned then { s.bus with lateListens := h :: s.bus.lateListens } else s.bus
        ctl := listenReturn r }
  | .set => s.region (.setListening true) (listenReturn r)

/-- What `PhotonicCaptureResourceAllocate…` records of a grant. -/
def record (s : Device) (res : Resource) (v : ℕ) : Device :=
  let s := { s with bus := s.bus.grant res v }
  match res with
  | .channel => { s with ses := { s.ses with channel := v, channelAllocated := true } }
  | .bandwidth => { s with ses := { s.ses with bandwidthHandle := v, bandwidthAllocated := true } }
  | .handle =>
    { s with
      eng := { s.eng with cap := { s.eng.cap with resourceHandle := v } }
      ses := { s.ses with resourceAllocated := true } }

def afterAllocate : Resource → StartPc
  | .channel => .setIsochChannel
  | .bandwidth => .allocate .handle
  | .handle => .clearFirst

def startStep (s : Device) (o : Answer) (eb : Bool) : StartPc → Option Device
  | .enter =>
    if s.life ≠ .alive ∨ s.ses.removed then some (s.goto .held)
    else if !s.eng.cap.draining then some (s.goto (.start eb .publish))
    else if !o.ok then some (s.goto .held) -- no negotiated mode
    else some (s.goto
      (if s.needsReleaseRetry then .release (.startRetry eb) .enter else .start eb .configure))
  | .retried =>
    some (s.goto (if s.eng.cap.hasQuarantinedFrames then .held else .start eb .configure))
  | .configure =>
    if o.ok then s.region (.setGeometry o.frameBytes) (.start eb .setupChunks)
    else some (s.goto (.release .startFail .enter))
  | .setupChunks =>
    if o.fits then
      s.region .freeChunkMdls
        (if o.ok then .start eb (.allocate .channel) else .release .startFail .enter)
    else some (s.goto (.release .startFail .enter))
  | .allocate res =>
    if o.irb.succeeded then
      -- the bus driver grants what is not granted
      if o.value ∈ s.bus.granted res then none
      else some ((s.record res o.value).goto (.start eb (afterAllocate res)))
    else
      some { s with
        bus := if o.irb = .abandoned then { s.bus with lateGrants := res :: s.bus.lateGrants } else s.bus
        ctl := .release .startFail .enter }
  | .setIsochChannel =>
    some (s.goto (if o.ok then .start eb (.allocate .bandwidth) else .release .startFail .enter))
  | .clearFirst =>
    (s.region .clearFirstAttachDone (.start eb .clearCancel)).map fun s =>
      { s with ses := { s.ses with controlRetries := 0 } }
  | .clearCancel =>
    some { s with ses := { s.ses with cancelPending := false }, ctl := .start eb .undrain }
  | .undrain => s.region .clearDraining (.start eb .pump)
  | .pump => some (s.call (.pump .control .elect) (.start eb .pumped))
  | .pumped => if s.callReturned then some (s.goto (.listen (.start eb) .check)) else none
  | .enable =>
    if s.ses.oneShot then some (s.goto (.start eb .publish))
    else if eb && !s.eng.cap.listening then
      some { s with ses := { s.ses with enableWanted := true }, ctl := .start eb .publish }
    else if o.ok then
      some { s with ses := { s.ses with isoEnabled := true }, ctl := .start eb .publish }
    else some (s.goto (.stop .publish))
  | .publish => some { s with ses := { s.ses with streamState := .run }, ctl := .held }

/-- What a run of the control work item finds left to retry. -/
def retryListen (s : Device) : Bool :=
  !s.eng.cap.draining && !s.eng.cap.listening && !s.eng.cap.pendingList.isEmpty

def retryEnable (s : Device) : Bool := s.ses.enableWanted && s.eng.cap.listening

def workStep (s : Device) (o : Answer) : WorkPc → Option Device
  | .enter => some (s.goto (if s.life = .alive then .work .exchange else .free))
  | .exchange =>
    some { s with
      ses := { s.ses with cancelPending := false }
      ctl := if s.ses.cancelPending then .work .test else .listen .work .check }
  | .test => some (s.goto (if s.eng.cap.draining then .listen .work .check else .quiesce .work .enter))
  | .decide =>
    if s.ses.removed || s.eng.cap.hasQuarantinedFrames then some (s.goto (.shutdown .work .publish))
    else s.region .clearDraining (.work .pump)
  | .pump => some (s.call (.pump .control .elect) (.work .pumped))
  | .pumped => if s.callReturned then some (s.goto (.listen .work .check)) else none
  | .enable =>
    if s.ses.enableWanted && s.eng.cap.listening && !s.ses.removed && o.ok then
      some { s with ses := { s.ses with enableWanted := false, isoEnabled := true }, ctl := .work .retry }
    else some (s.goto (.work .retry))
  | .retry =>
    if (s.retryListen || s.retryEnable) && !s.ses.removed then
      if s.ses.controlRetries < controlRetryMax then
        some ({ s with ses := { s.ses with controlRetries := s.ses.controlRetries + 1 } }.call
          (.requestWork .control .exchange) (.work .requested))
      else some (s.goto .free)
    else some { s with ses := { s.ses with controlRetries := 0 }, ctl := .free }
  | .requested => if s.callReturned then some (s.goto .free) else none

def ctlStep (s : Device) (o : Answer) : Option Device :=
  match s.ctl with
  | .free => none
  | .held => none
  | .start eb pc => s.startStep o eb pc
  | .stop pc => s.stopStep pc
  | .shutdown r pc => s.shutdownStep r pc
  | .quiesce r pc => s.quiesceStep o r pc
  | .release r pc => s.releaseStep o r pc
  | .listen r pc => s.listenStep o r pc
  | .work pc => s.workStep o pc

/-- A call into the engine by a control request that holds `InterfaceMutex`. -/
inductive Api
  | start (expectBuffers : Bool)
  | stop
  | ensureListen
  | destroy
  | surpriseRemoval
  | setState (state : KsState)
  | setOneShot (oneShot : Bool)
  deriving DecidableEq, Repr

def destroy (s : Device) : Option Device :=
  if s.life ≠ .alive then some s
  else if s.eng.cap.hasQuarantinedFrames then some { s with life := .leaked }
  else (s.region .freeChunkMdls s.ctl).map fun s => { s with life := .freed }

def apiStep (s : Device) : Api → Option Device
  | .start eb => some (s.goto (.start eb .enter))
  | .stop => some (s.goto (.stop .publish))
  | .ensureListen => if s.life = .alive then some (s.goto (.listen .trigger .check)) else none
  | .destroy =>
    -- the caller has stopped the stream
    if s.life = .alive ∧ s.eng.cap.draining = false then none else s.destroy
  | .surpriseRemoval =>
    some { s with ses := { s.ses with removed := true }, ctl := .stop .publish }
  | .setState st =>
    if st = .stop ∨ st = .run then none else some { s with ses := { s.ses with streamState := st } }
  | .setOneShot b =>
    if s.eng.cap.draining ∨ s.ses.oneShot = b then some { s with ses := { s.ses with oneShot := b } }
    else none

/-- The steps: of an activity of the pool, of the frame callback, of a system worker
that starts the control work item, the calls of the front-end's handlers, an abandoned
listen that takes effect, an abandoned allocation that is granted, and those of the holder of
`InterfaceMutex`. -/
inductive Act
  | run (pc : Pc) (o : Oracle)
  | callback (d : FrameId) (frameStatus : NtStatus)
  | startWork
  | callPump
  | notifyCancel
  | lateListen (h : ℕ)
  | lateGrant (res : Resource) (v : ℕ)
  | acquireMutex
  | workMutex
  | api (a : Api)
  | ctl (o : Answer)
  | releaseMutex
  deriving DecidableEq, Repr

def data (s : Device) (a : Engine.Act) : Option Device :=
  (s.eng.step a).map fun e => { s with eng := e }

/-- One step is a lock-held region, a synchronous bus request, an interlocked or event operation, or a
wait that ends. A call of `PhotonicCapturePump`, `PhotonicCapturePumpBeginDetach`, the Deliver
callback or `PhotonicCaptureRequestWork` by the executor is an activity of the pool; the executor
goes on when it has returned. -/
def step (s : Device) : Act → Option Device
  | .run pc o => s.data (.run pc o)
  | .callback d frameStatus => s.data (.callback d frameStatus)
  | .startWork => s.data .startWork
  | .callPump => if s.life = .alive then s.data (.callPump .handler) else none
  | .notifyCancel =>
    if s.life = .alive then
      { s with ses := { s.ses with cancelPending := true } }.data (.callRequestWork .handler)
    else none
  | .lateListen h =>
    if h ∈ s.bus.lateListens then
      some { s with bus := { s.bus with lateListens := s.bus.lateListens.erase h }.listen h }
    else none
  | .lateGrant res v =>
    if res ∈ s.bus.lateGrants ∧ v ∉ s.bus.granted res then
      some { s with bus := s.bus.grantLate res v }
    else none
  | .acquireMutex => if s.ctl = .free then some (s.goto .held) else none
  | .workMutex => if s.ctl = .free then s.region .takeWorker (.work .enter) else none
  | .api a => if s.ctl = .held then s.apiStep a else none
  | .ctl o => s.ctlStep o
  | .releaseMutex => if s.ctl = .held then some (s.goto .free) else none

/-- A freshly opened stream with its engine. -/
def create : Device where
  eng := Engine.create
  ses :=
    { channelAllocated := false, bandwidthAllocated := false, resourceAllocated := false,
      channel := 0, bandwidthHandle := 0, isoEnabled := false, enableWanted := false,
      controlRetries := 0, cancelPending := false, streamState := .stop, oneShot := false,
      removed := false }
  bus := ⟨fun _ => [], [], [], [], []⟩
  ctl := .free
  life := .alive

def machine : Machine Device Act := ⟨create, step⟩

end Device
end Photonic
