import Photonic.Engine.Cases
import Photonic.Device.Step

namespace Photonic
namespace Device

def setCap (s : Device) (cap : Capture) (c : Ctl) : Device :=
  { s with eng := { s.eng with cap := cap }, ctl := c }

def setSes (s : Device) (ses : Session) (c : Ctl) : Device := { s with ses := ses, ctl := c }

/-- The quiesce takes an attached descriptor. -/
def claim (s : Device) (d : FrameId) (c : Ctl) : Device :=
  { s with
    eng := { s.eng with cap := (s.eng.cap.takeForDetach d statusCancelled).countIrp }.spawn
      (.beginDetach .control d)
    ctl := c }

def releaseQuarantined (s : Device) (d : FrameId) (c : Ctl) : Device :=
  { s with
    eng := { s.eng with cap := s.eng.cap.recycle d }.spawn (.releaseDeliver (s.eng.cap.frames d).cookie)
    ctl := c }

section
variable (s : Device) (c : Ctl) (cap : Capture) (ses : Session) (pc : Pc) (d : FrameId)

@[simp] theorem goto_eng : (s.goto c).eng = s.eng := rfl
@[simp] theorem goto_ses : (s.goto c).ses = s.ses := rfl
@[simp] theorem goto_bus : (s.goto c).bus = s.bus := rfl
@[simp] theorem goto_ctl : (s.goto c).ctl = c := rfl
@[simp] theorem goto_life : (s.goto c).life = s.life := rfl
@[simp] theorem setCap_eng : (s.setCap cap c).eng = { s.eng with cap := cap } := rfl
@[simp] theorem setCap_ses : (s.setCap cap c).ses = s.ses := rfl
@[simp] theorem setCap_bus : (s.setCap cap c).bus = s.bus := rfl
@[simp] theorem setCap_ctl : (s.setCap cap c).ctl = c := rfl
@[simp] theorem setCap_life : (s.setCap cap c).life = s.life := rfl
@[simp] theorem setSes_eng : (s.setSes ses c).eng = s.eng := rfl
@[simp] theorem setSes_ses : (s.setSes ses c).ses = ses := rfl
@[simp] theorem setSes_bus : (s.setSes ses c).bus = s.bus := rfl
@[simp] theorem setSes_ctl : (s.setSes ses c).ctl = c := rfl
@[simp] theorem setSes_life : (s.setSes ses c).life = s.life := rfl
@[simp] theorem call_eng : (s.call pc c).eng = s.eng.spawn pc := rfl
@[simp] theorem call_ses : (s.call pc c).ses = s.ses := rfl
@[simp] theorem call_bus : (s.call pc c).bus = s.bus := rfl
@[simp] theorem call_ctl : (s.call pc c).ctl = c := rfl
@[simp] theorem call_life : (s.call pc c).life = s.life := rfl
@[simp] theorem claim_eng : (s.claim d c).eng =
    { s.eng with cap := (s.eng.cap.takeForDetach d statusCancelled).countIrp }.spawn
      (.beginDetach .control d) := rfl
@[simp] theorem claim_ses : (s.claim d c).ses = s.ses := rfl
@[simp] theorem claim_bus : (s.claim d c).bus = s.bus := rfl
@[simp] theorem claim_ctl : (s.claim d c).ctl = c := rfl
@[simp] theorem claim_life : (s.claim d c).life = s.life := rfl
@[simp] theorem releaseQuarantined_eng : (s.releaseQuarantined d c).eng =
    { s.eng with cap := s.eng.cap.recycle d }.spawn (.releaseDeliver (s.eng.cap.frames d).cookie) :=
  rfl
@[simp] theorem releaseQuarantined_ses : (s.releaseQuarantined d c).ses = s.ses := rfl
@[simp] theorem releaseQuarantined_bus : (s.releaseQuarantined d c).bus = s.bus := rfl
@[simp] theorem releaseQuarantined_ctl : (s.releaseQuarantined d c).ctl = c := rfl
@[simp] theorem releaseQuarantined_life : (s.releaseQuarantined d c).life = s.life := rfl

end

section
variable (s : Device) (o : Answer) (res : Resource) (v : ℕ)

@[simp] theorem isochStop_eng : (s.isochStop o).eng = s.eng := by
  unfold isochStop
  split <;> rfl
@[simp] theorem isochStop_ses : (s.isochStop o).ses = s.ses := by
  unfold isochStop
  split <;> rfl
@[simp] theorem isochStop_life : (s.isochStop o).life = s.life := by
  unfold isochStop
  split <;> rfl
@[simp] theorem freeOne_eng : (s.freeOne o res).eng = s.eng := by
  unfold freeOne
  split <;> rfl
@[simp] theorem freeOne_life : (s.freeOne o res).life = s.life := by
  unfold freeOne
  split <;> rfl
@[simp] theorem record_life : (s.record res v).life = s.life := by cases res <;> rfl
@[simp] theorem record_bus : (s.record res v).bus = s.bus.grant res v := by cases res <;> rfl

end

inductive Moves (s : Device) (o : Answer) : Ctl → Device → Prop
  -- the quiesce
  | quiesceSettled {r : QuiesceRet} (hd : s.eng.cap.draining = true) :
      Moves s o (.quiesce r .enter) (s.goto (quiesceReturn r))
  | quiesceDrain {r : QuiesceRet} (hd : s.eng.cap.draining = false) :
      Moves s o (.quiesce r .enter) (s.setCap { s.eng.cap with draining := true }
        (.quiesce r (if s.ses.resourceAllocated then .isochStop else .claim)))
  | quiesceStop {r : QuiesceRet} :
      Moves s o (.quiesce r .isochStop) ((s.isochStop o).goto (.quiesce r .clearListening))
  | quiesceClearListening {r : QuiesceRet} :
      Moves s o (.quiesce r .clearListening)
        (s.setCap { s.eng.cap with listening := false } (.quiesce r .claim))
  | quiesceNoneLeft {r : QuiesceRet} (h : s.eng.cap.firstPending = none) :
      Moves s o (.quiesce r .claim) (s.goto (.quiesce r .clearEvent))
  | quiesceClaim {r : QuiesceRet} {d : FrameId} (h : s.eng.cap.firstPending = some d) :
      Moves s o (.quiesce r .claim) (s.claim d (.quiesce r .claimed))
  | quiesceClaimed {r : QuiesceRet} (h : s.callReturned = true) :
      Moves s o (.quiesce r .claimed) (s.goto (.quiesce r .claim))
  | quiesceClearEvent {r : QuiesceRet} :
      Moves s o (.quiesce r .clearEvent)
        (s.setCap { s.eng.cap with drainDone := false } (.quiesce r .poll))
  | quiesceDrained {r : QuiesceRet} (h : s.eng.cap.inFlightIrps = 0) :
      Moves s o (.quiesce r .poll) (s.goto (.quiesce r .check))
  | quiesceBusy {r : QuiesceRet} (h : s.eng.cap.inFlightIrps ≠ 0) :
      Moves s o (.quiesce r .poll) (s.goto (.quiesce r .wait))
  | quiesceWait {r : QuiesceRet} : Moves s o (.quiesce r .wait) (s.goto (.quiesce r .poll))
  | quiesceEmpty {r : QuiesceRet} (h : s.eng.cap.pendingList = []) :
      Moves s o (.quiesce r .check) (s.goto (.quiesce r .pumpIdle))
  | quiesceAgain {r : QuiesceRet} (h : s.eng.cap.pendingList ≠ []) :
      Moves s o (.quiesce r .check) (s.goto (.quiesce r .claim))
  | quiescePumpIdle {r : QuiesceRet} (h : s.eng.cap.pumpActive = false) :
      Moves s o (.quiesce r .pumpIdle) (s.goto (.quiesce r .clearFirst))
  | quiesceReturns {r : QuiesceRet} :
      Moves s o (.quiesce r .clearFirst)
        (s.setCap { s.eng.cap with firstAttachDone := false } (quiesceReturn r))
  -- the release
  | releaseListening {r : ReleaseRet} (h : s.eng.cap.listening = true) :
      Moves s o (.release r .enter) (s.goto (.release r .isochStop))
  | releaseStopped {r : ReleaseRet} (h : s.eng.cap.listening = false) :
      Moves s o (.release r .enter) (s.goto (.release r (.free .handle false)))
  | releaseStop {r : ReleaseRet} :
      Moves s o (.release r .isochStop) ((s.isochStop o).goto (.release r .clearListening))
  | releaseClearListening {r : ReleaseRet} :
      Moves s o (.release r .clearListening)
        (s.setCap { s.eng.cap with listening := false } (.release r (.free .handle false)))
  | releaseFree {r : ReleaseRet} {res : Resource} {flushed : Bool} (h : s.ses.allocated res = true) :
      Moves s o (.release r (.free res flushed)) ((s.freeOne o res).goto
        (.release r (afterFree (flushed || (res = .handle && o.irb.succeeded)) res)))
  | releaseNothing {r : ReleaseRet} {res : Resource} {flushed : Bool}
      (h : s.ses.allocated res = false) :
      Moves s o (.release r (.free res flushed)) (s.goto (.release r (afterFree flushed res)))
  | releaseHeld {r : ReleaseRet} (h : s.eng.cap.hasQuarantinedFrames = true) :
      Moves s o (.release r (.guard false)) (s.goto (releaseReturn r))
  | releaseGuarded {r : ReleaseRet} {flushed : Bool}
      (h : flushed = true ∨ s.eng.cap.hasQuarantinedFrames = false) :
      Moves s o (.release r (.guard flushed)) (s.goto (.release r (.scan 0)))
  | releaseQuarantined {r : ReleaseRet} {d : FrameId} (h : (s.eng.cap.frames d).state = .detachFailed) :
      Moves s o (.release r (.scan d)) (s.releaseQuarantined d (.release r (.deliver d)))
  | releaseSkip {r : ReleaseRet} {d : FrameId} (h : (s.eng.cap.frames d).state ≠ .detachFailed) :
      Moves s o (.release r (.scan d)) (s.goto (.release r (.scan (d + 1))))
  | releaseScanned {r : ReleaseRet} {i : ℕ} (h : captureFrameCount ≤ i) :
      Moves s o (.release r (.scan i)) (s.goto (.release r .freeMdls))
  | releaseDelivered {r : ReleaseRet} {i : ℕ} (h : s.callReturned = true) :
      Moves s o (.release r (.deliver i)) (s.goto (.release r (.scan (i + 1))))
  | releaseReturns {r : ReleaseRet} :
      Moves s o (.release r .freeMdls)
        (s.setCap { s.eng.cap with chunkEpoch := s.eng.cap.chunkEpoch + 1 } (releaseReturn r))
  -- the shutdown and the stop
  | shutdownPublish {r : ShutdownRet} :
      Moves s o (.shutdown r .publish)
        (s.setSes { s.ses with streamState := .stop } (.shutdown r .disable))
  | shutdownDisable {r : ShutdownRet} :
      Moves s o (.shutdown r .disable)
        (s.setSes { s.ses with enableWanted := false, isoEnabled := false }
          (.quiesce (.shutdown r) .enter))
  | shutdownReturns {r : ShutdownRet} :
      Moves s o (.shutdown r .drainReads) (s.goto (shutdownReturn r))
  | stopPublish (h : s.life = .alive) :
      Moves s o (.stop .publish) (s.setSes { s.ses with streamState := .stop } (.stop .test))
  | stopNoEngine (h : s.life ≠ .alive) :
      Moves s o (.stop .publish) (s.setSes { s.ses with streamState := .stop } .held)
  | stopSettled (hd : s.eng.cap.draining = true) :
      Moves s o (.stop .test) (s.goto (.stop .pumpIdle))
  | stopRunning (hd : s.eng.cap.draining = false) :
      Moves s o (.stop .test) (s.goto (.shutdown .stop .publish))
  | stopPumpIdle (h : s.eng.cap.pumpActive = false) :
      Moves s o (.stop .pumpIdle) (s.goto (.stop .retry))
  | stopRetry (h : s.needsReleaseRetry = true) :
      Moves s o (.stop .retry) (s.goto (.release .settled .enter))
  | stopNoRetry (h : s.needsReleaseRetry = false) :
      Moves s o (.stop .retry) (s.goto (.stop .drainReads))
  | stopReturns : Moves s o (.stop .drainReads) (s.goto .held)
  -- the listen
  | listenNothing {r : ListenRet} {pc : ListenPc} (hpc : pc = .check ∨ pc = .recheck)
      (h : s.nothingToListen = true) : Moves s o (.listen r pc) (s.goto (listenReturn r))
  | listenCheck {r : ListenRet} (h : s.nothingToListen = false) :
      Moves s o (.listen r .check) (s.goto (.listen r .wait))
  | listenSignalled {r : ListenRet} (h : s.eng.cap.firstAttachDone = true) :
      Moves s o (.listen r .wait) (s.goto (.listen r .recheck))
  | listenTimeout {r : ListenRet} (h : s.eng.cap.firstAttachDone = false) :
      Moves s o (.listen r .wait) (s.goto (listenReturn r))
  | listenRecheck {r : ListenRet} (h : s.nothingToListen = false) :
      Moves s o (.listen r .recheck) (s.goto (.listen r .submit))
  | listenSubmit {r : ListenRet} (h : o.irb.succeeded = true) :
      Moves s o (.listen r .submit)
        { s with bus := s.bus.listen s.eng.cap.resourceHandle, ctl := .listen r .set }
  | listenFailed {r : ListenRet} (h : o.irb.succeeded = false) :
      Moves s o (.listen r .submit)
        { s with
          bus := if o.irb = .abandoned then
            { s.bus with lateListens := s.eng.cap.resourceHandle :: s.bus.lateListens } else s.bus
          ctl := listenReturn r }
  | listenSet {r : ListenRet} :
      Moves s o (.listen r .set) (s.setCap { s.eng.cap with listening := true } (listenReturn r))
  -- the start
  | startRefused {eb : Bool} : Moves s o (.start eb .enter) (s.goto .held)
  | startRunning {eb : Bool} (hl : s.life = .alive) (hd : s.eng.cap.draining = false) :
      Moves s o (.start eb .enter) (s.goto (.start eb .publish))
  | startRetry {eb : Bool} (hl : s.life = .alive) (hr : s.ses.removed = false)
      (hd : s.eng.cap.draining = true) (h : s.needsReleaseRetry = true) :
      Moves s o (.start eb .enter) (s.goto (.release (.startRetry eb) .enter))
  | startFresh {eb : Bool} (hl : s.life = .alive) (hr : s.ses.removed = false)
      (hd : s.eng.cap.draining = true) (h : s.needsReleaseRetry = false) :
      Moves s o (.start eb .enter) (s.goto (.start eb .configure))
  | startQuarantined {eb : Bool} (h : s.eng.cap.hasQuarantinedFrames = true) :
      Moves s o (.start eb .retried) (s.goto .held)
  | startRetried {eb : Bool} (h : s.eng.cap.hasQuarantinedFrames = false) :
      Moves s o (.start eb .retried) (s.goto (.start eb .configure))
  | startConfigured {eb : Bool} :
      Moves s o (.start eb .configure)
        (s.setCap { s.eng.cap with frameBytes := o.frameBytes } (.start eb .setupChunks))
  | startNotConfigured {eb : Bool} {pc : StartPc} (hpc : pc = .configure ∨ pc = .setupChunks) :
      Moves s o (.start eb pc) (s.goto (.release .startFail .enter))
  | startChunks {eb : Bool} :
      Moves s o (.start eb .setupChunks)
        (s.setCap { s.eng.cap with chunkEpoch := s.eng.cap.chunkEpoch + 1 }
          (if o.ok then .start eb (.allocate .channel) else .release .startFail .enter))
  | startAllocated {eb : Bool} {res : Resource} (h : o.irb.succeeded = true)
      (hv : o.value ∉ s.bus.granted res) :
      Moves s o (.start eb (.allocate res))
        ((s.record res o.value).goto (.start eb (afterAllocate res)))
  | startNotAllocated {eb : Bool} {res : Resource} (h : o.irb.succeeded = false) :
      Moves s o (.start eb (.allocate res))
        { s with
          bus := if o.irb = .abandoned then
            { s.bus with lateGrants := res :: s.bus.lateGrants } else s.bus
          ctl := .release .startFail .enter }
  | startChannelSet {eb : Bool} :
      Moves s o (.start eb .setIsochChannel) (s.goto (.start eb (.allocate .bandwidth)))
  | startChannelNotSet {eb : Bool} :
      Moves s o (.start eb .setIsochChannel) (s.goto (.release .startFail .enter))
  | startClearFirst {eb : Bool} :
      Moves s o (.start eb .clearFirst)
        ((s.setCap { s.eng.cap with firstAttachDone := false } (.start eb .clearCancel)).setSes
          { s.ses with controlRetries := 0 } (.start eb .clearCancel))
  | startClearCancel {eb : Bool} :
      Moves s o (.start eb .clearCancel)
        (s.setSes { s.ses with cancelPending := false } (.start eb .undrain))
  | startUndrain {eb : Bool} :
      Moves s o (.start eb .undrain) (s.setCap { s.eng.cap with draining := false } (.start eb .pump))
  | startPump {eb : Bool} :
      Moves s o (.start eb .pump) (s.call (.pump .control .elect) (.start eb .pumped))
  | startPumped {eb : Bool} (h : s.callReturned = true) :
      Moves s o (.start eb .pumped) (s.goto (.listen (.start eb) .check))
  | startOneShot {eb : Bool} (h : s.ses.oneShot = true) :
      Moves s o (.start eb .enable) (s.goto (.start eb .publish))
  | startDeferred {eb : Bool} (h : s.ses.oneShot = false) (hl : s.eng.cap.listening = false) :
      Moves s o (.start eb .enable) (s.setSes { s.ses with enableWanted := true } (.start eb .publish))
  | startEnabled {eb : Bool} (h : s.ses.oneShot = false) :
      Moves s o (.start eb .enable) (s.setSes { s.ses with isoEnabled := true } (.start eb .publish))
  | startNotEnabled {eb : Bool} (h : s.ses.oneShot = false) :
      Moves s o (.start eb .enable) (s.goto (.stop .publish))
  | startPublish {eb : Bool} :
      Moves s o (.start eb .publish) (s.setSes { s.ses with streamState := .run } .held)
  -- the control work item
  | workNoEngine (h : s.life ≠ .alive) : Moves s o (.work .enter) (s.goto .free)
  | workEnter (h : s.life = .alive) : Moves s o (.work .enter) (s.goto (.work .exchange))
  | workCancel (h : s.ses.cancelPending = true) :
      Moves s o (.work .exchange) (s.setSes { s.ses with cancelPending := false } (.work .test))
  | workNoCancel (h : s.ses.cancelPending = false) :
      Moves s o (.work .exchange)
        (s.setSes { s.ses with cancelPending := false } (.listen .work .check))
  | workSettled (hd : s.eng.cap.draining = true) :
      Moves s o (.work .test) (s.goto (.listen .work .check))
  | workQuiesce (hd : s.eng.cap.draining = false) :
      Moves s o (.work .test) (s.goto (.quiesce .work .enter))
  | workShutdown (h : s.ses.removed = true ∨ s.eng.cap.hasQuarantinedFrames = true) :
      Moves s o (.work .decide) (s.goto (.shutdown .work .publish))
  | workResume (hr : s.ses.removed = false) (h : s.eng.cap.hasQuarantinedFrames = false) :
      Moves s o (.work .decide) (s.setCap { s.eng.cap with draining := false } (.work .pump))
  | workPump : Moves s o (.work .pump) (s.call (.pump .control .elect) (.work .pumped))
  | workPumped (h : s.callReturned = true) :
      Moves s o (.work .pumped) (s.goto (.listen .work .check))
  | workEnabled (hw : s.ses.enableWanted = true) (hl : s.eng.cap.listening = true) :
      Moves s o (.work .enable)
        (s.setSes { s.ses with enableWanted := false, isoEnabled := true } (.work .retry))
  | workNotEnabled : Moves s o (.work .enable) (s.goto (.work .retry))
  | workRequest (h : s.retryListen = true ∨ s.retryEnable = true) (hr : s.ses.removed = false)
      (hc : s.ses.controlRetries < controlRetryMax) :
      Moves s o (.work .retry)
        ({ s with ses := { s.ses with controlRetries := s.ses.controlRetries + 1 } }.call
          (.requestWork .control .exchange) (.work .requested))
  | workGiveUp (hc : controlRetryMax ≤ s.ses.controlRetries) :
      Moves s o (.work .retry) (s.goto .free)
  | workDone (h : (s.retryListen = false ∧ s.retryEnable = false) ∨ s.ses.removed = true) :
      Moves s o (.work .retry) (s.setSes { s.ses with controlRetries := 0 } .free)
  | workRequested (h : s.callReturned = true) : Moves s o (.work .requested) (s.goto .free)

theorem region_eq {s s' : Device} {r : Engine.Region} {c : Ctl} (h : s.region r c = some s') :
    ∃ e, s.eng.region r = some e ∧ s' = { s with eng := e, ctl := c } := by
  obtain ⟨e, he, rfl⟩ := Option.map_eq_some_iff.mp h
  exact ⟨e, he, rfl⟩

theorem Moves.of_quiesce {s s' : Device} {o : Answer} {r : QuiesceRet} {pc : QuiescePc}
    (h : s.quiesceStep o r pc = some s') : Moves s o (.quiesce r pc) s' := by
  cases pc with
  | enter =>
    simp only [quiesceStep] at h
    split at h
    · next hd =>
      cases h
      exact .quiesceSettled hd
    · next hd =>
      cases h
      exact .quiesceDrain (by simpa using hd)
  | isochStop =>
    cases h
    exact .quiesceStop
  | clearListening =>
    cases h
    exact .quiesceClearListening
  | claim =>
    obtain ⟨e, he, rfl⟩ := region_eq h
    simp only [Engine.region, Engine.claimPending, Option.some.injEq] at he
    subst he
    cases hf : s.eng.cap.firstPending with
    | none =>
      simp only [if_true]
      exact .quiesceNoneLeft hf
    | some d =>
      simp only [reduceCtorEq, if_false]
      exact .quiesceClaim hf
  | claimed =>
    simp only [quiesceStep] at h
    split at h
    · next hc =>
      cases h
      exact .quiesceClaimed hc
    · cases h
  | clearEvent =>
    cases h
    exact .quiesceClearEvent
  | poll =>
    cases h
    split
    · next h => exact .quiesceDrained h
    · next h => exact .quiesceBusy h
  | wait =>
    simp only [quiesceStep] at h
    split at h
    · cases h
      exact .quiesceWait
    · cases h
  | check =>
    cases h
    split
    · next h => exact .quiesceEmpty h
    · next h => exact .quiesceAgain h
  | pumpIdle =>
    simp only [quiesceStep] at h
    split at h
    · cases h
    · next hp =>
      cases h
      exact .quiescePumpIdle (by simpa using hp)
  | clearFirst =>
    cases h
    exact .quiesceReturns

theorem Moves.of_release {s s' : Device} {o : Answer} {r : ReleaseRet} {pc : ReleasePc}
    (h : s.releaseStep o r pc = some s') : Moves s o (.release r pc) s' := by
  cases pc with
  | enter =>
    cases h
    split
    · next hl => exact .releaseListening hl
    · next hl => exact .releaseStopped (by simpa using hl)
  | isochStop =>
    cases h
    exact .releaseStop
  | clearListening =>
    cases h
    exact .releaseClearListening
  | free res flushed =>
    simp only [releaseStep] at h
    split at h
    · next ha =>
      cases h
      exact .releaseFree ha
    · next ha =>
      cases h
      exact .releaseNothing (by simpa using ha)
  | guard flushed =>
    simp only [releaseStep] at h
    split at h
    · next hg =>
      cases h
      obtain ⟨rfl, hq⟩ : flushed = false ∧ _ := by simpa using hg
      exact .releaseHeld hq
    · next hg =>
      cases h
      refine .releaseGuarded ?_
      cases flushed with
      | true => exact .inl rfl
      | false => exact .inr (by simpa using hg)
  | scan i =>
    simp only [releaseStep] at h
    split at h
    · next hi =>
      split at h
      · next hs =>
        simp only [region, Engine.region, hs, if_true, Option.map_some, Option.some.injEq] at h
        subst h
        exact .releaseQuarantined (d := ⟨i, hi⟩) hs
      · next hs =>
        cases h
        exact .releaseSkip (d := ⟨i, hi⟩) hs
    · next hi =>
      cases h
      exact .releaseScanned (Nat.le_of_not_lt hi)
  | deliver i =>
    simp only [releaseStep] at h
    split at h
    · next hc =>
      cases h
      exact .releaseDelivered hc
    · cases h
  | freeMdls =>
    cases h
    exact .releaseReturns

theorem Moves.of_stop {s s' : Device} {o : Answer} {pc : StopPc} (h : s.stopStep pc = some s') :
    Moves s o (.stop pc) s' := by
  cases pc with
  | publish =>
    cases h
    split
    · next h => exact .stopPublish h
    · next h => exact .stopNoEngine h
  | test =>
    cases h
    split
    · next h => exact .stopSettled h
    · next h => exact .stopRunning (by simpa using h)
  | pumpIdle =>
    simp only [stopStep] at h
    split at h
    · cases h
    · next hp =>
      cases h
      exact .stopPumpIdle (by simpa using hp)
  | retry =>
    cases h
    split
    · next h => exact .stopRetry h
    · next h => exact .stopNoRetry (by simpa using h)
  | drainReads =>
    cases h
    exact .stopReturns

theorem Moves.of_listen {s s' : Device} {o : Answer} {r : ListenRet} {pc : ListenPc}
    (h : s.listenStep o r pc = some s') : Moves s o (.listen r pc) s' := by
  cases pc with
  | check =>
    cases h
    split
    · next h => exact .listenNothing (.inl rfl) h
    · next h => exact .listenCheck (by simpa using h)
  | wait =>
    simp only [listenStep] at h
    split at h
    · next hf =>
      cases h
      exact .listenSignalled hf
    · next hf =>
      split at h
      · cases h
        exact .listenTimeout (by simpa using hf)
      · cases h
  | recheck =>
    cases h
    split
    · next h => exact .listenNothing (.inr rfl) h
    · next h => exact .listenRecheck (by simpa using h)
  | submit =>
    simp only [listenStep] at h
    split at h
    · next hs =>
      cases h
      exact .listenSubmit hs
    · next hs =>
      cases h
      exact .listenFailed (by simpa using hs)
  | set =>
    cases h
    exact .listenSet

theorem Moves.of_start {s s' : Device} {o : Answer} {eb : Bool} {pc : StartPc}
    (h : s.startStep o eb pc = some s') : Moves s o (.start eb pc) s' := by
  cases pc with
  | enter =>
    simp only [startStep] at h
    split at h
    · cases h
      exact .startRefused
    · next hlr =>
      obtain ⟨hl, hr⟩ := not_or.mp hlr
      split at h
      · next hd =>
        cases h
        exact .startRunning (by simpa using hl) (by simpa using hd)
      · next hd =>
        split at h
        · cases h
          exact .startRefused
        · cases h
          split
          · next hn => exact .startRetry (by simpa using hl) (by simpa using hr) (by simpa using hd) hn
          · next hn =>
            exact .startFresh (by simpa using hl) (by simpa using hr) (by simpa using hd)
              (by simpa using hn)
  | retried =>
    cases h
    split
    · next h => exact .startQuarantined h
    · next h => exact .startRetried (by simpa using h)
  | configure =>
    simp only [startStep] at h
    split at h <;> cases h
    · exact .startConfigured
    · exact .startNotConfigured (.inl rfl)
  | setupChunks =>
    simp only [startStep] at h
    split at h <;> cases h
    · exact .startChunks
    · exact .startNotConfigured (.inr rfl)
  | allocate res =>
    simp only [startStep] at h
    split at h
    · next hs =>
      split at h
      · cases h
      · next hv =>
        cases h
        exact .startAllocated hs hv
    · next hs =>
      cases h
      exact .startNotAllocated (by simpa using hs)
  | setIsochChannel =>
    cases h
    split
    · exact .startChannelSet
    · exact .startChannelNotSet
  | clearFirst =>
    cases h
    exact .startClearFirst
  | clearCancel =>
    cases h
    exact .startClearCancel
  | undrain =>
    cases h
    exact .startUndrain
  | pump =>
    cases h
    exact .startPump
  | pumped =>
    simp only [startStep] at h
    split at h
    · next hc =>
      cases h
      exact .startPumped hc
    · cases h
  | enable =>
    simp only [startStep] at h
    split at h
    · next ho =>
      cases h
      exact .startOneShot ho
    · next ho =>
      split at h
      · next hl =>
        cases h
        obtain ⟨-, hl⟩ : eb = true ∧ _ := by simpa using hl
        exact .startDeferred (by simpa using ho) hl
      · split at h
        · cases h
          exact .startEnabled (by simpa using ho)
        · cases h
          exact .startNotEnabled (by simpa using ho)
  | publish =>
    cases h
    exact .startPublish

theorem Moves.of_work {s s' : Device} {o : Answer} {pc : WorkPc} (h : s.workStep o pc = some s') :
    Moves s o (.work pc) s' := by
  cases pc with
  | enter =>
    cases h
    split
    · next h => exact .workEnter h
    · next h => exact .workNoEngine h
  | exchange =>
    cases h
    split
    · next h => exact .workCancel h
    · next h => exact .workNoCancel (by simpa using h)
  | test =>
    cases h
    split
    · next h => exact .workSettled h
    · next h => exact .workQuiesce (by simpa using h)
  | decide =>
    simp only [workStep] at h
    split at h
    · next hq =>
      cases h
      exact .workShutdown (by simpa using hq)
    · next hq =>
      cases h
      obtain ⟨hr, hq⟩ : s.ses.removed = false ∧ _ := by simpa using hq
      exact .workResume hr hq
  | pump =>
    cases h
    exact .workPump
  | pumped =>
    simp only [workStep] at h
    split at h
    · next hc =>
      cases h
      exact .workPumped hc
    · cases h
  | enable =>
    simp only [workStep] at h
    split at h
    · next hw =>
      cases h
      obtain ⟨⟨⟨hw, hl⟩, -⟩, -⟩ :
          ((s.ses.enableWanted = true ∧ s.eng.cap.listening = true) ∧ _) ∧ _ := by simpa using hw
      exact .workEnabled hw hl
    · cases h
      exact .workNotEnabled
  | retry =>
    simp only [workStep] at h
    split at h
    · next hr =>
      obtain ⟨hr, hm⟩ : (s.retryListen = true ∨ s.retryEnable = true) ∧ s.ses.removed = false := by
        simpa using hr
      split at h
      · next hc =>
        cases h
        exact .workRequest hr hm hc
      · next hc =>
        cases h
        exact .workGiveUp (Nat.le_of_not_lt hc)
    · next hr =>
      cases h
      refine .workDone ?_
      cases hm : s.ses.removed with
      | true => exact .inr rfl
      | false => exact .inl (by simpa [hm] using hr)
  | requested =>
    simp only [workStep] at h
    split at h
    · next hc =>
      cases h
      exact .workRequested hc
    · cases h

theorem Moves.of_ctlStep {s s' : Device} {o : Answer} (h : s.ctlStep o = some s') :
    Moves s o s.ctl s' := by
  unfold ctlStep at h
  split at h
  · cases h
  · cases h
  · next hc => exact hc ▸ Moves.of_start h
  · next hc => exact hc ▸ Moves.of_stop h
  · next r pc hc =>
    rw [hc]
    cases pc <;> cases h
    · exact .shutdownPublish
    · exact .shutdownDisable
    · exact .shutdownReturns
  · next hc => exact hc ▸ Moves.of_quiesce h
  · next hc => exact hc ▸ Moves.of_release h
  · next hc => exact hc ▸ Moves.of_listen h
  · next hc => exact hc ▸ Moves.of_work h

end Device
end Photonic
