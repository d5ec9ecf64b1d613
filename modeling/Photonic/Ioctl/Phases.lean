import Photonic.Ioctl.Cases
import Photonic.Session.Vacancy

namespace Photonic

namespace Device

structure Sound (s : Device) : Prop where
  engine : Engine.machine.Reachable s.eng
  moded : Moded s
  called : Called s.ctl s.eng.pool
  drains : Drains s

namespace Sound
variable {s s' : Device}

theorem step {a : Act} (h : s.Sound) (hn : s.NoLateClaim a) (hs : s.step a = some s') : s'.Sound := by
  have hx := Steps.of_step hs
  refine ⟨?_, h.moded.steps hx, h.called.steps hx, h.drains.steps h.moded h.engine hn hx⟩
  rcases hx.engine with he | ⟨x, hx⟩
  · exact he ▸ h.engine
  · exact h.engine.step (a := x) trivial hx

theorem renew (h : Engine.machine.Reachable s.eng) : s.renew.Sound where
  engine := Engine.renew_reachable h
  moded := ⟨nofun, fun _ _ => rfl⟩
  called pc hpc x hx := by
    rcases mem_remains hpc with ⟨r, rfl⟩ | ⟨w, rfl⟩ <;> cases hx
  drains := ⟨nofun, nofun, fun _ _ => ⟨⟨rfl, rfl, rfl⟩, remains_free _ (fun _ => rfl) fun _ => rfl⟩⟩

theorem drained (h : s.Sound) (hd : s.eng.cap.draining = true) (hq : s.ctl.quiescing = false) :
    s.Drained := by
  obtain ⟨hstill, hlaps⟩ := h.drains.idle hd hq
  exact ⟨hstill.nonePending, hstill.parked hlaps (.of_reachable h.engine) (.of_reachable h.engine),
    hstill.noIrp, hlaps⟩

end Sound
end Device

/-- Points inside `PhotonicCaptureStop`, called by a handler. -/
def Ctl.stops : Ctl → Bool
  | .stop _ => true
  | .shutdown r _ => r = .stop
  | .quiesce r _ => r = .shutdown .stop
  | .release r _ => r = .shutdown .stop ∨ r = .settled
  | _ => false

namespace Device

def Stopping (s : Device) : Prop :=
  s.ctl.stops = true ∨ s.ctl = .held ∧ s.eng.cap.draining = true

theorem Stopping.moves {s s' : Device} {o : Answer} (h : s.ctl.stops = true) (hm : Moded s)
    (hl : s.life = .alive) (hx : Moves s o s.ctl s') : s'.Stopping := by
  have hmode := hm.mode
  generalize s.ctl = c at hx h hmode
  cases hx with
  | stopNoEngine hn => exact absurd hl hn
  | stopReturns => exact .inr ⟨rfl, hmode true rfl⟩
  | @shutdownReturns r =>
    cases r with
    | stop => exact .inr ⟨rfl, hmode true rfl⟩
    | work => cases h
  | @quiesceSettled r _ | @quiesceReturns r =>
    cases r with
    | shutdown r => exact .inl (by simpa [Ctl.stops, quiesceReturn] using h)
    | work => cases h
  | @releaseHeld r _ | @releaseReturns r =>
    cases r with
    | shutdown r => exact .inl (by simpa [Ctl.stops, releaseReturn] using h)
    | settled => exact .inl rfl
    | startRetry | startFail => cases h
  | quiesceDrain =>
    refine .inl ?_
    simp only [setCap_ctl]
    split <;> exact h
  | stopPublish | stopSettled | stopRunning | stopPumpIdle | stopRetry | stopNoRetry => exact .inl rfl
  | shutdownPublish | shutdownDisable => exact .inl (by simpa [Ctl.stops] using h)
  | quiesceStop | quiesceClearListening | quiesceNoneLeft | quiesceClaim | quiesceClaimed
  | quiesceClearEvent | quiesceDrained | quiesceBusy | quiesceWait | quiesceEmpty | quiesceAgain
  | quiescePumpIdle => exact .inl h
  | releaseListening | releaseStopped | releaseStop | releaseClearListening | releaseFree
  | releaseNothing | releaseGuarded | releaseQuarantined | releaseSkip | releaseScanned
  | releaseDelivered => exact .inl h
  | _ => cases h

theorem Steps.draining_of_shared {s s' : Device} {a : Act} (hs : Steps s a s') (ha : a.shared = true)
    (hc : s.ctl = .held) : s'.ctl = .held ∧ s'.eng.cap.draining = s.eng.cap.draining := by
  cases hs with
  | data hx he => exact ⟨hc, (Engine.data_sameControl (Act.isData hx) he).draining⟩
  | lateListen | lateGrant => exact ⟨hc, rfl⟩
  | workMutex hf =>
    rw [hc] at hf
    cases hf
  | ctl hm =>
    rw [hc] at hm
    cases hm
  | _ => cases ha

theorem Stopping.step {s s' : Device} {a : Act} (h : s.Stopping) (hm : Moded s)
    (hl : s.life = .alive) (ha : a.shared = true) (hs : s.step a = some s') : s'.Stopping := by
  have hx := Steps.of_step hs
  rcases h with h | ⟨hc, hd⟩
  · cases hx with
    | data hx he => exact .inl h
    | lateListen | lateGrant => exact .inl h
    | workMutex hf =>
      rw [hf] at h
      cases h
    | ctl hx => exact Stopping.moves h hm hl hx
    | _ => cases ha
  · obtain ⟨hc', hd'⟩ := hx.draining_of_shared ha hc
    exact .inr ⟨hc', hd'.trans hd⟩

end Device

theorem Bare.step {s s' : Device} {a : Device.Act} (h : Bare s.eng)
    (hr : Engine.machine.Reachable s.eng) (hc : s.ctl = .held) (ha : a.shared = true)
    (hs : s.step a = some s') : s'.ctl = .held ∧ Bare s'.eng := by
  have hx := Device.Steps.of_step hs
  refine ⟨(hx.draining_of_shared ha hc).1, ?_⟩
  cases hx with
  | @data a x e hax he =>
    refine h.data hr (Device.Act.isData hax) ?_ he
    rintro k rfl
    cases a with
    | callPump => cases ha
    | _ => cases hax
  | lateListen | lateGrant => exact h
  | workMutex hf =>
    rw [hc] at hf
    cases hf
  | ctl hm =>
    rw [hc] at hm
    cases hm
  | _ => cases ha

namespace VerbPc

def afterStop : VerbPc → Bool
  | .quarantine _ => true
  | .unmap _ _ next =>
    match next with
    | .unmapped | .release _ => true
    | .map _ | .mapFailed _ _ => false
  | .flush _ | .flushing _ | .destroy _ => true
  | _ => false

/-- The verb is mapping a ring. -/
def maps : VerbPc → Bool
  | .unmap _ _ next =>
    match next with
    | .map _ | .mapFailed _ _ => true
    | .unmapped | .release _ => false
  | .validate _ | .allocate _ _ | .lock _ _ _ | .publish _ => true
  | _ => false

def stops : VerbPc → Bool
  | .stop _ => true
  | pc => pc.afterStop

def pumping : VerbPc → Bool
  | .pumped _ => true
  | _ => false

theorem stops_of_afterStop {pc : VerbPc} (h : pc.afterStop = true) : pc.stops = true := by
  unfold stops
  split
  · rfl
  · exact h

theorem not_pumping_of_ends {pc : VerbPc} (h : pc.ends = true) : pc.pumping = false := by
  cases pc <;> first | rfl | cases h

end VerbPc

namespace IoctlDevice

/-- Where a request goes to work. -/
inductive Entry (s : IoctlDevice) : VerbPc → Prop
  | map {c : Slot} {args : MapArgs} (hc : s.slot = some c) (hm : c.ring.mappedFrameCount = 0)
      (hq : s.dev.eng.cap.hasQuarantinedFrames = false) : Entry s (.unmap 0 false (.map args))
  | stop {next : StopNext} (hs : s.slot ≠ none) : Entry s (.stop next)
  | build {fileObject : ℕ} (hs : s.slot = none) : Entry s (.build fileObject)
  | plain {pc : VerbPc} (hm : pc.maps = false) (hs : pc.stops = false) (hp : pc.pumping = false)
      (hr : pc ≠ .requeue .mapped) (hb : ∀ fileObject, pc ≠ .build fileObject) : Entry s pc

theorem checkOwner_goes {c : Slot} {fileObject : ℕ} {h : Handling} {pc : VerbPc}
    (hg : c.checkOwner fileObject h = .goes pc) : c.fileObject = fileObject ∧ h = .goes pc := by
  unfold Slot.checkOwner at hg
  split at hg
  · next hf => exact ⟨hf, hg⟩
  · cases hg

theorem Entry.of_handler {s : IoctlDevice} {fileObject : ℕ} {verb : Verb} {pc : VerbPc}
    (h : s.handler fileObject verb = .goes pc) : Entry s pc := by
  have hprep : ∀ allow, s.capturePrepare fileObject allow = .goes pc → Entry s pc := by
    intro allow h
    unfold capturePrepare at h
    split at h
    · cases h
    split at h
    · next hc =>
      cases h
      exact .build hc
    · next hc =>
      split at h
      · cases h
      · cases h
        exact .stop (by rw [hc]; nofun)
  have hstart : ∀ v r, s.captureStart fileObject v r = .goes pc → Entry s pc := by
    intro v r h
    unfold captureStart at h
    split at h
    · cases h
    split at h
    · cases h
    · obtain ⟨-, h⟩ := checkOwner_goes h
      split at h <;> cases h
      exact .plain rfl rfl rfl nofun nofun
  cases verb with
  | prepareVideo n =>
    simp only [handler, prepareVideo] at h
    split at h
    · cases h
    · exact hprep _ h
  | prepareImager => exact hprep _ h
  | startVideo | startImager => exact hstart _ _ h
  | stop | unprepare =>
    simp only [handler, stopRequest, unprepareRequest] at h
    split at h
    · cases h
    · next hc =>
      obtain ⟨-, h⟩ := checkOwner_goes h
      cases h
      exact .stop (by rw [hc]; nofun)
  | mapVideoFrame args =>
    simp only [handler, mapVideoFrame] at h
    split at h
    · cases h
    split at h
    · cases h
    · next c hc =>
      obtain ⟨-, h⟩ := checkOwner_goes h
      split at h
      · cases h
      · next hm =>
        split at h
        · cases h
        · next hq =>
          cases h
          exact .map hc (not_not.mp hm) (by simpa using hq)
  | unmapVideoFrame =>
    simp only [handler, unmapVideoFrame] at h
    split at h
    · cases h
    · next hc =>
      obtain ⟨-, h⟩ := checkOwner_goes h
      cases h
      exact .stop (by rw [hc]; nofun)
  | registerEvent handle type =>
    simp only [handler, registerEvent] at h
    split at h
    · cases h
    split at h
    · cases h
    · obtain ⟨-, h⟩ := checkOwner_goes h
      split at h <;> cases h
      exact .plain rfl rfl rfl nofun nofun
  | unregisterEvent handle type =>
    simp only [handler, unregisterEvent] at h
    split at h
    · cases h
    · obtain ⟨-, h⟩ := checkOwner_goes h
      cases h
      exact .plain rfl rfl rfl nofun nofun
  | swTrigger =>
    simp only [handler, swTrigger] at h
    split at h
    · cases h
    split at h
    · cases h
    · obtain ⟨-, h⟩ := checkOwner_goes h
      split at h <;> cases h <;> exact .plain rfl rfl rfl nofun nofun
  | getTransferInfo =>
    simp only [handler, getTransferInfo] at h
    split at h <;> cases h

theorem Enters.entry {s : IoctlDevice} {pc : VerbPc} (h : Enters s pc) : Entry s pc := by
  cases h with
  | @request fileObject contract verb _ h =>
    cases contract with
    | met => exact .of_handler h
    | not32BitCaller | shortBuffer => cases h
  | release hs => exact .stop hs
  | nothing => exact .plain rfl rfl rfl nofun nofun

end IoctlDevice

namespace Device

def Act.keepsLife : Act → Bool
  | .api a => a ≠ .destroy
  | _ => true

theorem Moves.life {s s' : Device} {o : Answer} {c : Ctl} (h : Moves s o c s') : s'.life = s.life := by
  cases h with
  | quiesceStop | releaseStop | releaseFree | startAllocated => simp
  | _ => rfl

theorem Steps.life {s s' : Device} {a : Act} (h : Steps s a s') (ha : a.keepsLife = true) :
    s'.life = s.life := by
  cases h with
  | destroyNone | destroyLeak | destroy => cases ha
  | ctl hm => exact hm.life
  | _ => rfl

end Device

abbrev Unpumped (pool : Multiset Pc) : Prop := Pool.Free Pc.handlerPump pool

namespace Unpumped

theorem exec {e e' : Engine} {pc : Pc} (h : Unpumped (pc ::ₘ e.pool)) (hx : Engine.Exec e pc e') :
    Unpumped e'.pool := by
  have ht := h.tail
  have hh := h.head
  cases hx with
  | electLost | lapDone | workQueued | workQueue | workUndone => exact Engine.free_ret ht rfl
  | irpDoneMore | irpDoneRunning | irpDoneSignal | releaseDeliver => exact ht
  | attachBegun => exact (ht.add rfl).add hh
  | electWon | lapTop | claimNone | claimed | acquiredNone | acquiredShort | acquired | gaveBack
  | rejected | rejectDelivered | publishDraining | published | handedBack | lapAgain => exact ht.add hh
  | _ => exact ht.add rfl

theorem data {e e' : Engine} {x : Engine.Act} (h : Unpumped e.pool) (hx : x.IsData)
    (hn : ∀ k, x ≠ .callPump k) (hs : e.step x = some e') : Unpumped e'.pool := by
  cases x with
  | run pc o =>
    obtain ⟨pool, hpool, hx⟩ := Engine.run_cases hs
    rw [hpool] at h
    exact exec (e := { e with pool := pool }) h hx
  | callback d st =>
    obtain ⟨-, hx⟩ := Engine.callback_cases hs
    cases hx with
    | recycling => exact h.add rfl
    | deferred => exact h
    | alreadyTaken => exact h
  | callPump k => exact absurd rfl (hn k)
  | callRequestWork k | startWork =>
    simp only [Engine.step] at hs
    split at hs <;> cases hs
    exact h.add rfl
  | control r => cases hx

theorem moves {s s' : Device} {o : Answer} {c : Ctl} (h : Unpumped s.eng.pool)
    (hm : Device.Moves s o c s') : Unpumped s'.eng.pool := by
  cases hm with
  | quiesceClaim | releaseQuarantined | startPump | workPump | workRequest => exact h.add rfl
  | quiesceStop | releaseStop | releaseFree => simpa using h
  | @startAllocated eb res _ _ => cases res <;> exact h
  | _ => exact h

theorem steps {s s' : Device} {a : Device.Act} (h : Unpumped s.eng.pool) (hn : a ≠ .callPump)
    (hs : Device.Steps s a s') : Unpumped s'.eng.pool := by
  cases hs with
  | @data a x e hax he =>
    refine h.data (Device.Act.isData hax) ?_ he
    rintro k rfl
    cases a with
    | callPump => exact hn rfl
    | _ => cases hax
  | notifyCancel _ he => exact h.data (x := .callRequestWork .handler) rfl nofun he
  | workMutex _ he =>
    simp only [Engine.region] at he
    split at he <;> cases he
    exact h.mono (Multiset.erase_subset _ _)
  | ctl hm => exact h.moves hm
  | _ => exact h

end Unpumped

namespace Slot

theorem acquire_mapped (c : Slot) : c.acquire.2.ring.mappedFrameCount = c.ring.mappedFrameCount := by
  unfold acquire Ring.framesAcquire
  split
  · rfl
  · next heq =>
    split at heq <;> cases heq
    rfl

theorem acquire_unmapped {c : Slot} (h : c.ring.mappedFrameCount = 0) : c.acquire = (none, c) := by
  have hno : ¬c.ring.Acquirable := fun ha => ha.2.1 h
  simp [acquire, Ring.framesAcquire, hno]

theorem acquire_none (c : Slot) (h : c.acquire.1 = none) : c.acquire.2 = c := by
  unfold acquire at h ⊢
  split
  · rfl
  · next heq =>
    rw [heq] at h
    cases h

theorem deliver_mapped (c : Slot) (b : Bool) (d : Delivery) :
    (c.deliver b d).ring.mappedFrameCount = c.ring.mappedFrameCount := by
  rw [deliver_ring, Events.Timed.framesDeliver_mapped]

end Slot

theorem Device.Feeds.mapped {s s' : Device} {f f' : Option Slot}
    (h : Device.Feeds Slot.callbacks s s' f f') :
    f'.map (·.ring.mappedFrameCount) = f.map (·.ring.mappedFrameCount) := by
  cases h with
  | acquires | finds =>
    cases f with
    | none => rfl
    | some c => exact congrArg some c.acquire_mapped
  | delivers =>
    cases f with
    | none => rfl
    | some c => exact congrArg some (c.deliver_mapped _ _)
  | silent => rfl

theorem Vacant.feed {s s' : Device} {a : Device.Act} {c : Slot} {f' : Option Slot} (h : Vacant s.eng)
    (hr : Engine.machine.Reachable s.eng) (hm : c.ring.mappedFrameCount = 0)
    (hs : s.feed Slot.callbacks (some c) a = some (s', f')) : Vacant s'.eng := by
  refine h.steps hr ?_ (.of_step (Device.feed_step hs))
  cases Device.Feeds.of_feed hs with
  | acquires hans =>
    rw [show (Slot.callbacks.acquire (some c)).1 = c.acquire.1 from rfl, Slot.acquire_unmapped hm] at hans
    cases hans
  | finds _ ha | delivers _ ha | silent ha => exact ha

namespace IoctlDevice

/-- What the engine's state is for a verb to go on. -/
structure Phased (s : IoctlDevice) : Prop where
  sound : s.dev.Sound
  alive : s.slot ≠ none → s.dev.life = .alive
  pin : s.pinOpen = true → s.slot = none
  pumps : s.slot ≠ none → s.pc.pumping = false → Unpumped s.dev.eng.pool
  owned : s.pc.stops = true ∨ s.pc.maps = true → s.slot ≠ none
  stopped : s.pc.afterStop = true → s.dev.Stopping
  mapping : s.pc.maps = true → s.dev.ctl = .held ∧ Bare s.dev.eng
  vacant : ∀ c, s.slot = some c → c.ring.mappedFrameCount = 0 → Vacant s.dev.eng

/-- No frame callback takes the last attached descriptor behind the quiesce's last poll. -/
def NoLateClaim (s : IoctlDevice) : Act → Prop
  | .dev a => s.dev.NoLateClaim a
  | _ => True

instance (s : IoctlDevice) (a : Act) : Decidable (s.NoLateClaim a) :=
  match a with
  | .dev a => inferInstanceAs (Decidable (s.dev.NoLateClaim a))
  | .request _ _ _ | .verb _ | .pass _ | .fire _ _ _ | .cleanup _ | .surpriseRemoval | .uninit
  | .openPin | .closePin => .isTrue trivial

end IoctlDevice
end Photonic
