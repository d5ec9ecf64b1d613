import Photonic.Engine.Renewal
import Photonic.Session.FrontEnd
import Photonic.Session.Idle

namespace Photonic

/-- The activity is to deliver a good frame at another length than `n`. -/
def Pc.misreports (n : ℕ) : Pc → Bool
  | .attachFailed _ status => ntSuccess status
  | .detachComplete _ _ _ bytes completion => ntSuccess completion && bytes ≠ n
  | .detachDeliver _ bytes completion => ntSuccess completion && bytes ≠ n
  | _ => false

/-- A good frame is reported at the length `n`. -/
def Delivery.Whole (n : ℕ) (d : Delivery) : Prop := ntSuccess d.status = true → d.bytesUsed = n

theorem Pc.whole_of_delivery {n : ℕ} {pc : Pc} {d : Delivery} (h : pc.misreports n = false)
    (hd : pc.delivery = some d) : d.Whole n := by
  intro hs
  cases pc with
  | attachFailed | detachDeliver =>
    cases hd
    simp_all [misreports]
  | releaseDeliver =>
    cases hd
    simp at hs
  | pump k pc =>
    cases pc with
    | rejectDeliver | handBack =>
      cases hd
      simp at hs
    | _ => cases hd
  | _ => cases hd

def Pc.attaches : Pc → Bool
  | .attachAtBus _ | .attachComplete _ _ _ | .beginDetach _ _ | .detachAtBus _ => true
  | pc => pc.lapHolds

structure Unstarted (e : Engine) : Prop where
  draining : e.cap.draining = true
  nonePending : e.cap.pendingList = []
  free : Pool.Free Pc.attaches e.pool
  disarmed : ∀ d, (e.bus d).armed = false

namespace Unstarted
variable {e e' : Engine}

theorem setCap (h : Unstarted e) {cap : Capture} (hd : cap.draining = e.cap.draining)
    (hp : cap.pendingList = e.cap.pendingList) : Unstarted { e with cap } :=
  ⟨hd.trans h.draining, hp.trans h.nonePending, h.free, h.disarmed⟩

theorem spawn (h : Unstarted e) {pc : Pc} (hpc : pc.attaches = false) : Unstarted (e.spawn pc) :=
  ⟨h.draining, h.nonePending, h.free.add hpc, h.disarmed⟩

theorem exec {pc : Pc} (h : Unstarted { e with pool := pc ::ₘ e.pool }) (hx : Engine.Exec e pc e') :
    Unstarted e' := by
  have hpc := h.free.head
  have ht : Unstarted e := ⟨h.draining, h.nonePending, h.free.tail, h.disarmed⟩
  have hpending := hx.pending_subset h.draining
  rw [h.nonePending] at hpending
  refine ⟨hx.sameControl.draining.trans h.draining, List.subset_nil.mp hpending, ?_, ?_⟩
  · cases hx with
    | claimed hn =>
      rw [ht.draining] at hn
      cases hn
    | attachAccepted | attachRefused | detachAtBus | attachFailed | attachFrameDone | attachDraining
    | attachPublished | beginDetach | acquiredNone | acquiredShort | acquired | gaveBack | rejected
    | rejectDelivered | publishDraining | published | handedBack | attachBegun => cases hpc
    | electLost | lapDone | workQueued | workQueue | workUndone => exact Engine.free_ret ht.free rfl
    | irpDoneMore | irpDoneRunning | irpDoneSignal | releaseDeliver => exact ht.free
    | _ => exact ht.free.add rfl
  · cases hx with
    | attachRefused | beginDetach | attachBegun => cases hpc
    | electLost | lapDone | workQueued | workQueue | workUndone =>
      rw [Engine.ret_bus]
      exact ht.disarmed
    | _ => exact ht.disarmed

theorem data {x : Engine.Act} (h : Unstarted e) (hx : x.IsData) (hs : e.step x = some e') :
    Unstarted e' := by
  cases x with
  | run pc o =>
    obtain ⟨pool, hpool, hx⟩ := Engine.run_cases hs
    refine exec (e := { e with pool := pool }) ?_ hx
    rw [← hpool]
    exact h
  | callback d st =>
    obtain ⟨ha, -⟩ := Engine.callback_cases hs
    rw [h.disarmed d] at ha
    cases ha
  | callPump k | callRequestWork k | startWork =>
    simp only [Engine.step] at hs
    split at hs <;> cases hs
    exact ⟨h.draining, h.nonePending, h.free.add rfl, h.disarmed⟩
  | control r => cases hx

theorem takeWorker (h : Unstarted e) (hs : e.region .takeWorker = some e') : Unstarted e' := by
  simp only [Engine.region] at hs
  split at hs <;> cases hs
  exact ⟨h.draining, h.nonePending, h.free.mono (Multiset.erase_subset _ _), h.disarmed⟩

theorem renew (e : Engine) : Unstarted e.renew where
  draining := rfl
  nonePending := rfl
  free := remains_free _ (fun _ => rfl) fun _ => rfl
  disarmed _ := rfl

end Unstarted

/-- The executor is past the configuration of a session. -/
def Ctl.configured : Ctl → Bool
  | .free | .held | .stop _ => false
  | .start _ pc =>
    match pc with
    | .enter | .retried | .configure => false
    | _ => true
  | .shutdown _ _ | .quiesce _ _ => true
  | .release r _ =>
    match r with
    | .shutdown _ => true
    | _ => false
  | .listen r _ =>
    match r with
    | .start _ => true
    | _ => false
  | .work pc =>
    match pc with
    | .decide | .pump | .pumped => true
    | _ => false

namespace Device

structure Unconfigured (s : Device) : Prop where
  ctl : s.ctl.configured = false
  eng : Unstarted s.eng

/-- The executor configures the first stream, or does not get as far. -/
theorem Unconfigured.moves {s s' : Device} {o : Answer} (h : s.Unconfigured)
    (hm : Moves s o s.ctl s') :
    s'.Unconfigured ∨ ∃ eb, s.ctl = .start eb .configure ∧ s'.ctl = .start eb .setupChunks := by
  obtain ⟨hctl, he⟩ := h
  have hd := he.draining
  have hend : ∀ {Q : Prop} (t : Device), t.eng = s.eng → t.ctl.configured = false →
      t.Unconfigured ∨ Q := fun t ht hc => .inl ⟨hc, ht ▸ he⟩
  generalize s.ctl = c at hm hctl ⊢
  cases hm with
  | startConfigured => exact .inr ⟨_, rfl, rfl⟩
  | startRunning _ hn | stopRunning hn | workQuiesce hn =>
    rw [hd] at hn
    cases hn
  | releaseStop => exact hend _ (isochStop_eng s o) hctl
  | releaseFree => exact hend _ (freeOne_eng s o _) hctl
  | releaseClearListening => exact .inl ⟨hctl, he.setCap rfl rfl⟩
  | releaseQuarantined => exact .inl ⟨hctl, ⟨hd, he.nonePending, he.free.add rfl, he.disarmed⟩⟩
  | @releaseReturns r =>
    refine .inl ⟨?_, he.setCap rfl rfl⟩
    cases r <;> first | rfl | cases hctl
  | @releaseHeld r =>
    refine hend _ rfl ?_
    cases r <;> first | rfl | cases hctl
  | @listenSet r =>
    refine .inl ⟨?_, he.setCap rfl rfl⟩
    cases r <;> first | rfl | cases hctl
  | @listenNothing r | @listenTimeout r | @listenFailed r =>
    refine hend _ rfl ?_
    cases r <;> first | rfl | cases hctl
  | workRequest => exact .inl ⟨rfl, he.spawn rfl⟩
  | releaseListening | releaseStopped | releaseNothing | releaseGuarded | releaseSkip
  | releaseScanned | releaseDelivered | listenCheck | listenSignalled | listenRecheck
  | listenSubmit => exact hend _ rfl hctl
  | startRefused | startRetry | startFresh | startQuarantined | startRetried | startNotConfigured
  | stopPublish | stopNoEngine | stopSettled | stopPumpIdle | stopRetry | stopNoRetry | stopReturns
  | workNoEngine | workEnter | workCancel | workNoCancel | workSettled | workEnabled
  | workNotEnabled | workGiveUp | workDone | workRequested => exact hend _ rfl rfl
  | _ => cases hctl

theorem Unconfigured.steps {s s' : Device} {a : Act} (h : s.Unconfigured) (hs : Steps s a s') :
    s'.Unconfigured ∨ ∃ eb, s.ctl = .start eb .configure ∧ s'.ctl = .start eb .setupChunks := by
  cases hs with
  | data ha hx => exact .inl ⟨h.ctl, h.eng.data (Act.isData ha) hx⟩
  | notifyCancel _ hx => exact .inl ⟨h.ctl, h.eng.data (x := .callRequestWork .handler) rfl hx⟩
  | workMutex _ he => exact .inl ⟨rfl, h.eng.takeWorker he⟩
  | ctl hm => exact h.moves hm
  | destroy => exact .inl ⟨h.ctl, h.eng.setCap rfl rfl⟩
  | lateListen | lateGrant | destroyNone | destroyLeak | setState | setOneShot =>
    exact .inl ⟨h.ctl, h.eng⟩
  | acquireMutex | releaseMutex | start | stop | ensureListen | surpriseRemoval =>
    exact .inl ⟨rfl, h.eng⟩

theorem configured_of_step {s s' : Device} {a : Act} {eb : Bool} (hs : s.step a = some s')
    (hc : s.ctl = .start eb .configure) (hc' : s'.ctl = .start eb .setupChunks) :
    ∃ o, a = .ctl o ∧ o.ok = true ∧ s'.eng.cap.frameBytes = o.frameBytes := by
  have hx := Steps.of_step hs
  cases hx with
  | @ctl o _ _ =>
    simp only [step, ctlStep, hc, startStep] at hs
    split at hs <;> cases hs
    · exact ⟨o, rfl, ‹_›, rfl⟩
    · cases hc'
  | data | notifyCancel | lateListen | lateGrant | destroyNone | destroyLeak | destroy | setState
  | setOneShot =>
    have hsame := hc.symm.trans hc'
    cases hsame
  | acquireMutex h | releaseMutex h | workMutex h | start h | stop h | ensureListen h
  | surpriseRemoval h =>
    rw [hc] at h
    cases h

theorem Moves.frameBytes {s s' : Device} {o : Answer} {c : Ctl} (hm : Moves s o c s') :
    s'.eng.cap.frameBytes = s.eng.cap.frameBytes ∨
      ∃ eb, c = .start eb .configure ∧ s'.ctl = .start eb .setupChunks := by
  cases hm with
  | startConfigured => exact .inr ⟨_, rfl, rfl⟩
  | quiesceStop | releaseStop | releaseFree => exact .inl (by simp)
  | @startAllocated eb res => exact .inl (by cases res <;> rfl)
  | _ => exact .inl rfl

theorem Steps.frameBytes {s s' : Device} {a : Act} (hs : Steps s a s') :
    s'.eng.cap.frameBytes = s.eng.cap.frameBytes ∨
      ∃ eb, s.ctl = .start eb .configure ∧ s'.ctl = .start eb .setupChunks := by
  cases hs with
  | data ha hx => exact .inl (Engine.data_sameControl (Act.isData ha) hx).frameBytes
  | notifyCancel _ hx =>
    exact .inl (Engine.data_sameControl (a := .callRequestWork .handler) rfl hx).frameBytes
  | workMutex _ he =>
    simp only [Engine.region] at he
    split at he <;> cases he
    exact .inl rfl
  | ctl hm => exact hm.frameBytes
  | _ => exact .inl rfl

theorem Moves.pool {s s' : Device} {o : Answer} {c : Ctl} (hm : Moves s o c s') :
    s'.eng.pool = s.eng.pool ∨ ∃ pc, s'.eng.pool = pc ::ₘ s.eng.pool ∧ pc.isControl = true := by
  cases hm with
  | quiesceClaim | releaseQuarantined | startPump | workPump | workRequest =>
    exact .inr ⟨_, rfl, rfl⟩
  | quiesceStop | releaseStop | releaseFree => exact .inl (by simp)
  | @startAllocated eb res => exact .inl (by cases res <;> rfl)
  | _ => exact .inl rfl

def Programs (n : ℕ) (s : Device) : Act → Prop
  | .ctl o => ∀ eb, s.ctl = .start eb .configure → o.ok = true → o.frameBytes = n
  | _ => True

/-- The engine is programmed with the frame length `n`, or with none yet, and reports good frames
at that length only. -/
structure Framed (n : ℕ) (s : Device) : Prop where
  programmed : s.eng.cap.frameBytes = n ∨ s.Unconfigured
  reports : Pool.Free (Pc.misreports n) s.eng.pool
  delivered : ∀ d ∈ s.eng.delivered, d.Whole n

namespace Framed
variable {n : ℕ} {s s' : Device}

theorem of_unconfigured (h : s.Unconfigured) (hp : Pool.Free (Pc.misreports n) s.eng.pool)
    (hd : s.eng.delivered = []) : Framed n s :=
  ⟨.inr h, hp, by simp [hd]⟩

theorem frameBytes_eq (h : Framed n s) {pc : Pc} (hpc : pc ∈ s.eng.pool) (ha : pc.attaches = true) :
    s.eng.cap.frameBytes = n := by
  refine h.programmed.resolve_right fun hu => ?_
  rw [hu.eng.free pc hpc] at ha
  cases ha

end Framed

end Device

/-- An activity's step reports good frames at the length that is programmed. -/
theorem Engine.Exec.reports {n : ℕ} {e e' : Engine} {pc : Pc}
    (h : Pool.Free (Pc.misreports n) (pc ::ₘ e.pool))
    (hf : pc.attaches = true → e.cap.frameBytes = n) (hx : Engine.Exec e pc e') :
    Pool.Free (Pc.misreports n) e'.pool := by
  have hpc := h.head
  have ht := h.tail
  cases hx with
  | detachAtBus hb =>
    refine ht.add ?_
    rw [hf rfl] at hb
    rw [hb]
    cases hs : ntSuccess (e.cap.frames _).completionStatus <;> simp [Pc.misreports, hs]
  | attachFailed hst => exact ht.add hst
  | detachDone => exact ht.add hpc
  | attachBegun => exact (ht.add rfl).add rfl
  | electLost | lapDone | workQueued | workQueue | workUndone => exact Engine.free_ret ht rfl
  | irpDoneMore | irpDoneRunning | irpDoneSignal | releaseDeliver => exact ht
  | _ => exact ht.add rfl

namespace Device
namespace Framed
variable {n : ℕ} {s s' : Device}

theorem data {x : Engine.Act} {e : Engine} (h : Framed n s) (hx : x.IsData) (hs : s.eng.step x = some e) :
    Pool.Free (Pc.misreports n) e.pool ∧ ∀ d ∈ e.delivered, d.Whole n := by
  cases x with
  | run pc o =>
    obtain ⟨pool, hpool, hx⟩ := Engine.run_cases hs
    have hmem : pc ∈ s.eng.pool := hpool ▸ Multiset.mem_cons_self pc pool
    refine ⟨Engine.Exec.reports (e := { s.eng with pool := pool }) (hpool ▸ h.reports)
      (h.frameBytes_eq hmem) hx, fun d hd => ?_⟩
    rw [hx.delivered, List.mem_append] at hd
    obtain hd | hd := hd
    · exact h.delivered d hd
    · exact Pc.whole_of_delivery (h.reports pc hmem) (Option.mem_toList.mp hd)
  | callback d st =>
    obtain ⟨-, hx⟩ := Engine.callback_cases hs
    cases hx with
    | recycling => exact ⟨h.reports.add rfl, h.delivered⟩
    | deferred | alreadyTaken => exact ⟨h.reports, h.delivered⟩
  | callPump k | callRequestWork k | startWork =>
    simp only [Engine.step] at hs
    split at hs <;> cases hs
    exact ⟨h.reports.add rfl, h.delivered⟩
  | control r => cases hx

theorem step {a : Act} (h : Framed n s) (hp : s.Programs n a) (hs : s.step a = some s') :
    Framed n s' := by
  have hx := Steps.of_step hs
  have hconfigured : ∀ eb, s.ctl = .start eb .configure → s'.ctl = .start eb .setupChunks →
      s'.eng.cap.frameBytes = n := by
    intro eb hc hc'
    obtain ⟨o, rfl, hok, hbytes⟩ := configured_of_step hs hc hc'
    exact hbytes.trans (hp eb hc hok)
  have hprogrammed : s'.eng.cap.frameBytes = n ∨ s'.Unconfigured := by
    obtain hn | hu := h.programmed
    · obtain hsame | ⟨eb, hc, hc'⟩ := hx.frameBytes
      · exact .inl (hsame.trans hn)
      · exact .inl (hconfigured eb hc hc')
    · obtain hu' | ⟨eb, hc, hc'⟩ := hu.steps hx
      · exact .inr hu'
      · exact .inl (hconfigured eb hc hc')
  suffices hpool : Pool.Free (Pc.misreports n) s'.eng.pool ∧ ∀ d ∈ s'.eng.delivered, d.Whole n from
    ⟨hprogrammed, hpool.1, hpool.2⟩
  cases hx with
  | data ha hx => exact h.data (Act.isData ha) hx
  | notifyCancel _ hx => exact h.data (x := .callRequestWork .handler) rfl hx
  | workMutex _ he =>
    simp only [Engine.region] at he
    split at he <;> cases he
    exact ⟨h.reports.mono (Multiset.erase_subset _ _), h.delivered⟩
  | ctl hm =>
    rw [hm.calls.2]
    refine ⟨?_, h.delivered⟩
    obtain hpool | ⟨pc, hpool, hcontrol⟩ := hm.pool
    · exact hpool ▸ h.reports
    · rw [hpool]
      refine h.reports.add ?_
      cases pc <;> first | rfl | cases hcontrol
  | _ => exact ⟨h.reports, h.delivered⟩

theorem create : Framed n Device.create :=
  of_unconfigured ⟨rfl, rfl, rfl, Pool.free_zero, fun _ => rfl⟩ Pool.free_zero rfl

theorem of_reaches {s₀ : Device} (h₀ : Framed n s₀)
    (h : Machine.Reaches ⟨s₀, Device.step⟩ (Programs n) s) : Framed n s :=
  h.invariant (I := Framed n) h₀ fun _ _ _ _ hi hp hs => hi.step hp hs

/-- A buffer of at least the frame length goes on to the bus. -/
theorem accepts (h : Framed n s) {k : Caller} {i : ℕ} {d : FrameId} {o : Oracle} {cookie : Cookie}
    {bytes : ℕ} (hs : s.step (.run (.pump k (.acquire i d)) o) = some s')
    (ho : o.acquired = some (cookie, some bytes)) (hn : n ≤ bytes) :
    s'.eng.pool = .pump k (.publish i d cookie) ::ₘ s.eng.pool.erase (.pump k (.acquire i d)) := by
  obtain ⟨e, he, rfl⟩ := data_eq (x := .run (.pump k (.acquire i d)) o) hs
  obtain ⟨pool, hpool, hc⟩ := Engine.acquire_cases he
  have hbytes := h.frameBytes_eq (hpool ▸ Multiset.mem_cons_self _ pool) rfl
  rw [ho] at hc
  cases hc with
  | short hshort =>
    simp only [Option.all_some, decide_eq_true_eq] at hshort
    omega
  | some =>
    rw [hpool, Multiset.erase_cons_head]
    rfl

end Framed
end Device
end Photonic
