import Photonic.Session.Binding
import Photonic.Session.Quiesce

namespace Photonic

def FrameState.leaving : FrameState → Bool
  | .detaching | .detachFailed => true
  | .free | .attaching | .completedWhileAttaching | .pending => false

theorem Frame.leaving_update {frames : FrameId → Frame} {d d₀ : FrameId} {f : Frame}
    (h : (Function.update frames d₀ f d).state.leaving = true)
    (hf : f.state.leaving = true → (frames d₀).state.leaving = true) :
    (frames d).state.leaving = true := by
  by_cases hd : d = d₀
  · subst hd
    rw [Function.update_self] at h
    exact hf h
  · rwa [Function.update_of_ne hd] at h

namespace Engine

theorem Exec.leaving {e e' : Engine} {pc : Pc} {d : FrameId} (hp : Placed e.cap (pc ::ₘ e.pool))
    (hx : Exec e pc e') (h : (e'.cap.frames d).state.leaving = true) :
    (e.cap.frames d).state.leaving = true ∨ (e.cap.frames d).state = .completedWhileAttaching := by
  cases hx with
  | attachFailed | attachDraining | attachPublished | detachDone | gaveBack | rejected
  | publishDraining | published => exact .inl (Frame.leaving_update h nofun)
  | @attachFrameDone d₀ _ _ _ hs =>
    by_cases hd : d = d₀
    · subst hd
      exact .inr hs
    · exact .inl (by simpa [hd] using h)
  | @detachFailed d₀ =>
    refine .inl (Frame.leaving_update h fun _ => ?_)
    rw [show (e.cap.frames d₀).state = _ from ((hp d₀).owned_detach rfl).1]
    rfl
  | acquired => exact .inl (Frame.leaving_update h id)
  | electLost | lapDone | workQueued | workQueue | workUndone =>
    rw [ret_cap] at h
    exact .inl h
  | _ => exact .inl h

theorem data_keeps_quarantine {e e' : Engine} {x : Act} {d : FrameId} (hp : Placed e.cap e.pool)
    (hi : Informed e.cap.frames e.bus e.pool) (hx : x.IsData) (hs : e.step x = some e')
    (hq : (e.cap.frames d).state = .detachFailed) : e'.cap.frames d = e.cap.frames d := by
  cases x with
  | run pc o =>
    obtain ⟨pool, hpool, hx⟩ := run_cases hs
    refine hx.frame_of_not_owner fun st ho => ?_
    have hpos := held_pos_of_mem (hpool ▸ Multiset.mem_cons_self pc pool) ho
    have hzero := (hp d).of_detachFailed hq st
    omega
  | callback d₀ st =>
    obtain ⟨ha, hx⟩ := callback_cases hs
    have hne : d ≠ d₀ := by
      rintro rfl
      have hf := hi.fits d
      simp only [Frame.Fits, hq] at hf
      rw [ha] at hf
      cases hf
    cases hx with
    | recycling => exact Function.update_of_ne hne _ _
    | deferred => exact Function.update_of_ne hne _ _
    | alreadyTaken => rfl
  | callPump k | callRequestWork k | startWork =>
    simp only [step] at hs
    split at hs <;> cases hs
    rfl
  | control r => cases hx

theorem data_leaving {e e' : Engine} {x : Act} {d : FrameId} (hp : Placed e.cap e.pool)
    (hx : x.IsData) (hs : e.step x = some e') (h : (e'.cap.frames d).state.leaving = true) :
    (e.cap.frames d).state.leaving = true ∨ (e.cap.frames d).state = .pending ∨
      (e.cap.frames d).state = .completedWhileAttaching := by
  cases x with
  | run pc o =>
    obtain ⟨pool, hpool, hx⟩ := run_cases hs
    rw [hpool] at hp
    exact (Exec.leaving (e := { e with pool := pool }) hp hx h).imp id .inr
  | callback d₀ st =>
    obtain ⟨-, hx⟩ := callback_cases hs
    cases hx with
    | recycling hpend =>
      by_cases hd : d = d₀
      · subst hd
        exact .inr (.inl hpend)
      · exact .inl (by simpa [hd] using h)
    | deferred => exact .inl (Frame.leaving_update h nofun)
    | alreadyTaken => exact .inl h
  | callPump k | callRequestWork k | startWork =>
    simp only [step] at hs
    split at hs <;> cases hs
    exact .inl h
  | control r => cases hx

end Engine

theorem Still.quarantined_of_leaving {c : Capture} {pool : Multiset Pc} {d : FrameId} (h : Still c)
    (hc : Counted c pool) (hl : (c.frames d).state.leaving = true) :
    (c.frames d).state = .detachFailed := by
  have hbus := not_atBus_of_framesAtBus_eq_zero (hc.eq_zero h.noIrp).1 d
  cases hstate : (c.frames d).state with
  | detachFailed => rfl
  | detaching =>
    rw [hstate] at hbus
    cases hbus
  | _ =>
    rw [hstate] at hl
    cases hl

theorem Still.no_new_quarantine {e e' : Engine} {x : Engine.Act} {d : FrameId} (h : Still e.cap)
    (hp : Placed e.cap e.pool) (hc : Counted e.cap e.pool) (hx : x.IsData) (hs : e.step x = some e')
    (hq : (e'.cap.frames d).state = .detachFailed) : (e.cap.frames d).state = .detachFailed := by
  have hl : (e'.cap.frames d).state.leaving = true := by
    rw [hq]
    rfl
  rcases Engine.data_leaving hp hx hs hl with hl | hl | hl
  · exact h.quarantined_of_leaving hc hl
  · exact absurd hl ((hp d).not_pending h.nonePending)
  · have hbus := not_atBus_of_framesAtBus_eq_zero (hc.eq_zero h.noIrp).1 d
    rw [hl] at hbus
    cases hbus

/-- The quarantined descriptors a release has yet to visit. -/
def ReleasePc.mayHold : ReleasePc → FrameId → Bool
  | .scan i, d => i ≤ d
  | .deliver i, d => i < d
  | .freeMdls, _ => false
  | _, _ => true

namespace Ctl

/-- The descriptors that may be quarantined when the executor is at a point: none while
it opens a session or frees the chunk MDLs, and those its release has yet to visit. -/
def mayHold : Ctl → FrameId → Bool
  | .release r pc, d => r ≠ .startFail && pc.mayHold d
  | .start _ pc, _ =>
    match pc with
    | .enter | .retried | .pump | .pumped | .enable | .publish => true
    | _ => false
  | _, _ => true

/-- The release has flushed the handle. -/
def flushed : Ctl → Bool
  | .release _ (.free _ flushed) => flushed
  | .release _ (.guard flushed) => flushed
  | _ => false

def passed : Ctl → Bool
  | .release _ (.scan _) => true
  | .release _ (.deliver _) => true
  | _ => false

theorem mode_of_not_mayHold {c : Ctl} {d : FrameId} (h : c.mayHold d = false) :
    c.mode = some true ∧ c.quiescing = false := by
  cases c with
  | release r pc => exact ⟨rfl, rfl⟩
  | start eb pc => cases pc <;> first | exact ⟨rfl, rfl⟩ | cases h
  | _ => cases h

theorem flushed_afterFree (r : ReleaseRet) (b : Bool) (res : Resource) :
    (Ctl.release r (Device.afterFree b res)).flushed = b := by
  cases res <;> rfl

theorem mode_of_passed {c : Ctl} (h : c.passed = true) : c.mode = some true ∧ c.quiescing = false := by
  cases c with
  | release r pc => exact ⟨rfl, rfl⟩
  | _ => cases h

end Ctl

/-- The quarantine: where a buffer may be held, and what the release has established
before it lets go of one. -/
structure Quarantine (s : Device) : Prop where
  bound : ∀ d, (s.eng.cap.frames d).state.leaving = true → s.eng.Bound d
  held : ∀ d, (s.eng.cap.frames d).state = .detachFailed → s.ctl.mayHold d = true ∧ s.life ≠ .freed
  flushed : s.ctl.flushed = true → s.eng.cap.resourceHandle ∈ s.bus.flushed
  passed : s.ctl.passed = true → ∀ d, (s.eng.cap.frames d).state = .detachFailed →
    s.eng.cap.resourceHandle ∈ s.bus.flushed
  gone : s.life ≠ .alive → s.eng.cap.draining = true

/-- Without a descriptor in a detach there is nothing to hold. -/
theorem Quarantine.of_none {s : Device} (h : ∀ d, (s.eng.cap.frames d).state.leaving = false)
    (hf : s.ctl.flushed = false) (hd : s.life ≠ .alive → s.eng.cap.draining = true) :
    Quarantine s where
  bound d hl := by
    rw [h d] at hl
    cases hl
  held d hq := by
    have := h d
    rw [hq] at this
    cases this
  flushed hc := by
    rw [hf] at hc
    cases hc
  passed _ d hq := by
    have := h d
    rw [hq] at this
    cases this
  gone := hd

theorem Quarantine.keep {s s' : Device} (h : Quarantine s) (hc : s.eng.cap.frames = s'.eng.cap.frames)
    (hb : s'.eng.bus = s.eng.bus) (hh : s'.eng.cap.resourceHandle = s.eng.cap.resourceHandle)
    (he : s'.eng.cap.chunkEpoch = s.eng.cap.chunkEpoch)
    (hl : s'.life = s.life) (hd : s'.life ≠ .alive → s.eng.cap.draining = true → s'.eng.cap.draining = true)
    (hm : ∀ d, (s.eng.cap.frames d).state = .detachFailed → s.ctl.mayHold d = true →
      s'.ctl.mayHold d = true)
    (hf : s'.ctl.flushed = true → s.eng.cap.resourceHandle ∈ s'.bus.flushed)
    (hp : s'.ctl.passed = true → ∀ d, (s.eng.cap.frames d).state = .detachFailed →
      s.eng.cap.resourceHandle ∈ s'.bus.flushed) : Quarantine s' where
  bound d hd := by
    rw [← hc] at hd
    obtain ⟨h₁, h₂⟩ := h.bound d hd
    exact ⟨by rw [hb, hh, h₁], by rw [hb, he, h₂]⟩
  held d hq := by
    rw [← hc] at hq
    obtain ⟨h₁, h₂⟩ := h.held d hq
    exact ⟨hm d hq h₁, hl ▸ h₂⟩
  flushed hc' := hh ▸ hf hc'
  passed hc' d hq := by
    rw [← hc] at hq
    exact hh ▸ hp hc' d hq
  gone hne := hd hne (h.gone (hl ▸ hne))

/-- What the run has established before about a reached state. -/
structure Device.Settles (s : Device) : Prop where
  drains : Drains s
  moded : Moded s
  alive : s.Alive
  tied : Tied s.eng
  engine : Engine.machine.Reachable s.eng

theorem Device.Settles.still {s : Device} (h : s.Settles) (hd : s.eng.cap.draining = true)
    (hq : s.ctl.quiescing = false) : Still s.eng.cap := (h.drains.idle hd hq).1

theorem Ctl.not_quiescing_of_not_usesEngine {c : Ctl} (h : c.usesEngine = false) :
    c.quiescing = false := by
  cases c with
  | quiesce => cases h
  | _ => rfl

theorem Quarantine.data {s : Device} {e : Engine} {x : Engine.Act} {ses : Session} (h : Quarantine s)
    (hr : s.Settles) (hx : x.IsData) (hs : s.eng.step x = some e) :
    Quarantine { s with eng := e, ses := ses } := by
  have hp := Placed.of_reachable hr.engine
  have hi := Informed.of_reachable hr.engine
  have hc := Counted.of_reachable hr.engine
  have hsame := Engine.data_sameControl hx hs
  refine ⟨fun d hl => ?_, fun d hq => ?_, fun hf => ?_, fun hpass d hq => ?_, fun hne => ?_⟩
  · refine Engine.data_keeps_bound hx hs ?_
    rcases Engine.data_leaving hp hx hs hl with hl | hl
    · exact h.bound d hl
    · exact hr.tied.bound hi hl
  · by_contra hno
    -- where the memory need not be held the engine stands still: no detach fails anew
    have hstill : Still s.eng.cap := by
      by_cases hm : s.ctl.mayHold d = true
      · have hlife : s.life = .freed := by
          by_contra hlife
          exact hno ⟨hm, hlife⟩
        have hne : s.life ≠ .alive := by
          rw [hlife]
          nofun
        have huse : s.ctl.usesEngine = false := by
          by_contra hu
          exact hne (hr.alive (by simpa using hu))
        exact hr.still (h.gone hne) (Ctl.not_quiescing_of_not_usesEngine huse)
      · obtain ⟨hmode, hq⟩ := Ctl.mode_of_not_mayHold (by simpa using hm)
        exact hr.still (hr.moded.mode true hmode) hq
    exact hno (h.held d (hstill.no_new_quarantine hp hc hx hs hq))
  · exact hsame.resourceHandle ▸ h.flushed hf
  · obtain ⟨hmode, hnq⟩ := Ctl.mode_of_passed hpass
    have hstill := hr.still (hr.moded.mode true hmode) hnq
    exact hsame.resourceHandle ▸ h.passed hpass d (hstill.no_new_quarantine hp hc hx hs hq)
  · exact hsame.draining.trans (h.gone hne)

namespace Device
section
variable (s : Device) (o : Answer)

@[simp] theorem isochStop_flushed : (s.isochStop o).bus.flushed = s.bus.flushed := by
  unfold isochStop
  split <;> rfl

theorem freeOne_flushed (res : Resource) (h : ℕ) (hm : h ∈ s.bus.flushed) :
    h ∈ (s.freeOne o res).bus.flushed := by
  unfold freeOne
  split
  · dsimp only
    split
    · exact List.mem_cons_of_mem _ hm
    · exact hm
  · exact hm

theorem flushed_freeOne_handle (h : o.irb.succeeded = true) :
    s.eng.cap.resourceHandle ∈ (s.freeOne o .handle).bus.flushed := by
  have hsub := IrbOutcome.submitted_of_succeeded h
  simp [freeOne, hsub, h, Bus.flush, value]

end

/-- Only the current handle's free has flushed when the release says so. -/
theorem Settles.none_leaving {s : Device} (h : s.Settles) (hm : s.ctl.mode = some true)
    (hq : s.ctl.quiescing = false) (hn : ∀ d, (s.eng.cap.frames d).state ≠ .detachFailed) (d : FrameId) :
    (s.eng.cap.frames d).state.leaving = false := by
  by_contra hl
  have hstill := h.still (h.moded.mode true hm) hq
  exact hn d (hstill.quarantined_of_leaving (Counted.of_reachable h.engine) (by simpa using hl))

end Device

theorem Quarantine.moves {s s' : Device} {o : Answer} (h : Quarantine s) (hr : s.Settles)
    (hx : Device.Moves s o s.ctl s') : Quarantine s' := by
  have hheld := h.held
  have hflushed := h.flushed
  have hpassed := h.passed
  have halive : s.ctl.usesEngine = true → s.life = .alive := hr.alive
  -- where nothing may be quarantined, nothing is in a detach
  have hnone : s.ctl.mode = some true → s.ctl.quiescing = false → (∀ d, s.ctl.mayHold d = false) →
      ∀ d, (s.eng.cap.frames d).state.leaving = false := by
    refine fun hm hq hno => hr.none_leaving hm hq fun d hd => ?_
    have := (h.held d hd).1
    rw [hno d] at this
    cases this
  -- a step that leaves the engine's memory alone, or writes fields the quarantine does not read
  have keep : ∀ t : Device, t.eng.cap.frames = s.eng.cap.frames → t.eng.bus = s.eng.bus →
      t.eng.cap.resourceHandle = s.eng.cap.resourceHandle →
      t.eng.cap.chunkEpoch = s.eng.cap.chunkEpoch → t.life = s.life →
      (t.life ≠ .alive → s.eng.cap.draining = true → t.eng.cap.draining = true) →
      (∀ d, (s.eng.cap.frames d).state = .detachFailed → s.ctl.mayHold d = true →
        t.ctl.mayHold d = true) → t.ctl.flushed = false → t.ctl.passed = false → Quarantine t := by
    intro t hc hb hh he hl hd hm hf hp
    refine h.keep hc.symm hb hh he hl hd hm (fun h => ?_) (fun h => ?_)
    · rw [hf] at h
      cases h
    · rw [hp] at h
      cases h
  generalize hctl : s.ctl = c at hx hheld hflushed hpassed halive hnone keep
  cases hx with
  | @quiesceClaim r d₀ hf =>
    have hpend := Capture.state_of_firstPending hf
    refine ⟨fun d hl => ?_, fun d hq => ?_, nofun, nofun, h.gone⟩
    · have hb : s.eng.Bound d := by
        by_cases hd : d = d₀
        · subst hd
          exact hr.tied.bound (Informed.of_reachable hr.engine) (.inl hpend)
        · exact h.bound d (by simpa [hd] using hl)
      exact ⟨hb.handle, hb.chunkEpoch⟩
    · have hne : d ≠ d₀ := by
        rintro rfl
        simp at hq
      exact ⟨rfl, (hheld d (by simpa [hne] using hq)).2⟩
  | @releaseQuarantined r d₀ hq =>
    have hne : ∀ d, ((s.releaseQuarantined d₀ (.release r (.deliver d₀))).eng.cap.frames d).state =
        .detachFailed → d ≠ d₀ ∧ (s.eng.cap.frames d).state = .detachFailed := by
      intro d hd
      by_cases hd' : d = d₀
      · subst hd'
        simp at hd
      · exact ⟨hd', by simpa [hd'] using hd⟩
    refine ⟨fun d hl => ?_, fun d hd => ?_, nofun, fun _ d hd => ?_, h.gone⟩
    · obtain ⟨h₁, h₂⟩ := h.bound d (Frame.leaving_update hl nofun)
      exact ⟨h₁, h₂⟩
    · obtain ⟨hd', hd⟩ := hne d hd
      obtain ⟨hm, hl⟩ := hheld d hd
      simp only [Ctl.mayHold, ReleasePc.mayHold, Bool.and_eq_true, decide_eq_true_eq] at hm
      refine ⟨?_, hl⟩
      simp only [Device.releaseQuarantined_ctl, Ctl.mayHold, ReleasePc.mayHold, Bool.and_eq_true,
        decide_eq_true_eq]
      exact ⟨hm.1, lt_of_le_of_ne hm.2 fun heq => hd' (Fin.ext heq.symm)⟩
    · exact hpassed rfl d (hne d hd).2
  | @releaseReturns r =>
    refine Quarantine.of_none (hnone rfl rfl fun d => ?_) (by cases r <;> rfl) h.gone
    simp [Ctl.mayHold, ReleasePc.mayHold]
  | startChunks =>
    refine Quarantine.of_none (hnone rfl rfl fun _ => rfl) ?_ h.gone
    simp only [Device.setCap_ctl]
    split <;> rfl
  | @startAllocated eb res =>
    have hno := hnone (by cases res <;> rfl) (by cases res <;> rfl) fun d => by cases res <;> rfl
    cases res <;> exact Quarantine.of_none hno rfl h.gone
  | @releaseFree r res flushed ha =>
    refine h.keep (by simp) (by simp) (by simp) (by simp) (by simp) (by simp) (fun d _ hm => ?_)
      (fun hf => ?_) (fun hp => ?_)
    · rw [hctl] at hm
      cases res <;> exact hm
    · rw [Device.goto_ctl, Ctl.flushed_afterFree, Bool.or_eq_true] at hf
      rcases hf with hf | hf
      · exact s.freeOne_flushed o res _ (hflushed hf)
      · obtain ⟨rfl, hok⟩ : res = .handle ∧ o.irb.succeeded = true := by simpa using hf
        exact s.flushed_freeOne_handle o hok
    · cases res <;> cases hp
  | @releaseNothing r res flushed ha =>
    refine h.keep rfl rfl rfl rfl rfl (fun _ hd => hd) (fun d _ hm => ?_) (fun hf => ?_) (fun hp => ?_)
    · rw [hctl] at hm
      cases res <;> exact hm
    · rw [Device.goto_ctl, Ctl.flushed_afterFree] at hf
      exact hflushed hf
    · cases res <;> cases hp
  | @releaseGuarded r flushed hg =>
    refine h.keep rfl rfl rfl rfl rfl (fun _ hd => hd) (fun d _ hm => ?_) nofun (fun _ d hq => ?_)
    · rw [hctl] at hm
      simpa [Ctl.mayHold, ReleasePc.mayHold] using hm
    · rcases hg with hg | hg
      · exact hflushed hg
      · rw [(s.eng.cap.hasQuarantinedFrames_iff).mpr ⟨d, hq⟩] at hg
        cases hg
  | @releaseSkip r d₀ hs =>
    refine h.keep rfl rfl rfl rfl rfl (fun _ hd => hd) (fun d hq hm => ?_) nofun
      (fun _ => hpassed rfl)
    have hne : d₀ ≠ d := by
      rintro rfl
      exact hs hq
    rw [hctl] at hm
    simp only [Ctl.mayHold, ReleasePc.mayHold, Device.goto_ctl, Bool.and_eq_true,
      decide_eq_true_eq] at hm ⊢
    exact ⟨hm.1, lt_of_le_of_ne hm.2 fun heq => hne (Fin.ext heq)⟩
  | @releaseScanned r i hi =>
    refine h.keep rfl rfl rfl rfl rfl (fun _ hd => hd) (fun d _ hm => ?_) nofun nofun
    rw [hctl] at hm
    simp only [Ctl.mayHold, ReleasePc.mayHold, Bool.and_eq_true, decide_eq_true_eq] at hm
    have := d.isLt
    omega
  | @releaseDelivered r i =>
    refine h.keep rfl rfl rfl rfl rfl (fun _ hd => hd) (fun d _ hm => ?_) nofun (fun _ => hpassed rfl)
    rw [hctl] at hm
    exact hm
  | startUndrain | workResume =>
    exact keep _ rfl rfl rfl rfl rfl (fun hl _ => absurd (halive rfl) hl) (fun _ _ _ => rfl) rfl rfl
  | startFresh _ _ _ hn =>
    refine keep _ rfl rfl rfl rfl rfl (fun _ hd => hd) (fun d hq _ => ?_) rfl rfl
    have hany := (s.eng.cap.hasQuarantinedFrames_iff).mpr ⟨d, hq⟩
    simp [Device.needsReleaseRetry, hany] at hn
  | startRetried hn =>
    refine keep _ rfl rfl rfl rfl rfl (fun _ hd => hd) (fun d hq _ => ?_) rfl rfl
    rw [(s.eng.cap.hasQuarantinedFrames_iff).mpr ⟨d, hq⟩] at hn
    cases hn
  | startNotConfigured hpc =>
    rcases hpc with rfl | rfl
    all_goals exact keep _ rfl rfl rfl rfl rfl (fun _ hd => hd) (fun _ _ hm => hm) rfl rfl
  | startConfigured | startClearFirst | startClearCancel | startNotAllocated | startChannelSet
  | startChannelNotSet | releaseListening | releaseStopped | releaseClearListening =>
    exact keep _ rfl rfl rfl rfl rfl (fun _ hd => hd) (fun _ _ hm => hm) rfl rfl
  | quiesceDrain =>
    refine keep _ rfl rfl rfl rfl rfl (fun _ _ => rfl) (fun _ _ _ => ?_) ?_ ?_
    all_goals
      simp only [Device.setCap_ctl]
      split <;> rfl
  | quiesceStop =>
    exact keep _ (by simp) (by simp) (by simp) (by simp) (by simp) (by simp) (fun _ _ _ => rfl) rfl rfl
  | releaseStop =>
    exact keep _ (by simp) (by simp) (by simp) (by simp) (by simp) (by simp) (fun _ _ hm => hm) rfl rfl
  | @quiesceSettled r _ | @quiesceReturns r | @releaseHeld r _ | @shutdownReturns r
  | @listenNothing r _ _ _ | @listenTimeout r _ | @listenFailed r _ | @listenSet r =>
    cases r <;>
      exact keep _ rfl rfl rfl rfl rfl (fun _ hd => hd) (fun _ _ _ => rfl) rfl rfl
  | _ => exact keep _ rfl rfl rfl rfl rfl (fun _ hd => hd) (fun _ _ _ => rfl) rfl rfl

theorem Quarantine.steps {s s' : Device} {a : Device.Act} (h : Quarantine s) (hr : s.Settles)
    (hs : Device.Steps s a s') : Quarantine s' := by
  cases hs with
  | data ha hx => exact h.data hr (Device.Act.isData ha) hx
  | notifyCancel _ hx => exact h.data hr (x := .callRequestWork .handler) rfl hx
  | lateListen | lateGrant => exact ⟨h.bound, h.held, h.flushed, h.passed, h.gone⟩
  | workMutex hc he =>
    simp only [Engine.region] at he
    split at he <;> cases he
    exact h.keep rfl rfl rfl rfl rfl (fun _ hd => hd) (fun _ _ _ => rfl) (by rintro ⟨⟩)
      (by rintro ⟨⟩)
  | destroyNone => exact h
  | destroyLeak hc _ hd =>
    refine ⟨h.bound, fun d hq => ⟨(h.held d hq).1, (by rintro ⟨⟩)⟩, h.flushed, h.passed, fun _ =>
      hd⟩
  | destroy hc _ hd hn =>
    have hstill := hr.still hd (by rw [hc]; rfl)
    refine Quarantine.of_none (fun d => ?_) (by rw [show _ = Ctl.held from hc]; rfl) (fun _ => hd)
    by_contra hl
    have hq : (s.eng.cap.frames d).state = .detachFailed :=
      hstill.quarantined_of_leaving (Counted.of_reachable hr.engine) (by simpa using hl)
    rw [(s.eng.cap.hasQuarantinedFrames_iff).mpr ⟨d, hq⟩] at hn
    cases hn
  | setState | setOneShot => exact ⟨h.bound, h.held, h.flushed, h.passed, h.gone⟩
  | ctl hx => exact h.moves hr hx
  | _ =>
    refine h.keep rfl rfl rfl rfl rfl (fun _ hd => hd) (fun _ _ _ => rfl) ?_ ?_
    · rintro ⟨⟩
    · rintro ⟨⟩

namespace Device

theorem Settles.of_reaches {s : Device} (h : machine.Reaches NoLateClaim s) : s.Settles :=
  ⟨.of_reaches (fun _ _ hp => hp) h, .of_reaches h, .of_reaches h, .of_reaches h, engine_reachable h⟩

end Device

theorem Quarantine.of_reaches {s : Device} (h : Device.machine.Reaches Device.NoLateClaim s) :
    Quarantine s := by
  refine h.invariant (I := Quarantine) (Quarantine.of_none (fun _ => rfl) rfl fun _ => rfl) ?_
  intro s a s' hr hi _ hs
  exact hi.steps (.of_reaches hr) (.of_step hs)

namespace Device

/-- While the buffer of `d` is quarantined its read is with the engine, its chunk MDLs and
the engine's memory are not freed, no session starts, and a step that lets go of it finds
the free of its handle completed with success. -/
structure KeepsQuarantine (s s' : Device) (d : FrameId) : Prop where
  undelivered : s.eng.deliveredCount (s.eng.cap.frames d).cookie <
    s.eng.acquired.count (s.eng.cap.frames d).cookie
  mdls : (s.eng.bus d).chunkEpoch = s.eng.cap.chunkEpoch
  memory : s.life ≠ .freed
  noStart : s.eng.cap.draining = true → s'.eng.cap.draining = true
  flushed : (s'.eng.cap.frames d).state ≠ .detachFailed → (s.eng.bus d).handle ∈ s.bus.flushed

theorem deliveredCount_lt {e : Engine} (hb : Balanced e e.pool) {d : FrameId}
    (hq : (e.cap.frames d).state = .detachFailed) :
    e.deliveredCount (e.cap.frames d).cookie < e.acquired.count (e.cap.frames d).cookie := by
  have hc := hb (e.cap.frames d).cookie
  have hone : (e.cap.frames d).records (e.cap.frames d).cookie = 1 := by simp [Frame.records, hq]
  have hle : (e.cap.frames d).records (e.cap.frames d).cookie ≤
      recorded e.cap.frames (e.cap.frames d).cookie :=
    Finset.single_le_sum (f := fun d' => (e.cap.frames d').records (e.cap.frames d).cookie)
      (fun _ _ => Nat.zero_le _) (Finset.mem_univ d)
  unfold Engine.deliveredCount
  omega

theorem Steps.passed_of_released {s s' : Device} {a : Act} {d : FrameId} (hs : Steps s a s')
    (hp : Placed s.eng.cap s.eng.pool) (hi : Informed s.eng.cap.frames s.eng.bus s.eng.pool)
    (hq : (s.eng.cap.frames d).state = .detachFailed)
    (hq' : (s'.eng.cap.frames d).state ≠ .detachFailed) : s.ctl.passed = true := by
  have hsame : s'.eng.cap.frames d ≠ s.eng.cap.frames d := fun heq => hq' (heq ▸ hq)
  cases hs with
  | data ha hx => exact absurd (Engine.data_keeps_quarantine hp hi (Act.isData ha) hx hq) hsame
  | notifyCancel _ hx =>
    exact absurd (Engine.data_keeps_quarantine hp hi (x := .callRequestWork .handler) rfl hx hq) hsame
  | workMutex _ he =>
    simp only [Engine.region] at he
    split at he <;> cases he
    exact absurd rfl hsame
  | ctl hx =>
    generalize hctl : s.ctl = c at hx
    cases hx with
    | releaseQuarantined => rfl
    -- what the quiesce claims is pending, so it is another descriptor
    | @quiesceClaim r d₀ hf =>
      have hne : d ≠ d₀ := by
        rintro rfl
        rw [Capture.state_of_firstPending hf] at hq
        cases hq
      exact absurd (Function.update_of_ne hne _ _) hsame
    | @startAllocated eb res => cases res <;> exact absurd rfl hsame
    | quiesceStop | releaseStop | releaseFree => exact absurd (by simp) hsame
    | _ => exact absurd rfl hsame
  | _ => exact absurd rfl hsame

theorem Steps.draining_of_quarantine {s s' : Device} {a : Act} {d : FrameId} (hs : Steps s a s')
    (h : Quarantine s) (hq : (s.eng.cap.frames d).state = .detachFailed)
    (hd : s.eng.cap.draining = true) : s'.eng.cap.draining = true := by
  have hheld := (h.held d hq).1
  cases hs with
  | data ha hx => exact (Engine.data_sameControl (Act.isData ha) hx).draining.trans hd
  | notifyCancel _ hx =>
    exact (Engine.data_sameControl (a := .callRequestWork .handler) rfl hx).draining.trans hd
  | workMutex _ he =>
    simp only [Engine.region] at he
    split at he <;> cases he
    exact hd
  | ctl hx =>
    generalize s.ctl = c at hx hheld
    cases hx with
    | startUndrain => cases hheld
    | workResume _ hn =>
      rw [(s.eng.cap.hasQuarantinedFrames_iff).mpr ⟨d, hq⟩] at hn
      cases hn
    | @startAllocated eb res => cases res <;> exact hd
    | quiesceStop | releaseStop | releaseFree => simpa using hd
    | quiesceDrain => rfl
    | _ => exact hd
  | _ => exact hd

/-- In every run in which no frame callback takes the last attached descriptor after the
quiesce's last poll, every step keeps the quarantine. -/
theorem quarantine_kept {s s' : Device} {a : Act} (h : machine.Reaches NoLateClaim s)
    (hs : machine.step s a = some s') {d : FrameId} (hq : (s.eng.cap.frames d).state = .detachFailed) : s.KeepsQuarantine s' d := by
  have hkeep := Quarantine.of_reaches h
  have hsteps := Steps.of_step hs
  have he := engine_reachable h
  have hleave : (s.eng.cap.frames d).state.leaving = true := by
    rw [hq]
    rfl
  obtain ⟨hhandle, hepoch⟩ := hkeep.bound d hleave
  refine ⟨deliveredCount_lt (.of_reachable he) hq, hepoch, (hkeep.held d hq).2,
    hsteps.draining_of_quarantine hkeep hq, fun hq' => ?_⟩
  rw [hhandle]
  exact hkeep.passed (hsteps.passed_of_released (.of_reachable he) (.of_reachable he) hq hq') d hq

/-- A status the bus driver fails a request with. -/
def statusUnsuccessful : NtStatus := 0xC0000001

def quarantineRun : List Act :=
  listeningRun ++ [Act.acquireMutex, .api .stop] ++ List.replicate 8 Act.go ++
    [Act.runs (.beginDetach .control 0)] ++ List.replicate 4 Act.go ++
    [Act.run (.detachAtBus 0) ⟨statusUnsuccessful, none, true⟩,
      .runs (.detachComplete 0 statusUnsuccessful 7 0 statusCancelled), .runs .irpDone,
      .runs .irpDoneTest, .runs .irpDoneSignal] ++ List.replicate 10 Act.go

theorem quarantine_kept_quarantineRun :
    ∃ s', machine.step (machine.after NoLateClaim quarantineRun) .go = some s' ∧
      (s'.eng.cap.frames 0).state = .free ∧
      (machine.after NoLateClaim quarantineRun).KeepsQuarantine s' 0 := by
  have hfree : (machine.step (machine.after NoLateClaim quarantineRun) .go).map
      (fun s' => (s'.eng.cap.frames 0).state) = some .free := by decide
  obtain ⟨s', hs, hf⟩ := Option.map_eq_some_iff.mp hfree
  exact ⟨s', hs, hf, quarantine_kept (machine.reaches_after NoLateClaim quarantineRun) hs (by decide)⟩

/-- The quiesce has returned with a detach under way. The free of the handle fails, the
release finds nothing quarantined, and then the detach fails. -/
def escapeRun : List Act :=
  lateClaimRun ++ [Act.go, .goWith (.completed statusUnsuccessful)] ++ List.replicate 4 Act.go ++
    [Act.runs (.beginDetach .handler 1), .run (.detachAtBus 1) ⟨statusUnsuccessful, none, true⟩,
      .runs (.detachComplete 1 statusUnsuccessful 9 8 statusSuccess)]

/-- The release lets go of a buffer whose handle no free has flushed. -/
theorem quarantine_escapes : ¬∀ s s' a d, machine.Reaches HeedsStop s → machine.step s a = some s' →
    (s.eng.cap.frames d).state = .detachFailed → s.KeepsQuarantine s' d := by
  intro h
  have hfree : (machine.step (machine.after HeedsStop escapeRun) .go).map
      (fun s' => (s'.eng.cap.frames 1).state) = some .free := by decide
  obtain ⟨s', hs, hf⟩ := Option.map_eq_some_iff.mp hfree
  have hkeep := h _ s' .go 1 (machine.reaches_after HeedsStop escapeRun) hs (by decide)
  have hno : ((machine.after HeedsStop escapeRun).eng.bus 1).handle ∉
      (machine.after HeedsStop escapeRun).bus.flushed := by decide
  refine hno (hkeep.flushed ?_)
  rw [hf]
  nofun

end Device
end Photonic
