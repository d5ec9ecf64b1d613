import Photonic.Session.Mode

namespace Photonic

namespace Ctl

/-- What `StreamState` is when the executor is at a point, where that is fixed. -/
def streamState : Ctl → Option KsState
  | .free | .held => none
  | .start _ pc =>
    match pc with
    | .enter | .publish => none
    | _ => some .stop
  | .stop pc =>
    match pc with
    | .publish => none
    | _ => some .stop
  | .shutdown _ pc =>
    match pc with
    | .publish => none
    | _ => some .stop
  | .quiesce r _ =>
    match r with
    | .shutdown _ => some .stop
    | .work => some .run
  | .release _ _ => some .stop
  | .listen r _ =>
    match r with
    | .start _ => some .stop
    | _ => none
  | .work pc =>
    match pc with
    | .decide | .pump | .pumped => some .run
    | _ => none

/-- The stream runs exactly while the engine does not drain. -/
def agrees : Ctl → Bool
  | .free | .held => true
  | .start _ pc => pc = .enter
  | .listen r _ =>
    match r with
    | .start _ => false
    | _ => true
  | .work pc =>
    match pc with
    | .decide | .pump | .pumped => false
    | _ => true
  | _ => false

end Ctl

structure Running (s : Device) : Prop where
  either : s.ses.streamState = .stop ∨ s.ses.streamState = .run
  fixed : ∀ st, s.ctl.streamState = some st → s.ses.streamState = st
  agrees : s.ctl.agrees = true → (s.ses.streamState = .run ↔ s.eng.cap.draining = false)

namespace Running
variable {s s' : Device}

theorem stopped (h : Running s) (ha : s.ctl.agrees = true) (hd : s.eng.cap.draining = true) :
    s.ses.streamState = .stop := by
  refine h.either.resolve_right fun hrun => ?_
  rw [(h.agrees ha).mp hrun] at hd
  cases hd

theorem keep (h : Running s) (hs : s'.ses.streamState = s.ses.streamState)
    (hd : s'.eng.cap.draining = s.eng.cap.draining)
    (hf : ∀ st, s'.ctl.streamState = some st → s.ses.streamState = st)
    (ha : s'.ctl.agrees = true → (s.ses.streamState = .run ↔ s.eng.cap.draining = false)) :
    Running s' where
  either := by rw [hs]; exact h.either
  fixed st hst := hs.trans (hf st hst)
  agrees := by rw [hs, hd]; exact ha

theorem data {e : Engine} {x : Engine.Act} (h : Running s) (hx : x.IsData)
    (hs : s.eng.step x = some e) {ses : Session} (hst : ses.streamState = s.ses.streamState) :
    Running { s with eng := e, ses := ses } := by
  refine h.keep hst (Engine.data_sameControl hx hs).draining h.fixed h.agrees

theorem moves {o : Answer} (h : Running s) (hm : Moded s) (hr : s.Retired)
    (hx : Device.Moves s o s.ctl s') : Running s' := by
  have hfixed := h.fixed
  have hagrees := h.agrees
  have hmode := hm.mode
  generalize s.ctl = c at hx hfixed hagrees hmode
  cases hx with
  | shutdownPublish => exact ⟨.inl rfl, fun _ hst => Option.some.inj hst, (by rintro ⟨⟩)⟩
  | stopPublish => exact ⟨.inl rfl, fun _ hst => Option.some.inj hst, (by rintro ⟨⟩)⟩
  | stopNoEngine hl => exact ⟨.inl rfl, (by rintro _ ⟨⟩), fun _ => by simp [hr hl]⟩
  | startPublish => exact ⟨.inr rfl, (by rintro _ ⟨⟩), fun _ => by simp [hmode false rfl]⟩
  -- `Draining` changes where the stream state is fixed
  | @quiesceDrain r hd =>
    refine ⟨h.either, fun st hst => hfixed st ?_, fun ha => ?_⟩
    · cases r <;> exact hst
    · simp only [Device.setCap_ctl] at ha
      split at ha <;> cases ha
  | startUndrain => exact ⟨h.either, hfixed, (by rintro ⟨⟩)⟩
  | workResume => exact ⟨h.either, hfixed, (by rintro ⟨⟩)⟩
  | startRetry _ _ hd | startFresh _ _ hd =>
    have hstop : s.ses.streamState = .stop := by
      refine h.either.resolve_right fun hrun => ?_
      rw [(hagrees rfl).mp hrun] at hd
      cases hd
    exact ⟨.inl hstop, fun st hst => hstop.trans (Option.some.inj hst), (by rintro ⟨⟩)⟩
  | workQuiesce hd =>
    have hrun := (hagrees rfl).mpr hd
    exact ⟨.inr hrun, fun st hst => hrun.trans (Option.some.inj hst), (by rintro ⟨⟩)⟩
  | startQuarantined =>
    refine h.keep rfl rfl (by rintro _ ⟨⟩) fun _ => ?_
    simp [hfixed .stop rfl, hmode true rfl]
  | stopReturns =>
    refine h.keep rfl rfl (by rintro _ ⟨⟩) fun _ => ?_
    simp [hfixed .stop rfl, hmode true rfl]
  | @shutdownReturns r =>
    have hstop := hfixed .stop rfl
    have hd := hmode true rfl
    cases r with
    | stop | work => exact h.keep rfl rfl (by rintro _ ⟨⟩) fun _ => by simp [hstop, hd]
  | @releaseHeld r _ | @releaseReturns r =>
    have hstop := hfixed .stop rfl
    have hd := hmode true rfl
    refine h.keep rfl rfl ?_ ?_ <;> cases r
    all_goals simp [Ctl.streamState, Ctl.agrees, Device.releaseReturn, hstop, hd]
  | @quiesceSettled r _ | @quiesceReturns r =>
    refine h.keep rfl rfl ?_ ?_ <;> cases r
    all_goals simp_all [Ctl.streamState, Ctl.agrees, Device.quiesceReturn]
  | workPumped =>
    refine h.keep rfl rfl (by rintro _ ⟨⟩) fun _ => ?_
    simp [hfixed .run rfl, hmode false rfl]
  | quiesceStop | releaseStop =>
    refine h.keep (by simp) (by simp) ?_ ?_
    · simp_all [Ctl.streamState]
    · simp_all [Ctl.agrees]
  | @releaseFree r res =>
    refine h.keep ?_ (by simp) (fun _ hst => hfixed _ hst) (by rintro ⟨⟩)
    show (s.freeOne o res).ses.streamState = s.ses.streamState
    unfold Device.freeOne
    split
    · cases res <;> rfl
    · rfl
  | @startAllocated eb res ho hv =>
    refine h.keep (by cases res <;> rfl) (by cases res <;> rfl) ?_ ?_
    · cases res <;> simp_all [Ctl.streamState, Device.afterAllocate]
    · cases res <;> simp_all [Ctl.agrees, Device.afterAllocate]
  | startNotConfigured hpc =>
    rcases hpc with rfl | rfl
    all_goals exact h.keep rfl rfl (fun _ hst => hfixed _ hst) (by rintro ⟨⟩)
  | startChunks =>
    refine h.keep rfl rfl ?_ ?_
    · split <;> simp_all [Ctl.streamState]
    · split <;> simp_all [Ctl.agrees]
  | @listenNothing r _ hpc _ =>
    refine h.keep rfl rfl ?_ ?_ <;> rcases hpc with rfl | rfl <;> cases r
    all_goals simp_all [Ctl.streamState, Ctl.agrees, Device.listenReturn]
  | @listenTimeout r _ | @listenFailed r _ | @listenSet r =>
    refine h.keep rfl rfl ?_ ?_ <;> cases r
    all_goals simp_all [Ctl.streamState, Ctl.agrees, Device.listenReturn]
  | _ =>
    refine h.keep rfl rfl ?_ ?_
    · simp_all [Ctl.streamState]
    · simp_all [Ctl.agrees]

theorem steps {a : Device.Act} (h : Running s) (hm : Moded s) (hr : s.Retired)
    (ha : ∀ st, a ≠ .api (.setState st)) (hs : Device.Steps s a s') : Running s' := by
  have hagrees := h.agrees
  cases hs with
  | data ha hx => exact h.data (Device.Act.isData ha) hx rfl
  | notifyCancel _ hx => exact h.data (x := .callRequestWork .handler) rfl hx rfl
  | lateListen | lateGrant => exact ⟨h.either, h.fixed, h.agrees⟩
  | workMutex hc he =>
    simp only [Engine.region] at he
    split at he <;> cases he
    rw [hc] at hagrees
    exact h.keep rfl rfl (by rintro _ ⟨⟩) fun _ => hagrees rfl
  | ctl hx => exact h.moves hm hr hx
  | destroyNone => exact h
  | destroyLeak => exact ⟨h.either, h.fixed, h.agrees⟩
  | destroy => exact ⟨h.either, h.fixed, h.agrees⟩
  | @setState st => exact absurd rfl (ha st)
  | setOneShot => exact ⟨h.either, h.fixed, h.agrees⟩
  | stop | surpriseRemoval => exact h.keep rfl rfl (by rintro _ ⟨⟩) (by rintro ⟨⟩)
  | acquireMutex hc | releaseMutex hc | start hc | ensureListen hc _ =>
    rw [hc] at hagrees
    exact h.keep rfl rfl (by rintro _ ⟨⟩) fun _ => hagrees rfl

end Running
end Photonic
