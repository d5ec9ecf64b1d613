import Photonic.Session.Camera
import Photonic.Session.Vacancy

namespace Photonic
namespace Ctl

def stopComing : Ctl → Bool
  | .stop pc =>
    match pc with
    | .publish | .test => true
    | _ => false
  | .shutdown _ pc =>
    match pc with
    | .publish | .disable => true
    | .drainReads => false
  | .quiesce r pc =>
    match pc with
    | .enter =>
      match r with
      | .shutdown _ => true
      | .work => false
    | _ => false
  | _ => false

/-- A start has found no surprise removal. -/
def admitted : Ctl → Bool
  | .start _ .enter => false
  | c => c.inStart

/-- A start has cleared `Draining` and has not published KSSTATE_RUN yet. -/
def starting : Ctl → Bool
  | .start _ pc =>
    match pc with
    | .pump | .pumped | .enable | .publish => true
    | _ => false
  | .listen r _ =>
    match r with
    | .start _ => true
    | _ => false
  | _ => false

def resuming : Ctl → Bool
  | .quiesce r _ =>
    match r with
    | .work => true
    | .shutdown _ => false
  | .work pc =>
    match pc with
    | .decide => true
    | _ => false
  | _ => false

end Ctl

/-- Where the engine may run. -/
structure Halts (s : Device) : Prop where
  stopped : s.ses.streamState = .stop →
    s.eng.cap.draining = true ∨ s.ctl.stopComing = true ∨ s.ctl.starting = true
  removed : s.ses.removed = true → s.eng.cap.draining = true ∨ s.ctl.stopComing = true
  admitted : s.ctl.admitted = true → s.ses.removed = false
  resuming : s.ctl.resuming = true → s.ses.streamState ≠ .stop

theorem Device.freeOne_published (s : Device) (o : Answer) (res : Resource) :
    (s.freeOne o res).ses.streamState = s.ses.streamState ∧
      (s.freeOne o res).ses.removed = s.ses.removed := by
  unfold Device.freeOne
  split
  · cases res <;> exact ⟨rfl, rfl⟩
  · exact ⟨rfl, rfl⟩

namespace Halts
variable {s s' : Device}

/-- A step that publishes nothing and goes on in the same phase. -/
theorem keep {c : Ctl} (h : Halts s) (hctl : s.ctl = c)
    (hst : s'.ses.streamState = s.ses.streamState) (hrm : s'.ses.removed = s.ses.removed)
    (hd : s.eng.cap.draining = true → s'.eng.cap.draining = true) (hc : c.stopComing = false)
    (hg : s'.ctl.starting = c.starting) (ha : s'.ctl.admitted = true → c.admitted = true)
    (hr : s'.ctl.resuming = c.resuming) : Halts s' := by
  subst hctl
  have hn : ¬s.ctl.stopComing = true := by simp [hc]
  refine ⟨fun hs => ?_, fun hs => ?_, fun hx => hrm.trans (h.admitted (ha hx)), fun hx => ?_⟩
  · rcases h.stopped (hst ▸ hs) with hx | hx | hx
    · exact .inl (hd hx)
    · exact absurd hx hn
    · exact .inr (.inr (hg.trans hx))
  · rcases h.removed (hrm ▸ hs) with hx | hx
    · exact .inl (hd hx)
    · exact absurd hx hn
  · rw [hst]
    exact h.resuming (hr ▸ hx)

/-- A step to a point that is on the way to the quiesce. -/
theorem of_stopComing (h : Halts s) (hrm : s'.ses.removed = s.ses.removed)
    (hc : s'.ctl.stopComing = true) (ha : s'.ctl.admitted = true → s.ctl.admitted = true)
    (hr : s'.ctl.resuming = false) : Halts s' where
  stopped _ := .inr (.inl hc)
  removed _ := .inr hc
  admitted hx := hrm.trans (h.admitted (ha hx))
  resuming hx := by
    rw [hr] at hx
    cases hx

theorem of_draining (h : Halts s) (hrm : s'.ses.removed = s.ses.removed)
    (hd : s'.eng.cap.draining = true) (ha : s'.ctl.admitted = true → s.ctl.admitted = true)
    (hr : s'.ctl.resuming = true → s'.ses.streamState ≠ .stop) : Halts s' where
  stopped _ := .inl hd
  removed _ := .inl hd
  admitted hx := hrm.trans (h.admitted (ha hx))
  resuming := hr

theorem moves {o : Answer} (h : Halts s) (hm : Moded s) (hret : s.Retired)
    (hx : Device.Moves s o s.ctl s') : Halts s' := by
  generalize hctl : s.ctl = c at hx
  have hmode := hm.mode
  have hs := h.stopped
  have hrm := h.removed
  have had := h.admitted
  have hre := h.resuming
  rw [hctl] at hmode hs hrm had hre
  cases hx with
  | @quiesceSettled r hd =>
    refine h.of_draining rfl hd ?_ ?_
    · cases r <;> simp [Device.quiesceReturn, Ctl.admitted, Ctl.inStart]
    · intro hx
      apply hre
      cases r with
      | shutdown r => cases hx
      | work => rfl
  | quiesceDrain hd =>
    refine h.of_draining rfl rfl ?_ ?_
    · dsimp only [Device.setCap_ctl]
      split <;> simp [Ctl.admitted, Ctl.inStart]
    · intro hx
      apply hre
      dsimp only [Device.setCap_ctl] at hx
      split at hx <;> exact hx
  | @quiesceReturns r =>
    refine h.of_draining rfl (hmode true rfl) ?_ ?_
    · cases r <;> simp [Device.quiesceReturn, Ctl.admitted, Ctl.inStart]
    · intro hx
      apply hre
      cases r with
      | shutdown r => cases hx
      | work => rfl
  | shutdownPublish | shutdownDisable | stopPublish | stopRunning | workShutdown | startNotEnabled =>
    apply h.of_stopComing
    · rfl
    · rfl
    · intro hx
      cases hx
    · rfl
  | stopNoEngine hl =>
    refine h.of_draining rfl (hret hl) ?_ ?_ <;>
    · intro hx
      cases hx
  | startPublish =>
    have hr := had rfl
    refine ⟨?_, ?_, ?_, ?_⟩
    · intro hx
      cases hx
    · intro hx
      rw [show s.ses.removed = true from hx] at hr
      cases hr
    · intro hx
      cases hx
    · intro hx
      cases hx
  | startUndrain =>
    have hr := had rfl
    refine ⟨fun _ => .inr (.inr rfl), ?_, fun _ => hr, ?_⟩
    · intro hx
      rw [show s.ses.removed = true from hx] at hr
      cases hr
    · intro hx
      cases hx
  | workResume hr hq =>
    refine ⟨fun hx => absurd hx (hre rfl), ?_, ?_, ?_⟩
    · intro hx
      rw [show s.ses.removed = true from hx] at hr
      cases hr
    · intro hx
      cases hx
    · intro hx
      cases hx
  | workQuiesce hd =>
    -- the engine runs, so no stop is published
    have hne : s.ses.streamState ≠ .stop := by
      intro hst
      rcases hs hst with hx | hx | hx
      · rw [hd] at hx
        cases hx
      · cases hx
      · cases hx
    refine ⟨fun hx => absurd hx hne, ?_, ?_, fun _ => hne⟩
    · intro hx
      rcases hrm hx with hx | hx
      · exact .inl hx
      · cases hx
    · intro hx
      cases hx
  | startRunning hl hd =>
    have hr : s.ses.removed = false := by
      by_contra hx
      rcases hrm (by simpa using hx) with hx | hx
      · rw [hd] at hx
        cases hx
      · cases hx
    refine ⟨fun _ => .inr (.inr rfl), ?_, fun _ => hr, ?_⟩
    · intro hx
      rw [show s.ses.removed = true from hx] at hr
      cases hr
    · intro hx
      cases hx
  | startRetry hl hr hd | startFresh hl hr hd =>
    refine ⟨fun _ => .inl hd, fun _ => .inl hd, fun _ => hr, ?_⟩
    intro hx
    cases hx
  | stopSettled hd =>
    refine h.of_draining rfl hd ?_ ?_ <;>
    · intro hx
      cases hx
  | startNotConfigured hpc =>
    rcases hpc with rfl | rfl
    all_goals
      refine h.of_draining rfl (hmode true rfl) (fun _ => hctl ▸ rfl) ?_
      intro hx
      cases hx
  | startChunks =>
    refine h.of_draining rfl (hmode true rfl) (fun _ => hctl ▸ rfl) ?_
    intro hx
    dsimp only [Device.setCap_ctl] at hx
    split at hx <;> cases hx
  | @startAllocated eb res =>
    cases res <;> exact h.keep hctl rfl rfl id rfl rfl id rfl
  | @listenNothing r _ hpc | @listenTimeout r | @listenFailed r | @listenSet r =>
    cases r <;> exact h.keep hctl rfl rfl id rfl rfl id rfl
  | @releaseHeld r | @releaseReturns r =>
    refine h.keep hctl rfl rfl id rfl ?_ ?_ ?_ <;> cases r
    any_goals rfl
    all_goals
      intro hx
      first | rfl | cases hx
  | @shutdownReturns r => cases r <;> exact h.keep hctl rfl rfl id rfl rfl id rfl
  | quiesceStop | releaseStop =>
    exact h.keep hctl (by simp) (by simp) (by simp) rfl rfl id rfl
  | @releaseFree r res =>
    obtain ⟨hst, hrm⟩ := s.freeOne_published o res
    exact h.keep hctl hst hrm (by simp) rfl rfl id rfl
  | startRefused | startQuarantined =>
    refine h.keep hctl rfl rfl id rfl rfl ?_ rfl
    intro hx
    cases hx
  | _ => exact h.keep hctl rfl rfl id rfl rfl id rfl

theorem steps {a : Device.Act} (h : Halts s) (hm : Moded s) (hret : s.Retired)
    (hx : Device.Steps s a s') : Halts s' := by
  cases hx with
  | data ha he =>
    have hd := (Engine.data_sameControl (Device.Act.isData ha) he).draining
    refine ⟨?_, ?_, h.admitted, h.resuming⟩
    · exact fun hx => (h.stopped hx).imp_left hd.trans
    · exact fun hx => (h.removed hx).imp_left hd.trans
  | notifyCancel _ he =>
    have hd := (Engine.data_sameControl (a := .callRequestWork .handler) rfl he).draining
    refine ⟨?_, ?_, h.admitted, h.resuming⟩
    · exact fun hx => (h.stopped hx).imp_left hd.trans
    · exact fun hx => (h.removed hx).imp_left hd.trans
  | workMutex hc he =>
    simp only [Engine.region] at he
    split at he <;> cases he
    exact h.keep hc rfl rfl id rfl rfl id rfl
  | ctl hx => exact h.moves hm hret hx
  | lateListen | lateGrant | destroyNone | destroyLeak | destroy | setOneShot =>
    exact ⟨h.stopped, h.removed, h.admitted, h.resuming⟩
  | setState hc hs => exact ⟨fun hx => absurd hx hs.1, h.removed, h.admitted, fun _ => hs.1⟩
  | surpriseRemoval hc =>
    refine ⟨fun _ => .inr (.inl rfl), fun _ => .inr rfl, ?_, ?_⟩ <;>
    · intro hx
      cases hx
  | acquireMutex hc | releaseMutex hc | start hc | ensureListen hc _ =>
    exact h.keep hc rfl rfl id rfl rfl id rfl
  | stop hc =>
    apply h.of_stopComing
    · rfl
    · rfl
    · intro hx
      cases hx
    · rfl

theorem of_reaches {P : Device → Device.Act → Prop} (h : Device.machine.Reaches P s) : Halts s := by
  refine h.invariant (I := Halts) ?_ ?_
  · refine ⟨fun _ => .inl rfl, fun _ => .inl rfl, ?_, ?_⟩ <;>
    · intro hx
      cases hx
  · intro s a s' hr hi _ hs
    exact hi.steps (.of_reaches hr) (.of_reaches hr) (.of_step hs)

end Halts
end Photonic
