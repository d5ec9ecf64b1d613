import Photonic.Engine.Cookies
import Photonic.Engine.Accounting
import Photonic.Device.Cases

namespace Photonic

/-- A step that is not one of the executor's critical sections. -/
def Engine.Act.IsData : Engine.Act → Prop
  | .control _ => False
  | .callPump k => k = .handler
  | .callRequestWork k => k = .handler
  | _ => True

/-- The fields only the holder of `InterfaceMutex` writes. -/
structure Capture.SameControl (c c' : Capture) : Prop where
  draining : c'.draining = c.draining
  listening : c'.listening = c.listening
  resourceHandle : c'.resourceHandle = c.resourceHandle
  chunkEpoch : c'.chunkEpoch = c.chunkEpoch
  frameBytes : c'.frameBytes = c.frameBytes

theorem Capture.SameControl.refl (c : Capture) : c.SameControl c := ⟨rfl, rfl, rfl, rfl, rfl⟩

theorem Engine.Exec.sameControl {e e' : Engine} {pc : Pc} (h : Engine.Exec e pc e') :
    e.cap.SameControl e'.cap := by
  cases h with
  | electLost _ | lapDone _ | workQueued _ | workQueue | workUndone =>
    rw [Engine.ret_cap]
    exact ⟨rfl, rfl, rfl, rfl, rfl⟩
  | _ => exact ⟨rfl, rfl, rfl, rfl, rfl⟩

theorem Engine.data_sameControl {e e' : Engine} {a : Engine.Act} (ha : a.IsData)
    (h : e.step a = some e') : e.cap.SameControl e'.cap := by
  cases a with
  | run pc o =>
    obtain ⟨pool, -, hx⟩ := Engine.run_cases h
    exact hx.sameControl
  | callback d st =>
    obtain ⟨-, hx⟩ := Engine.callback_cases h
    cases hx <;> exact ⟨rfl, rfl, rfl, rfl, rfl⟩
  | callPump k | callRequestWork k | startWork =>
    simp only [Engine.step] at h
    split at h <;> cases h
    exact .refl _
  | control r => cases ha

namespace Device

def Act.data : Act → Option Engine.Act
  | .run pc o => some (.run pc o)
  | .callback d st => some (.callback d st)
  | .startWork => some .startWork
  | .callPump => some (.callPump .handler)
  | _ => none

theorem Act.isData {a : Act} {x : Engine.Act} (h : a.data = some x) : x.IsData := by
  cases a <;> cases h <;> trivial

inductive Steps (s : Device) : Act → Device → Prop
  | data {a : Act} {x : Engine.Act} {e : Engine} (ha : a.data = some x) (h : s.eng.step x = some e) :
      Steps s a { s with eng := e }
  | notifyCancel {e : Engine} (hl : s.life = .alive)
      (h : s.eng.step (.callRequestWork .handler) = some e) :
      Steps s .notifyCancel { s with ses := { s.ses with cancelPending := true }, eng := e }
  | lateListen {h : ℕ} (hm : h ∈ s.bus.lateListens) :
      Steps s (.lateListen h)
        { s with bus := { s.bus with lateListens := s.bus.lateListens.erase h }.listen h }
  | lateGrant {res : Resource} {v : ℕ} (hm : res ∈ s.bus.lateGrants) (hv : v ∉ s.bus.granted res) :
      Steps s (.lateGrant res v) { s with bus := s.bus.grantLate res v }
  | acquireMutex (h : s.ctl = .free) : Steps s .acquireMutex (s.goto .held)
  | workMutex {e : Engine} (h : s.ctl = .free) (he : s.eng.region .takeWorker = some e) :
      Steps s .workMutex { s with eng := e, ctl := .work .enter }
  | start {eb : Bool} (h : s.ctl = .held) : Steps s (.api (.start eb)) (s.goto (.start eb .enter))
  | stop (h : s.ctl = .held) : Steps s (.api .stop) (s.goto (.stop .publish))
  | ensureListen (h : s.ctl = .held) (hl : s.life = .alive) :
      Steps s (.api .ensureListen) (s.goto (.listen .trigger .check))
  | destroyNone (h : s.ctl = .held) (hl : s.life ≠ .alive) : Steps s (.api .destroy) s
  | destroyLeak (h : s.ctl = .held) (hl : s.life = .alive) (hd : s.eng.cap.draining = true)
      (hq : s.eng.cap.hasQuarantinedFrames = true) : Steps s (.api .destroy) { s with life := .leaked }
  | destroy (h : s.ctl = .held) (hl : s.life = .alive) (hd : s.eng.cap.draining = true)
      (hq : s.eng.cap.hasQuarantinedFrames = false) :
      Steps s (.api .destroy) { s.setCap { s.eng.cap with chunkEpoch := s.eng.cap.chunkEpoch + 1 } s.ctl
        with life := .freed }
  | surpriseRemoval (h : s.ctl = .held) :
      Steps s (.api .surpriseRemoval) (s.setSes { s.ses with removed := true } (.stop .publish))
  | setState {st : KsState} (h : s.ctl = .held) (hst : st ≠ .stop ∧ st ≠ .run) :
      Steps s (.api (.setState st)) (s.setSes { s.ses with streamState := st } s.ctl)
  | setOneShot {b : Bool} (h : s.ctl = .held) (hb : s.eng.cap.draining = true ∨ s.ses.oneShot = b) :
      Steps s (.api (.setOneShot b)) (s.setSes { s.ses with oneShot := b } s.ctl)
  | ctl {o : Answer} {s' : Device} (hm : Moves s o s.ctl s') : Steps s (.ctl o) s'
  | releaseMutex (h : s.ctl = .held) : Steps s .releaseMutex (s.goto .free)

theorem data_eq {s s' : Device} {x : Engine.Act} (h : s.data x = some s') :
    ∃ e, s.eng.step x = some e ∧ s' = { s with eng := e } := by
  obtain ⟨e, he, rfl⟩ := Option.map_eq_some_iff.mp h
  exact ⟨e, he, rfl⟩

theorem Steps.of_api {s s' : Device} {a : Api} (hc : s.ctl = .held) (h : s.apiStep a = some s') :
    Steps s (.api a) s' := by
  cases a with
  | start eb =>
    cases h
    exact .start hc
  | stop =>
    cases h
    exact .stop hc
  | ensureListen =>
    simp only [apiStep] at h
    split at h
    · next hl =>
      cases h
      exact .ensureListen hc hl
    · cases h
  | destroy =>
    simp only [apiStep, Device.destroy] at h
    split at h
    · cases h
    · next hs =>
      split at h
      · next hl =>
        cases h
        exact .destroyNone hc hl
      · next hl =>
        have hl := not_not.mp hl
        have hd : s.eng.cap.draining = true := by simpa [hl] using hs
        split at h
        · next hq =>
          cases h
          exact .destroyLeak hc hl hd hq
        · next hq =>
          cases h
          exact .destroy hc hl hd (by simpa using hq)
  | surpriseRemoval =>
    cases h
    exact .surpriseRemoval hc
  | setState st =>
    simp only [apiStep] at h
    split at h
    · cases h
    · next hst =>
      cases h
      exact .setState hc (not_or.mp hst)
  | setOneShot b =>
    simp only [apiStep] at h
    split at h
    · next hb =>
      cases h
      exact .setOneShot hc hb
    · cases h

theorem Steps.of_step {s s' : Device} {a : Act} (h : s.step a = some s') : Steps s a s' := by
  cases a with
  | run pc o | callback d st | startWork =>
    obtain ⟨e, he, rfl⟩ := data_eq h
    exact .data rfl he
  | callPump =>
    simp only [step] at h
    split at h
    · obtain ⟨e, he, rfl⟩ := data_eq h
      exact .data rfl he
    · cases h
  | notifyCancel =>
    simp only [step] at h
    split at h
    · next hl =>
      obtain ⟨e, he, rfl⟩ := data_eq h
      exact .notifyCancel hl he
    · cases h
  | lateListen x =>
    simp only [step] at h
    split at h
    · next hm =>
      cases h
      exact .lateListen hm
    · cases h
  | lateGrant res v =>
    simp only [step] at h
    split at h
    · next hg =>
      cases h
      exact .lateGrant hg.1 hg.2
    · cases h
  | acquireMutex =>
    simp only [step] at h
    split at h
    · next hc =>
      cases h
      exact .acquireMutex hc
    · cases h
  | workMutex =>
    simp only [step] at h
    split at h
    · next hc =>
      obtain ⟨e, he, rfl⟩ := region_eq h
      exact .workMutex hc he
    · cases h
  | api a =>
    simp only [step] at h
    split at h
    · next hc => exact .of_api hc h
    · cases h
  | ctl o => exact .ctl (.of_ctlStep h)
  | releaseMutex =>
    simp only [step] at h
    split at h
    · next hc =>
      cases h
      exact .releaseMutex hc
    · cases h

theorem Moves.engine {s s' : Device} {o : Answer} {c : Ctl} (h : Moves s o c s') :
    s'.eng = s.eng ∨ ∃ x, s.eng.step x = some s'.eng := by
  cases h with
  | quiesceDrain hd => exact .inr ⟨.control .setDraining, rfl⟩
  | quiesceStop | releaseStop =>
    refine .inl ?_
    unfold isochStop
    split <;> rfl
  | quiesceClearListening | releaseClearListening => exact .inr ⟨.control (.setListening false), rfl⟩
  | listenSet => exact .inr ⟨.control (.setListening true), rfl⟩
  | quiesceClaim hf =>
    refine .inr ⟨.control .claimPending, ?_⟩
    simp [Engine.step, Engine.region, Engine.claimPending, hf, claim]
  | quiesceClearEvent => exact .inr ⟨.control .clearDrainDone, rfl⟩
  | quiesceReturns | startClearFirst => exact .inr ⟨.control .clearFirstAttachDone, rfl⟩
  | releaseFree =>
    refine .inl ?_
    simp only [goto, freeOne]
    split <;> rfl
  | @releaseQuarantined r d hs =>
    refine .inr ⟨.control (.releaseQuarantined d), ?_⟩
    simp [Engine.step, Engine.region, hs, Device.releaseQuarantined]
  | releaseReturns | startChunks => exact .inr ⟨.control .freeChunkMdls, rfl⟩
  | startConfigured => exact .inr ⟨.control (.setGeometry o.frameBytes), rfl⟩
  | @startAllocated eb res hs hv =>
    cases res with
    | channel => exact .inl rfl
    | bandwidth => exact .inl rfl
    | handle => exact .inr ⟨.control (.setResourceHandle o.value), rfl⟩
  | startUndrain | workResume => exact .inr ⟨.control .clearDraining, rfl⟩
  | startPump | workPump => exact .inr ⟨.callPump .control, rfl⟩
  | workRequest => exact .inr ⟨.callRequestWork .control, rfl⟩
  | _ => exact .inl rfl

theorem Steps.engine {s s' : Device} {a : Act} (h : Steps s a s') :
    s'.eng = s.eng ∨ ∃ x, s.eng.step x = some s'.eng := by
  cases h with
  | data _ hx => exact .inr ⟨_, hx⟩
  | notifyCancel _ hx => exact .inr ⟨_, hx⟩
  | workMutex _ he => exact .inr ⟨.control .takeWorker, he⟩
  | destroy => exact .inr ⟨.control .freeChunkMdls, rfl⟩
  | ctl hm => exact hm.engine
  | _ => exact .inl rfl

end Device

theorem Device.engine_reachable {P : Device → Device.Act → Prop} {s : Device}
    (h : Device.machine.Reaches P s) : Engine.machine.Reachable s.eng := by
  refine h.project (N := Engine.machine) Device.eng rfl ?_
  intro s a s' hs hr
  rcases (Device.Steps.of_step hs).engine with he | ⟨x, hx⟩
  · exact he ▸ hr
  · exact hr.step (a := x) trivial hx

end Photonic
