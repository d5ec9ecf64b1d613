import Photonic.Session.Mode

namespace Photonic

namespace Ctl

/-- Points where neither `EnableWanted` nor `IsoEnabled` is set: inside a start before its
enable, and behind the shutdown's disable. -/
def enableOff : Ctl → Bool
  | .start _ pc =>
    match pc with
    | .enter | .publish => false
    | _ => true
  | .listen r _ =>
    match r with
    | .start _ => true
    | .work | .trigger => false
  | .release _ _ => true
  | .quiesce r _ =>
    match r with
    | .shutdown _ => true
    | .work => false
  | .shutdown _ pc =>
    match pc with
    | .drainReads => true
    | _ => false
  | _ => false

/-- Points of a cancel's quiesce, where a draining engine may still have them set. -/
def unsettled : Ctl → Bool
  | .quiesce r _ =>
    match r with
    | .work => true
    | .shutdown _ => false
  | .work pc =>
    match pc with
    | .decide => true
    | _ => false
  | .shutdown _ pc =>
    match pc with
    | .drainReads => false
    | _ => true
  | _ => false

end Ctl

/-- Neither the deferred enable nor the enable is on record. -/
def Session.Silent (s : Session) : Prop := s.enableWanted = false ∧ s.isoEnabled = false

/-- The enable is off where it must be, and stays off while the engine is settled. The
deferral is for continuous sessions only. -/
structure Disabled (s : Device) : Prop where
  off : s.ctl.enableOff = true → s.ses.Silent
  drained : s.eng.cap.draining = true → s.ctl.unsettled = false → s.ses.Silent
  continuous : s.ses.enableWanted = true → s.ses.oneShot = false

structure Session.SameEnable (s s' : Session) : Prop where
  wanted : s'.enableWanted = s.enableWanted
  enabled : s'.isoEnabled = s.isoEnabled
  oneShot : s'.oneShot = s.oneShot

theorem Session.SameEnable.refl (s : Session) : s.SameEnable s := ⟨rfl, rfl, rfl⟩

theorem Session.SameEnable.silent {s s' : Session} (h : s.SameEnable s') (hs : s.Silent) : s'.Silent :=
  ⟨h.wanted.trans hs.1, h.enabled.trans hs.2⟩

namespace Device

/-- Points where the enable is off, on record as well as at the camera. -/
def Hushed (s : Device) : Prop :=
  s.ctl.enableOff = true ∨ (s.eng.cap.draining = true ∧ s.ctl.unsettled = false)

theorem Moves.hushed {s s' : Device} {o : Answer} (hm : Moded s) (hx : Moves s o s.ctl s')
    (h : s'.Hushed) : s.Hushed ∨ ∃ r, s.ctl = .shutdown r .disable := by
  have hmode := hm.mode
  unfold Hushed at h ⊢
  generalize s.ctl = c at hx hmode ⊢
  cases hx with
  | shutdownDisable => exact .inr ⟨_, rfl⟩
  | @quiesceDrain r hd =>
    cases r with
    | shutdown r => exact .inl (.inl rfl)
    | work =>
      simp only [setCap_ctl] at h
      split at h <;> rcases h with h | ⟨-, h⟩ <;> cases h
  | startUndrain => exact .inl (.inl rfl)
  | workResume => rcases h with h | ⟨h, -⟩ <;> cases h
  | quiesceStop =>
    simp only [goto_eng, isochStop_eng] at h
    exact .inl h
  | releaseStop | releaseFree | startAllocated => exact .inl (.inl rfl)
  | @quiesceSettled r _ | @quiesceReturns r =>
    cases r with
    | work => rcases h with h | ⟨-, h⟩ <;> cases h
    | shutdown r => exact .inl (.inl rfl)
  | releaseHeld | releaseReturns | shutdownReturns => exact .inl (.inl rfl)
  | stopRetry => exact .inl (.inr ⟨hmode true rfl, rfl⟩)
  | startRetry _ _ hd | startFresh _ _ hd => exact .inl (.inr ⟨hd, rfl⟩)
  | stopRunning | workShutdown | workQuiesce => rcases h with h | ⟨-, h⟩ <;> cases h
  | startQuarantined | startOneShot | startDeferred | startEnabled | startNotEnabled =>
    exact .inl (.inl rfl)
  | @listenNothing r | @listenTimeout r | @listenFailed r | @listenSet r =>
    cases r with
    | start eb => exact .inl (.inl rfl)
    | work | trigger => exact .inl (h.elim nofun fun h => .inr ⟨h.1, rfl⟩)
  | startNotConfigured hpc => rcases hpc with rfl | rfl <;> exact .inl (.inl rfl)
  | startChunks => exact .inl (.inl rfl)
  | workEnter | workCancel | workNoCancel | workPump | workPumped | workEnabled | workNotEnabled
  | workRequest | workGiveUp | workDone | workRequested | workNoEngine =>
    exact .inl (h.elim nofun fun h => .inr ⟨h.1, rfl⟩)
  | stopPublish | stopNoEngine | stopPumpIdle | stopNoRetry | stopReturns | startRefused
  | startRunning | startPublish => exact .inl (h.elim nofun fun h => .inr ⟨h.1, rfl⟩)
  | _ => exact .inl h

end Device

theorem Disabled.silent {s : Device} (h : Disabled s) (hs : s.Hushed) : s.ses.Silent :=
  hs.elim h.off fun h' => h.drained h'.1 h'.2

theorem Disabled.of_hushed {s : Device} (h : s.Hushed → s.ses.Silent)
    (hc : s.ses.enableWanted = true → s.ses.oneShot = false) : Disabled s :=
  ⟨fun ho => h (.inl ho), fun hd hu => h (.inr ⟨hd, hu⟩), hc⟩

theorem Disabled.keep {s s' : Device} (h : Disabled s) (he : s.ses.SameEnable s'.ses)
    (hh : s'.Hushed → s.Hushed) : Disabled s' := by
  refine .of_hushed (fun hs => he.silent (h.silent (hh hs))) fun hw => ?_
  rw [he.wanted] at hw
  rw [he.oneShot]
  exact h.continuous hw

namespace Device
section
variable (s : Device) (o : Answer) (res : Resource) (v : ℕ)

theorem freeOne_sameEnable : s.ses.SameEnable (s.freeOne o res).ses := by
  unfold freeOne
  split
  · cases res <;> exact ⟨rfl, rfl, rfl⟩
  · exact .refl _

theorem record_sameEnable : s.ses.SameEnable (s.record res v).ses := by
  cases res <;> exact ⟨rfl, rfl, rfl⟩

end
end Device

theorem Disabled.moves {s s' : Device} {o : Answer} (h : Disabled s) (hm : Moded s)
    (hx : Device.Moves s o s.ctl s') : Disabled s' := by
  have hback := fun hs : s'.Hushed => hx.hushed hm hs
  have hmode := hm.mode
  have hsilent := h.silent
  have keep : s.ses.SameEnable s'.ses → (∀ r, s.ctl ≠ .shutdown r .disable) → Disabled s' :=
    fun he hne => h.keep he fun hs => (hback hs).resolve_right fun ⟨r, hr⟩ => hne r hr
  unfold Device.Hushed at hsilent
  generalize s.ctl = c at hx hmode hsilent keep
  cases hx with
  | shutdownDisable => exact .of_hushed (fun _ => ⟨rfl, rfl⟩) nofun
  | startDeferred ho =>
    refine .of_hushed (fun hs => ?_) fun _ => ho
    rcases hs with hs | ⟨hd, -⟩
    · cases hs
    · cases (hmode false rfl).symm.trans hd
  | startEnabled ho =>
    refine .of_hushed (fun hs => ?_) fun hw => h.continuous hw
    rcases hs with hs | ⟨hd, -⟩
    · cases hs
    · cases (hmode false rfl).symm.trans hd
  | workEnabled hw hl =>
    refine .of_hushed (fun hs => ?_) nofun
    rcases hs with hs | ⟨hd, -⟩
    · cases hs
    · -- a draining engine outside a cancel's quiesce wants no enable
      cases (hsilent (.inr ⟨hd, rfl⟩)).1.symm.trans hw
  | releaseFree => exact keep (s.freeOne_sameEnable o _) nofun
  | @startAllocated eb res => exact keep (s.record_sameEnable res o.value) nofun
  | quiesceStop | releaseStop => exact keep (by simp [Session.SameEnable.refl]) nofun
  | shutdownPublish | shutdownReturns => exact keep ⟨rfl, rfl, rfl⟩ fun _ h => by cases h
  | _ => exact keep ⟨rfl, rfl, rfl⟩ nofun

theorem Device.Steps.hushed {s s' : Device} {a : Device.Act} (hm : Moded s)
    (hs : Device.Steps s a s') (h : s'.Hushed) :
    s.Hushed ∨ ∃ o r, a = .ctl o ∧ s.ctl = .shutdown r .disable := by
  unfold Device.Hushed at h ⊢
  cases hs with
  | data ha hx =>
    rw [(Engine.data_sameControl (Device.Act.isData ha) hx).draining] at h
    exact .inl h
  | notifyCancel _ hx =>
    rw [(Engine.data_sameControl (a := .callRequestWork .handler) rfl hx).draining] at h
    exact .inl h
  | ctl hx =>
    obtain hh | ⟨r, hr⟩ := hx.hushed hm h
    · exact .inl hh
    · exact .inr ⟨_, r, rfl, hr⟩
  | workMutex hc he =>
    simp only [Engine.region] at he
    split at he <;> cases he
    exact .inl (h.elim (by rintro ⟨⟩) fun h => .inr ⟨h.1, by rw [hc]; rfl⟩)
  | lateListen | lateGrant | destroyNone | destroyLeak | destroy | setState | setOneShot => exact .inl h
  | acquireMutex hc | releaseMutex hc | start hc | stop hc | ensureListen hc | surpriseRemoval hc =>
    exact .inl (h.elim (by rintro ⟨⟩) fun h => .inr ⟨h.1, by rw [hc]; rfl⟩)

theorem Disabled.steps {s s' : Device} {a : Device.Act} (h : Disabled s) (hm : Moded s)
    (hs : Device.Steps s a s') : Disabled s' := by
  have hback := fun hh : s'.Hushed => hs.hushed hm hh
  have keep : s.ses.SameEnable s'.ses → (∀ o, a ≠ .ctl o) → Disabled s' := fun he hne =>
    h.keep he fun hs => (hback hs).resolve_right fun ⟨o, _, ho, _⟩ => hne o ho
  cases hs with
  | ctl hx => exact h.moves hm hx
  | data ha => exact keep (.refl _) fun o ho => by cases ho; cases ha
  | @setOneShot b hc hb =>
    refine .of_hushed (fun hs => ?_) fun hw => ?_
    · exact h.silent ((hback hs).resolve_right fun ⟨o, _, ho, _⟩ => by cases ho)
    · rcases hb with hd | rfl
      · have := (h.drained hd (by rw [hc]; rfl)).1
        cases this.symm.trans hw
      · exact h.continuous hw
  | _ => exact keep ⟨rfl, rfl, rfl⟩ nofun

theorem Disabled.of_reaches {P : Device → Device.Act → Prop} {s : Device}
    (h : Device.machine.Reaches P s) : Disabled s := by
  refine h.invariant (I := Disabled) ⟨fun hc => ?_, fun _ _ => ⟨rfl, rfl⟩, fun hw => ?_⟩ ?_
  · cases hc
  · cases hw
  · intro s a s' hr hi _ hs
    exact hi.steps (.of_reaches hr) (.of_step hs)

end Photonic
