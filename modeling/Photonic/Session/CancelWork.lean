import Photonic.Session.Halt
import Photonic.Session.Quarantine

namespace Photonic

/-- The quiesce that a run of the control work item found due has not begun. -/
def Ctl.quiesceComing : Ctl → Bool
  | .work pc =>
    match pc with
    | .test => true
    | _ => false
  | .quiesce r pc =>
    match pc with
    | .enter => r = .work
    | _ => false
  | _ => false

/-- The run of the control work item has not looked at `CancelPending`. -/
def Ctl.beforeExchange : Ctl → Bool
  | .work pc =>
    match pc with
    | .enter | .exchange => true
    | _ => false
  | _ => false

namespace Device
variable {s s' : Device}

/-- `CancelPending` is set: a run of the work item is coming that will see it. -/
def CancelOwed (s : Device) : Prop :=
  s.ses.cancelPending = true → s.life = .alive → s.eng.work.refused = false →
    s.eng.Owed ∨ .requestWork .handler .exchange ∈ s.eng.pool ∨ s.ctl.beforeExchange = true

def CancelDue (s : Device) : Prop :=
  s.ses.cancelPending = true ∨ s.ctl.quiesceComing = true ∨ s.ctl.stopComing = true ∨
    s.eng.cap.draining = true

theorem Moves.pool_subset {o : Answer} {c : Ctl} (hx : Moves s o c s') : s.eng.pool ⊆ s'.eng.pool := by
  cases hx with
  | quiesceStop | releaseStop | releaseFree => simp
  | @startAllocated eb res => cases res <;> exact Multiset.Subset.refl _
  | quiesceClaim | releaseQuarantined | startPump | workPump | workRequest =>
    exact Multiset.subset_cons _ _
  | _ => exact Multiset.Subset.refl _

theorem freeOne_cancelPending (s : Device) (o : Answer) (res : Resource) :
    (s.freeOne o res).ses.cancelPending = s.ses.cancelPending := by
  unfold freeOne
  split
  · cases res <;> rfl
  · rfl

theorem requested_data {e e' : Engine} {x : Engine.Act} (hx : x.IsData) (hs : e.step x = some e')
    (hc : Coalesced e.work e.pool) (hr : e'.work.refused = false)
    (h : e.Owed ∨ .requestWork .handler .exchange ∈ e.pool) :
    e'.Owed ∨ .requestWork .handler .exchange ∈ e'.pool := by
  rcases h with h | h
  · exact .inl (h.data hc hx hs hr)
  · by_cases hrun : ∃ o, x = .run (.requestWork .handler .exchange) o
    · obtain ⟨o, rfl⟩ := hrun
      obtain ⟨pool, hpool, hx⟩ := Engine.run_cases hs
      cases hx with
      | workQueued hf => exact .inl (.inl (by rw [Engine.ret_work, hf]))
      | workTaken => exact .inl (.inl rfl)
    · exact .inr (Engine.mem_step (by simp) (fun o ho => hrun ⟨o, ho⟩) h hs)

theorem CancelOwed.moves {o : Answer} (h : s.CancelOwed) (hm : Moves s o s.ctl s') :
    s'.CancelOwed := by
  intro hp hl hr
  have hwork := hm.work_eq
  have hsub := hm.pool_subset
  rw [hwork] at hr
  -- every other point of the executor leaves the flag, the engine and the request alone
  have keep : s'.ses.cancelPending = s.ses.cancelPending → s'.life = s.life →
      s.ctl.beforeExchange = false → s'.eng.Owed ∨ .requestWork .handler .exchange ∈ s'.eng.pool ∨
        s'.ctl.beforeExchange = true := by
    intro hc hlife hb
    rcases h (hc ▸ hp) (hlife ▸ hl) hr with hx | hx | hx
    · exact .inl (hx.mono hwork hsub)
    · exact .inr (.inl (hsub hx))
    · rw [hb] at hx
      cases hx
  generalize hctl : s.ctl = c at hm keep
  cases hm with
  | workNoEngine hn => exact absurd hl hn
  | workEnter => exact .inr (.inr rfl)
  | workCancel | workNoCancel | startClearCancel => cases hp
  | quiesceStop | releaseStop => exact keep (by simp) (by simp) rfl
  | @releaseFree r res =>
    exact keep (s.freeOne_cancelPending o res) (by simp) rfl
  | @startAllocated eb res => cases res <;> exact keep rfl rfl rfl
  | startNotConfigured hpc => exact keep rfl rfl rfl
  | listenNothing hpc => exact keep rfl rfl rfl
  | _ => exact keep rfl rfl rfl

theorem CancelOwed.steps {a : Act} (h : s.CancelOwed) (hc : Coalesced s.eng.work s.eng.pool)
    (hs : Steps s a s') : s'.CancelOwed := by
  cases hs with
  | data ha he =>
    intro hp hl hr
    have hx := Act.isData ha
    rcases h hp hl (Engine.data_refused hx he hr) with ho | ho | ho
    · exact (requested_data hx he hc hr (.inl ho)).imp_right .inl
    · exact (requested_data hx he hc hr (.inr ho)).imp_right .inl
    · exact .inr (.inr ho)
  | notifyCancel hl he =>
    intro _ _ _
    simp only [Engine.step] at he
    split at he <;> cases he
    exact .inr (.inl (Multiset.mem_cons_self _ _))
  | workMutex hf he => exact fun _ _ _ => .inr (.inr rfl)
  | ctl hm => exact h.moves hm
  | destroyLeak | destroy =>
    intro _ hl _
    cases hl
  | lateListen | lateGrant | destroyNone | setState | setOneShot => exact h
  | acquireMutex hf | start hf | stop hf | ensureListen hf _ | surpriseRemoval hf | releaseMutex hf =>
    intro hp hl hr
    rcases h hp hl hr with ho | ho | ho
    · exact .inl ho
    · exact .inr (.inl ho)
    · rw [hf] at ho
      cases ho

theorem CancelOwed.of_reaches {P : Device → Act → Prop} (h : machine.Reaches P s) : s.CancelOwed := by
  refine h.invariant (I := CancelOwed) ?_ ?_
  · intro hp
    cases hp
  · intro s a s' hr hi _ hs
    exact hi.steps (.of_reachable (engine_reachable hr)) (.of_step hs)

/-- The engine holds nothing that a cancel could reach. -/
structure Bereft (s : Device) : Prop where
  vacant : Vacant s.eng
  noQuarantine : s.eng.cap.hasQuarantinedFrames = false
  noCall : s.ctl.awaits = none

theorem Bereft.heldCount_eq_zero (h : s.Bereft) (hr : machine.Reachable s) (c : Cookie) :
    s.eng.heldCount c = 0 := by
  have he := engine_reachable hr
  have hquar : s.eng.quarantinedCount c = 0 := by
    apply Finset.card_eq_zero.mpr
    apply Finset.filter_eq_empty_iff.mpr
    rintro d - ⟨hd, -⟩
    have := (s.eng.cap.hasQuarantinedFrames_iff).mpr ⟨d, hd⟩
    rw [h.noQuarantine] at this
    cases this
  have hrel : s.eng.releasingCount c = 0 := by
    by_contra hne
    obtain ⟨r, i, hctl⟩ := releasing_of_pos (Called.of_reaches hr) hne
    have := h.noCall
    rw [hctl] at this
    cases this
  have hheld := h.vacant.held he c
  have hall := Engine.heldCount_eq he c
  omega

theorem bereft_of_undrain {cap : Capture} {c : Ctl} (hr : machine.Reaches NoLateClaim s)
    (hd : s.eng.cap.draining = true) (hq : s.ctl.quiescing = false)
    (hn : s.eng.cap.hasQuarantinedFrames = false) (hc : c.awaits = none) (hl : cap.pendingList = s.eng.cap.pendingList)
    (hi : cap.inFlightIrps = s.eng.cap.inFlightIrps) (hf : cap.frames = s.eng.cap.frames) :
    (s.setCap cap c).Bereft := by
  refine ⟨(drained_of_reaches hr hd hq).vacant.keep hl hi id, ?_, hc⟩
  unfold Capture.hasQuarantinedFrames at hn ⊢
  rwa [setCap_eng, hf]

theorem not_quarantined_of_undrain {eb : Bool} (hr : machine.Reaches NoLateClaim s)
    (hc : s.ctl = .start eb .undrain) : s.eng.cap.hasQuarantinedFrames = false := by
  by_contra hn
  obtain ⟨d, hd⟩ := s.eng.cap.hasQuarantinedFrames_iff.mp (by simpa using hn)
  have hheld := ((Quarantine.of_reaches hr).held d hd).1
  rw [hc] at hheld
  cases hheld

theorem CancelDue.moves {o : Answer} (h : s.CancelDue) (hr : machine.Reaches NoLateClaim s)
    (hm : Moves s o s.ctl s') : s'.CancelDue ∨ s'.Bereft := by
  have hmode := (Moded.of_reaches hr).mode
  have hret := Retired.of_reaches hr
  -- every other point of the executor leaves the flag and `Draining` alone
  have keep : s'.ses.cancelPending = s.ses.cancelPending →
      s'.eng.cap.draining = s.eng.cap.draining → s.ctl.quiesceComing = false →
      s.ctl.stopComing = false → s'.CancelDue ∨ s'.Bereft := by
    intro hc hd hq hs
    rcases h with hx | hx | hx | hx
    · exact .inl (.inl (hc.trans hx))
    · rw [hq] at hx
      cases hx
    · rw [hs] at hx
      cases hx
    · exact .inl (.inr (.inr (.inr (hd.trans hx))))
  generalize hctl : s.ctl = c at hm keep hmode
  cases hm with
  | startUndrain =>
    refine .inr (bereft_of_undrain hr (hmode true rfl) ?_ (not_quarantined_of_undrain hr hctl) rfl
      rfl rfl rfl)
    rw [hctl]
    rfl
  | workResume hrm hn =>
    refine .inr (bereft_of_undrain hr (hmode true rfl) ?_ hn rfl rfl rfl rfl)
    rw [hctl]
    rfl
  | workCancel | workQuiesce => exact .inl (.inr (.inl rfl))
  | workNoCancel hn =>
    rcases h with hx | hx | hx | hx
    · rw [hn] at hx
      cases hx
    · rw [hctl] at hx
      cases hx
    · rw [hctl] at hx
      cases hx
    · exact .inl (.inr (.inr (.inr hx)))
  | workSettled hd | quiesceSettled hd | stopSettled hd => exact .inl (.inr (.inr (.inr hd)))
  | quiesceDrain => exact .inl (.inr (.inr (.inr rfl)))
  | startClearCancel => exact .inl (.inr (.inr (.inr (hmode true rfl))))
  | stopNoEngine hl => exact .inl (.inr (.inr (.inr (hret hl))))
  | stopPublish | stopRunning | shutdownPublish | shutdownDisable =>
    exact .inl (.inr (.inr (.inl rfl)))
  | quiesceStop | releaseStop => exact keep (by simp) (by simp) rfl rfl
  | @releaseFree r res =>
    exact keep (s.freeOne_cancelPending o res) (by simp) rfl rfl
  | @startAllocated eb res => cases res <;> exact keep rfl rfl rfl rfl
  | _ => exact keep rfl rfl rfl rfl

theorem CancelDue.steps {a : Act} (h : s.CancelDue) (hr : machine.Reaches NoLateClaim s)
    (hs : Steps s a s') : s'.CancelDue ∨ s'.Bereft := by
  cases hs with
  | data ha he =>
    have hd := (Engine.data_sameControl (Act.isData ha) he).draining
    exact .inl (h.imp_right (.imp_right (.imp_right hd.trans)))
  | notifyCancel hl he => exact .inl (.inl rfl)
  | ctl hm => exact h.moves hr hm
  | lateListen | lateGrant | destroyNone | setState | setOneShot | destroyLeak | destroy => exact .inl h
  | workMutex hf he =>
    simp only [Engine.region] at he
    split at he <;> cases he
    left
    rcases h with hx | hx | hx | hx
    · exact .inl hx
    · rw [hf] at hx
      cases hx
    · rw [hf] at hx
      cases hx
    · exact .inr (.inr (.inr hx))
  | acquireMutex hf | start hf | stop hf | ensureListen hf _ | surpriseRemoval hf | releaseMutex hf =>
    left
    rcases h with hx | hx | hx | hx
    · exact .inl hx
    · rw [hf] at hx
      cases hx
    · rw [hf] at hx
      cases hx
    · exact .inr (.inr (.inr hx))

end Device
end Photonic
