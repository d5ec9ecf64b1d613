import Photonic.Session.Progress

namespace Photonic

/-- The state a quiesce is to leave behind. -/
structure Device.Drained (s : Device) : Prop where
  nonePending : s.eng.cap.pendingList = []
  parked : ∀ d, s.eng.At d .onFreeList ∨ s.eng.At d .quarantined
  noIrp : s.eng.cap.inFlightIrps = 0
  lapsIdle : LapsIdle s.eng.pool

theorem LapsIdle.held_eq_zero {pool : Multiset Pc} (h : LapsIdle pool) (d : FrameId) :
    held pool d .lap = 0 := by
  refine Multiset.countP_eq_zero.mpr fun pc hpc ho => ?_
  have := h pc hpc
  cases pc with
  | pump k pc => cases pc <;> simp_all [Pc.lapHolds]
  | _ => simp at ho

theorem Still.parked {e : Engine} (h : Still e.cap) (hl : LapsIdle e.pool) (hp : Placed e.cap e.pool)
    (hc : Counted e.cap e.pool) (d : FrameId) : e.At d .onFreeList ∨ e.At d .quarantined := by
  have hpend := (hp d).not_pending h.nonePending
  have hb := not_atBus_of_framesAtBus_eq_zero (hc.eq_zero h.noIrp).1 d
  have hd := hp d
  have hlap := hl.held_eq_zero d
  simp only [PlacedAt, Spot.Fits, Capture.spot] at hd
  cases hs : (e.cap.frames d).state with
  | free =>
    simp only [hs] at hd
    exact .inl ⟨hs, by omega, by omega, hlap⟩
  | detachFailed =>
    simp only [hs] at hd
    exact .inr ⟨hs, by omega, by omega, hlap⟩
  | pending => exact absurd hs hpend
  | attaching | completedWhileAttaching | detaching =>
    rw [hs] at hb
    cases hb

theorem Ctl.not_quiescing_of_not_inQuiesce {c : Ctl} (h : c.inQuiesce = false) :
    c.quiescing = false := by
  cases c with
  | quiesce => cases h
  | _ => rfl

namespace Device

theorem drained_of_reaches {s : Device} (h : machine.Reaches NoLateClaim s)
    (hd : s.eng.cap.draining = true) (hq : s.ctl.quiescing = false) : s.Drained := by
  have he := engine_reachable h
  obtain ⟨hstill, hlaps⟩ := (Drains.of_reaches (fun _ _ hp => hp) h).idle hd hq
  exact ⟨hstill.nonePending, hstill.parked hlaps (.of_reachable he) (.of_reachable he), hstill.noIrp,
    hlaps⟩

theorem Steps.mode_of_return {s s' : Device} {a : Act} (h : Steps s a s')
    (hq : s.ctl.inQuiesce = true) (hq' : s'.ctl.inQuiesce = false) : s'.ctl.mode = some true := by
  cases h with
  | data | notifyCancel | lateListen | lateGrant =>
    rw [show s.ctl.inQuiesce = false from hq'] at hq
    cases hq
  | ctl hm =>
    generalize s.ctl = c at hq hm
    cases hm with
    | @quiesceReturns r | @quiesceSettled r _ => cases r <;> rfl
    | quiesceStop | quiesceDrain | quiesceClearListening | quiesceNoneLeft | quiesceClaim
    | quiesceClaimed | quiesceClearEvent | quiesceDrained | quiesceBusy | quiesceWait | quiesceEmpty
    | quiesceAgain | quiescePumpIdle => cases hq'
    | _ => cases hq
  | acquireMutex hc | workMutex hc | start hc | stop hc | ensureListen hc | destroyNone hc
  | destroyLeak hc | destroy hc | surpriseRemoval hc | setState hc | setOneShot hc
  | releaseMutex hc => simp [hc, Ctl.inQuiesce] at hq

theorem Steps.not_quiescing {s s' : Device} {a : Act} (h : Steps s a s')
    (hd : s.eng.cap.draining = true) (hq : s.ctl.quiescing = false) : s'.ctl.quiescing = false := by
  cases h with
  | data | notifyCancel | lateListen | lateGrant | destroyNone | destroyLeak | destroy => exact hq
  | setState | setOneShot => exact hq
  | ctl hm =>
    generalize s.ctl = c at hq hm
    cases hm with
    | quiesceDrain hn =>
      rw [hd] at hn
      cases hn
    | quiesceStop | quiesceClearListening | quiesceNoneLeft | quiesceClaim | quiesceClaimed
    | quiesceClearEvent | quiesceDrained | quiesceBusy | quiesceWait | quiesceEmpty | quiesceAgain
    | quiescePumpIdle => cases hq
    | @quiesceReturns r | @quiesceSettled r _ | @releaseHeld r _ | @releaseReturns r
    | @shutdownReturns r | @listenNothing r _ _ _ | @listenTimeout r _ | @listenFailed r _
    | @listenSet r => cases r <;> rfl
    | startChunks =>
      simp only [setCap_ctl]
      split <;> rfl
    | _ => rfl
  | _ => rfl

/-- In a fair execution in which no frame callback takes the last attached descriptor
after the quiesce's last poll, and the front-end does not call the pump for ever, every
quiesce returns, and the engine it leaves behind stays drained until `Draining` is
cleared. -/
theorem quiesce_drains {x : machine.Execution NoLateClaim} (hf : Fair x) (hp : PumpCallsCease x)
    {n : ℕ} (hq : (x.state n).ctl.inQuiesce = true) :
    ∃ m, n < m ∧ (∀ k, n ≤ k → k < m → (x.state k).ctl.inQuiesce = true) ∧
      (x.state m).ctl.inQuiesce = false ∧ (x.state m).eng.cap.draining = true ∧
      ∀ k, m ≤ k → (∀ j, m ≤ j → j ≤ k → (x.state j).eng.cap.draining = true) →
        (x.state k).Drained := by
  classical
  have hex := quiesce_returns hf hp n
  -- the first moment at which the quiesce has returned
  let m := Nat.find hex
  obtain ⟨hm, hret⟩ : n ≤ m ∧ (x.state m).ctl.inQuiesce = false := Nat.find_spec hex
  have hin : ∀ k, n ≤ k → k < m → (x.state k).ctl.inQuiesce = true := by
    intro k hk hkm
    have := Nat.find_min hex hkm
    simpa [hk] using this
  have hnm : n < m := by
    refine lt_of_le_of_ne hm fun h => ?_
    rw [← h, hq] at hret
    cases hret
  have hdr : (x.state m).eng.cap.draining = true := by
    refine (Moded.of_reaches (x.reaches m)).mode true ?_
    obtain ⟨k, hk⟩ : ∃ k, m = k + 1 := ⟨m - 1, by omega⟩
    have hqk := hin k (by omega) (by omega)
    rw [hk] at hret ⊢
    cases ha : x.act k with
    | none =>
      rw [x.idle k ha, hqk] at hret
      cases hret
    | some a => exact (steps_of_act ha).mode_of_return hqk hret
  refine ⟨m, hnm, hin, hret, hdr, fun k hk hd => ?_⟩
  refine drained_of_reaches (x.reaches k) (hd k hk le_rfl) ?_
  -- no quiesce begins while `Draining` stays set
  induction k, hk using Nat.le_induction with
  | base => exact Ctl.not_quiescing_of_not_inQuiesce hret
  | succ k hk ih =>
    have ih := ih fun j hj hjk => hd j hj (hjk.trans (Nat.le_succ k))
    cases ha : x.act k with
    | none => rwa [x.idle k ha]
    | some a => exact (steps_of_act ha).not_quiescing (hd k hk (Nat.le_succ k)) ih

/-- After finitely many steps that leave nothing to do, nothing is owed a turn. -/
theorem fair_ofRun {P : Device → Act → Prop} [∀ s a, Decidable (P s a)] {as : List Act} {s : Device}
    (hr : machine.run P machine.init as = some s) (hpool : s.eng.pool = 0) (hctl : s.ctl = .free) :
    Fair (.ofRun as hr : machine.Execution P) where
  pool pc _ n hen := by
    have hm := hen (n + as.length) (by omega)
    rw [show (Machine.Execution.ofRun as hr).state _ = s from
      Machine.trace_end hr (by omega), hpool] at hm
    exact absurd hm (Multiset.notMem_zero pc)
  ctl n hen := by
    obtain ⟨o, ho⟩ := hen (n + as.length) (by omega)
    rw [show (Machine.Execution.ofRun as hr).state _ = s from Machine.trace_end hr (by omega)] at ho
    simp [ctlStep, hctl] at ho

theorem pumpCallsCease_ofRun {P : Device → Act → Prop} [∀ s a, Decidable (P s a)] {as : List Act}
    {s : Device} (hr : machine.run P machine.init as = some s) :
    PumpCallsCease (.ofRun as hr : machine.Execution P) := by
  intro n _
  refine ⟨n + as.length, by omega, fun m hm => ?_⟩
  rw [show (Machine.Execution.ofRun as hr).act m = as[m]? from rfl,
    List.getElem?_eq_none_iff.mpr (by omega)]
  nofun

def stoppedRun : List Act := stopRun ++ List.replicate 12 Act.go ++ [Act.releaseMutex]

theorem stoppedRun_run : machine.run NoLateClaim machine.init stoppedRun =
    some (machine.after NoLateClaim stoppedRun) :=
  Machine.run_eq_after (by decide)

theorem quiesce_drains_stoppedRun :
    ∃ m, 62 < m ∧
      ((.ofRun stoppedRun stoppedRun_run : machine.Execution NoLateClaim).state m).Drained := by
  have hf := fair_ofRun stoppedRun_run (by decide) (by decide)
  obtain ⟨m, hm, -, -, hd, hk⟩ := quiesce_drains (n := 62) hf (pumpCallsCease_ofRun _)
    (by decide +kernel)
  exact ⟨m, hm, hk m le_rfl fun j h₁ h₂ => le_antisymm h₂ h₁ ▸ hd⟩

end Device

/-- The executor's next step is the request `REQUEST_ISOCH_STOP`. -/
def Ctl.stopping : Ctl → Bool
  | .quiesce _ .isochStop => true
  | .release _ .isochStop => true
  | _ => false

namespace Device

/-- The bus driver raises frame callbacks for listening contexts only, and performs
every stop that reaches it. -/
def HeedsStop (s : Device) : Act → Prop
  | .callback d _ => (s.eng.bus d).handle ∈ s.bus.listening
  | .ctl o => s.ctl.stopping = true → o.irb.submitted = true → o.irb.succeeded = true
  | _ => True

instance (s : Device) (a : Act) : Decidable (s.HeedsStop a) :=
  match a with
  | .callback d _ => inferInstanceAs (Decidable ((s.eng.bus d).handle ∈ s.bus.listening))
  | .ctl _ => inferInstanceAs (Decidable (_ = true → _ = true → _ = true))
  | .run _ _ | .startWork | .callPump | .notifyCancel | .lateListen _ | .lateGrant _ _ | .acquireMutex
  | .workMutex | .api _ | .releaseMutex => .isTrue trivial

/-- The stop request finds no memory, the attach completes during the drain wait, and its
frame completes between the poll and the look at the pending list. -/
def lateClaimRun : List Act :=
  frameRun ++ [Act.acquireMutex, .api .stop] ++ List.replicate 5 Act.go ++ [Act.goWith .noMemory] ++
    List.replicate 4 Act.go ++
    [Act.runs (.attachAtBus 1), .runs (.attachComplete 1 statusSuccess 9), .runs .irpDone,
      .runs .irpDoneTest, .runs .irpDoneSignal, .go, .go, .callback 1 statusSuccess] ++
    List.replicate 3 Act.go

/-- The quiesce has returned, and one descriptor is still being detached. -/
theorem quiesce_leaves_irp : ¬∀ s, machine.Reaches HeedsStop s → s.eng.cap.draining = true →
    s.ctl.inQuiesce = false → s.Drained := by
  intro h
  have hno : (machine.after HeedsStop lateClaimRun).eng.cap.inFlightIrps ≠ 0 := by decide
  exact hno (h _ (machine.reaches_after HeedsStop lateClaimRun) (by decide) (by decide)).noIrp

end Device
end Photonic
