import Photonic.Engine.Callbacks
import Photonic.Session.Quiesce

namespace Photonic

/-- A lap that holds an acquired cookie. -/
def Pc.lapCarries : Pc → Bool
  | .pump _ (.reject _ _ _) | .pump _ (.rejectDeliver _ _) | .pump _ (.publish _ _ _)
  | .pump _ (.handBack _) => true
  | _ => false

theorem Pc.lapCarries_of_lapHolds {pc : Pc} (h : pc.lapHolds = false) : pc.lapCarries = false := by
  cases pc with
  | pump k pc => cases pc <;> first | rfl | cases h
  | _ => rfl

structure Vacant (e : Engine) : Prop where
  nonePending : e.cap.pendingList = []
  noIrp : e.cap.inFlightIrps = 0
  noLap : Pool.Free Pc.lapCarries e.pool

theorem Device.Drained.vacant {s : Device} (h : s.Drained) : Vacant s.eng :=
  ⟨h.nonePending, h.noIrp, fun pc hpc => Pc.lapCarries_of_lapHolds (h.lapsIdle pc hpc)⟩

/-- How often the engine holds a cookie: in its descriptors, and in what runs on it. -/
def Engine.heldCount (e : Engine) (c : Cookie) : ℕ := recorded e.cap.frames c + carried e.pool c

theorem Engine.heldCount_eq {e : Engine} (h : Engine.machine.Reachable e) (c : Cookie) :
    e.acquired.count c = e.deliveredCount c + e.heldCount c := by
  rw [Balanced.of_reachable h c, Engine.heldCount, ← Nat.add_assoc]
  rfl

theorem Engine.quarantinedCount_le_heldCount (e : Engine) (c : Cookie) :
    e.quarantinedCount c ≤ e.heldCount c := by
  rw [Engine.quarantinedCount, Finset.card_filter]
  refine Nat.le_trans (Finset.sum_le_sum fun d _ => ?_) (Nat.le_add_right _ _)
  unfold Frame.records
  split_ifs with hq <;> simp_all

theorem Pc.carries_iff {pc : Pc} (ho : pc.owesDecrement = false) (hl : pc.lapCarries = false)
    (c : Cookie) : pc.carries = some c ↔ .releaseDeliver c = pc := by
  cases pc with
  | pump k pc => cases pc <;> simp_all [Pc.lapCarries]
  | attachFailed | detachDeliver => cases ho
  | releaseDeliver cookie => simp [eq_comm]
  | _ => simp

/-- Without a completion routine and without a lap that holds one, only the release path
carries a cookie. -/
theorem carried_eq_releaseDeliver {pool : Multiset Pc} (ho : owing pool = 0)
    (hl : Pool.Free Pc.lapCarries pool) (c : Cookie) :
    carried pool c = pool.count (.releaseDeliver c) :=
  Multiset.countP_congr rfl fun pc hpc =>
    propext (Pc.carries_iff (Pool.false_of_countP_eq_zero ho hpc) (hl pc hpc) c)

namespace Vacant
variable {e e' : Engine}

theorem held (h : Vacant e) (hr : Engine.machine.Reachable e) (c : Cookie) :
    e.acquired.count c = e.deliveredCount c + e.quarantinedCount c + e.releasingCount c := by
  obtain ⟨hbus, howe⟩ := (Counted.of_reachable hr).eq_zero h.noIrp
  rw [Balanced.of_reachable hr c, recorded_eq_quarantined (.of_reachable hr) hbus h.nonePending,
    carried_eq_releaseDeliver howe h.noLap]
  rfl

theorem exec {pc : Pc} (h : Vacant { e with pool := pc ::ₘ e.pool }) (hc : Counted e.cap (pc ::ₘ e.pool))
    (ha : e'.acquired = e.acquired) (hx : Engine.Exec e pc e') : Vacant e' := by
  obtain ⟨hpend, hirp, hlap⟩ := h
  dsimp only at hpend hirp hlap
  have hzero := (hc.eq_zero hirp).2
  have ht := hlap.tail
  cases hx with
  | acquiredShort | acquired => simp at ha
  | rejected | rejectDelivered | publishDraining | published | handedBack => cases hlap.head
  | irpDoneLast | irpDoneMore => simp at hzero
  | attachFailed => exact ⟨by simp [Capture.recycle, Capture.setFrame, Capture.unlinkPending, hpend],
      hirp, ht.add rfl⟩
  | attachFrameDone => exact ⟨by simp [Capture.takeForDetach, Capture.setFrame, Capture.unlinkPending, hpend],
      hirp, ht.add rfl⟩
  | electLost | lapDone | workQueued | workQueue | workUndone =>
    exact ⟨by rw [Engine.ret_cap]; exact hpend, by rw [Engine.ret_cap]; exact hirp,
      Engine.free_ret ht rfl⟩
  | irpDoneRunning | irpDoneSignal | releaseDeliver => exact ⟨hpend, hirp, ht⟩
  | attachBegun hn => exact ⟨hpend, hirp, (ht.add rfl).add (by cases hn <;> rfl)⟩
  | _ => exact ⟨hpend, hirp, ht.add rfl⟩

theorem callback {d : FrameId} {st : NtStatus} (h : Vacant e) (hp : Placed e.cap e.pool)
    (hx : Engine.Callback e d st e') : Vacant e' := by
  cases hx with
  | recycling hs => exact absurd hs ((hp d).not_pending h.nonePending)
  | deferred => exact ⟨h.nonePending, h.noIrp, h.noLap⟩
  | alreadyTaken => exact ⟨h.nonePending, h.noIrp, h.noLap⟩

theorem data {x : Engine.Act} (h : Vacant e) (hr : Engine.machine.Reachable e) (hx : x.IsData)
    (ha : e'.acquired = e.acquired) (hs : e.step x = some e') : Vacant e' := by
  cases x with
  | run pc o =>
    obtain ⟨pool, hpool, hx⟩ := Engine.run_cases hs
    have hc := Counted.of_reachable hr
    rw [hpool] at hc
    refine exec (e := { e with pool := pool }) ⟨h.nonePending, h.noIrp, ?_⟩ hc ha hx
    have := h.noLap
    rwa [hpool] at this
  | callback d st => exact h.callback (.of_reachable hr) (Engine.callback_cases hs).2
  | callPump k | callRequestWork k | startWork =>
    simp only [Engine.step] at hs
    split at hs <;> cases hs
    exact ⟨h.nonePending, h.noIrp, h.noLap.add rfl⟩
  | control r => cases hx

theorem noQuarantine {x : Engine.Act} (h : Vacant e) (hr : Engine.machine.Reachable e)
    (hx : x.IsData) (hs : e.step x = some e') (hq : e.cap.hasQuarantinedFrames = false) :
    e'.cap.hasQuarantinedFrames = false := by
  have hbus := not_atBus_of_framesAtBus_eq_zero ((Counted.of_reachable hr).eq_zero h.noIrp).1
  by_contra hne
  obtain ⟨d, hd⟩ := (e'.cap.hasQuarantinedFrames_iff).mp (by simpa using hne)
  have hnew : (e.cap.frames d).state ≠ .detachFailed := by
    intro hold
    rw [(e.cap.hasQuarantinedFrames_iff).mpr ⟨d, hold⟩] at hq
    cases hq
  -- every other write of a frame leaves another state
  have other : ∀ d₀ f, f.state ≠ .detachFailed →
      (Function.update e.cap.frames d₀ f d).state ≠ .detachFailed := by
    intro d₀ f hf
    by_cases hdd : d = d₀
    · subst hdd
      rwa [Function.update_self]
    · rwa [Function.update_of_ne hdd]
  cases x with
  | run pc o =>
    obtain ⟨pool, hpool, hx⟩ := Engine.run_cases hs
    have hp := Placed.of_reachable hr
    rw [hpool] at hp
    cases hx with
    | detachFailed =>
      have := hp.atBus (.inr rfl)
      rw [hbus] at this
      cases this
    | attachDraining | attachPublished | attachFailed | attachFrameDone | detachDone | gaveBack
    | rejected | publishDraining | published => exact other _ _ (fun hf => by cases hf) hd
    | @acquired k i d₀ cookie =>
      by_cases hdd : d = d₀
      · subst hdd
        exact hnew (by simpa using hd)
      · exact hnew (by simpa [hdd] using hd)
    | electLost | lapDone | workQueued | workQueue | workUndone =>
      rw [Engine.ret_cap] at hd
      exact hnew hd
    | _ => exact hnew hd
  | callback d₀ st =>
    obtain ⟨-, hx⟩ := Engine.callback_cases hs
    cases hx with
    | recycling | deferred => exact other _ _ (fun hf => by cases hf) hd
    | alreadyTaken => exact hnew hd
  | callPump k | callRequestWork k | startWork =>
    simp only [Engine.step] at hs
    split at hs <;> cases hs
    exact hnew hd
  | control r => cases hx

theorem keep (h : Vacant e) (hl : e'.cap.pendingList = e.cap.pendingList)
    (hi : e'.cap.inFlightIrps = e.cap.inFlightIrps)
    (hp : Pool.Free Pc.lapCarries e.pool → Pool.Free Pc.lapCarries e'.pool) : Vacant e' :=
  ⟨hl.trans h.nonePending, hi.trans h.noIrp, hp h.noLap⟩

theorem moves {s s' : Device} {o : Answer} (h : Vacant s.eng) (hm : Device.Moves s o s.ctl s') :
    Vacant s'.eng := by
  generalize s.ctl = c at hm
  cases hm with
  | quiesceClaim hf =>
    have := List.mem_of_find?_eq_some hf
    rw [h.nonePending] at this
    cases this
  | releaseQuarantined | startPump | workPump | workRequest =>
    exact h.keep rfl rfl fun hp => hp.add rfl
  | quiesceStop | releaseStop | releaseFree => exact h.keep (by simp) (by simp) (by simp)
  | @startAllocated eb res _ _ => cases res <;> exact h.keep rfl rfl id
  | _ => exact h.keep rfl rfl id

theorem steps {s s' : Device} {a : Device.Act} (h : Vacant s.eng)
    (hr : Engine.machine.Reachable s.eng) (ha : s'.eng.acquired = s.eng.acquired)
    (hs : Device.Steps s a s') : Vacant s'.eng := by
  cases hs with
  | data hx he => exact h.data hr (Device.Act.isData hx) ha he
  | notifyCancel _ he => exact h.data hr (x := .callRequestWork .handler) rfl ha he
  | workMutex _ he =>
    simp only [Engine.region] at he
    split at he <;> cases he
    exact h.keep rfl rfl fun hp => hp.mono (Multiset.erase_subset _ _)
  | ctl hm => exact h.moves hm
  | _ => exact h.keep rfl rfl id

end Vacant

/-- A pump, or a read on its way out of the quarantine. -/
def Pc.stirs : Pc → Bool
  | .pump _ _ => true
  | .releaseDeliver _ => true
  | _ => false

theorem Pc.lapHolds_of_stirs {pc : Pc} (h : pc.stirs = false) : pc.lapHolds = false := by
  cases pc with
  | pump => cases h
  | _ => rfl

structure Bare (e : Engine) : Prop where
  vacant : Vacant e
  noQuarantine : e.cap.hasQuarantinedFrames = false
  noStir : Pool.Free Pc.stirs e.pool

namespace Bare
variable {e e' : Engine}

theorem exec {pc : Pc} (h : Bare { e with pool := pc ::ₘ e.pool }) (hp : Placed e.cap (pc ::ₘ e.pool))
    (hc : Counted e.cap (pc ::ₘ e.pool)) (hx : Engine.Exec e pc e') : Bare e' := by
  obtain ⟨⟨hpend, hirp, hlap⟩, hquar, hstir⟩ := h
  dsimp only at hpend hirp hquar hlap hstir
  obtain ⟨hbus, howe⟩ := hc.eq_zero hirp
  have howe := Pool.false_of_countP_eq_zero howe (Multiset.mem_cons_self pc e.pool)
  -- no IRP is in flight, so no descriptor is at the bus and no routine owes a completion
  have hbus := not_atBus_of_framesAtBus_eq_zero hbus
  have hs := hstir.tail
  have hl := hlap.tail
  cases hx with
  | attachAccepted | attachRefused | attachFailed | attachFrameDone | attachDraining
  | attachPublished =>
    have := hp.atBus (.inl rfl)
    rw [hbus] at this
    cases this
  | detachAtBus | beginDetach | detachFailed | detachDone =>
    have := hp.atBus (.inr rfl)
    rw [hbus] at this
    cases this
  | attachFailedDeliver | attachNeedsListen | attachListening | irpDoneLast | irpDoneMore
  | detachDeliver => cases howe
  | irpDoneDraining | workTaken | workGranted | workRefused | workerClear =>
    exact ⟨⟨hpend, hirp, hl.add rfl⟩, hquar, hs.add rfl⟩
  | irpDoneRunning | irpDoneSignal => exact ⟨⟨hpend, hirp, hl⟩, hquar, hs⟩
  | workQueued | workQueue | workUndone =>
    refine ⟨⟨?_, ?_, Engine.free_ret hl rfl⟩, ?_, Engine.free_ret hs rfl⟩ <;> rw [Engine.ret_cap]
    · exact hpend
    · exact hirp
    · exact hquar
  | _ => cases hstir.head

theorem data {x : Engine.Act} (h : Bare e) (hr : Engine.machine.Reachable e) (hx : x.IsData)
    (hn : ∀ k, x ≠ .callPump k) (hs : e.step x = some e') : Bare e' := by
  have hp := Placed.of_reachable hr
  have hc := Counted.of_reachable hr
  cases x with
  | run pc o =>
    obtain ⟨pool, hpool, hx⟩ := Engine.run_cases hs
    have hlap := h.vacant.noLap
    have hstir := h.noStir
    rw [hpool] at hp hc hlap hstir
    exact exec (e := { e with pool := pool })
      ⟨⟨h.vacant.nonePending, h.vacant.noIrp, hlap⟩, h.noQuarantine, hstir⟩ hp hc hx
  | callback d st =>
    obtain ⟨-, hx⟩ := Engine.callback_cases hs
    cases hx with
    | recycling hpend => exact absurd hpend ((hp d).not_pending h.vacant.nonePending)
    | deferred hatt =>
      have := not_atBus_of_framesAtBus_eq_zero (hc.eq_zero h.vacant.noIrp).1 d
      rw [hatt] at this
      cases this
    | alreadyTaken => exact ⟨⟨h.vacant.nonePending, h.vacant.noIrp, h.vacant.noLap⟩, h.noQuarantine,
        h.noStir⟩
  | callPump k => exact absurd rfl (hn k)
  | callRequestWork k | startWork =>
    simp only [Engine.step] at hs
    split at hs <;> cases hs
    exact ⟨⟨h.vacant.nonePending, h.vacant.noIrp, h.vacant.noLap.add rfl⟩, h.noQuarantine,
      h.noStir.add rfl⟩
  | control r => cases hx

theorem quarantinedCount (h : Bare e) (c : Cookie) : e.quarantinedCount c = 0 := by
  rw [Engine.quarantinedCount, Finset.card_eq_zero, Finset.filter_eq_empty_iff]
  rintro d - ⟨hd, -⟩
  have := (e.cap.hasQuarantinedFrames_iff).mpr ⟨d, hd⟩
  rw [h.noQuarantine] at this
  cases this

end Bare

namespace Device

/-- Where the executor waits for none of its calls, an engine at rest calls neither
callback of its front-end. -/
theorem quiet {s : Device} {pc : Pc} (hv : Vacant s.eng) (hl : LapsIdle s.eng.pool)
    (hr : Engine.machine.Reachable s.eng) (hc : Called s.ctl s.eng.pool) (ha : s.ctl.awaits = none)
    (hpc : pc ∈ s.eng.pool) : pc.acquires = false ∧ pc.delivery = none := by
  have howe := Pool.false_of_countP_eq_zero ((Counted.of_reachable hr).eq_zero hv.noIrp).2 hpc
  have hlap := hl pc hpc
  have hcall := hc pc hpc
  rw [ha] at hcall
  cases pc with
  | attachFailed | detachDeliver => cases howe
  | releaseDeliver => cases hcall .deliver rfl
  | pump k pc => cases pc <;> first | exact ⟨rfl, rfl⟩ | cases hlap
  | _ => exact ⟨rfl, rfl⟩

end Device
end Photonic
