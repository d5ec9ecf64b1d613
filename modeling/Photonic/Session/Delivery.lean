import Photonic.Session.Calls
import Photonic.Session.Mode
import Photonic.Session.Partition

namespace Photonic

namespace Engine

/-- How often the Deliver callback was given a cookie. -/
def deliveredCount (e : Engine) (c : Cookie) : ℕ := (e.delivered.map (·.cookie)).count c

/-- How many descriptors in DetachFailed hold a cookie. -/
def quarantinedCount (e : Engine) (c : Cookie) : ℕ :=
  (Finset.univ.filter fun d => (e.cap.frames d).state = .detachFailed ∧ (e.cap.frames d).cookie = c).card

/-- How many deliveries of a cookie the quarantine's release path is about to make. -/
def releasingCount (e : Engine) (c : Cookie) : ℕ := e.pool.count (.releaseDeliver c)

end Engine

namespace Ctl

/-- The executor is in the quiesce. -/
def inQuiesce : Ctl → Bool
  | .quiesce _ _ => true
  | _ => false

theorem inLoop_of_not_inQuiesce {c : Ctl} (h : c.inQuiesce = false) : c.inLoop = false := by
  cases c with
  | quiesce => cases h
  | _ => rfl

end Ctl

/-- `Draining` is set, no lap runs, no IRP is in flight and the quiesce has returned. -/
structure Device.Settled (s : Device) : Prop where
  draining : s.eng.cap.draining = true
  noLap : s.eng.cap.pumpActive = false
  noIrp : s.eng.cap.inFlightIrps = 0
  returned : s.ctl.inQuiesce = false

theorem Counted.eq_zero {c : Capture} {pool : Multiset Pc} (h : Counted c pool)
    (h0 : c.inFlightIrps = 0) : framesAtBus c.frames = 0 ∧ owing pool = 0 := by
  have h : c.inFlightIrps = (framesAtBus c.frames + owing pool : ℕ) := h
  omega

theorem not_atBus_of_framesAtBus_eq_zero {frames : FrameId → Frame} (h : framesAtBus frames = 0)
    (d : FrameId) : (frames d).state.atBus = false := by
  have := (Finset.sum_eq_zero_iff.mp h) d (Finset.mem_univ d)
  simpa using this

theorem carried_eq_releasing {pool : Multiset Pc} (ho : owing pool = 0) (hr : runners pool = 0)
    (c : Cookie) : carried pool c = pool.count (.releaseDeliver c) := by
  unfold carried Multiset.count
  refine Multiset.countP_congr rfl fun pc hpc => ?_
  have ho := Multiset.countP_eq_zero.mp ho pc hpc
  have hr := Multiset.countP_eq_zero.mp hr pc hpc
  cases pc with
  | pump k pc => cases pc <;> simp_all
  | _ => simp_all [eq_comm]

theorem PlacedAt.not_pending {c : Capture} {pool : Multiset Pc} {d : FrameId} (h : PlacedAt c pool d)
    (hp : c.pendingList = []) : (c.frames d).state ≠ .pending := by
  intro hs
  have := (h.of_pending hs).2.1
  simp [Capture.spot, hp] at this

theorem recorded_eq_quarantined {e : Engine} (hp : Placed e.cap e.pool)
    (hb : framesAtBus e.cap.frames = 0) (hl : e.cap.pendingList = []) (c : Cookie) :
    recorded e.cap.frames c = e.quarantinedCount c := by
  rw [Engine.quarantinedCount, Finset.card_filter]
  refine Finset.sum_congr rfl fun d _ => ?_
  have hbus := not_atBus_of_framesAtBus_eq_zero hb d
  have hpend := (hp d).not_pending hl
  unfold Frame.records
  cases hs : (e.cap.frames d).state <;> simp_all

theorem releasing_of_pos {s : Device} {c : Cookie} (h : Called s.ctl s.eng.pool)
    (hr : s.eng.releasingCount c ≠ 0) : ∃ r i, s.ctl = .release r (.deliver i) := by
  have hm : Pc.releaseDeliver c ∈ s.eng.pool := Multiset.count_ne_zero.mp hr
  have ha := h _ hm .deliver rfl
  generalize s.ctl = ctl at ha
  cases ctl with
  | release r pc =>
    cases pc with
    | deliver i => exact ⟨r, i, rfl⟩
    | _ => cases ha
  | start eb pc | quiesce r pc | work pc => cases pc <;> cases ha
  | _ => cases ha

/-- Over every run, a cookie is delivered at most as often as it was acquired. In a
settled state the two numbers differ by what the quarantine holds and by the one read
its release path is delivering. -/
theorem delivered_exactly_once {s : Device} (hs : Device.machine.Reachable s) :
    (∀ c, s.eng.deliveredCount c ≤ s.eng.acquired.count c) ∧
      (s.Settled → ∀ c, s.eng.acquired.count c =
        s.eng.deliveredCount c + s.eng.quarantinedCount c + s.eng.releasingCount c) ∧
      ∀ c, s.eng.releasingCount c ≠ 0 → ∃ r i, s.ctl = .release r (.deliver i) := by
  have he := Device.engine_reachable hs
  have hbal := Balanced.of_reachable he
  refine ⟨fun c => ?_, fun hset c => ?_, fun c => releasing_of_pos (.of_reaches hs)⟩
  · have := hbal c
    unfold Engine.deliveredCount
    omega
  · obtain ⟨hbus, howe⟩ := (Counted.of_reachable he).eq_zero hset.noIrp
    have hrun : runners s.eng.pool = 0 := by
      have : runners s.eng.pool = _ := Elected.of_reachable he
      rw [this, hset.noLap]
      rfl
    have hpend : s.eng.cap.pendingList = [] :=
      (Moded.of_reaches hs).settled hset.draining (Ctl.inLoop_of_not_inQuiesce hset.returned)
    rw [hbal c, recorded_eq_quarantined (.of_reachable he) hbus hpend, carried_eq_releasing howe hrun]
    rfl

namespace Device

/-- A stop finds the second attach in flight, and its quiesce cancels that read. -/
def stopRun : List Act :=
  frameRun ++ [Act.acquireMutex, .api .stop] ++ List.replicate 10 Act.go ++
    [Act.runs (.attachAtBus 1), .runs (.attachComplete 1 statusSuccess 9), .runs .irpDone,
      .runs .irpDoneTest, .runs .irpDoneSignal] ++ List.replicate 4 Act.go ++
    [Act.runs (.beginDetach .control 1), .runs (.detachAtBus 1)] ++ List.replicate 4 Act.go ++
    [Act.runs (.detachComplete 1 statusSuccess 9 0 statusCancelled),
      .runs (.detachDeliver 9 0 statusCancelled), .runs (.pump .completion .elect),
      .runs (.pump .completion .top), .runs (.pump .completion (.claim 0)),
      .runs (.pump .completion .bottom), .runs .irpDone, .runs .irpDoneTest, .runs .irpDoneSignal] ++
    List.replicate 5 Act.go

end Device

instance (s : Device) : Decidable s.Settled :=
  decidable_of_iff (s.eng.cap.draining = true ∧ s.eng.cap.pumpActive = false ∧
    s.eng.cap.inFlightIrps = 0 ∧ s.ctl.inQuiesce = false)
    ⟨fun ⟨h₁, h₂, h₃, h₄⟩ => ⟨h₁, h₂, h₃, h₄⟩, fun h => ⟨h.1, h.2, h.3, h.4⟩⟩

theorem delivered_exactly_once_stopRun :
    let s := Device.machine.after (fun _ _ => True) Device.stopRun
    s.eng.acquired = [7, 9] ∧ s.Settled ∧ ∀ c, s.eng.acquired.count c =
      s.eng.deliveredCount c + s.eng.quarantinedCount c + s.eng.releasingCount c := by
  have hs : (Device.machine.after (fun _ _ => True) Device.stopRun).Settled := by decide
  refine ⟨by decide, hs, ?_⟩
  exact (delivered_exactly_once (Device.machine.reaches_after _ Device.stopRun)).2.1 hs

end Photonic
